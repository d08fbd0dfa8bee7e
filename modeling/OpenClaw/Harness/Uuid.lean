import Mathlib.Data.List.Basic
import OpenClaw.Lib.JsString
import OpenClaw.Lib.Json

/-!
# `packages/agent-core/src/harness/session/uuid.ts`

The generator keeps the last timestamp and a sequence number. `lastTimestamp = -Infinity` is `none`.

**Theorem (`uuid_text_inj`).** The text of a uuid determines the timestamp and the sequence number
it was made from, while timestamps fit their 48 bits. Each uuid is made from a later pair than all
before (`UuidState.next_key`), so a generator never repeats one (`uuidv7_new`), also when the random
bytes repeat. The first eight digits only tell the window of 65536 milliseconds (`slice_uuid_inj`).
-/

namespace OpenClaw.Harness

/-- What one call reads from outside: the clock and the random bytes. -/
structure UuidInput where
  now : Nat
  random : Fin 16 → UInt8

/-- The module's variables. -/
structure UuidState where
  lastTimestamp : Option Nat := none
  sequence : Nat := 0
  deriving DecidableEq, Repr

def UuidInput.byte (input : UuidInput) (i : Fin 16) : Nat := (input.random i).toNat

/-- The update of `lastTimestamp` and `sequence`. -/
def UuidState.next (state : UuidState) (input : UuidInput) : Nat × Nat :=
  match state.lastTimestamp with
  | none => (input.now, input.byte 6 * 0x1000000 + input.byte 7 * 0x10000 + input.byte 8 * 0x100 +
      input.byte 9)
  | some last =>
    if last < input.now then
      (input.now, input.byte 6 * 0x1000000 + input.byte 7 * 0x10000 + input.byte 8 * 0x100 +
        input.byte 9)
    else
      let sequence := (state.sequence + 1) % 2 ^ 32
      (if sequence = 0 then last + 1 else last, sequence)

/-- The bytes of a uuid made at a timestamp with a sequence number. -/
def uuidBytes (timestamp sequence : Nat) (input : UuidInput) : List Nat :=
  [timestamp / 0x10000000000 % 256, timestamp / 0x100000000 % 256, timestamp / 0x1000000 % 256,
    timestamp / 0x10000 % 256, timestamp / 0x100 % 256, timestamp % 256,
    0x70 ||| (sequence >>> 28 &&& 0x0f), sequence >>> 20 &&& 0xff,
    0x80 ||| (sequence >>> 14 &&& 0x3f), sequence >>> 6 &&& 0xff,
    (sequence &&& 0x3f) <<< 2 ||| (input.byte 10 &&& 0x03), input.byte 11, input.byte 12,
    input.byte 13, input.byte 14, input.byte 15]

/-- `byte.toString(16).padStart(2, "0")`. -/
def hexByte (byte : Nat) : List Char := [Json.hexDigit (byte / 16), Json.hexDigit (byte % 16)]

def formatUuid (bytes : List Nat) : String :=
  .ofList ((bytes.take 4).flatMap hexByte ++ '-' :: ((bytes.drop 4).take 2).flatMap hexByte ++
    '-' :: ((bytes.drop 6).take 2).flatMap hexByte ++
    '-' :: ((bytes.drop 8).take 2).flatMap hexByte ++ '-' :: (bytes.drop 10).flatMap hexByte)

def uuidv7 (state : UuidState) (input : UuidInput) : String × UuidState :=
  let (timestamp, sequence) := state.next input
  (formatUuid (uuidBytes timestamp sequence input), ⟨some timestamp, sequence⟩)

/-! ## The text determines the bytes -/

theorem hexDigit_inj : ∀ m < 16, ∀ n < 16, Json.hexDigit m = Json.hexDigit n → m = n := by
  decide

theorem hexDigit_ne_dash : ∀ n < 16, Json.hexDigit n ≠ '-' := by
  decide

theorem hexByte_inj {m n : Nat} (hm : m < 256) (hn : n < 256) (h : hexByte m = hexByte n) :
    m = n := by
  rw [hexByte, hexByte, List.cons.injEq, List.cons.injEq] at h
  have hhigh := hexDigit_inj (m / 16) (by omega) (n / 16) (by omega) h.1
  have hlow := hexDigit_inj (m % 16) (by omega) (n % 16) (by omega) h.2.1
  omega

variable {bs : List Nat}

theorem flatMap_hexByte_inj {cs : List Nat} (hb : ∀ b ∈ bs, b < 256) (hc : ∀ c ∈ cs, c < 256)
    (hlen : bs.length = cs.length) (h : bs.flatMap hexByte = cs.flatMap hexByte) : bs = cs := by
  induction bs generalizing cs with
  | nil => exact (List.length_eq_zero_iff.mp hlen.symm).symm
  | cons b bs ih =>
    cases cs with
    | nil => cases hlen
    | cons c cs =>
      obtain ⟨hhead, htail⟩ := List.append_inj h rfl
      rw [hexByte_inj (hb b List.mem_cons_self) (hc c List.mem_cons_self) hhead,
        ih (fun x hx => hb x (List.mem_cons_of_mem b hx))
          (fun x hx => hc x (List.mem_cons_of_mem c hx)) (Nat.succ.inj hlen) htail]

theorem flatMap_hexByte_no_dash (hb : ∀ b ∈ bs, b < 256) :
    (bs.flatMap hexByte).filter (fun c => c ≠ '-') = bs.flatMap hexByte := by
  rw [List.filter_eq_self]
  intro c hc
  obtain ⟨b, hmem, hcb⟩ := List.mem_flatMap.mp hc
  have hlt := hb b hmem
  rw [hexByte, List.mem_cons, List.mem_singleton] at hcb
  rcases hcb with rfl | rfl
  · exact decide_eq_true (hexDigit_ne_dash _ (by omega))
  · exact decide_eq_true (hexDigit_ne_dash _ (by omega))

theorem formatUuid_undashed (hb : ∀ b ∈ bs, b < 256) :
    (formatUuid bs).toList.filter (fun c => c ≠ '-') = bs.flatMap hexByte := by
  have hsub : ∀ n k, ∀ b ∈ (bs.drop n).take k, b < 256 := fun n k b hmem =>
    hb b (List.mem_of_mem_drop (List.mem_of_mem_take hmem))
  have htake : ∀ b ∈ bs.take 4, b < 256 := fun b hmem => hb b (List.mem_of_mem_take hmem)
  have hdrop : ∀ b ∈ bs.drop 10, b < 256 := fun b hmem => hb b (List.mem_of_mem_drop hmem)
  have hdash : ∀ l : List Char, ('-' :: l).filter (fun c => c ≠ '-') =
      l.filter (fun c => c ≠ '-') := fun _ => rfl
  rw [formatUuid, String.toList_ofList]
  simp only [List.filter_append, hdash, flatMap_hexByte_no_dash htake,
    flatMap_hexByte_no_dash (hsub _ _), flatMap_hexByte_no_dash hdrop]
  rw [← List.flatMap_append, ← List.flatMap_append, ← List.flatMap_append, ← List.flatMap_append]
  have hjoin : bs.take 4 ++ (bs.drop 4).take 2 ++ (bs.drop 6).take 2 ++ (bs.drop 8).take 2 ++
      bs.drop 10 = bs := by
    have h₁ := List.take_append_drop 2 (bs.drop 4)
    have h₂ := List.take_append_drop 2 (bs.drop 6)
    have h₃ := List.take_append_drop 2 (bs.drop 8)
    rw [List.drop_drop] at h₁ h₂ h₃
    simp only [List.append_assoc]
    rw [h₃, h₂, h₁, List.take_append_drop]
  rw [hjoin]

/-! ## The bytes determine the timestamp and the sequence number -/

theorem version_bits : ∀ x < 16, 0x70 ||| x = 0x70 + x := by decide

theorem variant_bits : ∀ x < 64, 0x80 ||| x = 0x80 + x := by decide

theorem low_bits : ∀ x < 64, ∀ y < 4, x <<< 2 ||| y = 4 * x + y := by decide +kernel

theorem uuidBytes_eq (timestamp sequence : Nat) (input : UuidInput) :
    uuidBytes timestamp sequence input =
      [timestamp / 0x10000000000 % 256, timestamp / 0x100000000 % 256,
        timestamp / 0x1000000 % 256, timestamp / 0x10000 % 256, timestamp / 0x100 % 256,
        timestamp % 256, 0x70 + sequence / 2 ^ 28 % 16, sequence / 2 ^ 20 % 256,
        0x80 + sequence / 2 ^ 14 % 64, sequence / 2 ^ 6 % 256,
        4 * (sequence % 64) + input.byte 10 % 4, input.byte 11, input.byte 12,
        input.byte 13, input.byte 14, input.byte 15] := by
  have hand : ∀ n k, n &&& (2 ^ k - 1) = n % 2 ^ k := Nat.and_two_pow_sub_one_eq_mod
  have h4 : ∀ n, n &&& 0x0f = n % 16 := fun n => hand n 4
  have h6 : ∀ n, n &&& 0x3f = n % 64 := fun n => hand n 6
  have h8 : ∀ n, n &&& 0xff = n % 256 := fun n => hand n 8
  have h2 : ∀ n, n &&& 0x03 = n % 4 := fun n => hand n 2
  rw [uuidBytes, h4, h6, h6, h8, h8, h2, version_bits _ (Nat.mod_lt _ (by decide)),
    variant_bits _ (Nat.mod_lt _ (by decide)),
    low_bits _ (Nat.mod_lt _ (by decide)) _ (Nat.mod_lt _ (by decide))]
  simp only [Nat.shiftRight_eq_div_pow]

theorem UuidInput.byte_lt (input : UuidInput) (i : Fin 16) : input.byte i < 256 :=
  (input.random i).toNat_lt

theorem uuidBytes_lt (timestamp sequence : Nat) (input : UuidInput) :
    ∀ b ∈ uuidBytes timestamp sequence input, b < 256 := by
  have hbyte := input.byte_lt
  rw [uuidBytes_eq]
  simp only [List.forall_mem_cons, List.not_mem_nil, false_implies, implies_true, and_true, hbyte]
  omega

variable {t₁ t₂ : Nat}

/-- **The text of a uuid determines its timestamp and sequence number.** -/
theorem uuid_text_inj {s₁ s₂ : Nat} {i₁ i₂ : UuidInput} (ht₁ : t₁ < 2 ^ 48) (ht₂ : t₂ < 2 ^ 48)
    (hs₁ : s₁ < 2 ^ 32) (hs₂ : s₂ < 2 ^ 32)
    (h : formatUuid (uuidBytes t₁ s₁ i₁) = formatUuid (uuidBytes t₂ s₂ i₂)) :
    t₁ = t₂ ∧ s₁ = s₂ := by
  have hundashed := congrArg (fun text => text.toList.filter fun c => c ≠ '-') h
  simp only [formatUuid_undashed (uuidBytes_lt _ _ _)] at hundashed
  have hbytes : uuidBytes t₁ s₁ i₁ = uuidBytes t₂ s₂ i₂ :=
    flatMap_hexByte_inj (uuidBytes_lt _ _ _) (uuidBytes_lt _ _ _) (by rfl) hundashed
  rw [uuidBytes_eq, uuidBytes_eq] at hbytes
  simp only [List.cons.injEq] at hbytes
  omega

theorem length_flatMap_hexByte (bs : List Nat) : (bs.flatMap hexByte).length = 2 * bs.length := by
  induction bs with
  | nil => rfl
  | cons b bs ih =>
    rw [List.flatMap_cons, List.length_append, ih, List.length_cons]
    show 2 + 2 * bs.length = 2 * (bs.length + 1)
    omega

theorem formatUuid_length (h : bs.length = 16) : (formatUuid bs).toList.length = 36 := by
  rw [formatUuid, String.toList_ofList]
  simp only [List.length_append, List.length_cons, length_flatMap_hexByte, List.length_take,
    List.length_drop, h]
  decide

theorem hexDigit_bmp : ∀ n < 16, (Json.hexDigit n).toNat ≤ 0xFFFF := by decide

theorem flatMap_hexByte_bmp (hb : ∀ b ∈ bs, b < 256) :
    ∀ c ∈ bs.flatMap hexByte, c.toNat ≤ 0xFFFF := by
  intro c hc
  obtain ⟨b, hmem, hcb⟩ := List.mem_flatMap.mp hc
  have hlt := hb b hmem
  rw [hexByte, List.mem_cons, List.mem_singleton] at hcb
  rcases hcb with rfl | rfl
  · exact hexDigit_bmp _ (by omega)
  · exact hexDigit_bmp _ (by omega)

theorem slice_uuid (timestamp sequence : Nat) (input : UuidInput) :
    JsString.slice (formatUuid (uuidBytes timestamp sequence input)) 8 =
      .ofList ([timestamp / 0x10000000000 % 256, timestamp / 0x100000000 % 256,
        timestamp / 0x1000000 % 256, timestamp / 0x10000 % 256].flatMap hexByte) := by
  have hbmp : ∀ c ∈ ((uuidBytes timestamp sequence input).take 4).flatMap hexByte,
      c.toNat ≤ 0xFFFF := flatMap_hexByte_bmp fun b hmem =>
    uuidBytes_lt timestamp sequence input b (List.mem_of_mem_take hmem)
  have hslice := JsString.slice_append hbmp ('-' ::
    (((uuidBytes timestamp sequence input).drop 4).take 2).flatMap hexByte ++
    '-' :: (((uuidBytes timestamp sequence input).drop 6).take 2).flatMap hexByte ++
    '-' :: (((uuidBytes timestamp sequence input).drop 8).take 2).flatMap hexByte ++
    '-' :: ((uuidBytes timestamp sequence input).drop 10).flatMap hexByte)
  have hlen : (((uuidBytes timestamp sequence input).take 4).flatMap hexByte).length = 8 := by
    rfl
  rw [hlen] at hslice
  have htake : (uuidBytes timestamp sequence input).take 4 =
      [timestamp / 0x10000000000 % 256, timestamp / 0x100000000 % 256,
        timestamp / 0x1000000 % 256, timestamp / 0x10000 % 256] := rfl
  rw [formatUuid, List.append_assoc, List.append_assoc, List.append_assoc, ← htake]
  simpa only [List.append_assoc, List.cons_append] using hslice

/-- **The first eight digits** are those of a window of 65536 milliseconds. -/
theorem slice_uuid_inj (s₁ s₂ : Nat) (i₁ i₂ : UuidInput) (ht₁ : t₁ < 2 ^ 48) (ht₂ : t₂ < 2 ^ 48) :
    JsString.slice (formatUuid (uuidBytes t₁ s₁ i₁)) 8 =
      JsString.slice (formatUuid (uuidBytes t₂ s₂ i₂)) 8 ↔ t₁ / 2 ^ 16 = t₂ / 2 ^ 16 := by
  rw [slice_uuid, slice_uuid]
  constructor
  · intro h
    have hlt : ∀ t : Nat, ∀ b ∈ [t / 0x10000000000 % 256, t / 0x100000000 % 256,
        t / 0x1000000 % 256, t / 0x10000 % 256], b < 256 := by
      intro t
      simp only [List.forall_mem_cons, List.not_mem_nil, false_implies, implies_true, and_true]
      omega
    have hbytes := flatMap_hexByte_inj (hlt t₁) (hlt t₂) rfl (String.ofList_injective h)
    simp only [List.cons.injEq, and_true] at hbytes
    omega
  · intro h
    have h₁ : t₁ / 0x10000 = t₂ / 0x10000 := h
    have h₂ : t₁ / 0x1000000 = t₂ / 0x1000000 := by omega
    have h₃ : t₁ / 0x100000000 = t₂ / 0x100000000 := by omega
    have h₄ : t₁ / 0x10000000000 = t₂ / 0x10000000000 := by omega
    rw [h₁, h₂, h₃, h₄]

/-! ## The generator moves forward -/

/-- What a generator in this state last made a uuid from, as one number. -/
def UuidState.key (state : UuidState) : Nat :=
  match state.lastTimestamp with
  | none => 0
  | some last => last * 2 ^ 32 + state.sequence + 1

theorem UuidState.next_sequence_lt (state : UuidState) (input : UuidInput) :
    (state.next input).2 < 2 ^ 32 := by
  have h6 := input.byte_lt 6
  have h7 := input.byte_lt 7
  have h8 := input.byte_lt 8
  have h9 := input.byte_lt 9
  rw [UuidState.next]
  split
  · show input.byte 6 * 0x1000000 + input.byte 7 * 0x10000 + input.byte 8 * 0x100 +
      input.byte 9 < 2 ^ 32
    omega
  · split
    · show input.byte 6 * 0x1000000 + input.byte 7 * 0x10000 + input.byte 8 * 0x100 +
        input.byte 9 < 2 ^ 32
      omega
    · exact Nat.mod_lt _ (by decide)

/-- A state that the generator can be in: its sequence number has 32 bits. -/
def UuidState.Valid (state : UuidState) : Prop := state.sequence < 2 ^ 32

theorem uuidv7_valid (state : UuidState) (input : UuidInput) : (uuidv7 state input).2.Valid :=
  state.next_sequence_lt input

variable {state : UuidState}

theorem UuidState.next_key (hvalid : state.Valid) (input : UuidInput) :
    state.key < (uuidv7 state input).2.key := by
  show state.key < (state.next input).1 * 2 ^ 32 + (state.next input).2 + 1
  rw [UuidState.key, UuidState.next]
  split
  · omega
  · rename_i last hlast
    rw [UuidState.Valid] at hvalid
    split
    · dsimp only
      omega
    · dsimp only
      split <;> omega

/-- The last timestamp fits the 48 bits of a uuid. -/
def UuidState.InRange (state : UuidState) : Prop :=
  ∀ last, state.lastTimestamp = some last → last < 2 ^ 48

/-- The id is a whole uuid that a generator in this state has made before. -/
def UuidState.Issued (state : UuidState) (id : String) : Prop :=
  ∃ timestamp sequence input, timestamp < 2 ^ 48 ∧ sequence < 2 ^ 32 ∧
    timestamp * 2 ^ 32 + sequence + 1 ≤ state.key ∧
    id = formatUuid (uuidBytes timestamp sequence input)

variable {id : String}

theorem UuidState.Issued.mono {state' : UuidState} (h : state.Issued id)
    (hkey : state.key ≤ state'.key) : state'.Issued id := by
  obtain ⟨timestamp, sequence, input, ht, hs, hle, hid⟩ := h
  exact ⟨timestamp, sequence, input, ht, hs, hle.trans hkey, hid⟩

theorem UuidState.Issued.length (h : state.Issued id) : id.toList.length = 36 := by
  obtain ⟨timestamp, sequence, input, -, -, -, rfl⟩ := h
  exact formatUuid_length (by rfl)

variable {input : UuidInput}

theorem uuidv7_issued (hrange : (uuidv7 state input).2.InRange) :
    (uuidv7 state input).2.Issued (uuidv7 state input).1 :=
  ⟨(state.next input).1, (state.next input).2, input, hrange _ rfl, state.next_sequence_lt input,
    Nat.le_refl _, rfl⟩

/-- **A new uuid is new.** -/
theorem uuidv7_new (hvalid : state.Valid) (hrange : (uuidv7 state input).2.InRange) :
    ¬ state.Issued (uuidv7 state input).1 := by
  rintro ⟨timestamp, sequence, input', ht, hs, hle, hid⟩
  obtain ⟨heq₁, heq₂⟩ := uuid_text_inj (hrange (state.next input).1 rfl) ht
    (state.next_sequence_lt input) hs hid
  have hkey := UuidState.next_key hvalid input
  have hnew : (uuidv7 state input).2.key =
      (state.next input).1 * 2 ^ 32 + (state.next input).2 + 1 := rfl
  omega

end OpenClaw.Harness
