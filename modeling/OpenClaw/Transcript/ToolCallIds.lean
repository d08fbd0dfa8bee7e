import Mathlib.Data.List.Basic
import Mathlib.Data.List.TakeWhile

/-!
# `agents/tool-call-id.ts`: ids of tool calls

What an id has to be, and how an unused one is made of a seed. An id is the list of its characters.
`shortHash` is `sha256HexPrefix`; `now` is `Date.now()`.

**Main results.** An id that is made is not in use (`makeUniqueToolId_unused`), and is valid unless
it is a native Kimi id that is too long or in use. A valid id that is not in use is taken as it is
(`makeUniqueToolId_self`).
-/

namespace OpenClaw.Transcript

/-- A string: its characters. -/
abbrev Id := List Char

inductive ToolCallIdMode
  | strict | strict9
  deriving DecidableEq

def strict9Len : Nat := 9

/-! ## Native and valid ids -/

/-- `/[A-Za-z0-9_-]/`. -/
def isKimiNameChar (c : Char) : Bool := c.isAlphanum || c = '_' || c = '-'

/-- `/^functions\.[A-Za-z0-9_-]+:\d+$/`. -/
def isNativeKimiToolCallId (id : Id) : Bool :=
  let rest := id.drop "functions.".toList.length
  "functions.".toList.isPrefixOf id && rest.takeWhile isKimiNameChar ≠ [] &&
    match rest.dropWhile isKimiNameChar with
    | ':' :: c :: digits => (c :: digits).all Char.isDigit
    | _ => false

def isValidCloudCodeAssistToolId (id : Id) : ToolCallIdMode → Bool
  | .strict9 => id.length = strict9Len && id.all Char.isAlphanum
  | .strict => (id ≠ [] && id.all Char.isAlphanum) || isNativeKimiToolCallId id

section

variable (shortHash : Id → Nat → Id)

/-- `id.replace(/[^a-zA-Z0-9]/g, "")`. -/
def alphanumericOnly (id : Id) : Id := id.filter Char.isAlphanum

def sanitizeToolCallId (id : Id) : ToolCallIdMode → Id
  | .strict9 =>
    if id = [] then "defaultid".toList
    else if strict9Len ≤ (alphanumericOnly id).length then (alphanumericOnly id).take strict9Len
    else if alphanumericOnly id ≠ [] then shortHash (alphanumericOnly id) strict9Len
    else shortHash "sanitized".toList strict9Len
  | .strict =>
    if id = [] then "defaulttoolid".toList
    else if isNativeKimiToolCallId id then id
    else if alphanumericOnly id ≠ [] then alphanumericOnly id
    else "sanitizedtoolid".toList

/-! ## Unused ids -/

def maxLen : Nat := 40

/-- The digits of a number in a template. -/
def digits (n : Nat) : Id := Nat.toDigits 10 n

/-- An id that was made. `exhausted` says that no attempt found an unused one, so that the time was
taken. -/
structure MadeId where
  id : Id
  exhausted : Bool

local instance lawfulBEq_id : LawfulBEq Id := inferInstanceAs (LawfulBEq (List Char))

def takeUnused (used : List Id) (candidate : Id) (otherwise : MadeId) : MadeId :=
  if candidate ∈ used then otherwise else ⟨candidate, false⟩

def firstUnused (used candidates : List Id) (fallback : Id) : MadeId :=
  match candidates.find? (· ∉ used) with
  | some id => ⟨id, false⟩
  | none => ⟨fallback, true⟩

@[irreducible]
def strict9Candidates (id : Id) : List Id :=
  (List.range 1000).map fun i => shortHash (id ++ ':' :: digits i) strict9Len

/-- `candidate`: the base with the hash, cut to the length. -/
def hashedCandidate (base id : Id) : Id :=
  let hash := shortHash id 8
  (if maxLen - hash.length < base.length then base.take (maxLen - hash.length) else base) ++ hash

def withSuffix (candidate suffix : Id) : Id := candidate.take (maxLen - suffix.length) ++ suffix

/-- `x2` up to `x999`. -/
@[irreducible]
def suffixedCandidates (candidate : Id) : List Id :=
  (List.range' 2 998).map fun i => withSuffix candidate ('x' :: digits i)

def makeUniqueToolId (now : Nat) (id : Id) (used : List Id) : ToolCallIdMode → MadeId
  | .strict9 =>
    let base := sanitizeToolCallId shortHash id .strict9
    let candidate := if strict9Len ≤ base.length then base.take strict9Len else []
    let hashed := firstUnused used (strict9Candidates shortHash id)
      (shortHash (id ++ ':' :: digits now) strict9Len)
    if candidate = [] then hashed else takeUnused used candidate hashed
  | .strict =>
    let base := (sanitizeToolCallId shortHash id .strict).take maxLen
    let candidate := hashedCandidate shortHash base id
    takeUnused used base (takeUnused used candidate
      (firstUnused used (suffixedCandidates candidate) (withSuffix candidate ('t' :: digits now))))

/-! ## What is made -/

/-- `sha256HexPrefix`: hexadecimal digits, so many of them. -/
structure HashPrefix : Prop where
  length : ∀ text n, n ≤ 64 → (shortHash text n).length = n
  alphanum : ∀ text n, ∀ c ∈ shortHash text n, c.isAlphanum = true

end

variable {shortHash : Id → Nat → Id} {now : Nat} {id : Id} {used : List Id}

variable {candidates : List Id} {fallback : Id}

theorem firstUnused_unused (h : (firstUnused used candidates fallback).exhausted = false) :
    (firstUnused used candidates fallback).id ∉ used := by
  unfold firstUnused at h ⊢
  cases hfind : candidates.find? (· ∉ used) with
  | none =>
    rw [hfind] at h
    cases h
  | some id => simpa using List.find?_some hfind

variable {candidate : Id}

variable {otherwise : MadeId}

theorem takeUnused_unused (hotherwise : otherwise.exhausted = false → otherwise.id ∉ used)
    (h : (takeUnused used candidate otherwise).exhausted = false) :
    (takeUnused used candidate otherwise).id ∉ used := by
  unfold takeUnused at h ⊢
  by_cases hused : candidate ∈ used
  · rw [if_pos hused] at h ⊢
    exact hotherwise h
  · rwa [if_neg hused]

theorem makeUniqueToolId_unused {mode : ToolCallIdMode}
    (h : (makeUniqueToolId shortHash now id used mode).exhausted = false) :
    (makeUniqueToolId shortHash now id used mode).id ∉ used := by
  cases mode with
  | strict9 =>
    unfold makeUniqueToolId at h ⊢
    dsimp only at h ⊢
    generalize (if strict9Len ≤ (sanitizeToolCallId shortHash id .strict9).length then
      (sanitizeToolCallId shortHash id .strict9).take strict9Len else []) = candidate at h ⊢
    by_cases hnil : candidate = []
    · rw [if_pos hnil] at h ⊢
      exact firstUnused_unused h
    · rw [if_neg hnil] at h ⊢
      exact takeUnused_unused firstUnused_unused h
  | strict => exact takeUnused_unused (takeUnused_unused firstUnused_unused) h

variable {P : Id → Prop}

theorem takeUnused_forall (hcandidate : P candidate)
    (hotherwise : otherwise.exhausted = false → P otherwise.id)
    (h : (takeUnused used candidate otherwise).exhausted = false) :
    P (takeUnused used candidate otherwise).id := by
  unfold takeUnused at h ⊢
  by_cases hused : candidate ∈ used
  · rw [if_pos hused] at h ⊢
    exact hotherwise h
  · rw [if_neg hused]
    exact hcandidate

theorem firstUnused_forall (hcandidates : ∀ candidate ∈ candidates, P candidate)
    (h : (firstUnused used candidates fallback).exhausted = false) :
    P (firstUnused used candidates fallback).id := by
  unfold firstUnused at h ⊢
  cases hfind : candidates.find? (· ∉ used) with
  | none =>
    rw [hfind] at h
    cases h
  | some candidate => exact hcandidates candidate (List.mem_of_find?_eq_some hfind)

theorem takeUnused_of_unused (otherwise : MadeId) (h : candidate ∉ used) :
    takeUnused used candidate otherwise = ⟨candidate, false⟩ := if_neg h

/-! ## Letters and digits -/

/-- Letters and digits only, one at least. -/
def IsPlain (id : Id) : Prop := id ≠ [] ∧ ∀ c ∈ id, c.isAlphanum = true

variable {n : Nat} {c : Char}

theorem isDigit_of_mem_digits (h : c ∈ digits n) : c.isDigit = true :=
  Nat.isDigit_of_mem_toDigits (by decide) (by decide) h

theorem isAlphanum_of_isDigit (h : c.isDigit = true) : c.isAlphanum = true := by
  rw [Char.isAlphanum, h, Bool.or_true]

theorem alphanum_digits (n : Nat) : ∀ c ∈ digits n, c.isAlphanum = true :=
  fun _ hc => isAlphanum_of_isDigit (isDigit_of_mem_digits hc)

theorem alphanumericOnly_self (h : ∀ c ∈ id, c.isAlphanum = true) : alphanumericOnly id = id :=
  List.filter_eq_self.2 h

theorem isPlain_alphanumericOnly (h : alphanumericOnly id ≠ []) : IsPlain (alphanumericOnly id) :=
  ⟨h, fun _ hc => (List.mem_filter.1 hc).2⟩

theorem IsPlain.take (h : IsPlain id) (hn : 0 < n) : IsPlain (id.take n) := by
  refine ⟨?_, fun c hc => h.2 c (List.mem_of_mem_take hc)⟩
  intro hnil
  rw [List.take_eq_nil_iff] at hnil
  rcases hnil with hzero | hnil
  · omega
  · exact h.1 hnil

theorem IsPlain.append {front back : Id} (hfront : ∀ c ∈ front, c.isAlphanum = true)
    (hback : IsPlain back) : IsPlain (front ++ back) := by
  refine ⟨by simp [hback.1], ?_⟩
  intro c hc
  rcases List.mem_append.1 hc with hc | hc
  · exact hfront c hc
  · exact hback.2 c hc

theorem isValid_strict_of_isPlain (h : IsPlain id) :
    isValidCloudCodeAssistToolId id .strict = true := by
  simp [isValidCloudCodeAssistToolId, h.1, List.all_eq_true.2 h.2]

theorem isPlain_of_isValid_strict (h : isValidCloudCodeAssistToolId id .strict = true)
    (hkimi : isNativeKimiToolCallId id = false) : IsPlain id := by
  rw [isValidCloudCodeAssistToolId, hkimi, Bool.or_false, Bool.and_eq_true, decide_eq_true_iff,
    List.all_eq_true] at h
  exact h

theorem isValid_strict9_iff :
    isValidCloudCodeAssistToolId id .strict9 = true ↔
      id.length = strict9Len ∧ ∀ c ∈ id, c.isAlphanum = true := by
  rw [isValidCloudCodeAssistToolId, Bool.and_eq_true, decide_eq_true_iff, List.all_eq_true]

/-! ## Kimi ids -/

theorem count_eq_zero_of_forall {p : Char → Bool} (h : ∀ c ∈ id, p c = true)
    (hcolon : p ':' = false) : id.count ':' = 0 := by
  rw [List.count_eq_zero]
  intro hmem
  rw [h ':' hmem] at hcolon
  cases hcolon

theorem count_colon_of_kimi (h : isNativeKimiToolCallId id = true) : id.count ':' = 1 := by
  unfold isNativeKimiToolCallId at h
  rw [Bool.and_eq_true, Bool.and_eq_true] at h
  obtain ⟨⟨hstarts, -⟩, hdigits⟩ := h
  obtain ⟨rest, rfl⟩ := List.isPrefixOf_iff_prefix.1 hstarts
  rw [List.drop_left] at hdigits
  have hrest := rest.takeWhile_append_dropWhile (p := isKimiNameChar)
  have hname : (rest.takeWhile isKimiNameChar).count ':' = 0 :=
    count_eq_zero_of_forall (p := isKimiNameChar) (fun _ hc => List.mem_takeWhile_imp hc) rfl
  split at hdigits
  · rename_i c digits hdrop
    rw [hdrop] at hrest
    have hzero := count_eq_zero_of_forall (List.all_eq_true.1 hdigits) rfl
    rw [← hrest, List.count_append, List.count_append, hname, List.count_cons_self, hzero]
    rfl
  · cases hdigits

/-- The seed of a result that answers no call. -/
def orphanSeed (id : Id) (occurrence : Nat) : Id :=
  id ++ (":tool_result:".toList ++ digits occurrence)

theorem orphanSeed_not_kimi (id : Id) (occurrence : Nat) :
    isNativeKimiToolCallId (orphanSeed id occurrence) = false := by
  by_contra h
  have hcount := count_colon_of_kimi (eq_true_of_ne_false h)
  rw [orphanSeed, List.count_append, List.count_append] at hcount
  have htwo : ":tool_result:".toList.count ':' = 2 := by decide
  omega

theorem alphanumericOnly_orphanSeed (h : ∀ c ∈ id, c.isAlphanum = true) (occurrence : Nat) :
    alphanumericOnly (orphanSeed id occurrence) =
      id ++ ("toolresult".toList ++ digits occurrence) := by
  have hinfix : ":tool_result:".toList.filter Char.isAlphanum = "toolresult".toList := by decide
  rw [orphanSeed, alphanumericOnly, List.filter_append, List.filter_append, hinfix,
    List.filter_eq_self.2 h, List.filter_eq_self.2 (alphanum_digits occurrence)]

/-! ## Valid ids -/

section

variable (hhash : HashPrefix shortHash)
include hhash

theorem sanitizeToolCallId_strict9 (id : Id) :
    isValidCloudCodeAssistToolId (sanitizeToolCallId shortHash id .strict9) .strict9 = true := by
  have hhashed (text : Id) :
      isValidCloudCodeAssistToolId (shortHash text strict9Len) .strict9 = true :=
    isValid_strict9_iff.2 ⟨hhash.length text _ (by decide), hhash.alphanum text _⟩
  unfold sanitizeToolCallId
  dsimp only
  split
  · decide
  · split
    · rename_i hlen
      rw [isValid_strict9_iff]
      refine ⟨List.length_take_of_le hlen, ?_⟩
      intro c hc
      exact (List.mem_filter.1 (List.mem_of_mem_take hc)).2
    · split
      · exact hhashed _
      · exact hhashed _

theorem makeUniqueToolId_strict9_valid
    (h : (makeUniqueToolId shortHash now id used .strict9).exhausted = false) :
    isValidCloudCodeAssistToolId (makeUniqueToolId shortHash now id used .strict9).id .strict9 =
      true := by
  have hbase := isValid_strict9_iff.1 (sanitizeToolCallId_strict9 hhash id)
  have hcandidates : ∀ candidate ∈ strict9Candidates shortHash id,
      isValidCloudCodeAssistToolId candidate .strict9 = true := by
    intro candidate hmem
    unfold strict9Candidates at hmem
    obtain ⟨i, -, rfl⟩ := List.mem_map.1 hmem
    exact isValid_strict9_iff.2 ⟨hhash.length _ _ (by decide), hhash.alphanum _ _⟩
  unfold makeUniqueToolId at h ⊢
  dsimp only at h ⊢
  rw [if_pos (le_of_eq hbase.1.symm), List.take_of_length_le (le_of_eq hbase.1)] at h ⊢
  have hne : sanitizeToolCallId shortHash id .strict9 ≠ [] := by
    intro hnil
    rw [hnil] at hbase
    cases hbase.1
  rw [if_neg hne] at h ⊢
  exact takeUnused_forall (isValid_strict9_iff.2 hbase) (firstUnused_forall hcandidates) h

theorem isPlain_hashedCandidate {base : Id} (hbase : ∀ c ∈ base, c.isAlphanum = true) :
    IsPlain (hashedCandidate shortHash base id) ∧
      (hashedCandidate shortHash base id).length ≤ maxLen := by
  have hlength : (shortHash id 8).length = 8 := hhash.length id 8 (by decide)
  have hnonempty : shortHash id 8 ≠ [] := by
    intro hnil
    rw [hnil] at hlength
    cases hlength
  unfold hashedCandidate
  dsimp only
  refine ⟨IsPlain.append ?_ ⟨hnonempty, hhash.alphanum id 8⟩, ?_⟩
  · split
    · exact fun c hc => hbase c (List.mem_of_mem_take hc)
    · exact hbase
  · rw [List.length_append, hlength]
    unfold maxLen
    split
    · rw [List.length_take]
      omega
    · omega

omit hhash in
theorem isPlain_withSuffix {suffix : Id} (hcandidate : ∀ c ∈ candidate, c.isAlphanum = true)
    (hsuffix : IsPlain suffix) (hlength : suffix.length ≤ maxLen) :
    IsPlain (withSuffix candidate suffix) ∧ (withSuffix candidate suffix).length ≤ maxLen := by
  refine ⟨IsPlain.append (fun c hc => hcandidate c (List.mem_of_mem_take hc)) hsuffix, ?_⟩
  rw [withSuffix, List.length_append, List.length_take]
  omega

omit hhash in
theorem suffixedCandidates_plain (hcandidate : ∀ c ∈ candidate, c.isAlphanum = true) :
    ∀ other ∈ suffixedCandidates candidate, IsPlain other ∧ other.length ≤ maxLen := by
  have hdigits : ∀ i ∈ List.range' 2 998, (digits i).length ≤ 3 := by decide +kernel
  intro other hmem
  unfold suffixedCandidates at hmem
  obtain ⟨i, hi, rfl⟩ := List.mem_map.1 hmem
  refine isPlain_withSuffix hcandidate ⟨List.cons_ne_nil _ _, ?_⟩ ?_
  · exact List.forall_mem_cons.2 ⟨rfl, alphanum_digits i⟩
  · have hlength := hdigits i hi
    rw [List.length_cons]
    unfold maxLen
    omega

omit hhash in
theorem sanitizeToolCallId_strict_plain (h : isNativeKimiToolCallId id = false) :
    IsPlain (sanitizeToolCallId shortHash id .strict) := by
  unfold sanitizeToolCallId
  dsimp only
  rw [h, if_neg Bool.false_ne_true]
  split
  · exact ⟨by decide, by simp⟩
  · split
    · rename_i hne
      exact isPlain_alphanumericOnly hne
    · exact ⟨by decide, by simp⟩

theorem makeUniqueToolId_plain (hkimi : isNativeKimiToolCallId id = false)
    (h : (makeUniqueToolId shortHash now id used .strict).exhausted = false) :
    IsPlain (makeUniqueToolId shortHash now id used .strict).id ∧
      (makeUniqueToolId shortHash now id used .strict).id.length ≤ maxLen := by
  have hplain : IsPlain (sanitizeToolCallId shortHash id .strict) :=
    sanitizeToolCallId_strict_plain hkimi
  have hbase := hplain.take (show 0 < maxLen by decide)
  have hcandidate : IsPlain (hashedCandidate shortHash _ id) ∧ _ :=
    isPlain_hashedCandidate hhash hbase.2
  unfold makeUniqueToolId at h ⊢
  refine takeUnused_forall (P := fun id => IsPlain id ∧ id.length ≤ maxLen)
    ⟨hbase, ?_⟩ (takeUnused_forall hcandidate
      (firstUnused_forall (suffixedCandidates_plain hcandidate.1.2))) h
  rw [List.length_take]
  exact Nat.min_le_left _ _

omit hhash in
theorem makeUniqueToolId_kimi (hkimi : isNativeKimiToolCallId id = true)
    (hlength : id.length ≤ maxLen) (hused : id ∉ used) :
    makeUniqueToolId shortHash now id used .strict = ⟨id, false⟩ := by
  have hne : id ≠ [] := by
    intro hnil
    rw [hnil] at hkimi
    cases hkimi
  have hsanitize : sanitizeToolCallId shortHash id .strict = id := by
    simp [sanitizeToolCallId, hne, hkimi]
  unfold makeUniqueToolId
  rw [hsanitize, List.take_of_length_le hlength]
  exact takeUnused_of_unused _ hused

/-- An id that a second pass can take as it is: valid, and not too long. -/
def IsSettled (mode : ToolCallIdMode) (id : Id) : Prop :=
  isValidCloudCodeAssistToolId id mode = true ∧ (mode = .strict → id.length ≤ maxLen)

/-- The seed, if it is a Kimi id, can stay. -/
def KimiStays (mode : ToolCallIdMode) (used : List Id) (seed : Id) : Prop :=
  mode = .strict → isNativeKimiToolCallId seed = true → seed.length ≤ maxLen ∧ seed ∉ used

variable {mode : ToolCallIdMode}

theorem makeUniqueToolId_settled (hkimi : KimiStays mode used id)
    (h : (makeUniqueToolId shortHash now id used mode).exhausted = false) :
    IsSettled mode (makeUniqueToolId shortHash now id used mode).id := by
  cases mode with
  | strict9 => exact ⟨makeUniqueToolId_strict9_valid hhash h, nofun⟩
  | strict =>
    by_cases hnative : isNativeKimiToolCallId id = true
    · obtain ⟨hlength, hused⟩ := hkimi rfl hnative
      rw [makeUniqueToolId_kimi hnative hlength hused]
      refine ⟨?_, fun _ => hlength⟩
      simp [isValidCloudCodeAssistToolId, hnative]
    · obtain ⟨hplain, hlength⟩ := makeUniqueToolId_plain hhash (eq_false_of_ne_true hnative) h
      exact ⟨isValid_strict_of_isPlain hplain, fun _ => hlength⟩

omit hhash in
theorem makeUniqueToolId_self (h : IsSettled mode id) (hused : id ∉ used) :
    makeUniqueToolId shortHash now id used mode = ⟨id, false⟩ := by
  cases mode with
  | strict9 =>
    obtain ⟨hlength, halnum⟩ := isValid_strict9_iff.1 h.1
    have hne : id ≠ [] := by
      intro hnil
      rw [hnil] at hlength
      cases hlength
    have hsanitize : sanitizeToolCallId shortHash id .strict9 = id := by
      simp [sanitizeToolCallId, alphanumericOnly_self halnum, hne, hlength,
        List.take_of_length_le (le_of_eq hlength)]
    unfold makeUniqueToolId
    dsimp only
    rw [hsanitize, if_pos (le_of_eq hlength.symm), List.take_of_length_le (le_of_eq hlength),
      if_neg hne]
    exact takeUnused_of_unused _ hused
  | strict =>
    by_cases hnative : isNativeKimiToolCallId id = true
    · exact makeUniqueToolId_kimi hnative (h.2 rfl) hused
    · have hplain := isPlain_of_isValid_strict h.1 (eq_false_of_ne_true hnative)
      have hsanitize : sanitizeToolCallId shortHash id .strict = id := by
        simp [sanitizeToolCallId, hplain.1, hnative, alphanumericOnly_self hplain.2]
      unfold makeUniqueToolId
      rw [hsanitize, List.take_of_length_le (h.2 rfl)]
      exact takeUnused_of_unused _ hused

/-! ## Results that answer no call, on a second pass -/

omit hhash in
theorem orphanSeed_ne_nil (id : Id) (occurrence : Nat) : orphanSeed id occurrence ≠ [] := by
  have hcolon : ':' ∈ orphanSeed id occurrence := by simp [orphanSeed]
  exact List.ne_nil_of_mem hcolon

omit hhash in
theorem makeUniqueToolId_orphanSeed_strict9
    (hvalid : isValidCloudCodeAssistToolId id .strict9 = true) (hused : id ∉ used)
    (occurrence : Nat) :
    makeUniqueToolId shortHash now (orphanSeed id occurrence) used .strict9 = ⟨id, false⟩ := by
  obtain ⟨hlength, halnum⟩ := isValid_strict9_iff.1 hvalid
  have hne : id ≠ [] := by
    intro hnil
    rw [hnil] at hlength
    cases hlength
  have hsanitize : sanitizeToolCallId shortHash (orphanSeed id occurrence) .strict9 = id := by
    unfold sanitizeToolCallId
    rw [if_neg (orphanSeed_ne_nil id occurrence), alphanumericOnly_orphanSeed halnum,
      if_pos (by rw [List.length_append]; omega), List.take_left' hlength]
  unfold makeUniqueToolId
  dsimp only
  rw [hsanitize, if_pos (le_of_eq hlength.symm), List.take_of_length_le (le_of_eq hlength),
    if_neg hne]
  exact takeUnused_of_unused _ hused

omit hhash in
theorem sanitizeToolCallId_orphanSeed (hplain : IsPlain id) (occurrence : Nat) :
    sanitizeToolCallId shortHash (orphanSeed id occurrence) .strict =
      id ++ ("toolresult".toList ++ digits occurrence) := by
  have honly := alphanumericOnly_orphanSeed hplain.2 occurrence
  have hne : alphanumericOnly (orphanSeed id occurrence) ≠ [] := by simp [honly, hplain.1]
  unfold sanitizeToolCallId
  dsimp only
  rw [if_neg (orphanSeed_ne_nil id occurrence), orphanSeed_not_kimi, if_neg Bool.false_ne_true,
    if_pos hne, honly]

theorem length_makeUniqueToolId_strict (now : Nat) (id : Id) (used : List Id) :
    ((sanitizeToolCallId shortHash id .strict).take maxLen).length ≤
      (makeUniqueToolId shortHash now id used .strict).id.length := by
  have hsuffix {candidate : Id} (suffix : Id) :
      min candidate.length maxLen ≤ (withSuffix candidate suffix).length := by
    rw [withSuffix, List.length_append, List.length_take]
    omega
  have hbase : ((sanitizeToolCallId shortHash id .strict).take maxLen).length ≤ maxLen := by
    rw [List.length_take]
    exact Nat.min_le_left _ _
  unfold makeUniqueToolId
  dsimp only
  generalize (sanitizeToolCallId shortHash id .strict).take maxLen = base at hbase ⊢
  have hcandidate : base.length ≤ (hashedCandidate shortHash base id).length := by
    have hlength : (shortHash id 8).length = 8 := hhash.length id 8 (by decide)
    unfold maxLen at hbase
    unfold hashedCandidate maxLen
    rw [List.length_append, hlength]
    split
    · rw [List.length_take]
      omega
    · omega
  generalize hashedCandidate shortHash base id = candidate at hcandidate ⊢
  have hmin (suffix : Id) : base.length ≤ (withSuffix candidate suffix).length :=
    le_trans (le_min hcandidate hbase) (hsuffix suffix)
  unfold takeUnused
  split
  · split
    · unfold firstUnused
      split
      · rename_i other hfind
        have hmem := List.mem_of_find?_eq_some hfind
        unfold suffixedCandidates at hmem
        obtain ⟨i, -, rfl⟩ := List.mem_map.1 hmem
        exact hmin _
      · exact hmin _
    · exact hcandidate
  · exact le_refl _

theorem makeUniqueToolId_ne_nil (now : Nat) (id : Id) (used : List Id) (mode : ToolCallIdMode) :
    (makeUniqueToolId shortHash now id used mode).id ≠ [] := by
  cases mode with
  | strict9 =>
    have hhashed (text : Id) : shortHash text strict9Len ≠ [] := by
      intro hnil
      have hlength := hhash.length text strict9Len (by decide)
      rw [hnil] at hlength
      cases hlength
    unfold makeUniqueToolId takeUnused firstUnused
    dsimp only
    have hfirst : ∀ candidate, (strict9Candidates shortHash id).find? (· ∉ used) =
        some candidate → candidate ≠ [] := by
      intro candidate hfind
      have hmem := List.mem_of_find?_eq_some hfind
      unfold strict9Candidates at hmem
      obtain ⟨i, -, rfl⟩ := List.mem_map.1 hmem
      exact hhashed _
    have hmade : (match (strict9Candidates shortHash id).find? (· ∉ used) with
        | some id => (⟨id, false⟩ : MadeId)
        | none => ⟨shortHash (id ++ ':' :: digits now) strict9Len, true⟩).id ≠ [] := by
      split
      · rename_i candidate hfind
        exact hfirst candidate hfind
      · exact hhashed _
    generalize (if strict9Len ≤ (sanitizeToolCallId shortHash id .strict9).length then
      (sanitizeToolCallId shortHash id .strict9).take strict9Len else []) = candidate
    by_cases hnil : candidate = []
    · rw [if_pos hnil]
      exact hmade
    · rw [if_neg hnil]
      split
      · exact hmade
      · exact hnil
  | strict =>
    have hbase : (sanitizeToolCallId shortHash id .strict).take maxLen ≠ [] := by
      by_cases hnative : isNativeKimiToolCallId id = true
      · have hne : id ≠ [] := by
          intro hnil
          rw [hnil] at hnative
          cases hnative
        simp [sanitizeToolCallId, hne, hnative, maxLen]
      · have hplain : IsPlain (sanitizeToolCallId shortHash id .strict) :=
          sanitizeToolCallId_strict_plain (eq_false_of_ne_true hnative)
        exact (hplain.take (show 0 < maxLen by decide)).1
    have hle := length_makeUniqueToolId_strict hhash now id used
    intro hnil
    rw [hnil] at hle
    exact hbase (List.eq_nil_of_length_eq_zero (Nat.le_zero.1 hle))

omit hhash in
theorem makeUniqueToolId_orphanSeed_of_max (hplain : IsPlain id) (hmax : id.length = maxLen)
    (hused : id ∉ used) (occurrence : Nat) :
    makeUniqueToolId shortHash now (orphanSeed id occurrence) used .strict = ⟨id, false⟩ := by
  unfold makeUniqueToolId
  rw [sanitizeToolCallId_orphanSeed hplain, List.take_left' hmax]
  exact takeUnused_of_unused _ hused

theorem makeUniqueToolId_orphanSeed_strict (now : Nat) (hplain : IsPlain id)
    (hlength : id.length ≤ maxLen) (hused : id ∉ used) (occurrence : Nat) :
    (makeUniqueToolId shortHash now (orphanSeed id occurrence) used .strict).id = id ↔
      id.length = maxLen := by
  constructor
  · intro hself
    have hle := length_makeUniqueToolId_strict hhash now (orphanSeed id occurrence) used
    rw [hself, sanitizeToolCallId_orphanSeed hplain, List.length_take, List.length_append] at hle
    have htool : ("toolresult".toList ++ digits occurrence).length ≠ 0 := by simp
    omega
  · intro hmax
    rw [makeUniqueToolId_orphanSeed_of_max hplain hmax hused]

end

end OpenClaw.Transcript
