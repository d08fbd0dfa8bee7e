import OpenClaw.Lib.JsValue

/-!
# Windows arguments, quoted and tokenized

`windowsEscapeArg` and `tokenizeWindowsSegment` of `infra/windows-shell-command.ts`. A quote within
a value is doubled when the value is quoted. The tokenizer takes each of the two for a quote of its
own, so it reads the value without the quote.

**Main result (`windowsArgs_roundTrip_iff`).** The tokens of a line of escaped values are the values
if and only if there is a value and none of them has a double quote.
-/

namespace OpenClaw.Exec

open Js

/-! ## The tokenizer -/

structure WindowsTokenizer where
  tokens : List Str
  buf : Str
  inDouble : Bool
  inSingle : Bool
  wasQuoted : Bool

namespace WindowsTokenizer

def pushToken (s : WindowsTokenizer) : WindowsTokenizer :=
  if !s.buf.isEmpty || s.wasQuoted then
    { s with tokens := s.tokens ++ [s.buf], buf := [], wasQuoted := false }
  else { s with wasQuoted := false }

/-- A character, but for a single quote that stands before another one. -/
def step (s : WindowsTokenizer) (ch : Nat) : WindowsTokenizer :=
  if ch = 0x22 && !s.inSingle then
    { s with wasQuoted := s.wasQuoted || !s.inDouble, inDouble := !s.inDouble }
  else if ch = 0x27 && !s.inDouble then
    { s with wasQuoted := s.wasQuoted || !s.inSingle, inSingle := !s.inSingle }
  else if !s.inDouble && !s.inSingle && isSpace ch then s.pushToken
  else { s with buf := s.buf ++ [ch] }

def scan : WindowsTokenizer → Str → WindowsTokenizer
  | s, [] => s
  | s, [ch] => s.step ch
  | s, ch :: next :: rest =>
    if ch = 0x27 && !s.inDouble && s.inSingle && next = 0x27 then
      scan { s with buf := s.buf ++ [0x27] } rest
    else scan (s.step ch) (next :: rest)

end WindowsTokenizer

def tokenizeWindowsSegment (segment : Str) : Option (List Str) :=
  let s := WindowsTokenizer.scan ⟨[], [], false, false, false⟩ segment
  if s.inDouble || s.inSingle then none
  else if s.pushToken.tokens.isEmpty then none
  else some s.pushToken.tokens

/-! ## The escaper -/

/-- `/[A-Za-z_{(?$]/`. -/
def startsExpansion (u : Nat) : Bool :=
  isUpper u || isLower u || u ∈ [0x5F, 0x7B, 0x28, 0x3F, 0x24]

/-- `WINDOWS_UNSAFE_CMD_META`. -/
def hasUnsafeCmdMeta : Str → Bool
  | [] => false
  | u :: rest =>
    u = 0x25 || u = 0x60 || (u = 0x24 && rest.head?.any startsExpansion) || hasUnsafeCmdMeta rest

/-- `/[a-zA-Z0-9_./:~\\=-]/`. -/
def isBareUnit (u : Nat) : Bool :=
  isAlphanum u || u ∈ [0x5F, 0x2E, 0x2F, 0x3A, 0x7E, 0x5C, 0x3D, 0x2D]

/-- `value.replace(/"/g, '""')`. -/
def doubleQuotes (value : Str) : Str := value.flatMap fun u => if u = 0x22 then [u, u] else [u]

/-- `none` is `{ ok: false }`. -/
def windowsEscapeArg (value : Str) : Option Str :=
  if value = [] then some [0x22, 0x22]
  else if hasUnsafeCmdMeta value then none
  else if value.all isBareUnit then some value
  else some (0x22 :: (doubleQuotes value ++ [0x22]))

/-! ## Scanning an escaped value -/

namespace WindowsTokenizer

variable {s : WindowsTokenizer}

theorem scan_cons (hs : s.inSingle = false) (ch : Nat) (rest : Str) :
    scan s (ch :: rest) = scan (s.step ch) rest := by
  cases rest with
  | nil => rfl
  | cons next rest =>
    rw [scan, hs, Bool.and_false, Bool.false_and, if_neg Bool.false_ne_true]

theorem isBareUnit_plain {u : Nat} (h : isBareUnit u = true) :
    u ≠ 0x22 ∧ u ≠ 0x27 ∧ isSpace u = false := by
  refine ⟨?_, ?_, ?_⟩
  · intro hu
    rw [hu] at h
    exact absurd h (by decide)
  · intro hu
    rw [hu] at h
    exact absurd h (by decide)
  · rw [Bool.eq_false_iff]
    intro hspace
    simp only [isBareUnit, isAlphanum, isDigit, isUpper, isLower, isSpace, List.mem_cons,
      List.not_mem_nil, or_false, Bool.or_eq_true, Bool.and_eq_true, decide_eq_true_eq] at h hspace
    omega

theorem scan_bare (hdouble : s.inDouble = false) (hsingle : s.inSingle = false) {value : Str}
    (h : value.all isBareUnit = true) (rest : Str) :
    scan s (value ++ rest) = scan { s with buf := s.buf ++ value } rest := by
  induction value generalizing s with
  | nil => simp
  | cons u value ih =>
    rw [List.all_cons, Bool.and_eq_true] at h
    obtain ⟨hquote, hapostrophe, hspace⟩ := isBareUnit_plain h.1
    have hstep : s.step u = { s with buf := s.buf ++ [u] } := by
      simp [step, hquote, hapostrophe, hspace]
    rw [List.cons_append, scan_cons hsingle, hstep,
      ih (s := { s with buf := s.buf ++ [u] }) hdouble hsingle h.2, List.append_assoc,
      List.singleton_append]

theorem scan_doubled (hdouble : s.inDouble = true) (hsingle : s.inSingle = false)
    (hquoted : s.wasQuoted = true) (value rest : Str) :
    scan s (doubleQuotes value ++ rest) =
      scan { s with buf := s.buf ++ value.filter (· ≠ 0x22) } rest := by
  induction value generalizing s with
  | nil => simp [doubleQuotes]
  | cons u value ih =>
    have hcons : doubleQuotes (u :: value) =
        (if u = 0x22 then [u, u] else [u]) ++ doubleQuotes value := rfl
    rw [hcons, List.append_assoc]
    by_cases hu : u = 0x22
    · have hsame : (s.step u).step u = s := by
        cases s
        simp_all [step]
      rw [if_pos hu, List.cons_append, List.singleton_append, scan_cons hsingle,
        scan_cons (by simp [step, hu, hsingle]), hsame, ih hdouble hsingle hquoted,
        List.filter_cons_of_neg (by simpa using hu)]
    · have hstep : s.step u = { s with buf := s.buf ++ [u] } := by
        simp [step, hu, hdouble]
      rw [if_neg hu, List.singleton_append, scan_cons hsingle, hstep,
        ih (s := { s with buf := s.buf ++ [u] }) hdouble hsingle hquoted,
        List.filter_cons_of_pos (by simpa using hu), List.append_assoc, List.singleton_append]

/-- Between two tokens. -/
structure Blank (s : WindowsTokenizer) : Prop where
  buf : s.buf = []
  inDouble : s.inDouble = false
  inSingle : s.inSingle = false
  wasQuoted : s.wasQuoted = false

theorem scan_escaped (hs : s.Blank) {value escaped : Str}
    (h : windowsEscapeArg value = some escaped) (rest : Str) :
    ∃ t : WindowsTokenizer, scan s (escaped ++ rest) = scan t rest ∧ t.inDouble = false ∧
      t.inSingle = false ∧
      t.pushToken = { s with tokens := s.tokens ++ [value.filter (· ≠ 0x22)] } := by
  obtain ⟨hbuf, hdouble, hsingle, hquoted⟩ := hs
  rw [windowsEscapeArg] at h
  by_cases hempty : value = []
  · rw [if_pos hempty, Option.some.injEq] at h
    refine ⟨{ s with wasQuoted := true }, ?_, hdouble, hsingle, ?_⟩
    · rw [← h, List.cons_append, List.singleton_append, scan_cons hsingle, scan_cons]
      · congr 1
        simp [step, hdouble, hsingle]
      · simp [step, hsingle]
    · simp [pushToken, hempty, hbuf, hquoted]
  · rw [if_neg hempty] at h
    by_cases hunsafe : hasUnsafeCmdMeta value = true
    · rw [if_pos hunsafe] at h
      cases h
    · rw [if_neg hunsafe] at h
      by_cases hbare : value.all isBareUnit = true
      · -- the value as it is
        rw [if_pos hbare, Option.some.injEq] at h
        refine ⟨{ s with buf := value }, ?_, hdouble, hsingle, ?_⟩
        · rw [← h, scan_bare hdouble hsingle hbare, hbuf, List.nil_append]
        · have hfilter : value.filter (· ≠ 0x22) = value := by
            rw [List.filter_eq_self]
            intro u hu
            exact decide_eq_true (isBareUnit_plain (List.all_eq_true.1 hbare u hu)).1
          rw [hfilter]
          simp [pushToken, hempty, hbuf, hquoted]
      · -- the value in quotes
        rw [if_neg hbare, Option.some.injEq] at h
        refine ⟨{ s with buf := value.filter (· ≠ 0x22), wasQuoted := true }, ?_, hdouble, hsingle,
          ?_⟩
        · rw [← h, List.cons_append, List.append_assoc, scan_cons hsingle, scan_doubled]
          · rw [List.singleton_append, scan_cons]
            · congr 1
              simp [step, hdouble, hsingle, hbuf]
            · simp [step, hsingle]
          · simp [step, hdouble, hsingle]
          · simp [step, hsingle]
          · simp [step, hdouble, hsingle]
        · simp [pushToken, hbuf, hquoted]

theorem scan_line {vs escaped : List Str} (hs : s.Blank) (hne : vs ≠ [])
    (h : List.Forall₂ (fun v e => windowsEscapeArg v = some e) vs escaped) :
    (scan s ([0x20].intercalate escaped)).inDouble = false ∧
      (scan s ([0x20].intercalate escaped)).inSingle = false ∧
      (scan s ([0x20].intercalate escaped)).pushToken.tokens =
        s.tokens ++ vs.map (List.filter (· ≠ 0x22)) := by
  induction h generalizing s with
  | nil => exact absurd rfl hne
  | @cons v e vs escaped hv hrest ih =>
    cases hrest with
    | nil =>
      obtain ⟨t, hscan, hdouble, hsingle, hpush⟩ := scan_escaped hs hv []
      rw [List.append_nil] at hscan
      rw [List.intercalate_singleton, hscan, scan, hpush]
      exact ⟨hdouble, hsingle, rfl⟩
    | @cons w f vs escaped hw hrest =>
      obtain ⟨t, hscan, hdouble, hsingle, hpush⟩ :=
        scan_escaped hs hv ([0x20] ++ [0x20].intercalate (f :: escaped))
      have hspace : t.step 0x20 = t.pushToken := by
        simp [step, hdouble, hsingle, isSpace]
      have hblank : t.pushToken.Blank := by
        rw [hpush]
        exact ⟨hs.buf, hs.inDouble, hs.inSingle, hs.wasQuoted⟩
      rw [List.intercalate_cons_cons, List.append_assoc, hscan, List.singleton_append,
        scan_cons hsingle, hspace]
      obtain ⟨hdouble', hsingle', htokens⟩ := ih hblank (List.cons_ne_nil w vs)
      refine ⟨hdouble', hsingle', ?_⟩
      rw [htokens, hpush, List.append_assoc]
      rfl

end WindowsTokenizer

/-! ## The round trip -/

theorem tokenize_escaped {vs escaped : List Str} (hne : vs ≠ [])
    (h : List.Forall₂ (fun v e => windowsEscapeArg v = some e) vs escaped) :
    tokenizeWindowsSegment ([0x20].intercalate escaped) =
      some (vs.map (List.filter (· ≠ 0x22))) := by
  have hblank : WindowsTokenizer.Blank ⟨[], [], false, false, false⟩ := ⟨rfl, rfl, rfl, rfl⟩
  obtain ⟨hdouble, hsingle, htokens⟩ := WindowsTokenizer.scan_line hblank hne h
  rw [List.nil_append] at htokens
  unfold tokenizeWindowsSegment
  dsimp only
  rw [hdouble, hsingle, Bool.or_false, if_neg Bool.false_ne_true, htokens, if_neg]
  simpa using hne

theorem filter_eq_self_iff {v : Str} : v.filter (· ≠ 0x22) = v ↔ 0x22 ∉ v := by
  rw [List.filter_eq_self]
  constructor
  · intro hall hmem
    exact absurd (hall _ hmem) (by simp)
  · intro hmem u hu
    exact decide_eq_true fun heq => hmem (heq ▸ hu)

/-- The escaped values are tokenized to the values exactly when there is a value and none of them
has a double quote. -/
theorem windowsArgs_roundTrip_iff {vs escaped : List Str}
    (h : List.Forall₂ (fun v e => windowsEscapeArg v = some e) vs escaped) :
    tokenizeWindowsSegment ([0x20].intercalate escaped) = some vs ↔
      vs ≠ [] ∧ ∀ v ∈ vs, 0x22 ∉ v := by
  by_cases hne : vs = []
  · rw [hne] at h
    cases h
    simp [hne, tokenizeWindowsSegment, WindowsTokenizer.scan, WindowsTokenizer.pushToken]
  · have hself : vs.map (List.filter (· ≠ 0x22)) = vs ↔ ∀ v ∈ vs, v.filter (· ≠ 0x22) = id v := by
      rw [← List.map_inj_left, List.map_id]
    rw [tokenize_escaped hne h, Option.some.injEq, hself, and_iff_right hne]
    exact forall₂_congr fun v _ => filter_eq_self_iff

/-- `echo`, an empty argument and `hello world`. -/
theorem windowsArgs_roundTrip_echo :
    tokenizeWindowsSegment ([0x20].intercalate
      [units "echo", units "\"\"", units "\"hello world\""]) =
        some [units "echo", [], units "hello world"] :=
  have hvalues : List.Forall₂ (fun v e => windowsEscapeArg v = some e)
      [units "echo", [], units "hello world"]
      [units "echo", units "\"\"", units "\"hello world\""] :=
    .cons (by decide +kernel) (.cons (by decide +kernel) (.cons (by decide +kernel) .nil))
  (windowsArgs_roundTrip_iff hvalues).2 (by decide +kernel)

/-- `a"b` is escaped to `"a""b"`, which is tokenized to `ab`. -/
theorem quote_lost :
    ¬ ∀ vs escaped, List.Forall₂ (fun v e => windowsEscapeArg v = some e) vs escaped →
      tokenizeWindowsSegment ([0x20].intercalate escaped) = some vs := by
  intro h
  have hvalue : List.Forall₂ (fun v e => windowsEscapeArg v = some e) [units "a\"b"]
      [units "\"a\"\"b\""] := .cons (by decide +kernel) .nil
  exact absurd (h _ _ hvalue) (by decide +kernel)

end OpenClaw.Exec
