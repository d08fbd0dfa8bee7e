import Mathlib.Algebra.GroupWithZero.Nat
import Mathlib.Data.List.DropRight
import Mathlib.Data.List.Lex

/-!
# JavaScript strings

`String.prototype.trim`, `startsWith`, `length`, `slice` and the pattern `\s+` as the language
defines them, on Lean strings (sequences of Unicode scalar values).
-/

namespace JsString

/-- The code points `trim` strips: the `WhiteSpace` and `LineTerminator` productions. -/
def isWhitespace (c : Char) : Bool :=
  c.toNat ∈ [0x09, 0x0A, 0x0B, 0x0C, 0x0D, 0x20, 0xA0, 0x1680, 0x2028, 0x2029, 0x202F, 0x205F,
    0x3000, 0xFEFF] || (0x2000 ≤ c.toNat && c.toNat ≤ 0x200A)

def trim (s : String) : String :=
  .ofList ((s.toList.dropWhile isWhitespace).reverse.dropWhile isWhitespace).reverse

variable {cs : List Char}

theorem dropWhile_prefix_of_dropped {p : Char → Bool} {ds : List Char} (h : ds <+: cs.dropWhile p) :
    ds.dropWhile p = ds := by
  cases ds with
  | nil => rfl
  | cons d ds =>
    obtain ⟨rest, hrest⟩ := h
    have hhead := List.dropWhile_idempotent (p := p) cs
    rw [← hrest, List.cons_append] at hhead
    by_cases hd : p d = true
    · rw [List.dropWhile_cons_of_pos hd] at hhead
      have hlen := (List.dropWhile_suffix (l := ds ++ rest) p).length_le
      rw [hhead, List.length_cons] at hlen
      omega
    · exact List.dropWhile_cons_of_neg hd

theorem trim_trim (s : String) : trim (trim s) = trim s := by
  have hdrop := dropWhile_prefix_of_dropped
    (List.rdropWhile_prefix isWhitespace (s.toList.dropWhile isWhitespace))
  have htrim : ∀ t : String,
      trim t = .ofList (List.rdropWhile isWhitespace (t.toList.dropWhile isWhitespace)) :=
    fun _ => rfl
  rw [htrim (trim s), htrim s, String.toList_ofList, hdrop, List.rdropWhile_idempotent]

def trimEnd (s : String) : String := .ofList (s.toList.reverse.dropWhile isWhitespace).reverse

def startsWith (s pre : String) : Bool := pre.toList.isPrefixOf s.toList

/-- The UTF-16 code units of a string. -/
def codeUnits (s : String) : List Nat :=
  s.toList.flatMap fun c =>
    if c.toNat ≤ 0xFFFF then [c.toNat]
    else [0xD800 + (c.toNat - 0x10000) / 0x400, 0xDC00 + (c.toNat - 0x10000) % 0x400]

/-- `Array.prototype.toSorted` on strings, by code units. -/
def toSorted (strings : List String) : List String :=
  strings.mergeSort fun a b => decide (codeUnits a ≤ codeUnits b)

/-- `String.prototype.length`: UTF-16 code units. -/
def length (s : String) : Nat := (s.toList.map fun c => if c.toNat ≤ 0xFFFF then 1 else 2).sum

/-- The characters within the first `units` UTF-16 code units. -/
def takeUnits : Nat → List Char → List Char
  | _, [] => []
  | 0, _ => []
  | 1, c :: _ => if c.toNat ≤ 0xFFFF then [c] else []
  | n + 2, c :: cs => c :: if c.toNat ≤ 0xFFFF then takeUnits (n + 1) cs else takeUnits n cs

theorem takeUnits_length_le (n : Nat) (cs : List Char) : (takeUnits n cs).length ≤ n := by
  fun_induction takeUnits n cs with
  | case1 | case2 | case4 => exact Nat.zero_le _
  | case3 => exact Nat.le_refl _
  | case5 n c cs ih₁ ih₂ =>
    rw [List.length_cons]
    split <;> omega

/-- `slice(0, end)`, less half a surrogate pair at the cut. -/
def slice (s : String) (stop : Nat) : String := .ofList (takeUnits stop s.toList)

theorem slice_length_le (s : String) (stop : Nat) : (slice s stop).toList.length ≤ stop := by
  rw [slice, String.toList_ofList]
  exact takeUnits_length_le stop s.toList

theorem takeUnits_append (h : ∀ c ∈ cs, c.toNat ≤ 0xFFFF) (rest : List Char) :
    takeUnits cs.length (cs ++ rest) = cs := by
  induction cs with
  | nil =>
    cases rest with
    | nil => rfl
    | cons c rest => rfl
  | cons c cs ih =>
    rw [List.forall_mem_cons] at h
    cases cs with
    | nil => exact if_pos h.1
    | cons d cs =>
      show (c :: if c.toNat ≤ 0xFFFF then takeUnits (d :: cs).length (d :: cs ++ rest) else _) = _
      rw [if_pos h.1, ih h.2]

theorem slice_append (h : ∀ c ∈ cs, c.toNat ≤ 0xFFFF) (rest : List Char) :
    slice (.ofList (cs ++ rest)) cs.length = .ofList cs := by
  rw [slice, String.toList_ofList, takeUnits_append h]

theorem slice_ne_empty {s : String} (h : s ≠ "") (n : Nat) : slice s (n + 2) ≠ "" := by
  intro heq
  have hlist := congrArg String.toList heq
  rw [slice, String.toList_ofList] at hlist
  cases hs : s.toList with
  | nil => exact h (String.toList_inj.mp hs)
  | cons c cs =>
    rw [hs, takeUnits] at hlist
    cases hlist

/-- The characters with every run of characters in `p` replaced by `rep`; `inRun` says that the
previous character was in one. -/
def replaceRuns (p : Char → Bool) (rep : Char) (inRun : Bool) : List Char → List Char
  | [] => []
  | c :: cs =>
    if p c then
      if inRun then replaceRuns p rep true cs else rep :: replaceRuns p rep true cs
    else c :: replaceRuns p rep false cs

/-- `replace(/\s+/g, " ")`. -/
def collapseWhitespace (s : String) : String := .ofList (replaceRuns isWhitespace ' ' false s.toList)

end JsString
