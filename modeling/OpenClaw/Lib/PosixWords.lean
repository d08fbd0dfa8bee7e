import OpenClaw.Lib.JsValue

/-!
# Words under the quoting rules of the POSIX shell

`splitWords` reads a text as the words of a simple command: blanks separate them, a backslash and
the two kinds of quotes take away the meaning of what follows. A text with an operator, an
expansion or a comment outside of quotes is not such a text.
-/

namespace PosixWords

open Js

/-- Where a unit of the text stands; the `escaped` ones are behind a backslash. -/
inductive Mode
  | plain | escaped | single | double | doubleEscaped

/-- Space, tab and newline. -/
def isBlank (u : Nat) : Bool := u ∈ [0x20, 0x09, 0x0A]

/-- `| & ; < > ( ) $`, the back quote, `* ? [ # ~`. -/
def isSpecial (u : Nat) : Bool :=
  u ∈ [0x7C, 0x26, 0x3B, 0x3C, 0x3E, 0x28, 0x29, 0x24, 0x60, 0x2A, 0x3F, 0x5B, 0x23, 0x7E]

/-- The words of a text behind the word that is open, if one is. -/
def splitWords : Mode → Option Str → Str → Option (List Str)
  | .plain, word, [] => some word.toList
  | .plain, word, u :: s =>
    if isBlank u then (splitWords .plain none s).map (word.toList ++ ·)
    else if u = 0x27 then splitWords .single (some (word.getD [])) s
    else if u = 0x22 then splitWords .double (some (word.getD [])) s
    else if u = 0x5C then splitWords .escaped word s
    else if isSpecial u then none
    else splitWords .plain (some (word.getD [] ++ [u])) s
  | .escaped, word, u :: s =>
    splitWords .plain (if u = 0x0A then word else some (word.getD [] ++ [u])) s
  | .single, word, u :: s =>
    if u = 0x27 then splitWords .plain word s
    else splitWords .single (some (word.getD [] ++ [u])) s
  | .double, word, u :: s =>
    if u = 0x22 then splitWords .plain word s
    else if u = 0x5C then splitWords .doubleEscaped word s
    else if u = 0x24 || u = 0x60 then none
    else splitWords .double (some (word.getD [] ++ [u])) s
  | .doubleEscaped, word, u :: s =>
    -- a backslash quotes `$`, the back quote, `"` and itself, and else stands for itself
    if u = 0x0A then splitWords .double word s
    else if u ∈ [0x24, 0x60, 0x22, 0x5C] then splitWords .double (some (word.getD [] ++ [u])) s
    else splitWords .double (some (word.getD [] ++ [0x5C, u])) s
  | .escaped, _, [] => none
  | .single, _, [] => none
  | .double, _, [] => none
  | .doubleEscaped, _, [] => none

def words (text : Str) : Option (List Str) := splitWords .plain none text

/-! ## Reading quoted text -/

/-- What stands for itself everywhere outside of quotes. -/
def isOrdinary (u : Nat) : Bool :=
  !isBlank u && !isSpecial u && u ≠ 0x27 && u ≠ 0x22 && u ≠ 0x5C

theorem splitWords_ordinary {u : Nat} (h : isOrdinary u = true) (word : Option Str) (s : Str) :
    splitWords .plain word (u :: s) = splitWords .plain (some (word.getD [] ++ [u])) s := by
  simp only [isOrdinary, Bool.and_eq_true, Bool.not_eq_true', decide_eq_true_eq] at h
  obtain ⟨⟨⟨⟨hblank, hspecial⟩, hsingle⟩, hdouble⟩, hbackslash⟩ := h
  rw [splitWords, if_neg (by simp [hblank]), if_neg hsingle, if_neg hdouble, if_neg hbackslash,
    if_neg (by simp [hspecial])]

variable {value : Str}

theorem splitWords_ordinaries (h : value.all isOrdinary = true) (word rest : Str) :
    splitWords .plain (some word) (value ++ rest) =
      splitWords .plain (some (word ++ value)) rest := by
  induction value generalizing word with
  | nil => simp
  | cons u value ih =>
    rw [List.all_cons, Bool.and_eq_true] at h
    rw [List.cons_append, splitWords_ordinary h.1, Option.getD_some, ih h.2, List.append_assoc,
      List.singleton_append]

theorem splitWords_bare (hne : value ≠ []) (h : value.all isOrdinary = true) (rest : Str) :
    splitWords .plain none (value ++ rest) = splitWords .plain (some value) rest := by
  cases value with
  | nil => exact absurd rfl hne
  | cons u value =>
    rw [List.all_cons, Bool.and_eq_true] at h
    rw [List.cons_append, splitWords_ordinary h.1, Option.getD_none, List.nil_append,
      splitWords_ordinaries h.2, List.singleton_append]

/-- A value between single quotes, each of its own quotes as `'"'"'`. -/
def singleQuoted (value : Str) : Str :=
  0x27 :: (value.flatMap (fun u => if u = 0x27 then [0x27, 0x22, 0x27, 0x22, 0x27] else [u]) ++
    [0x27])

theorem splitWords_single (value word rest : Str) :
    splitWords .single (some word)
      (value.flatMap (fun u => if u = 0x27 then [0x27, 0x22, 0x27, 0x22, 0x27] else [u]) ++
        0x27 :: rest) = splitWords .plain (some (word ++ value)) rest := by
  induction value generalizing word with
  | nil => simp [splitWords]
  | cons u value ih =>
    rw [List.flatMap_cons, List.append_assoc]
    by_cases hu : u = 0x27
    · -- out of the quotes, a quote between double quotes, and in again
      rw [if_pos hu]
      refine (ih (word ++ [0x27])).trans ?_
      rw [List.append_assoc, hu, List.singleton_append]
    · rw [if_neg hu, List.singleton_append, splitWords, if_neg hu, Option.getD_some, ih,
        List.append_assoc, List.singleton_append]

theorem splitWords_singleQuoted (value rest : Str) :
    splitWords .plain none (singleQuoted value ++ rest) =
      splitWords .plain (some value) rest := by
  rw [singleQuoted, List.cons_append, List.append_assoc, List.singleton_append]
  show splitWords .single (some []) _ = _
  rw [splitWords_single, List.nil_append]

theorem words_intercalate {render : Str → Str}
    (h : ∀ value rest, splitWords .plain none (render value ++ rest) =
      splitWords .plain (some value) rest) (values : List Str) :
    words ([0x20].intercalate (values.map render)) = some values := by
  induction values with
  | nil => rfl
  | cons value values ih =>
    cases values with
    | nil =>
      rw [List.map_singleton, List.intercalate_singleton, words,
        ← List.append_nil (render value), h]
      rfl
    | cons next values =>
      rw [List.map_cons, List.map_cons, List.intercalate_cons_cons, List.append_assoc, words, h,
        List.singleton_append, splitWords, if_pos (by decide)]
      rw [List.map_cons] at ih
      show (words _).map _ = _
      rw [ih]
      rfl

end PosixWords
