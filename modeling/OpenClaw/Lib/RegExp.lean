import OpenClaw.Lib.JsValue

/-!
# A fragment of the patterns of `RegExp`

Patterns without groups, alternatives and counts: literals, escaped literals, `.`, `[^/]`, each
with or without `*`, and the anchors. `compile` reads a pattern, without the flag `m` and with
`canon` for the letters that the flag `i` identifies, and `test` searches a string for it.

**Main result (`test_anchored`).** A pattern between `^` and `$` accepts exactly the strings that
its terms spell.
-/

namespace RegExp

open Js

inductive Term
  | start
  | stop
  /-- One code unit of a set. -/
  | one (set : Nat → Bool)
  /-- `*` after such a term. -/
  | many (set : Nat → Bool)

abbrev Pattern := List Term

/-! ## Reading a pattern -/

/-- `^ $ \ . * + ? ( ) [ ] { } |`. -/
def isSyntax (u : Nat) : Bool :=
  u ∈ [0x5E, 0x24, 0x5C, 0x2E, 0x2A, 0x2B, 0x3F, 0x28, 0x29, 0x5B, 0x5D, 0x7B, 0x7D, 0x7C]

/-- What `.` does not match. -/
def isLineTerminator (u : Nat) : Bool := u ∈ [0x0A, 0x0D, 0x2028, 0x2029]

section Compile

variable (canon : Nat → Nat)

def literal (u : Nat) (v : Nat) : Bool := canon u = canon v

/-- `[^/]`. -/
def notSlash (v : Nat) : Bool := canon v ≠ canon 0x2F

/-- The terms of a pattern behind `terms`, which are in reverse; `none` outside the fragment. -/
def read : List Term → Str → Option Pattern
  | terms, [] => some terms.reverse
  | terms, 0x5E :: rest => read (.start :: terms) rest
  | terms, 0x24 :: rest => read (.stop :: terms) rest
  | terms, 0x2E :: rest => read (.one (fun v => !isLineTerminator v) :: terms) rest
  | .one set :: terms, 0x2A :: rest => read (.many set :: terms) rest
  | terms, 0x5C :: u :: rest => if isSyntax u then read (.one (literal canon u) :: terms) rest else none
  | terms, 0x5B :: 0x5E :: 0x2F :: 0x5D :: rest => read (.one (notSlash canon) :: terms) rest
  | terms, u :: rest => if isSyntax u then none else read (.one (literal canon u) :: terms) rest

def compile (pattern : Str) : Option Pattern := read canon [] pattern

end Compile

/-! ## Matching -/

/-- `*`: any number of units of the set, and then `next`. -/
def matchMany (set : Nat → Bool) (next : Bool → Str → Bool) : Bool → Str → Bool
  | atStart, [] => next atStart []
  | atStart, u :: s => next atStart (u :: s) || (set u && matchMany set next false s)

/-- Whether the terms match a beginning of the string; `atStart` says that nothing is before it. -/
def matchHere : Pattern → Bool → Str → Bool
  | [], _, _ => true
  | .start :: terms, atStart, s => atStart && matchHere terms atStart s
  | .stop :: terms, atStart, s => s.isEmpty && matchHere terms atStart s
  | .one _ :: _, _, [] => false
  | .one set :: terms, _, u :: s => set u && matchHere terms false s
  | .many set :: terms, atStart, s => matchMany set (matchHere terms) atStart s

/-- The search from each position on. -/
def search (terms : Pattern) : Bool → Str → Bool
  | atStart, [] => matchHere terms atStart []
  | atStart, u :: s => matchHere terms atStart (u :: s) || search terms false s

def test (terms : Pattern) (s : Str) : Bool := search terms true s

/-! ## What a pattern between the anchors accepts -/

/-- The string is, term by term, what the terms stand for. -/
inductive Spells : Pattern → Str → Prop
  | nil : Spells [] []
  | one {set : Nat → Bool} {u : Nat} {terms : Pattern} {s : Str} (hu : set u = true)
      (h : Spells terms s) : Spells (.one set :: terms) (u :: s)
  | many {set : Nat → Bool} {run : Str} {terms : Pattern} {s : Str}
      (hrun : ∀ u ∈ run, set u = true) (h : Spells terms s) :
      Spells (.many set :: terms) (run ++ s)

def Term.IsAnchor : Term → Prop
  | .start | .stop => True
  | .one _ | .many _ => False

variable {set : Nat → Bool}

theorem matchMany_iff {next : Bool → Str → Bool} {P : Str → Prop}
    (hnext : ∀ atStart s, next atStart s = true ↔ P s) (atStart : Bool) (s : Str) :
    matchMany set next atStart s = true ↔
      ∃ run rest, s = run ++ rest ∧ (∀ u ∈ run, set u = true) ∧ P rest := by
  induction s generalizing atStart with
  | nil =>
    rw [matchMany, hnext]
    constructor
    · intro h
      exact ⟨[], [], rfl, by simp, h⟩
    · rintro ⟨run, rest, hs, -, h⟩
      rw [eq_comm, List.append_eq_nil_iff] at hs
      rwa [hs.2] at h
  | cons u s ih =>
    rw [matchMany, Bool.or_eq_true, Bool.and_eq_true, hnext, ih]
    constructor
    · intro h
      rcases h with h | ⟨hu, run, rest, hs, hrun, h⟩
      · exact ⟨[], u :: s, rfl, by simp, h⟩
      · exact ⟨u :: run, rest, by rw [hs, List.cons_append], List.forall_mem_cons.2 ⟨hu, hrun⟩, h⟩
    · rintro ⟨run, rest, hs, hrun, h⟩
      cases run with
      | nil =>
        rw [hs]
        exact .inl h
      | cons v run =>
        rw [List.cons_append, List.cons.injEq] at hs
        rw [List.forall_mem_cons] at hrun
        exact .inr ⟨hs.1 ▸ hrun.1, run, rest, hs.2, hrun.2, h⟩

variable {terms : Pattern}

theorem spells_many_iff {s : Str} : Spells (.many set :: terms) s ↔
      ∃ run rest, s = run ++ rest ∧ (∀ u ∈ run, set u = true) ∧ Spells terms rest := by
  constructor
  · intro h
    cases h with
    | many hrun h => exact ⟨_, _, rfl, hrun, h⟩
  · rintro ⟨run, rest, rfl, hrun, h⟩
    exact .many hrun h

theorem matchHere_stop (hterms : ∀ term ∈ terms, ¬ term.IsAnchor) (atStart : Bool) (s : Str) :
    matchHere (terms ++ [.stop]) atStart s = true ↔ Spells terms s := by
  induction terms generalizing atStart s with
  | nil =>
    rw [List.nil_append, matchHere, matchHere, Bool.and_true, List.isEmpty_iff]
    constructor
    · intro h
      rw [h]
      exact .nil
    · intro h
      cases h
      rfl
  | cons term terms ih =>
    rw [List.forall_mem_cons] at hterms
    cases term with
    | start => exact absurd trivial hterms.1
    | stop => exact absurd trivial hterms.1
    | one set =>
      cases s with
      | nil =>
        refine iff_of_false Bool.false_ne_true ?_
        intro h
        cases h
      | cons u s =>
        rw [List.cons_append, matchHere, Bool.and_eq_true, ih hterms.2]
        constructor
        · intro h
          exact .one h.1 h.2
        · intro h
          cases h with
          | one hu h => exact ⟨hu, h⟩
    | many set =>
      rw [List.cons_append, matchHere, matchMany_iff (ih hterms.2), spells_many_iff]

theorem search_start (terms : Pattern) (s : Str) : search (.start :: terms) false s = false := by
  induction s with
  | nil => rfl
  | cons u s ih =>
    rw [search, ih, matchHere]
    rfl

theorem test_anchored (hterms : ∀ term ∈ terms, ¬ term.IsAnchor) (s : Str) :
    test (.start :: (terms ++ [.stop])) s = true ↔ Spells terms s := by
  have hhere : matchHere (.start :: (terms ++ [.stop])) true s = true ↔ Spells terms s := by
    rw [matchHere, Bool.true_and, matchHere_stop hterms]
  cases s with
  | nil => exact hhere
  | cons u s =>
    rw [test, search, search_start, Bool.or_false]
    exact hhere

/-! ## Escaped text -/

/-- `input.replace(/[.*+?^${}()|[\]\\]/g, "\\$&")`. -/
def escapeLiteral (s : Str) : Str := s.flatMap fun u => if isSyntax u then [0x5C, u] else [u]

theorem escapeLiteral_append (s t : Str) :
    escapeLiteral (s ++ t) = escapeLiteral s ++ escapeLiteral t := List.flatMap_append

theorem escapeLiteral_cons (u : Nat) (s : Str) :
    escapeLiteral (u :: s) = (if isSyntax u then [0x5C, u] else [u]) ++ escapeLiteral s := rfl

variable {canon : Nat → Nat}

variable {u : Nat}

theorem read_escaped (h : isSyntax u = true) (terms : List Term) (rest : Str) :
    read canon terms (0x5C :: u :: rest) = read canon (.one (literal canon u) :: terms) rest := by
  rw [read, if_pos h] <;> simp

theorem read_plain (h : isSyntax u = false) (terms : List Term) (rest : Str) :
    read canon terms (u :: rest) = read canon (.one (literal canon u) :: terms) rest := by
  rw [read, if_neg (by rw [h]; exact Bool.false_ne_true)]
  all_goals
    intros
    subst_vars
    cases h

theorem read_escapeLiteral (s : Str) (terms : List Term) (rest : Str) :
    read canon terms (escapeLiteral s ++ rest) =
      read canon ((s.map fun u => .one (literal canon u)).reverse ++ terms) rest := by
  induction s generalizing terms with
  | nil => rfl
  | cons u s ih =>
    rw [escapeLiteral_cons, List.map_cons, List.reverse_cons, List.append_assoc,
      List.append_assoc, List.singleton_append]
    by_cases hu : isSyntax u = true
    · rw [if_pos hu, List.cons_append, List.singleton_append, read_escaped hu, ih]
    · rw [if_neg hu, List.singleton_append, read_plain (by simpa using hu), ih]

theorem spells_literals_iff (s t : Str) :
    Spells (s.map fun u => .one (literal canon u)) t ↔ s.map canon = t.map canon := by
  induction s generalizing t with
  | nil =>
    rw [List.map_nil, List.map_nil, eq_comm, List.map_eq_nil_iff]
    constructor
    · intro h
      cases h
      rfl
    · intro h
      rw [h]
      exact .nil
  | cons u s ih =>
    cases t with
    | nil =>
      refine iff_of_false ?_ (by simp)
      intro h
      cases h
    | cons v t =>
      rw [List.map_cons, List.map_cons, List.map_cons, List.cons.injEq, ← ih]
      constructor
      · intro h
        cases h with
        | one hu h => exact ⟨of_decide_eq_true hu, h⟩
      · rintro ⟨hu, h⟩
        exact .one (decide_eq_true hu) h

end RegExp
