import Mathlib.Algebra.BigOperators.Group.List.Basic
import Mathlib.Tactic.Abel

/-!
# Sums over a list with one entry changed

`List.sum_map_set` balances the sum of the new list against the old one; a counter that goes down
with the entry goes down with the list (`List.sum_map_set_lt`).
-/

namespace List

variable {α M : Type*}

variable {xs : List α} {i : Nat} {x : α}

theorem sum_map_set [AddCommMonoid M] (f : α → M) (h : xs[i]? = some x) (y : α) :
    ((xs.set i y).map f).sum + f x = (xs.map f).sum + f y := by
  induction xs generalizing i with
  | nil => cases h
  | cons z xs ih =>
    cases i with
    | zero =>
      cases h
      show f y + (xs.map f).sum + f x = f x + (xs.map f).sum + f y
      abel
    | succ i =>
      show f z + ((xs.set i y).map f).sum + f x = f z + (xs.map f).sum + f y
      rw [add_assoc, ih h, add_assoc]

theorem sum_map_set_lt {f : α → Nat} {y : α} (h : xs[i]? = some x) (hlt : f y < f x) :
    ((xs.set i y).map f).sum < (xs.map f).sum := by
  have hsum := sum_map_set f h y
  omega

end List
