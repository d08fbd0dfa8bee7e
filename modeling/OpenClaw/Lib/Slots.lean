import Mathlib.Algebra.Order.Group.Basic
import Mathlib.Algebra.Order.Group.Int
import Mathlib.Order.Bounds.Basic
import Mathlib.Data.Int.Order.Lemmas

/-!
# The next and the previous slot of a schedule

A schedule is a set of times. `LeastAfter S c` and `GreatestBefore S c` say what a lookup from the
time `c` gives: the next slot, the previous slot, or `none` where there is none. Both lookups move
with the schedule (`LeastAfter.shift`, `GreatestBefore.shift`).

`GreatestBefore.eq_some_iff` recognizes a slot on a grid: a lookup from one step past a time finds
the time itself exactly if it is a slot.
-/

namespace Slots

section Ordered

variable {α : Type*} [LinearOrder α] {S : Set α} {c s : α} {r : Option α}

/-- The least slot after a time, if there is one. -/
def LeastAfter (S : Set α) (c : α) : Option α → Prop
  | some s => IsLeast {s | s ∈ S ∧ c < s} s
  | none => ∀ s ∈ S, s ≤ c

/-- The greatest slot before a time, if there is one. -/
def GreatestBefore (S : Set α) (c : α) : Option α → Prop
  | some s => IsGreatest {s | s ∈ S ∧ s < c} s
  | none => ∀ s ∈ S, c ≤ s

theorem LeastAfter.lt (h : LeastAfter S c (some s)) : c < s := h.1.2

theorem GreatestBefore.lt (h : GreatestBefore S c (some s)) : s < c := h.1.2

end Ordered

section Shift

variable {α : Type*} [AddCommGroup α] {S : Set α} {c d s : α} {r : Option α}

/-- The schedule with every slot moved by `d`. -/
def shifted (S : Set α) (d : α) : Set α := {t | t - d ∈ S}

theorem add_mem_shifted : s + d ∈ shifted S d ↔ s ∈ S := by
  simp [shifted]

theorem shifted_zero : shifted S 0 = S := by
  simp [shifted]

variable [LinearOrder α] [IsOrderedAddMonoid α]

/-- The next slot of the moved schedule is found from the time moved back. -/
theorem LeastAfter.shift (h : LeastAfter S (c - d) r) :
    LeastAfter (shifted S d) c (r.map (· + d)) := by
  cases r with
  | none =>
    intro t ht
    exact le_of_sub_nonneg (by simpa using h (t - d) ht)
  | some s =>
    refine ⟨⟨add_mem_shifted.2 h.1.1, sub_lt_iff_lt_add.1 h.1.2⟩, ?_⟩
    rintro t ⟨ht, hct⟩
    have hle := h.2 ⟨ht, sub_lt_sub_right hct d⟩
    exact le_sub_iff_add_le.1 hle

end Shift

theorem GreatestBefore.eq_some_iff {S : Set ℤ} {k t : ℤ} {r : Option ℤ} (hk : 0 < k)
    (hgrid : ∀ s ∈ S, k ∣ s) (h : GreatestBefore S (t + k) r) : r = some t ↔ t ∈ S := by
  constructor
  · rintro rfl
    exact h.1.1
  · intro ht
    cases r with
    | none =>
      have hle := h t ht
      omega
    | some s =>
      have hle := h.2 ⟨ht, (by omega : t < t + k)⟩
      have hlt := h.1.2
      -- the two slots are less than a step apart
      obtain ⟨a, ha⟩ := Int.dvd_sub (hgrid s h.1.1) (hgrid t ht)
      have hzero : a = 0 := by
        have hlo : 0 ≤ a := by
          by_contra hneg
          have : k * a ≤ k * (-1) := Int.mul_le_mul_of_nonneg_left (by omega) hk.le
          omega
        have hhi : a < 1 := by
          by_contra hpos
          have : k * 1 ≤ k * a := Int.mul_le_mul_of_nonneg_left (by omega) hk.le
          omega
        omega
      rw [hzero, mul_zero] at ha
      rw [show s = t by omega]

end Slots
