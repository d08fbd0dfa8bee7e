import Mathlib.Data.List.Nodup
import Mathlib.Data.List.Perm.Basic

/-!
# Lists keyed by a function of their entries

A map that keeps the order of insertion, as a list of entries that carry their own key: `get` finds
the entry of a key, and `put` replaces it in its place or adds it at the end.

* `put_of_get_eq_some`, `put_of_get_eq_none`: `put` by cases on what was there.
* `nodup_put`: no key gets a second entry.
-/

namespace KeyedList

variable {α κ : Type*} [DecidableEq κ] (key : α → κ)

/-- The entry of a key. -/
def get (k : κ) (xs : List α) : Option α := xs.find? fun x => decide (key x = k)

/-- The entry takes the place of the one with its key, or comes last. -/
def put (x : α) : List α → List α
  | [] => [x]
  | y :: ys => if key y = key x then x :: ys else y :: put x ys

variable {key} {x y : α} {xs : List α} {k : κ}

theorem key_of_get (h : get key k xs = some x) : key x = k := by
  simpa using List.find?_some h

theorem mem_of_get (h : get key k xs = some x) : x ∈ xs := List.mem_of_find?_eq_some h

theorem get_eq_none_iff : get key k xs = none ↔ ∀ x ∈ xs, key x ≠ k := by
  simp [get]

theorem put_of_get_eq_none (h : get key (key x) xs = none) : put key x xs = xs ++ [x] := by
  rw [get_eq_none_iff] at h
  induction xs with
  | nil => rfl
  | cons z zs ih =>
    rw [put, if_neg (h z List.mem_cons_self), ih fun w hw => h w (List.mem_cons_of_mem z hw)]
    rfl

example : put id 2 [1] = [1, 2] := by simp [put]

theorem put_of_get_eq_some (h : get key (key x) xs = some y) :
    ∃ front back, xs = front ++ y :: back ∧ put key x xs = front ++ x :: back := by
  induction xs with
  | nil => cases h
  | cons z zs ih =>
    by_cases hz : key z = key x
    · rw [get, List.find?_cons_of_pos (by simpa using hz)] at h
      cases h
      refine ⟨[], zs, rfl, ?_⟩
      rw [put, if_pos hz]
      rfl
    · rw [get, List.find?_cons_of_neg (by simpa using hz)] at h
      obtain ⟨front, back, hzs, hput⟩ := ih h
      refine ⟨z :: front, back, by rw [hzs]; rfl, ?_⟩
      rw [put, if_neg hz, hput]
      rfl

theorem get_put : get key k (put key x xs) = if key x = k then some x else get key k xs := by
  induction xs with
  | nil =>
    by_cases hk : key x = k
    · rw [if_pos hk, put, get, List.find?_cons_of_pos (by simpa using hk)]
    · rw [if_neg hk, put, get, List.find?_cons_of_neg (by simpa using hk)]
      rfl
  | cons z zs ih =>
    rw [put]
    by_cases hz : key z = key x
    · rw [if_pos hz]
      by_cases hk : key x = k
      · rw [if_pos hk, get, List.find?_cons_of_pos (by simpa using hk)]
      · rw [if_neg hk, get, get, List.find?_cons_of_neg (by simpa using hk),
          List.find?_cons_of_neg (by simpa [hz] using hk)]
    · rw [if_neg hz]
      by_cases hk : key z = k
      · have hne : key x ≠ k := fun heq => hz (hk.trans heq.symm)
        rw [if_neg hne, get, get, List.find?_cons_of_pos (by simpa using hk),
          List.find?_cons_of_pos (by simpa using hk)]
      · rw [get, List.find?_cons_of_neg (by simpa using hk)]
        refine ih.trans ?_
        rw [get, get, List.find?_cons_of_neg (by simpa using hk)]

theorem get_put_self : get key (key x) (put key x xs) = some x := by rw [get_put, if_pos rfl]

theorem get_filter_ne (gone : κ) :
    get key k (xs.filter fun x => key x ≠ gone) = if k = gone then none else get key k xs := by
  unfold get
  rw [List.find?_filter]
  by_cases hk : k = gone
  · rw [if_pos hk, List.find?_eq_none]
    intro z _
    simp only [decide_eq_true_eq, not_and]
    exact fun hz heq => hz (heq.trans hk)
  · rw [if_neg hk]
    refine congrArg (fun p => xs.find? p) (funext fun z => ?_)
    by_cases hz : key z = k
    · have hne : key z ≠ gone := fun heq => hk (hz.symm.trans heq)
      simp [hz, hk]
    · simp [hz]

theorem mem_put (h : y ∈ put key x xs) : y = x ∨ y ∈ xs := by
  induction xs with
  | nil => exact .inl (List.mem_singleton.1 h)
  | cons z zs ih =>
    rw [put] at h
    split at h
    · rcases List.mem_cons.1 h with h | h
      · exact .inl h
      · exact .inr (List.mem_cons_of_mem z h)
    · rcases List.mem_cons.1 h with h | h
      · exact .inr (h ▸ List.mem_cons_self)
      · exact (ih h).imp_right (List.mem_cons_of_mem z)

theorem mem_put_self (x : α) (xs : List α) : x ∈ put key x xs := by
  induction xs with
  | nil => exact List.mem_singleton_self x
  | cons z zs ih =>
    rw [put]
    split
    · exact List.mem_cons_self
    · exact List.mem_cons_of_mem z ih

theorem mem_put_of_ne (h : y ∈ xs) (hne : key y ≠ key x) : y ∈ put key x xs := by
  induction xs with
  | nil => cases h
  | cons z zs ih =>
    rw [put]
    split
    · rename_i hz
      rcases List.mem_cons.1 h with rfl | h
      · exact absurd hz hne
      · exact List.mem_cons_of_mem x h
    · rcases List.mem_cons.1 h with rfl | h
      · exact List.mem_cons_self
      · exact List.mem_cons_of_mem z (ih h)

section

variable (h : (xs.map key).Nodup)
include h

theorem nodup_put : ((put key x xs).map key).Nodup := by
  cases hget : get key (key x) xs with
  | none =>
    rw [put_of_get_eq_none hget, List.map_append, List.nodup_append]
    refine ⟨h, List.nodup_singleton _, ?_⟩
    rintro k hk _ hx rfl
    obtain ⟨y, hy, hyk⟩ := List.mem_map.1 hk
    rw [List.map_singleton, List.mem_singleton] at hx
    exact get_eq_none_iff.1 hget y hy (hyk.trans hx)
  | some y =>
    obtain ⟨front, back, hxs, hput⟩ := put_of_get_eq_some hget
    rw [hput, List.map_append, List.map_cons, ← key_of_get hget, ← List.map_cons,
      ← List.map_append, ← hxs]
    exact h

theorem get_eq_some_of_mem (hy : y ∈ xs) : get key (key y) xs = some y := by
  cases hget : get key (key y) xs with
  | none => exact absurd rfl (get_eq_none_iff.1 hget y hy)
  | some z => rw [List.inj_on_of_nodup_map h (mem_of_get hget) hy (key_of_get hget)]

theorem eq_of_get (hget : get key k xs = some y) (hx : x ∈ xs) (hkey : key x = k) : x = y := by
  have hx := get_eq_some_of_mem h hx
  rw [hkey, hget] at hx
  exact (Option.some.inj hx).symm

theorem mem_put_iff : y ∈ put key x xs ↔ y = x ∨ y ∈ xs ∧ key y ≠ key x := by
  constructor
  · intro hy
    by_cases hkey : key y = key x
    · exact .inl (eq_of_get (nodup_put h) get_put_self hy hkey)
    · exact .inr ⟨(mem_put hy).resolve_left fun heq => hkey (heq ▸ rfl), hkey⟩
  · intro hy
    cases hy with
    | inl heq =>
      rw [heq]
      exact mem_put_self x xs
    | inr hy => exact mem_put_of_ne hy.1 hy.2

end

theorem put_eq_self (h : get key (key x) xs = some x) : put key x xs = xs := by
  obtain ⟨front, back, hxs, hput⟩ := put_of_get_eq_some h
  rw [hput, hxs]

theorem filter_ne_eq_self (h : get key k xs = none) : (xs.filter fun x => key x ≠ k) = xs := by
  rw [List.filter_eq_self]
  intro x hx
  exact decide_eq_true (get_eq_none_iff.1 h x hx)

section Map

variable {f : α → α} (hf : ∀ x, key (f x) = key x)

include hf

/-- A function that keeps the keys can be applied to the entry or to the list. -/
theorem map_put : (put key x xs).map f = put key (f x) (xs.map f) := by
  induction xs with
  | nil => rfl
  | cons y ys ih =>
    rw [put, List.map_cons, put, hf, hf]
    by_cases hkey : key y = key x
    · rw [if_pos hkey, if_pos hkey, List.map_cons]
    · rw [if_neg hkey, if_neg hkey, List.map_cons, ih]

theorem map_filter_ne :
    (xs.filter fun x => key x ≠ k).map f = (xs.map f).filter fun x => key x ≠ k := by
  rw [List.filter_map]
  refine congrArg (List.map f) (List.filter_congr fun x _ => ?_)
  simp only [Function.comp_apply, hf]

end Map

end KeyedList
