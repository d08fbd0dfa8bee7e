import Mathlib.Data.List.Forall2

/-!
# Lists related element by element

Two rules for `List.Forall₂`, for passes that treat the elements of a list one by one.
-/

namespace List.Forall₂

variable {α β γ : Type*} {R : α → β → Prop} {as : List α} {bs : List β}

theorem exists_left (h : Forall₂ R as bs) {b : β} (hb : b ∈ bs) : ∃ a ∈ as, R a b := by
  induction h with
  | nil => cases hb
  | cons hab _ ih =>
    rcases mem_cons.1 hb with rfl | hb
    · exact ⟨_, mem_cons_self .., hab⟩
    · obtain ⟨a, ha, hR⟩ := ih hb
      exact ⟨a, mem_cons_of_mem _ ha, hR⟩

theorem map_eq {f : α → γ} {g : β → γ} (h : Forall₂ (fun a b => g b = f a) as bs) :
    bs.map g = as.map f := by
  induction h with
  | nil => rfl
  | cons hab _ ih => rw [map_cons, map_cons, hab, ih]

end List.Forall₂
