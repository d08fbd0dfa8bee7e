import Mathlib.Data.List.AList
import Mathlib.Data.List.Sort

/-!
# Lists filed in one pass

A loop that files the elements of a list in several places reads the list once. What it leaves in
one place is the elements picked for that place, in their order (`foldl_filterMap`).
Two such lists can be put together again (`merge_filter`), and a list met twice counts once
(`foldl_keepNew_append_self`).
-/

namespace Buckets

variable {β γ σ κ : Type*}

/-! ## What a place holds after the loop -/

theorem foldl_filterMap {f : σ → β → σ} (get : σ → List γ) (pick : β → Option γ)
    (hstep : ∀ s b, get (f s b) = get s ++ (pick b).toList) (bs : List β) (s : σ) :
    get (bs.foldl f s) = get s ++ bs.filterMap pick := by
  induction bs generalizing s with
  | nil => simp
  | cons b bs ih =>
    rw [List.foldl_cons, ih, hstep, List.append_assoc, List.filterMap_cons]
    cases pick b <;> rfl

/-! ## Places named by keys -/

variable [DecidableEq κ] {map : AList fun _ : κ => List β} {k key : κ} {b : β}

/-- What is filed under a key. -/
def entries (map : AList fun _ : κ => List β) (k : κ) : List β := (map.lookup k).getD []

theorem getD_lookup : (map.lookup k).getD [] = entries map k := rfl

@[simp] theorem entries_empty : entries (∅ : AList fun _ : κ => List β) k = [] := by
  simp [entries]

theorem entries_insert :
    entries (map.insert key (entries map key ++ [b])) k =
      entries map k ++ if k = key then [b] else [] := by
  by_cases hk : k = key
  · subst hk
    simp [entries]
  · rw [entries, AList.lookup_insert_ne hk, if_neg hk, List.append_nil]
    rfl

/-! ## Merging -/

omit [DecidableEq κ] in
theorem eq_of_rank_eq {rank : β → Nat} {xs : List β}
    (hsorted : xs.Pairwise fun a b => rank a < rank b) {a : β} (ha : a ∈ xs) (hb : b ∈ xs)
    (hab : rank a = rank b) : a = b := by
  have hne : (xs.map rank).Nodup := by
    rw [List.Nodup, List.pairwise_map]
    exact hsorted.imp Nat.ne_of_lt
  exact List.inj_on_of_nodup_map hne ha hb hab

theorem merge_filter {rank : β → Nat} {p q : β → Bool} {xs : List β}
    (hsorted : xs.Pairwise fun a b => rank a < rank b)
    (hdisjoint : ∀ x ∈ xs, p x = true → q x = false) :
    ((xs.filter p).merge (xs.filter q) fun a b => rank a ≤ rank b) =
      xs.filter fun x => p x || q x := by
  have hle : ∀ r : β → Bool,
      (xs.filter r).Pairwise fun a b => decide (rank a ≤ rank b) = true := fun r =>
    (hsorted.filter r).imp fun hlt => decide_eq_true (Nat.le_of_lt hlt)
  have hperm : ((xs.filter p).merge (xs.filter q) fun a b => rank a ≤ rank b).Perm
      (xs.filter fun x => p x || q x) := by
    refine (List.merge_perm_append _).trans ?_
    have hp : (xs.filter fun x => p x || q x).filter p = xs.filter p := by
      rw [List.filter_filter]
      refine List.filter_congr fun x _ => ?_
      cases p x <;> simp
    have hq : ((xs.filter fun x => p x || q x).filter fun x => !p x) = xs.filter q := by
      rw [List.filter_filter]
      refine List.filter_congr fun x hx => ?_
      cases hpx : p x
      · simp
      · simp [hdisjoint x hx hpx]
    rw [← hp, ← hq]
    exact List.filter_append_perm p _
  have hmem : ∀ r : β → Bool, ∀ a ∈ xs.filter r, a ∈ xs := fun r a => List.mem_of_mem_filter
  refine hperm.eq_of_pairwise (fun a b ha hb hab hba => ?_) ?_ (hle _)
  · have hrank : rank a = rank b := Nat.le_antisymm (by simpa using hab) (by simpa using hba)
    exact eq_of_rank_eq hsorted (hmem _ a (hperm.mem_iff.1 ha)) (hmem _ b hb) hrank
  · refine List.pairwise_merge (fun a b c hab hbc => ?_) (fun a b => ?_) _ _ (hle p) (hle q)
    · simp only [decide_eq_true_eq] at hab hbc ⊢
      exact Nat.le_trans hab hbc
    · simpa using Nat.le_total (rank a) (rank b)

/-! ## Keeping the first of equals -/

/-- An element is kept unless one of the same rank is. -/
def keepNew (rank : β → Nat) (out : List β) (x : β) : List β :=
  if out.any fun seen => rank seen == rank x then out else out ++ [x]

variable {rank : β → Nat} {out xs : List β}

theorem foldl_keepNew_of_seen (h : ∀ x ∈ xs, ∃ seen ∈ out, rank seen = rank x) :
    xs.foldl (keepNew rank) out = out := by
  induction xs with
  | nil => rfl
  | cons x xs ih =>
    have hx : (out.any fun seen => rank seen == rank x) = true := by
      simpa using h x List.mem_cons_self
    rw [List.foldl_cons, keepNew, if_pos hx]
    exact ih fun y hy => h y (List.mem_cons_of_mem x hy)

theorem foldl_keepNew_of_nodup (h : ((out ++ xs).map rank).Nodup) :
    xs.foldl (keepNew rank) out = out ++ xs := by
  induction xs generalizing out with
  | nil => simp
  | cons x xs ih =>
    have hx : ¬(out.any fun seen => rank seen == rank x) = true := by
      intro hany
      obtain ⟨seen, hseen, heq⟩ := List.any_eq_true.1 hany
      rw [List.map_append, List.nodup_append] at h
      exact h.2.2 _ (List.mem_map_of_mem hseen) (rank x) (by simp) (by simpa using heq)
    rw [List.foldl_cons, keepNew, if_neg hx, ih (by simpa using h), List.append_assoc]
    rfl

theorem foldl_keepNew_append_self (h : (xs.map rank).Nodup) :
    (xs ++ xs).foldl (keepNew rank) [] = xs := by
  have hfirst : xs.foldl (keepNew rank) [] = xs := foldl_keepNew_of_nodup (by simpa using h)
  rw [List.foldl_append, hfirst]
  exact foldl_keepNew_of_seen fun x hx => ⟨x, hx, rfl⟩

end Buckets
