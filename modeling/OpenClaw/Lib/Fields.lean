import Mathlib.Data.List.Basic

/-!
# Fields joined by a separator

Texts made of fields with one separator between two of them, as `String.intercalate` makes them. A
field without the separator can be read off the front (`join_cons_inj`), and a text of two fields is
no field without it (`join_cons_ne`).

With a separator behind every field, any fields at all can be cut (`terminated_cut`), and what the
text determines is the fields as they are cut (`terminated_eq_iff`).
-/

namespace Fields

variable {c : Char} {a b : String} {as bs : List String}

/-- The characters of the fields with `c` between them. -/
def join (c : Char) (fields : List String) : List Char := [c].intercalate (fields.map String.toList)

theorem toList_intercalate (c : Char) (fields : List String) :
    (String.intercalate (String.singleton c) fields).toList = join c fields := by
  rw [String.toList_intercalate, String.toList_singleton]
  rfl

theorem join_singleton (c : Char) (a : String) : join c [a] = a.toList := List.intercalate_singleton

theorem join_cons (h : as ≠ []) : join c (a :: as) = a.toList ++ c :: join c as := by
  obtain ⟨b, bs, rfl⟩ := List.exists_cons_of_ne_nil h
  show [c].intercalate (a.toList :: b.toList :: bs.map String.toList) = _
  rfl

theorem cut_inj {α : Type*} {c : α} {xs ys xs' ys' : List α} (hx : c ∉ xs) (hy : c ∉ ys)
    (h : xs ++ c :: xs' = ys ++ c :: ys') : xs = ys ∧ xs' = ys' := by
  induction xs generalizing ys with
  | nil =>
    cases ys with
    | nil => exact ⟨rfl, (List.cons.inj h).2⟩
    | cons y ys => exact absurd ((List.cons.inj h).1 ▸ List.mem_cons_self) hy
  | cons x xs ih =>
    cases ys with
    | nil => exact absurd ((List.cons.inj h).1 ▸ List.mem_cons_self) hx
    | cons y ys =>
      obtain ⟨hhead, htail⟩ := List.cons.inj h
      obtain ⟨hfront, hback⟩ := ih (List.not_mem_of_not_mem_cons hx)
        (List.not_mem_of_not_mem_cons hy) htail
      exact ⟨congrArg₂ _ hhead hfront, hback⟩

/-- The first fields of equal texts are equal, and so are the rests. -/
theorem join_cons_inj (has : as ≠ []) (hbs : bs ≠ []) (ha : c ∉ a.toList) (hb : c ∉ b.toList) :
    join c (a :: as) = join c (b :: bs) ↔ a = b ∧ join c as = join c bs := by
  rw [join_cons has, join_cons hbs]
  constructor
  · intro h
    obtain ⟨hab, hrest⟩ := cut_inj ha hb h
    exact ⟨String.toList_inj.1 hab, hrest⟩
  · rintro ⟨rfl, hrest⟩
    rw [hrest]

theorem mem_join (h : as ≠ []) : c ∈ join c (a :: as) := by
  rw [join_cons h]
  exact List.mem_append_right _ List.mem_cons_self

theorem join_cons_ne (h : as ≠ []) (hb : c ∉ b.toList) : join c (a :: as) ≠ join c [b] := by
  intro heq
  rw [join_singleton] at heq
  exact hb (heq ▸ mem_join h)

/-! ## A separator behind every field -/

section Terminated

variable {α : Type} {c : α}

def terminated (c : α) (fields : List (List α)) : List α := fields.flatMap (· ++ [c])

theorem terminated_cons (c : α) (field : List α) (fields : List (List α)) :
    terminated c (field :: fields) = field ++ c :: terminated c fields := by
  rw [terminated, List.flatMap_cons, List.append_assoc]
  rfl

theorem terminated_append (xs ys : List (List α)) :
    terminated c (xs ++ ys) = terminated c xs ++ terminated c ys := List.flatMap_append

theorem terminated_inj {xs ys : List (List α)} (hx : ∀ x ∈ xs, c ∉ x) (hy : ∀ y ∈ ys, c ∉ y)
    (h : terminated c xs = terminated c ys) : xs = ys := by
  induction xs generalizing ys with
  | nil =>
    cases ys with
    | nil => rfl
    | cons y ys =>
      exact absurd h.symm (by simp [terminated])
  | cons x xs ih =>
    cases ys with
    | nil =>
      exact absurd h (by simp [terminated])
    | cons y ys =>
      rw [List.forall_mem_cons] at hx hy
      rw [terminated_cons, terminated_cons] at h
      obtain ⟨hxy, hrest⟩ := cut_inj hx.1 hy.1 h
      rw [hxy, ih hx.2 hy.2 hrest]

variable {fields : List (List α)}

theorem intercalate_append_singleton (h : fields ≠ []) :
    [c].intercalate fields ++ [c] = terminated c fields := by
  induction fields with
  | nil => exact absurd rfl h
  | cons field fields ih =>
    cases fields with
    | nil => rw [List.intercalate_singleton, terminated_cons]; rfl
    | cons next fields =>
      rw [List.intercalate_cons_cons, List.append_assoc, List.append_assoc, ih (by simp),
        terminated_cons c field]
      rfl

variable [DecidableEq α]

/-- The pieces of a field between separators. -/
def cut (c : α) : List α → List (List α)
  | [] => [[]]
  | x :: xs =>
    if x = c then [] :: cut c xs
    else
      match cut c xs with
      | [] => [[x]]
      | piece :: pieces => (x :: piece) :: pieces

theorem terminated_cut (c : α) (xs : List α) : terminated c (cut c xs) = xs ++ [c] := by
  induction xs with
  | nil => rfl
  | cons x xs ih =>
    rw [cut]
    by_cases hx : x = c
    · rw [if_pos hx, terminated_cons, ih, hx]
      rfl
    · rw [if_neg hx]
      cases hcut : cut c xs with
      | nil =>
        rw [hcut] at ih
        exact absurd ih (by simp [terminated])
      | cons piece pieces =>
        rw [hcut, terminated_cons] at ih
        rw [terminated_cons, List.cons_append, ih]
        rfl

theorem not_mem_of_mem_cut {xs piece : List α} (h : piece ∈ cut c xs) : c ∉ piece := by
  induction xs generalizing piece with
  | nil =>
    rw [cut, List.mem_singleton] at h
    simp [h]
  | cons x xs ih =>
    rw [cut] at h
    by_cases hx : x = c
    · rw [if_pos hx, List.mem_cons] at h
      rcases h with h | h
      · simp [h]
      · exact ih h
    · rw [if_neg hx] at h
      cases hcut : cut c xs with
      | nil =>
        rw [hcut, List.mem_singleton] at h
        rw [h, List.mem_singleton]
        exact Ne.symm hx
      | cons first pieces =>
        rw [hcut, List.mem_cons] at h
        rcases h with h | h
        · rw [h, List.mem_cons, not_or]
          exact ⟨Ne.symm hx, ih (hcut ▸ List.mem_cons_self)⟩
        · exact ih (hcut ▸ List.mem_cons_of_mem first h)

theorem cut_of_not_mem {xs : List α} (h : c ∉ xs) : cut c xs = [xs] := by
  apply terminated_inj (c := c)
  · exact fun _ => not_mem_of_mem_cut
  · intro piece hpiece
    rw [List.mem_singleton] at hpiece
    rwa [hpiece]
  · rw [terminated_cut, terminated_cons]
    rfl

/-- All pieces of the fields. -/
def cutAll (c : α) (fields : List (List α)) : List (List α) := fields.flatMap (cut c)

theorem cutAll_cons (field : List α) (fields : List (List α)) :
    cutAll c (field :: fields) = cut c field ++ cutAll c fields := List.flatMap_cons

theorem terminated_cutAll (fields : List (List α)) :
    terminated c (cutAll c fields) = terminated c fields := by
  induction fields with
  | nil => rfl
  | cons field fields ih =>
    rw [cutAll_cons, terminated_append, terminated_cut, ih, terminated_cons, List.append_assoc]
    rfl

theorem not_mem_of_mem_cutAll {piece : List α} (h : piece ∈ cutAll c fields) : c ∉ piece := by
  obtain ⟨field, -, hpiece⟩ := List.mem_flatMap.1 h
  exact not_mem_of_mem_cut hpiece

theorem cutAll_eq_self (h : ∀ field ∈ fields, c ∉ field) : cutAll c fields = fields := by
  induction fields with
  | nil => rfl
  | cons field fields ih =>
    rw [List.forall_mem_cons] at h
    rw [cutAll_cons, cut_of_not_mem h.1, ih h.2]
    rfl

theorem cutAll_eq_nil : cutAll c fields = [] ↔ fields = [] := by
  constructor
  · intro h
    have hterminated := terminated_cutAll (c := c) fields
    rw [h] at hterminated
    cases fields with
    | nil => rfl
    | cons field fields =>
      exact absurd hterminated (by simp [terminated])
  · intro h
    rw [h]
    rfl

theorem terminated_eq_iff {xs ys : List (List α)} (hy : ∀ y ∈ ys, c ∉ y) :
    terminated c xs = terminated c ys ↔ cutAll c xs = ys := by
  constructor
  · intro h
    apply terminated_inj (fun _ => not_mem_of_mem_cutAll) hy
    rw [terminated_cutAll, h]
  · intro h
    rw [← h, terminated_cutAll]

/-- A function that moves no unit to or from the separator respects the cuts. -/
theorem cutAll_map {f : α → α} (hf : ∀ x, f x = c ↔ x = c) (fields : List (List α)) :
    cutAll c (fields.map (List.map f)) = (cutAll c fields).map (List.map f) := by
  have hmem : ∀ piece : List α, c ∉ piece → c ∉ piece.map f := by
    intro piece hpiece h
    obtain ⟨x, hx, hfx⟩ := List.mem_map.1 h
    rw [hf] at hfx
    exact hpiece (hfx ▸ hx)
  have hterminated : ∀ fields : List (List α),
      terminated c (fields.map (List.map f)) = (terminated c fields).map f := by
    intro fields
    induction fields with
    | nil => rfl
    | cons field fields ih =>
      rw [List.map_cons, terminated_cons, terminated_cons, ih, List.map_append, List.map_cons,
        (hf c).2 rfl]
  rw [← terminated_eq_iff]
  · rw [hterminated, hterminated, terminated_cutAll]
  · intro piece hpiece
    obtain ⟨whole, hwhole, rfl⟩ := List.mem_map.1 hpiece
    exact hmem whole (not_mem_of_mem_cutAll hwhole)

end Terminated

end Fields
