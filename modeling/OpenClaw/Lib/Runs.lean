import Mathlib.Data.List.SplitBy

/-!
# Runs of a list

`List.splitBy` cuts a list into its maximal runs. Here: whether two neighbours stay together, and
lists of values that read the last run differently from the others.
-/

namespace OpenClaw.Runs

variable {α β : Type}

/-! ## Neighbours in one piece -/

/-- In a list cut into pieces of these sizes, positions `n` and `n + 1` are in one piece. -/
def Together : List Nat → Nat → Prop
  | [], _ => False
  | size :: sizes, n => n + 1 < size ∨ (size ≤ n ∧ Together sizes (n - size))

@[simp] theorem together_nil (n : Nat) : ¬ Together [] n := id

theorem together_cons (size : Nat) (sizes : List Nat) (n : Nat) :
    Together (size :: sizes) n ↔ n + 1 < size ∨ (size ≤ n ∧ Together sizes (n - size)) := Iff.rfl

theorem together_singleton (size n : Nat) : Together [size] n ↔ n + 1 < size := by
  simp [together_cons]

instance : ∀ sizes n, Decidable (Together sizes n)
  | [], n => isFalse (together_nil n)
  | size :: sizes, n =>
    have := instDecidableTogether sizes (n - size)
    decidable_of_iff _ (together_cons size sizes n).symm

variable {a b : α}

variable {r : α → α → Bool} {n : Nat}

theorem together_flatten_iff {pieces : List (List α)} (hne : [] ∉ pieces)
    (hchain : ∀ piece ∈ pieces, piece.IsChain fun a b => r a b)
    (hcut : pieces.IsChain fun a b => ∃ ha hb, r (a.getLast ha) (b.head hb) = false)
    (ha : pieces.flatten[n]? = some a) (hb : pieces.flatten[n + 1]? = some b) :
    Together (pieces.map List.length) n ↔ r a b = true := by
  induction pieces generalizing n with
  | nil => simp at ha
  | cons piece pieces ih =>
    rw [List.mem_cons, not_or] at hne
    rw [List.flatten_cons] at ha hb
    by_cases hin : n + 1 < piece.length
    · -- both are in this piece
      rw [List.getElem?_append_left (by omega)] at ha
      rw [List.getElem?_append_left hin] at hb
      have hr := List.isChain_iff_getElem.1 (hchain piece List.mem_cons_self) n hin
      rw [List.getElem?_eq_getElem (by omega), Option.some.injEq] at ha
      rw [List.getElem?_eq_getElem hin, Option.some.injEq] at hb
      rw [← ha, ← hb]
      exact iff_of_true (.inl hin) hr
    · by_cases hout : piece.length ≤ n
      · -- both are behind it
        rw [List.getElem?_append_right hout] at ha
        rw [List.getElem?_append_right (by omega),
          show n + 1 - piece.length = n - piece.length + 1 by omega] at hb
        rw [← ih hne.2 (fun p hp => hchain p (List.mem_cons_of_mem _ hp)) hcut.tail ha hb]
        constructor
        · intro h
          rcases h with h | h
          · exact absurd h hin
          · exact h.2
        · intro h
          exact .inr ⟨hout, h⟩
      · -- the cut is between them
        have hn : n + 1 = piece.length := by omega
        rw [List.getElem?_append_left (by omega)] at ha
        rw [List.getElem?_append_right (by omega), hn, Nat.sub_self] at hb
        cases pieces with
        | nil => simp at hb
        | cons next pieces =>
          obtain ⟨hpiece, hnext, hr⟩ := (List.isChain_cons_cons.1 hcut).1
          have hlast : piece.getLast hpiece = a := by
            rw [List.getLast_eq_getElem, ← Option.some.injEq, ← ha,
              List.getElem?_eq_getElem (by omega)]
            congr 2
            omega
          have hhead : next.head hnext = b := by
            rw [List.flatten_cons, List.getElem?_append_left (List.length_pos_iff.2 hnext)] at hb
            rw [List.head_eq_getElem, ← Option.some.injEq, ← hb,
              List.getElem?_eq_getElem (List.length_pos_iff.2 hnext)]
          rw [← hlast, ← hhead, hr]
          refine iff_of_false ?_ (by simp)
          intro h
          rcases h with h | h
          · exact hin h
          · exact hout h.1

variable {l : List α}

theorem together_splitBy_iff (r : α → α → Bool) (ha : l[n]? = some a) (hb : l[n + 1]? = some b) :
    Together ((l.splitBy r).map List.length) n ↔ r a b = true := by
  apply together_flatten_iff (List.nil_notMem_splitBy r l)
    (fun _ => List.isChain_of_mem_splitBy) (List.isChain_getLast_head_splitBy r l)
  · rw [List.flatten_splitBy]
    exact ha
  · rw [List.flatten_splitBy]
    exact hb

theorem splitBy_append_cons {run : List α} (hchain : run.IsChain fun a b => r a b)
    (ha : run.getLast? = some a) (hr : r a b = false) :
    (run ++ b :: l).splitBy r = run :: (b :: l).splitBy r := by
  have hne : run ≠ [] := by
    intro h
    rw [h] at ha
    cases ha
  rw [List.splitBy_append, List.splitBy_of_isChain hne hchain, List.singleton_append]
  intro x hx y hy
  rw [ha, Option.mem_some_iff] at hx
  rw [List.head?_cons, Option.mem_some_iff] at hy
  rw [← hx, ← hy, hr]

/-! ## The last one apart -/

/-- `f` of each but the last, and `g` of the last. -/
def mapLast (f g : α → β) : List α → List β
  | [] => []
  | [a] => [g a]
  | a :: b :: l => f a :: mapLast f g (b :: l)

@[simp] theorem mapLast_nil (f g : α → β) : mapLast f g [] = [] := rfl

@[simp] theorem mapLast_singleton (f g : α → β) (a : α) : mapLast f g [a] = [g a] := rfl

theorem mapLast_cons_of_ne_nil (f g : α → β) (a : α) (h : l ≠ []) :
    mapLast f g (a :: l) = f a :: mapLast f g l := by
  cases l with
  | nil => exact absurd rfl h
  | cons b l => rfl

variable {f g : α → β}

theorem map_mapLast {γ : Type} {k : β → γ} (h : ∀ a, k (f a) = k (g a)) (l : List α) :
    (mapLast f g l).map k = l.map fun a => k (g a) := by
  induction l with
  | nil => rfl
  | cons a l ih =>
    cases l with
    | nil => rfl
    | cons b l =>
      rw [mapLast, List.map_cons, List.map_cons, ih, h]

theorem mapLast_eq_nil : mapLast f g l = [] ↔ l = [] := by
  cases l with
  | nil => simp
  | cons a l => cases l <;> simp [mapLast]

theorem exists_of_mapLast_eq {before after : List β} {x : β}
    (h : mapLast f g l = before ++ x :: after) :
    ∃ pre a post, l = pre ++ a :: post ∧ (post = [] ↔ after = []) ∧
      x = if after = [] then g a else f a := by
  induction l generalizing before with
  | nil => simp at h
  | cons a l ih =>
    by_cases hl : l = []
    · rw [hl, mapLast_singleton] at h
      cases before with
      | nil =>
        rw [List.nil_append, List.cons.injEq] at h
        refine ⟨[], a, [], by rw [hl]; rfl, by simp [← h.2], ?_⟩
        rw [if_pos h.2.symm, h.1]
      | cons y before => simp at h
    · rw [mapLast_cons_of_ne_nil f g a hl] at h
      cases before with
      | nil =>
        rw [List.nil_append, List.cons.injEq] at h
        have hafter : after ≠ [] := by
          rw [← h.2, ne_eq, mapLast_eq_nil]
          exact hl
        refine ⟨[], a, l, rfl, iff_of_false hl hafter, ?_⟩
        rw [if_neg hafter, h.1]
      | cons y before =>
        rw [List.cons_append, List.cons.injEq] at h
        obtain ⟨pre, c, post, hsplit, hpost, hx⟩ := ih h.2
        exact ⟨a :: pre, c, post, by rw [hsplit]; rfl, hpost, hx⟩

end OpenClaw.Runs
