import Mathlib.Data.List.Induction

/-!
# Mapping a list with a state

`mapState f` maps a list from the left; each element reads the state and changes it. What every
step keeps, a whole run keeps (`mapState_induction`). Where each element puts a list of questions to
a second function and is made of the answers (`Asks`), the run puts all the questions, one after the
other (`mapState_of_asks`).
-/

namespace OpenClaw

variable {α β γ δ σ : Type*}

def mapState (f : α → σ → β × σ) : List α → σ → List β × σ
  | [], s => ([], s)
  | a :: as, s => ((f a s).1 :: (mapState f as (f a s).2).1, (mapState f as (f a s).2).2)

variable {f : α → σ → β × σ} {s : σ}

theorem mapState_append (as as' : List α) (s : σ) :
    mapState f (as ++ as') s =
      ((mapState f as s).1 ++ (mapState f as' (mapState f as s).2).1,
        (mapState f as' (mapState f as s).2).2) := by
  induction as generalizing s with
  | nil => rfl
  | cons a as ih => simp [mapState, ih]

theorem length_mapState (as : List α) (s : σ) : (mapState f as s).1.length = as.length := by
  induction as generalizing s with
  | nil => rfl
  | cons a as ih => simp [mapState, ih]

/-- What holds at the start and is kept by each element holds of the run. -/
theorem mapState_induction {P : List α → List β → σ → Prop} (hnil : P [] [] s)
    (hstep : ∀ as bs s a, P as bs s → P (as ++ [a]) (bs ++ [(f a s).1]) (f a s).2)
    (as : List α) : P as (mapState f as s).1 (mapState f as s).2 := by
  induction as using List.reverseRecOn with
  | nil => exact hnil
  | append_singleton as a ih =>
    rw [mapState_append]
    exact hstep as _ _ a ih

/-! ## Outcomes that say whether they are new -/

section

variable {f : α → σ → (β × Bool) × σ}

/-- `f` without what it says of its outcomes. -/
def outcomeOf (f : α → σ → (β × Bool) × σ) (a : α) (s : σ) : β × σ := ((f a s).1.1, (f a s).2)

theorem mapState_outcomeOf (as : List α) (s : σ) :
    mapState (outcomeOf f) as s = ((mapState f as s).1.map Prod.fst, (mapState f as s).2) := by
  induction as generalizing s with
  | nil => rfl
  | cons a as ih => simp [mapState, outcomeOf, ih]

theorem map_fst_of_unchanged {f : α → σ → (α × Bool) × σ}
    (hkept : ∀ a s, (f a s).1.2 = false → (f a s).1.1 = a) {as : List α}
    (h : (mapState f as s).1.any Prod.snd = false) : (mapState f as s).1.map Prod.fst = as := by
  induction as generalizing s with
  | nil => rfl
  | cons a as ih =>
    simp only [mapState, List.any_cons, Bool.or_eq_false_iff] at h
    simp [mapState, hkept a s h.1, ih h.2]

end

/-! ## Questions -/

section

variable {g : γ → σ → δ × σ} {ask : α → List γ} {fill : α → List δ → β}

/-- `f` puts the questions to `g` and is made of the answers. -/
def Asks (f : α → σ → β × σ) (g : γ → σ → δ × σ) (ask : α → List γ) (fill : α → List δ → β) :
    Prop :=
  ∀ a s, f a s = (fill a (mapState g (ask a) s).1, (mapState g (ask a) s).2)

/-- Each element is made of its part of the answers. -/
def fillAll (ask : α → List γ) (fill : α → List δ → β) : List α → List δ → List β
  | [], _ => []
  | a :: as, answers =>
    fill a (answers.take (ask a).length) :: fillAll ask fill as (answers.drop (ask a).length)

theorem mapState_of_asks (h : Asks f g ask fill) (as : List α) (s : σ) :
    mapState f as s =
      (fillAll ask fill as (mapState g (as.flatMap ask) s).1,
        (mapState g (as.flatMap ask) s).2) := by
  induction as generalizing s with
  | nil => rfl
  | cons a as ih =>
    have hlength := length_mapState (f := g) (ask a) s
    simp [mapState, h a, ih, mapState_append, fillAll, ← hlength]

/-- A list of answers for `a`: as many as its questions, each of them good. -/
def IsAnswer (ask : α → List γ) (P : δ → Prop) (a : α) (answers : List δ) : Prop :=
  answers.length = (ask a).length ∧ ∀ answer ∈ answers, P answer

variable {P : δ → Prop}

variable {as : List α} {answers : List δ}

theorem isAnswer_split {a : α} (h : IsAnswer (List.flatMap ask) P (a :: as) answers) :
    IsAnswer ask P a (answers.take (ask a).length) ∧
      IsAnswer (List.flatMap ask) P as (answers.drop (ask a).length) := by
  obtain ⟨hlength, hgood⟩ := h
  rw [List.flatMap_cons, List.length_append] at hlength
  refine ⟨⟨?_, fun answer hmem => hgood answer (List.mem_of_mem_take hmem)⟩, ?_,
    fun answer hmem => hgood answer (List.mem_of_mem_drop hmem)⟩
  · rw [List.length_take]
    omega
  · rw [List.length_drop]
    omega

theorem map_fillAll {κ : Type*} {k : β → κ} {k' : α → κ}
    (h : ∀ a answers, IsAnswer ask P a answers → k (fill a answers) = k' a)
    (hanswers : IsAnswer (List.flatMap ask) P as answers) :
    (fillAll ask fill as answers).map k = as.map k' := by
  induction as generalizing answers with
  | nil => rfl
  | cons a as ih =>
    have hsplit := isAnswer_split hanswers
    simp [fillAll, h a _ hsplit.1, ih hsplit.2]

theorem forall_mem_fillAll {Q : β → Prop}
    (h : ∀ a answers, IsAnswer ask P a answers → Q (fill a answers))
    (hanswers : IsAnswer (List.flatMap ask) P as answers) :
    ∀ b ∈ fillAll ask fill as answers, Q b := by
  induction as generalizing answers with
  | nil => exact fun _ hmem => nomatch hmem
  | cons a as ih =>
    have hsplit := isAnswer_split hanswers
    exact List.forall_mem_cons.2 ⟨h a _ hsplit.1, ih hsplit.2⟩

theorem flatMap_fillAll {ask' : β → List γ} {put : γ → δ → γ}
    (h : ∀ a answers, IsAnswer ask P a answers →
      ask' (fill a answers) = List.zipWith put (ask a) answers)
    (hanswers : IsAnswer (List.flatMap ask) P as answers) :
    (fillAll ask fill as answers).flatMap ask' =
      List.zipWith put (as.flatMap ask) answers := by
  induction as generalizing answers with
  | nil => rfl
  | cons a as ih =>
    have hsplit := isAnswer_split hanswers
    rw [fillAll, List.flatMap_cons, List.flatMap_cons, h a _ hsplit.1, ih hsplit.2,
      ← List.zipWith_append hsplit.1.1.symm, List.take_append_drop]

theorem fillAll_again {fill : α → List δ → α} (h : ∀ a answers, IsAnswer ask P a answers →
      (ask (fill a answers)).length = (ask a).length ∧
        fill (fill a answers) answers = fill a answers)
    (hanswers : IsAnswer (List.flatMap ask) P as answers) :
    fillAll ask fill (fillAll ask fill as answers) answers = fillAll ask fill as answers := by
  induction as generalizing answers with
  | nil => rfl
  | cons a as ih =>
    have hsplit := isAnswer_split hanswers
    have hhead := h a _ hsplit.1
    rw [fillAll, fillAll, hhead.1, hhead.2, ih hsplit.2]

end

end OpenClaw
