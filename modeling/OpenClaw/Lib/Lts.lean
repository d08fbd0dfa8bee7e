import Mathlib.Order.WellFounded
import Mathlib.Data.Prod.Lex

/-!
# Labelled transition systems

The notions every stateful component of this development is stated with: the states a system
reaches, invariants of all of them, and halting. A system is an initial predicate and a step
relation `step s a t`, read "in state `s` the event `a` leads to `t`".

* `Reachable.invariant` is the induction rule: what holds at the start and is kept by every step
  holds in every reachable state.
* `Reachable.run` reaches the end of a list of events of a partial step function, and
  `Reachable.run_guarded` of a list of events that each meet a condition.
* `Reachable.restrict` forgets a side condition on the steps of a run.
* `Halts` says that every run from a state is finite; `halts_of_measure` proves it from a
  decreasing measure and an invariant.
-/

namespace Lts

variable {σ α : Type*} {init : σ → Prop} {step : σ → α → σ → Prop}

/-- The states reached from an initial state by finitely many steps. -/
inductive Reachable (init : σ → Prop) (step : σ → α → σ → Prop) : σ → Prop
  | start {s : σ} : init s → Reachable init step s
  | next {s t : σ} {a : α} : Reachable init step s → step s a t → Reachable init step t

variable {s : σ}

variable {I : σ → Prop}

/-- **The invariant rule.** -/
theorem Reachable.invariant (hs : Reachable init step s) (h₀ : ∀ s, init s → I s)
    (h₁ : ∀ s a t, I s → step s a t → I t) : I s := by
  induction hs with
  | start h => exact h₀ _ h
  | next _ h ih => exact h₁ _ _ _ ih h

/-- The steps that also meet a condition on the state before them and the event. -/
def Guarded (step : σ → α → σ → Prop) (cond : σ → α → Prop) (s : σ) (a : α) (t : σ) : Prop :=
  step s a t ∧ cond s a

theorem Reachable.restrict {cond : σ → α → Prop} (hs : Reachable init (Guarded step cond) s) :
    Reachable init step s := by
  induction hs with
  | start h => exact .start h
  | next _ h ih => exact ih.next h.1

/-! ## Runs of a partial step function -/

section Run

variable {next : σ → α → Option σ}

/-- The state a list of events leads to, if each of them can happen. -/
def run (next : σ → α → Option σ) (s : σ) : List α → Option σ
  | [] => some s
  | a :: as => (next s a).bind fun t => run next t as

theorem run_append (s : σ) (as bs : List α) :
    run next s (as ++ bs) = (run next s as).bind fun t => run next t bs := by
  induction as generalizing s with
  | nil => rfl
  | cons a as ih =>
    show (next s a).bind (fun t => run next t (as ++ bs)) =
      ((next s a).bind fun t => run next t as).bind fun t => run next t bs
    rw [Option.bind_assoc]
    simp only [ih]

theorem run_concat (s : σ) (as : List α) (a : α) :
    run next s (as ++ [a]) = (run next s as).bind fun t => next t a := by
  rw [run_append]
  simp only [run, Option.bind_fun_some]

variable {t : σ} {as : List α}

theorem Reachable.run (hs : Reachable init (fun s a t => next s a = some t) s)
    (ht : run next s as = some t) : Reachable init (fun s a t => next s a = some t) t := by
  induction as generalizing s with
  | nil => exact Option.some.inj ht ▸ hs
  | cons a as ih =>
    obtain ⟨s', hs', ht'⟩ := Option.bind_eq_some_iff.1 ht
    exact ih (hs.next hs') ht'

theorem Reachable.run_guarded {cond : σ → α → Prop} [∀ s a, Decidable (cond s a)]
    (hs : Reachable init (Guarded (fun s a t => next s a = some t) cond) s)
    (ht : Lts.run (fun s a => if cond s a then next s a else none) s as = some t) :
    Reachable init (Guarded (fun s a t => next s a = some t) cond) t := by
  induction as generalizing s with
  | nil => exact Option.some.inj ht ▸ hs
  | cons a as ih =>
    obtain ⟨s', hs', ht'⟩ := Option.bind_eq_some_iff.1 ht
    dsimp only at hs'
    by_cases hcond : cond s a
    · rw [if_pos hcond] at hs'
      exact ih (hs.next ⟨hs', hcond⟩) ht'
    · rw [if_neg hcond] at hs'
      cases hs'

end Run

/-! ## Halting -/

/-- Every run of the unlabelled step relation `next` from `s` is finite. -/
def Halts (next : σ → σ → Prop) (s : σ) : Prop := Acc (fun t s => next s t) s

variable {next : σ → σ → Prop}

theorem Halts.intro (h : ∀ t, next s t → Halts next t) : Halts next s := Acc.intro s h

theorem halts_of_measure {β : Type*} {r : β → β → Prop} (hr : WellFounded r) (m : σ → β)
    (hI : ∀ s t, I s → next s t → I t) (hm : ∀ s t, I s → next s t → r (m t) (m s)) (hs : I s) :
    Halts next s := by
  induction hb : m s using hr.induction generalizing s with
  | _ b ih =>
    subst hb
    exact Halts.intro fun t hst => ih (m t) (hm s t hs hst) (hI s t hs hst) rfl

end Lts
