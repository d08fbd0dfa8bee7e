import Mathlib.Logic.Function.Basic
import OpenClaw.Lib.Interact
import OpenClaw.Lib.Lts

/-!
# Programs that run at once

Any number of programs ask their commands of one environment with a shared state, one command at a
time and in any order. `reachable_known` is the rule for what holds in every reachable state: each
program keeps to a protocol, whose ghost state says what the program knows of the shared one, and
the invariant relates the shared state with what all of them know. A program's own proof is one of
`Interact.Wp`, and is about that program alone; the rest is one lemma about a single answer.
-/

namespace Parallel

open Interact

variable {C : Type} {A : C → Type} {ε α ι σ κ : Type}

structure State (C : Type) (A : C → Type) (ε α ι σ : Type) where
  shared : σ
  runs : ι → Interact C A ε α

/-- What the environment does: it answers a command, or moves on its own. -/
structure Environment (C : Type) (A : C → Type) (ι σ : Type) where
  serves : σ → ι → (c : C) → A c → σ → Prop
  moves : σ → σ → Prop

inductive Event (C : Type) (A : C → Type) (ι : Type)
  | moves
  | answer (i : ι) (c : C) (a : A c)

/-- What every program has left keeps to its protocol. -/
def Keeping (P : ι → Protocol C A κ) (runs : ι → Interact C A ε α) (k : ι → κ) : Prop :=
  ∀ i, Wp (P i) (runs i) (k i) fun _ _ => True

variable {P : ι → Protocol C A κ}

theorem Keeping.allowed {runs : ι → Interact C A ε α} {k : ι → κ} (h : Keeping P runs k) {i : ι}
    {c : C} {f : A c → Interact C A ε α} (hask : runs i = .ask c f) : (P i).allowed (k i) c := by
  have hwp := h i
  rw [hask] at hwp
  exact hwp.1

variable [DecidableEq ι]

inductive Step (env : Environment C A ι σ) :
    State C A ε α ι σ → Event C A ι → State C A ε α ι σ → Prop
  | moves {s : State C A ε α ι σ} {t : σ} :
      env.moves s.shared t → Step env s .moves ⟨t, s.runs⟩
  | answer {s : State C A ε α ι σ} {i : ι} {c : C} {f : A c → Interact C A ε α} {a : A c} {t : σ} :
      s.runs i = .ask c f → env.serves s.shared i c a t →
      Step env s (.answer i c a) ⟨t, Function.update s.runs i (f a)⟩

variable {env : Environment C A ι σ} {init : State C A ε α ι σ → Prop} {s : State C A ε α ι σ}

/-- **The invariant rule.** -/
theorem reachable_known {Inv : σ → (ι → κ) → Prop} {cond : State C A ε α ι σ → Event C A ι → Prop}
    (hinit : ∀ s, init s → ∃ k, Inv s.shared k ∧ Keeping P s.runs k)
    (hmoves : ∀ s t k, Inv s k → env.moves s t → Inv t k)
    (hserves : ∀ s i c f a t k, Inv s.shared k → s.runs i = .ask c f → (P i).allowed (k i) c →
      env.serves s.shared i c a t → cond s (.answer i c a) →
      ∃ k', (P i).next (k i) c a k' ∧ Inv t (Function.update k i k'))
    (hs : Lts.Reachable init (Lts.Guarded (Step env) cond) s) :
    ∃ k, Inv s.shared k ∧ Keeping P s.runs k := by
  refine hs.invariant hinit fun s e t hinv hstep => ?_
  obtain ⟨k, hinv, hkeeping⟩ := hinv
  obtain ⟨hstep, hcond⟩ := hstep
  cases hstep with
  | moves hmove => exact ⟨k, hmoves _ _ _ hinv hmove, hkeeping⟩
  | @answer i c f a t hask hserve =>
    have hwp := hkeeping i
    rw [hask] at hwp
    obtain ⟨k', hnext, hinv'⟩ := hserves s i c f a t k hinv hask hwp.1 hserve hcond
    refine ⟨Function.update k i k', hinv', fun j => ?_⟩
    by_cases hj : j = i
    · subst hj
      simp only [Function.update_self]
      exact hwp.2 a k' hnext
    · simp only [Function.update_of_ne hj]
      exact hkeeping j

/-! ## Replaying a schedule -/

/-- The programs go on in the order of a schedule, each with one answer at a time. -/
def play (serve : σ → ι → (c : C) → Option (A c × σ)) :
    State C A ε α ι σ → List ι → Option (State C A ε α ι σ)
  | s, [] => some s
  | s, i :: schedule =>
    match s.runs i with
    | .ask c f => (serve s.shared i c).bind fun (a, t) =>
      play serve ⟨t, Function.update s.runs i (f a)⟩ schedule
    | _ => none

theorem reachable_play (cond : State C A ε α ι σ → Event C A ι → Prop) {Inv : σ → Prop}
    {serve : σ → ι → (c : C) → Option (A c × σ)}
    (hserve : ∀ (s : State C A ε α ι σ) i c a t, Inv s.shared → serve s.shared i c = some (a, t) →
      env.serves s.shared i c a t ∧ cond s (.answer i c a) ∧ Inv t) {t : State C A ε α ι σ}
    {schedule : List ι} (hs : Lts.Reachable init (Lts.Guarded (Step env) cond) s)
    (hinv : Inv s.shared) (hplay : play serve s schedule = some t) :
    Lts.Reachable init (Lts.Guarded (Step env) cond) t := by
  induction schedule generalizing s with
  | nil =>
    cases hplay
    exact hs
  | cons i schedule ih =>
    unfold play at hplay
    split at hplay
    · next c f hask =>
      obtain ⟨⟨a, t'⟩, hanswer, hplay⟩ := Option.bind_eq_some_iff.1 hplay
      obtain ⟨hserves, hcond, hinv'⟩ := hserve s i c a t' hinv hanswer
      exact ih (hs.next ⟨.answer hask hserves, hcond⟩) hinv' hplay
    · cases hplay

end Parallel
