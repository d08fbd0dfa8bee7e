import Mathlib.Logic.Function.Basic
import Mathlib.Data.List.Basic

/-!
# `src/auto-reply/reply/queue/types.ts`: the lifecycle of a followup run

The six collections of the module, at one lifecycle: whether each of the five sets holds it, and the
admission that `admittingFollowupLifecycles` maps it to. Every run that shares the lifecycle acts on
these. Admissions are numbered; each keeps where its promise stands and the reactions that wait for
it, in the order in which they were registered.

A call runs to its first `await`. The microtask that calls `onAdmitted`, the answer of `onAdmitted`,
the microtask that settles the admission and each reaction to it are steps of their own, which any
call may come between. The other callbacks are synchronous: `onEnqueued` answers at once, and what
`onComplete` and `onCancellationRetired` do comes after the sets are written. `trace` records what
happened, the latest first.
-/

namespace OpenClaw.Followup.Lifecycle

/-- Where the promise of an admission stands. -/
inductive Phase
  /-- `Promise.resolve()`: `onAdmitted` is not called yet. -/
  | scheduled
  | running
  /-- `onAdmitted` has resolved (`true`) or rejected; the last `.then` has not run. -/
  | answered (ok : Bool)
  | settled (ok : Bool)
  deriving DecidableEq, Repr

/-- What runs when an admission has settled. -/
inductive Reaction
  /-- The `finally` of the call that made the admission. -/
  | release (call : Nat)
  /-- `await existing`. -/
  | resume (call : Nat)
  /-- `admission.then(finish, finish)`. -/
  | finish
  deriving DecidableEq, Repr

structure Admission where
  phase : Phase
  reactions : List Reaction
  deriving DecidableEq, Repr

inductive Event
  | enqueued
  | cancellationRetired
  | admissionBegun (n : Nat)
  /-- The call awaits the admission. -/
  | joined (call n : Nat)
  | admittedCalled (n : Nat)
  | admittedAnswered (n : Nat) (ok : Bool)
  | settled (n : Nat) (ok : Bool)
  /-- The call returns, or throws what the admission was rejected with. -/
  | returned (call n : Nat) (ok : Bool)
  | completed
  | completeCalled
  deriving DecidableEq, Repr

structure State where
  enqueued : Bool := false
  admitted : Bool := false
  admitting : Option Nat := none
  retired : Bool := false
  completed : Bool := false
  completedCallback : Bool := false
  begun : Nat := 0
  admission : Nat → Option Admission := fun _ => none
  trace : List Event := []

namespace State

def emit (s : State) (e : Event) : State := { s with trace := e :: s.trace }

def setAdmission (s : State) (n : Nat) (a : Admission) : State :=
  { s with admission := Function.update s.admission n (some a) }

/-- Registers a reaction to an admission. -/
def react (s : State) (n : Nat) (reaction : Reaction) : State :=
  match s.admission n with
  | some a => s.setAdmission n { a with reactions := a.reactions ++ [reaction] }
  | none => s

/-- `markFollowupRunEnqueued`, where `onEnqueued` answers `accepted`. -/
def markFollowupRunEnqueued (s : State) (accepted : Bool) : State × Bool :=
  if s.enqueued then (s, true)
  else if accepted then ({ s.emit .enqueued with enqueued := true }, true)
  else (s, false)

def retireFollowupRunCancellation (s : State) : State :=
  if s.retired then s
  else { s.emit .cancellationRetired with retired := true }

/-- The call `call` of `admitFollowupRunLifecycle`, up to its `await`. `error` is what it throws. -/
def admitFollowupRunLifecycle (s : State) (call : Nat) : Except String State :=
  if s.admitted then .ok s
  else match s.admitting with
    | some n => .ok ((s.react n (.resume call)).emit (.joined call n))
    | none =>
      if s.completed then .error "followup run lifecycle completed before admission"
      else
        let n := s.begun
        .ok (({ s with begun := n + 1, admitting := some n }.setAdmission n
          ⟨.scheduled, [.release call]⟩).emit (.admissionBegun n) |>.emit (.joined call n))

/-- `finish` of `completeFollowupRunLifecycle`. -/
def finish (s : State) : State :=
  if s.completedCallback then s
  else { s.emit .completeCalled with completedCallback := true }

def completeFollowupRunLifecycle (s : State) : State :=
  if s.completed then s
  else
    let s := { s.emit .completed with completed := true }
    match s.admitting with
    | none => s.finish
    | some n => s.react n .finish

/-- A reaction runs, to an admission that has settled as `ok`. -/
def runReaction (s : State) (n : Nat) (ok : Bool) : Reaction → State
  | .release call => { s.emit (.returned call n ok) with admitting := none }
  | .resume call => s.emit (.returned call n ok)
  | .finish => s.finish

end State

inductive Action
  | mark (accepted : Bool)
  | retire
  | beginAdmission (call : Nat)
  | complete
  /-- `.then(async () => await lifecycle.onAdmitted?.())`. -/
  | callAdmitted (n : Nat)
  | answer (n : Nat) (ok : Bool)
  /-- `.then(() => { admittedFollowupLifecycles.add(lifecycle) })`, or its rejection. -/
  | settle (n : Nat)
  | reaction (n : Nat)
  deriving DecidableEq, Repr

open State in
def step (s : State) : Action → Option State
  | .mark accepted => some (s.markFollowupRunEnqueued accepted).1
  | .retire => some s.retireFollowupRunCancellation
  | .beginAdmission call =>
    match s.admitFollowupRunLifecycle call with
    | .ok t => some t
    | .error _ => some s
  | .complete => some s.completeFollowupRunLifecycle
  | .callAdmitted n =>
    match s.admission n with
    | some ⟨.scheduled, reactions⟩ =>
      some ((s.setAdmission n ⟨.running, reactions⟩).emit (.admittedCalled n))
    | _ => none
  | .answer n ok =>
    match s.admission n with
    | some ⟨.running, reactions⟩ =>
      some ((s.setAdmission n ⟨.answered ok, reactions⟩).emit (.admittedAnswered n ok))
    | _ => none
  | .settle n =>
    match s.admission n with
    | some ⟨.answered ok, reactions⟩ =>
      let s := (s.setAdmission n ⟨.settled ok, reactions⟩).emit (.settled n ok)
      some { s with admitted := s.admitted || ok }
    | _ => none
  | .reaction n =>
    match s.admission n with
    | some ⟨.settled ok, reaction :: rest⟩ =>
      some ((s.setAdmission n ⟨.settled ok, rest⟩).runReaction n ok reaction)
    | _ => none

end OpenClaw.Followup.Lifecycle
