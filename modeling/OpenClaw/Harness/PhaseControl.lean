import OpenClaw.Lib.Lts
import Mathlib.Data.List.Basic

/-!
# Who holds the phase

What `phase`, `runPromise` and `runAbortController` are for, without what runs do in between. A run
starts, gets a controller, hands the phase back, lets go of the controller and finishes; an
exclusive operation takes the phase and leaves. The three fields are set as the harness sets them,
whatever their values.

* `HoldsPhase`: the operation has changed the phase and not handed it back.
* `InProgress`: it has changed the phase and not done its last cleanup.
* `Orderly`: at most one operation holds the phase, which is idle exactly when none does. It is kept
  as long as no run that has handed back the phase resets it under another one (`Keeps`).
* `Exclusive`: at most one operation is in progress, and the other two fields are those of a run in
  progress. It is kept as long as no operation begins beside another (`Alone`).
-/

namespace OpenClaw.Harness.PhaseControl

inductive RunAt
  | starting
  /-- It has a controller. -/
  | live
  | unwound (failed : Bool)
  | settled
  deriving DecidableEq

inductive OpControl
  | run (stage : RunAt) (handedBack : Bool)
  | exclusive (settled : Bool)
  deriving DecidableEq

/-- The operation is between its phase change and its last cleanup. -/
def OpControl.inProgress : OpControl → Bool
  | .run .settled _ => false
  | .run _ _ => true
  | .exclusive settled => !settled

/-- The operation is between its phase change and its return of the phase. -/
def OpControl.holdsPhase : OpControl → Bool
  | .run .settled _ => false
  | .run _ handedBack => !handedBack
  | .exclusive settled => !settled

theorem OpControl.inProgress_of_holdsPhase {op : OpControl} (h : op.holdsPhase = true) :
    op.inProgress = true := by
  cases op with
  | run stage handedBack => cases stage <;> simp_all [holdsPhase, inProgress]
  | exclusive settled => exact h

end PhaseControl

structure PhaseControl where
  idle : Bool
  runPromise : Option Nat
  runAbortController : Option Nat
  resolved : List Nat
  ops : List PhaseControl.OpControl

namespace PhaseControl

inductive Action
  | beginRun
  | beginExclusive
  | leave (id : Nat)
  | takeController (id : Nat)
  | reject (id : Nat)
  | handBack (id : Nat)
  | letGo (id : Nat) (failed : Bool)
  | finish (id : Nat) (failed : Bool)
  | nothing

/-- The action of an operation puts it into a new state. -/
inductive Moves : OpControl → Action → OpControl → Prop
  | leave (id : Nat) : Moves (.exclusive false) (.leave id) (.exclusive true)
  | takeController (id : Nat) (b : Bool) :
    Moves (.run .starting b) (.takeController id) (.run .live b)
  | reject (id : Nat) (b : Bool) : Moves (.run .starting b) (.reject id) (.run (.unwound true) b)
  | handBack (id : Nat) (b : Bool) : Moves (.run .live b) (.handBack id) (.run .live true)
  | letGo (id : Nat) (failed b : Bool) (h : failed = false → b = true) :
    Moves (.run .live b) (.letGo id failed) (.run (.unwound failed) b)
  | finish (id : Nat) (failed b : Bool) (h : failed = false → b = true) :
    Moves (.run (.unwound failed) b) (.finish id failed) (.run .settled b)

/-- The three fields after an action. -/
def fields (c : PhaseControl) : Action → PhaseControl
  | .leave _ | .handBack _ => { c with idle := true }
  | .takeController id => { c with runAbortController := some id }
  | .letGo _ _ => { c with runAbortController := none }
  | .finish id failed =>
    { c with idle := failed || c.idle, runPromise := none, resolved := c.resolved ++ [id] }
  | _ => c

def Action.id? : Action → Option Nat
  | .leave id | .takeController id | .reject id | .handBack id | .letGo id _ | .finish id _ =>
    some id
  | .beginRun | .beginExclusive | .nothing => none

inductive Step : PhaseControl → Action → PhaseControl → Prop
  | beginRun (c : PhaseControl) (h : c.idle = true) : Step c .beginRun
    { c with
      idle := false
      runPromise := some c.ops.length
      ops := c.ops ++ [.run .starting false] }
  | beginExclusive (c : PhaseControl) (h : c.idle = true) : Step c .beginExclusive
    { c with idle := false, ops := c.ops ++ [.exclusive false] }
  | move (c : PhaseControl) (a : Action) (id : Nat) (op op' : OpControl) (ha : a.id? = some id)
    (hop : c.ops[id]? = some op) (h : Moves op a op') :
    Step c a { c.fields a with ops := c.ops.set id op' }
  | nothing (c : PhaseControl) : Step c .nothing c

def HoldsPhase (c : PhaseControl) (id : Nat) : Prop :=
  ∃ op, c.ops[id]? = some op ∧ op.holdsPhase = true

def InProgress (c : PhaseControl) (id : Nat) : Prop :=
  ∃ op, c.ops[id]? = some op ∧ op.inProgress = true

/-- At most one operation holds the phase, which is idle exactly when none does. -/
structure Orderly (c : PhaseControl) : Prop where
  unique : ∀ i j, c.HoldsPhase i → c.HoldsPhase j → i = j
  idle_iff : c.idle = true ↔ ∀ i, ¬ c.HoldsPhase i

/-- No run that has handed back the phase sets it to idle under another operation. -/
def Keeps (c : PhaseControl) (a : Action) : Prop :=
  ∀ id stage, a = .handBack id ∨ a = .finish id true → c.ops[id]? = some (.run stage true) →
    c.idle = true

/-- An operation begins only when none is in progress. -/
def Alone (c : PhaseControl) (a : Action) : Prop :=
  a = .beginRun ∨ a = .beginExclusive → ∀ i, ¬ c.InProgress i

/-- The fields that belong to a run in progress. -/
structure RunFields (c : PhaseControl) (id : Nat) (stage : RunAt) : Prop where
  promise : c.runPromise = some id
  pending : id ∉ c.resolved
  controller : stage = .live → c.runAbortController = some id

structure Exclusive (c : PhaseControl) : Prop where
  unique : ∀ i j, c.InProgress i → c.InProgress j → i = j
  run : ∀ id stage b, c.ops[id]? = some (.run stage b) → stage ≠ .settled → c.RunFields id stage
  resolved_lt : ∀ id ∈ c.resolved, id < c.ops.length
  orderly : c.Orderly

/-- Nothing has begun. -/
def Fresh (c : PhaseControl) : Prop :=
  c.idle = true ∧ c.resolved = [] ∧ c.ops = []

variable {c : PhaseControl}

theorem HoldsPhase.inProgress {i : Nat} (h : c.HoldsPhase i) : c.InProgress i := by
  obtain ⟨op, hop, hholds⟩ := h
  exact ⟨op, hop, OpControl.inProgress_of_holdsPhase hholds⟩

/-! ## A list of operations with a new one at the end, or one changed -/

section Ops

variable {α : Type*} {ops : List α} {new op : α} {p : α → Bool}

theorem getElem?_append_new {i : Nat} :
    (ops ++ [new])[i]? = some op ↔ ops[i]? = some op ∨ i = ops.length ∧ op = new := by
  rcases lt_trichotomy i ops.length with h | h | h
  · rw [List.getElem?_append_left h]
    exact ⟨.inl, fun h' => h'.resolve_right fun h'' => (h''.1 ▸ h).false⟩
  · subst h
    simp [eq_comm]
  · rw [List.getElem?_eq_none (by simp; omega)]
    simp [List.getElem?_eq_none h.le, h.ne']

theorem getElem?_set_iff {id i : Nat} {old : α} (hold : ops[id]? = some old) :
    (ops.set id new)[i]? = some op ↔ i = id ∧ op = new ∨ i ≠ id ∧ ops[i]? = some op := by
  have hlt : id < ops.length := (List.getElem?_eq_some_iff.1 hold).1
  by_cases hi : i = id
  · subst hi
    simp [hlt, eq_comm]
  · rw [List.getElem?_set_ne (Ne.symm hi)]
    simp [hi]

end Ops

/-! ## One step -/

section Step

variable {c : PhaseControl} {a : Action} {id : Nat} {op op' : OpControl}

variable {i : Nat} {c' : PhaseControl}

theorem holdsPhase_begin {new : OpControl} (h : new.holdsPhase = true)
    (hops : c'.ops = c.ops ++ [new]) : c'.HoldsPhase i ↔ c.HoldsPhase i ∨ i = c.ops.length := by
  simp only [HoldsPhase, hops, getElem?_append_new]
  constructor
  · rintro ⟨op, hop | ⟨hi, -⟩, hholds⟩
    · exact .inl ⟨op, hop, hholds⟩
    · exact .inr hi
  · rintro (⟨op, hop, hholds⟩ | hi)
    · exact ⟨op, .inl hop, hholds⟩
    · exact ⟨new, .inr ⟨hi, rfl⟩, h⟩

theorem inProgress_begin (new : OpControl) (h : new.inProgress = true)
    (hops : c'.ops = c.ops ++ [new]) : c'.InProgress i ↔ c.InProgress i ∨ i = c.ops.length := by
  simp only [InProgress, hops, getElem?_append_new]
  constructor
  · rintro ⟨op, hop | ⟨hi, -⟩, hprog⟩
    · exact .inl ⟨op, hop, hprog⟩
    · exact .inr hi
  · rintro (⟨op, hop, hprog⟩ | hi)
    · exact ⟨op, .inl hop, hprog⟩
    · exact ⟨new, .inr ⟨hi, rfl⟩, h⟩

theorem holdsPhase_move (hop : c.ops[id]? = some op) (hops : c'.ops = c.ops.set id op') :
    c'.HoldsPhase i ↔ i = id ∧ op'.holdsPhase = true ∨ i ≠ id ∧ c.HoldsPhase i := by
  simp only [HoldsPhase, hops, getElem?_set_iff hop]
  constructor
  · rintro ⟨op'', ⟨hi, rfl⟩ | ⟨hi, hop''⟩, hholds⟩
    · exact .inl ⟨hi, hholds⟩
    · exact .inr ⟨hi, op'', hop'', hholds⟩
  · rintro (⟨hi, hholds⟩ | ⟨hi, op'', hop'', hholds⟩)
    · exact ⟨op', .inl ⟨hi, rfl⟩, hholds⟩
    · exact ⟨op'', .inr ⟨hi, hop''⟩, hholds⟩

theorem inProgress_move (hop : c.ops[id]? = some op) (hops : c'.ops = c.ops.set id op') :
    c'.InProgress i ↔ i = id ∧ op'.inProgress = true ∨ i ≠ id ∧ c.InProgress i := by
  simp only [InProgress, hops, getElem?_set_iff hop]
  constructor
  · rintro ⟨op'', ⟨hi, rfl⟩ | ⟨hi, hop''⟩, hprog⟩
    · exact .inl ⟨hi, hprog⟩
    · exact .inr ⟨hi, op'', hop'', hprog⟩
  · rintro (⟨hi, hprog⟩ | ⟨hi, op'', hop'', hprog⟩)
    · exact ⟨op', .inl ⟨hi, rfl⟩, hprog⟩
    · exact ⟨op'', .inr ⟨hi, hop''⟩, hprog⟩

theorem Orderly.begin (hc : c.Orderly) (hidle : c.idle = true) (new : OpControl)
    (h : new.holdsPhase = true) (hops : c'.ops = c.ops ++ [new]) (hidle' : c'.idle = false) :
    c'.Orderly := by
  have hnone := hc.idle_iff.1 hidle
  have hholds : ∀ i, c'.HoldsPhase i ↔ i = c.ops.length := fun i => by
    rw [holdsPhase_begin h hops]
    exact ⟨fun hi => hi.resolve_left (hnone i), .inr⟩
  refine ⟨fun i j hi hj => ((hholds i).1 hi).trans ((hholds j).1 hj).symm, ?_⟩
  rw [hidle']
  exact ⟨fun h => (nomatch h), fun h => absurd ((hholds _).2 rfl) (h _)⟩

theorem Orderly.same (hc : c.Orderly) (hop : c.ops[id]? = some op)
    (hops : c'.ops = c.ops.set id op') (h : op'.holdsPhase = op.holdsPhase)
    (hidle' : c'.idle = c.idle) : c'.Orderly := by
  have hholds : ∀ i, c'.HoldsPhase i ↔ c.HoldsPhase i := fun i => by
    rw [holdsPhase_move hop hops, h]
    by_cases hi : i = id
    · subst hi
      simp [HoldsPhase, hop]
    · simp [hi]
  refine ⟨fun i j hi hj => hc.unique i j ((hholds i).1 hi) ((hholds j).1 hj), ?_⟩
  rw [hidle', hc.idle_iff]
  exact forall_congr' fun i => not_congr (hholds i).symm

theorem Orderly.release (hc : c.Orderly) (hop : c.ops[id]? = some op)
    (hops : c'.ops = c.ops.set id op') (h : op'.holdsPhase = false) (hidle' : c'.idle = true)
    (hwas : op.holdsPhase = true ∨ c.idle = true) : c'.Orderly := by
  have hnone : ∀ i, ¬ c'.HoldsPhase i := fun i hi => by
    rw [holdsPhase_move hop hops, h] at hi
    obtain ⟨hne, hi⟩ := hi.resolve_left fun h => (nomatch h.2)
    rcases hwas with hwas | hwas
    · exact hne (hc.unique i id hi ⟨op, hop, hwas⟩)
    · exact hc.idle_iff.1 hwas i hi
  refine ⟨fun i _ hi => absurd hi (hnone i), ?_⟩
  rw [hidle']
  exact ⟨fun _ => hnone, fun _ => rfl⟩

theorem Orderly.step (hc : c.Orderly) (h : Step c a c') (hk : c.Keeps a) : c'.Orderly := by
  cases h with
  | beginRun hidle => exact hc.begin hidle (.run .starting false) rfl rfl rfl
  | beginExclusive hidle => exact hc.begin hidle (.exclusive false) rfl rfl rfl
  | nothing => exact hc
  | move _ id op op' ha hop hmove =>
    cases hmove with
    | leave =>
      cases ha
      exact hc.release hop rfl rfl rfl (.inl rfl)
    | takeController | reject =>
      cases ha
      exact hc.same hop rfl rfl rfl
    | handBack id b =>
      cases ha
      refine hc.release hop rfl rfl rfl ?_
      cases b with
      | false => exact .inl rfl
      | true => exact .inr (hk id _ (.inl rfl) hop)
    | letGo id failed b =>
      cases ha
      exact hc.same hop rfl rfl rfl
    | finish id failed b hb =>
      cases ha
      cases failed with
      | false =>
        -- a run that ends well has handed the phase back
        cases hb rfl
        exact hc.same hop rfl rfl (Bool.false_or _)
      | true =>
        refine hc.release hop rfl rfl rfl ?_
        cases b with
        | false => exact .inl rfl
        | true => exact .inr (hk id _ (.inr rfl) hop)

theorem Exclusive.keeps (hc : c.Exclusive) (h : Step c a c') : c.Keeps a := by
  intro id stage ha hop
  refine hc.orderly.idle_iff.2 fun i hi => ?_
  have hin : c.InProgress id := by
    refine ⟨_, hop, ?_⟩
    rcases ha with rfl | rfl
    all_goals
      cases h with
      | move _ id' op op' ha' hop' hmove =>
        cases ha'
        cases hop.symm.trans hop'
        cases hmove
        rfl
  -- the phase can only be held by the run itself, which has handed it back
  obtain rfl := hc.unique i id hi.inProgress hin
  obtain ⟨op, hop', hholds⟩ := hi
  cases hop.symm.trans hop'
  cases stage <;> cases hholds

theorem Moves.inProgress (h : Moves op a op') : op.inProgress = true := by
  cases h <;> rfl

theorem Exclusive.step (hc : c.Exclusive) (h : Step c a c') (ha : c.Alone a) : c'.Exclusive := by
  have horderly := hc.orderly.step h (hc.keeps h)
  cases h with
  | nothing => exact hc
  | beginRun =>
    have hnone := ha (.inl rfl)
    have hin : ∀ i, InProgress { c with
        idle := false
        runPromise := some c.ops.length
        ops := c.ops ++ [.run .starting false] } i ↔ c.InProgress i ∨ i = c.ops.length :=
      fun i => inProgress_begin (.run .starting false) rfl rfl
    refine ⟨fun i j hi hj => ?_, fun id stage b hop hstage => ?_, fun id hid => ?_, horderly⟩
    · rw [((hin i).1 hi).resolve_left (hnone i), ((hin j).1 hj).resolve_left (hnone j)]
    · rcases getElem?_append_new.1 hop with hop | ⟨rfl, hnew⟩
      · refine absurd ⟨_, hop, ?_⟩ (hnone id)
        cases stage <;> first | rfl | exact absurd rfl hstage
      · cases hnew
        exact ⟨rfl, fun hid => (hc.resolved_lt _ hid).false, fun h => (nomatch h)⟩
    · have := hc.resolved_lt id hid
      simp only [List.length_append, List.length_singleton]
      omega
  | beginExclusive =>
    have hnone := ha (.inr rfl)
    have hin : ∀ i, InProgress { c with idle := false, ops := c.ops ++ [.exclusive false] } i ↔
        c.InProgress i ∨ i = c.ops.length :=
      fun i => inProgress_begin (.exclusive false) rfl rfl
    refine ⟨fun i j hi hj => ?_, fun id stage b hop hstage => ?_, fun id hid => ?_, horderly⟩
    · rw [((hin i).1 hi).resolve_left (hnone i), ((hin j).1 hj).resolve_left (hnone j)]
    · rcases getElem?_append_new.1 hop with hop | ⟨-, hnew⟩
      · refine absurd ⟨_, hop, ?_⟩ (hnone id)
        cases stage <;> first | rfl | exact absurd rfl hstage
      · cases hnew
    · have := hc.resolved_lt id hid
      simp only [List.length_append, List.length_singleton]
      omega
  | move _ id op op' hid hop hmove =>
    have hprog : c.InProgress id := ⟨op, hop, hmove.inProgress⟩
    have hlt : id < c.ops.length := (List.getElem?_eq_some_iff.1 hop).1
    have hother : ∀ i, i ≠ id → ¬ c.InProgress i := fun i hi h => hi (hc.unique i id h hprog)
    refine ⟨fun i j hi hj => ?_, fun i stage b hi hstage => ?_, fun i hi => ?_, horderly⟩
    · have honly : ∀ k, InProgress { c.fields a with ops := c.ops.set id op' } k → k = id :=
        fun k hk => by
          have hmoved : k = id ∧ op'.inProgress = true ∨ k ≠ id ∧ c.InProgress k :=
            (inProgress_move hop rfl).1 hk
          rcases hmoved with h | h
          · exact h.1
          · exact absurd h.2 (hother k h.1)
      rw [honly i hi, honly j hj]
    · rcases (getElem?_set_iff hop).1 hi with ⟨rfl, rfl⟩ | ⟨hne, hi⟩
      · cases hmove with
        | takeController =>
          cases hid
          have hrun := hc.run _ _ _ hop (fun h => (nomatch h))
          exact ⟨hrun.promise, hrun.pending, fun _ => rfl⟩
        | handBack =>
          cases hid
          have hrun := hc.run _ _ _ hop (fun h => (nomatch h))
          exact ⟨hrun.promise, hrun.pending, hrun.controller⟩
        | reject | letGo =>
          cases hid
          have hrun := hc.run _ _ _ hop (fun h => (nomatch h))
          exact ⟨hrun.promise, hrun.pending, fun h => (nomatch h)⟩
        | finish => exact absurd rfl hstage
      · refine absurd ⟨_, hi, ?_⟩ (hother i hne)
        cases stage <;> first | rfl | exact absurd rfl hstage
    · have hsame : i ∈ c.resolved ∨ i = id := by
        cases hmove with
        | finish =>
          cases hid
          rcases List.mem_append.1 hi with hi | hi
          · exact .inl hi
          · exact .inr (List.mem_singleton.1 hi)
        | _ => exact .inl hi
      show i < (c.ops.set id op').length
      rw [List.length_set]
      rcases hsame with h | rfl
      · exact hc.resolved_lt i h
      · exact hlt

end Step

theorem Fresh.orderly (h : c.Fresh) : c.Orderly := by
  have hnone : ∀ i, ¬ c.HoldsPhase i := fun i hi => by
    obtain ⟨op, hop, -⟩ := hi
    rw [h.2.2] at hop
    cases hop
  exact ⟨fun i _ hi => absurd hi (hnone i), fun _ => hnone, fun _ => h.1⟩

theorem Fresh.exclusive (h : c.Fresh) : c.Exclusive where
  unique := fun i _ hi => by
    obtain ⟨op, hop, -⟩ := hi
    rw [h.2.2] at hop
    cases hop
  run := fun id stage b hop => by
    rw [h.2.2] at hop
    cases hop
  resolved_lt := fun id hid => by
    rw [h.2.1] at hid
    cases hid
  orderly := h.orderly

end PhaseControl

end OpenClaw.Harness
