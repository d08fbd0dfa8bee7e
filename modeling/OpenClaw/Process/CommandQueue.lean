import Mathlib.Data.Finset.Card
import Mathlib.Data.Rat.Floor
import Mathlib.Logic.Function.Basic
import OpenClaw.Lib.JsString
import OpenClaw.Lib.Lts

/-!
# `src/process/command-queue.ts`: command lanes

A lane is a queue of entries and a set of active task ids; `drainLane` pumps entries into tasks
while the lane has a free slot. Everything in the file runs synchronously on one stack, except the
tasks themselves and the timers, so the model has two kinds of event:

* *calls* of the exported functions, made when no queue code is running or from inside a callback
  the pump is running (`onWait`, `taskTimeoutProgressAtMs`), and *wake-ups* (a task settles, a
  waiter's timer fires, the clock moves), made only when no queue code is running;
* `resume`, which runs the queue code on top of the stack to its next callback or return.

The stack is explicit, so a callback that calls back into the queue is a run like any other. A
frame is a running `pump` loop, with the synchronous work its caller still has to do afterwards
(`After`), or a callback standing above the loop that invoked it.

Only the effects on the queue state are modelled: log lines are left out, and an entry's promise is
the record of its fate in `settled`.
-/

namespace OpenClaw.CommandQueue

/-- `CommandQueueEnqueueOptions["priority"]`. -/
inductive Priority
  | foreground
  | normal
  | background
  deriving DecidableEq, Repr

/-- `CommandQueueEnqueueOptions`, with the callbacks as flags: whether one was passed. -/
structure CommandQueueEnqueueOptions where
  warnAfterMs : Option Int := none
  onWait : Bool := false
  taskTimeoutMs : Option ℚ := none
  taskTimeoutProgressAtMs : Bool := false
  priority : Option Priority := none
  deriving DecidableEq

/-- `QueueEntry`. `id` is the identity of the entry's promise. -/
structure QueueEntry where
  id : Nat
  enqueuedAt : Int
  sequence : Nat
  priority : Int
  warnAfterMs : Int
  queuedAheadAtEnqueue : Nat
  activeAheadAtEnqueue : Nat
  taskTimeoutMs : Option Int
  taskTimeoutProgressAtMs : Bool
  onWait : Bool
  deriving DecidableEq

structure LaneState where
  lane : String
  queue : List QueueEntry
  activeTaskIds : Finset Nat
  maxConcurrent : Int
  draining : Bool
  generation : Nat
  deriving DecidableEq

/-- `ActiveTaskWaiter`. `id` is the identity of its promise. -/
structure ActiveTaskWaiter where
  id : Nat
  activeTaskIds : Finset Nat
  deriving DecidableEq

/-- A started task that has not settled: the variables its completion code closes over. -/
structure RunningTask where
  lane : String
  taskId : Nat
  taskGeneration : Nat
  entry : Nat
  deriving DecidableEq

/-- How an entry's promise settled. -/
inductive Outcome
  | resolved
  | rejected
  | cleared
  | gatewayDraining
  deriving DecidableEq, Repr

/-- Synchronous work left to do when a pump loop returns. -/
inductive After
  | drainLane (lane : String)
  | pump (lane : String)
  | notifyActiveTaskWaiters
  | settle (entry : Nat) (outcome : Outcome)
  deriving DecidableEq

/-- A frame of the synchronous stack. -/
inductive Frame
  /-- A `pump` loop of `lane`, and what its callers do once it returns. -/
  | pump (lane : String) (after : List After)
  /-- `entry.onWait` is running; `entry` has been shifted off the lane's queue. -/
  | onWait (lane : String) (entry : QueueEntry)
  /-- `entry.taskTimeoutProgressAtMs` is running for the task just started in `lane`. -/
  | progress (lane : String)
  deriving DecidableEq

/-- The frames from which outside code calls the queue. -/
def Frame.isCallback : Frame → Bool
  | .pump .. => false
  | .onWait .. | .progress .. => true

/-- The process-wide queue state, the stack, the tasks and timers in flight, and what has been
settled so far. `lanes` is the lane map and `laneOrder` its keys in insertion order. -/
structure QueueState where
  gatewayDraining : Bool
  lanes : String → Option LaneState
  laneOrder : List String
  activeTaskWaiters : List ActiveTaskWaiter
  nextTaskId : Nat
  nextQueueSequence : Nat
  nextPromise : Nat
  now : Int
  stack : List Frame
  running : List RunningTask
  settled : List (Nat × Outcome)
  waitersSettled : List (Nat × Bool)

/-- The state `getQueueState` creates. -/
def QueueState.initial (now : Int) : QueueState where
  gatewayDraining := false
  lanes := fun _ => none
  laneOrder := []
  activeTaskWaiters := []
  nextTaskId := 1
  nextQueueSequence := 1
  nextPromise := 0
  now := now
  stack := []
  running := []
  settled := []
  waitersSettled := []

/-! ## The state an older version left

The state outlives an in-process restart, so `getQueueState` patches what an older version of the
file did not write. -/

/-- A `QueueEntry` as it may be found in the state. -/
structure StoredEntry where
  id : Nat
  enqueuedAt : Int
  sequence : Option Nat
  priority : Option Int
  warnAfterMs : Int
  queuedAheadAtEnqueue : Option Nat
  activeAheadAtEnqueue : Option Nat
  taskTimeoutMs : Option Int
  taskTimeoutProgressAtMs : Bool
  onWait : Bool

structure StoredLane where
  lane : String
  queue : List StoredEntry
  activeTaskIds : Finset Nat
  maxConcurrent : Int
  draining : Bool
  generation : Nat

structure StoredState where
  gatewayDraining : Bool
  lanes : String → Option StoredLane
  laneOrder : List String
  activeTaskWaiters : Option (List ActiveTaskWaiter)
  nextTaskId : Nat
  nextQueueSequence : Option Nat
  nextPromise : Nat
  now : Int

/-- The two counters of the patching loop. -/
structure SequenceCounters where
  nextQueueSequence : Nat
  maxQueueSequence : Nat

/-- The patch of the entry at an index of its lane's queue. -/
def StoredEntry.migrate (entry : StoredEntry) (active index : Nat) (counters : SequenceCounters) :
    SequenceCounters × QueueEntry :=
  (match entry.sequence with
    | none => { counters with nextQueueSequence := counters.nextQueueSequence + 1 }
    | some sequence =>
      { counters with maxQueueSequence := max counters.maxQueueSequence sequence },
    { id := entry.id
      enqueuedAt := entry.enqueuedAt
      sequence := entry.sequence.getD counters.nextQueueSequence
      priority := entry.priority.getD 0
      warnAfterMs := entry.warnAfterMs
      queuedAheadAtEnqueue := entry.queuedAheadAtEnqueue.getD index
      activeAheadAtEnqueue := entry.activeAheadAtEnqueue.getD active
      taskTimeoutMs := entry.taskTimeoutMs
      taskTimeoutProgressAtMs := entry.taskTimeoutProgressAtMs
      onWait := entry.onWait })

def StoredEntry.migrateAll (active : Nat) : Nat → SequenceCounters → List StoredEntry →
    SequenceCounters × List QueueEntry
  | _, counters, [] => (counters, [])
  | index, counters, entry :: rest =>
    let (counters, migrated) := entry.migrate active index counters
    let (counters, queue) := migrateAll active (index + 1) counters rest
    (counters, migrated :: queue)

def StoredLane.migrate (st : StoredLane) (counters : SequenceCounters) :
    SequenceCounters × LaneState :=
  let (counters, queue) := StoredEntry.migrateAll st.activeTaskIds.card 0 counters st.queue
  (counters,
    { lane := st.lane
      queue := queue
      activeTaskIds := st.activeTaskIds
      maxConcurrent := st.maxConcurrent
      draining := st.draining
      generation := st.generation })

/-- The patching loop over the lanes. -/
def StoredState.migrateLanes (stored : StoredState) : List String → SequenceCounters →
    SequenceCounters × (String → Option LaneState)
  | [], counters => (counters, fun _ => none)
  | name :: rest, counters =>
    match stored.lanes name with
    | none => stored.migrateLanes rest counters
    | some st =>
      let (counters, migrated) := st.migrate counters
      let (counters, lanes) := stored.migrateLanes rest counters
      (counters, Function.update lanes name (some migrated))

def StoredState.firstQueueSequence (stored : StoredState) : Nat :=
  match stored.nextQueueSequence with
  | none | some 0 => 1
  | some n => n

/-- What the patching loop leaves. -/
def StoredState.migrated (stored : StoredState) : SequenceCounters × (String → Option LaneState) :=
  stored.migrateLanes stored.laneOrder
    { nextQueueSequence := stored.firstQueueSequence
      maxQueueSequence := stored.firstQueueSequence - 1 }

/-- `getQueueState`, on the state it finds; no queue code is running. -/
def StoredState.getQueueState (stored : StoredState) : QueueState :=
  let (counters, lanes) := stored.migrated
  { gatewayDraining := stored.gatewayDraining
    lanes := lanes
    laneOrder := stored.laneOrder
    activeTaskWaiters := stored.activeTaskWaiters.getD []
    nextTaskId := stored.nextTaskId
    nextQueueSequence :=
      if counters.nextQueueSequence ≤ counters.maxQueueSequence then counters.maxQueueSequence + 1
      else counters.nextQueueSequence
    nextPromise := stored.nextPromise
    now := stored.now
    stack := []
    running := []
    settled := []
    waitersSettled := [] }

/-! ## Lanes -/

/-- `CommandLane.Main`. -/
def mainLane : String := "main"

def normalizeLane (lane : String) : String :=
  let trimmed := JsString.trim lane
  if trimmed = "" then mainLane else trimmed

def isProbeLane (lane : String) : Bool :=
  JsString.startsWith lane "auth-probe:" || JsString.startsWith lane "session:probe-"

/-- The lane `getLaneState` creates on first use. -/
def LaneState.created (lane : String) : LaneState where
  lane := lane
  queue := []
  activeTaskIds := ∅
  maxConcurrent := 1
  draining := false
  generation := 0

/-- `getLaneState`: the lane, entered in the map if it was not there. -/
def QueueState.getLaneState (s : QueueState) (lane : String) : QueueState × LaneState :=
  match s.lanes lane with
  | some existing => (s, existing)
  | none =>
    let created := LaneState.created lane
    ({ s with lanes := Function.update s.lanes lane (some created),
              laneOrder := s.laneOrder ++ [lane] }, created)

/-- Store a lane's new contents. -/
def QueueState.setLane (s : QueueState) (lane : String) (st : LaneState) : QueueState :=
  { s with lanes := Function.update s.lanes lane (some st) }

/-! ## Waiters -/

/-- Every task id active in some lane. -/
def QueueState.allActiveTaskIds (s : QueueState) : Finset Nat :=
  (s.laneOrder.filterMap s.lanes).foldr (fun st ids => st.activeTaskIds ∪ ids) ∅

def QueueState.hasPendingActiveTasks (s : QueueState) (taskIds : Finset Nat) : Bool :=
  (s.laneOrder.filterMap s.lanes).any fun st => decide (st.activeTaskIds ∩ taskIds).Nonempty

/-- The waiters `notifyActiveTaskWaiters` resolves. -/
def QueueState.isDrained (s : QueueState) (waiter : ActiveTaskWaiter) : Bool :=
  decide (waiter.activeTaskIds = ∅) || !s.hasPendingActiveTasks waiter.activeTaskIds

def QueueState.notifyActiveTaskWaiters (s : QueueState) : QueueState :=
  { s with
    activeTaskWaiters := s.activeTaskWaiters.filter fun w => !s.isDrained w
    waitersSettled := s.waitersSettled ++
      (s.activeTaskWaiters.filter s.isDrained).map fun w => (w.id, true) }

/-! ## The pump -/

/-- `completeTask`: whether the completion belongs to the lane's current generation, and the lane
without the task if so. -/
def completeTask (st : LaneState) (taskId taskGeneration : Nat) : Option LaneState :=
  if taskGeneration ≠ st.generation then none
  else some { st with activeTaskIds := st.activeTaskIds.erase taskId }

/-- `drainLane` up to the start of its loop: nothing if the lane is already draining. -/
def QueueState.drainLane (s : QueueState) (lane : String) (after : List After) :
    Option QueueState :=
  let (s, st) := s.getLaneState lane
  if st.draining then none
  else some { s.setLane lane { st with draining := true } with
    stack := .pump lane after :: s.stack }

/-- Run the synchronous work of a list of callers, up to the next pump loop. -/
def QueueState.runAfter (s : QueueState) : List After → QueueState
  | [] => s
  | .drainLane lane :: rest =>
    match s.drainLane lane rest with
    | some t => t
    | none => s.runAfter rest
  | .pump lane :: rest => { s with stack := .pump lane rest :: s.stack }
  | .notifyActiveTaskWaiters :: rest => s.notifyActiveTaskWaiters.runAfter rest
  | .settle entry outcome :: rest =>
    { s with settled := s.settled ++ [(entry, outcome)] }.runAfter rest

/-- Start a shifted entry's task. The task's timeout reads the progress callback at once, with the
pump still on the stack. -/
def QueueState.activate (s : QueueState) (lane : String) (st : LaneState) (entry : QueueEntry) :
    QueueState :=
  let taskId := s.nextTaskId
  { s.setLane lane { st with activeTaskIds := insert taskId st.activeTaskIds } with
    nextTaskId := taskId + 1
    running := s.running ++ [⟨lane, taskId, st.generation, entry.id⟩]
    stack := if entry.taskTimeoutMs.isSome && entry.taskTimeoutProgressAtMs then
        .progress lane :: s.stack
      else s.stack }

/-- One turn of the `while` loop in `pump`, or its exit. -/
def QueueState.pumpTurn (s : QueueState) (lane : String) (after : List After) (rest : List Frame) :
    Option QueueState := do
  let st ← s.lanes lane
  match st.queue with
  | entry :: queue =>
    if (st.activeTaskIds.card : Int) < st.maxConcurrent then
      let shifted := { st with queue := queue }
      if s.now - entry.enqueuedAt ≥ entry.warnAfterMs && entry.onWait then
        some { s.setLane lane shifted with stack := .onWait lane entry :: s.stack }
      else some (s.activate lane shifted entry)
    else some ({ s.setLane lane { st with draining := false } with stack := rest }.runAfter after)
  | [] => some ({ s.setLane lane { st with draining := false } with stack := rest }.runAfter after)

/-- Run the queue code on top of the stack to its next callback or return. A callback on top
returns to the loop that invoked it. -/
def QueueState.resume (s : QueueState) : Option QueueState :=
  match s.stack with
  | [] => none
  | .pump lane after :: rest => s.pumpTurn lane after rest
  | .onWait lane entry :: rest => do
    let st ← s.lanes lane
    some ({ s with stack := rest }.activate lane st entry)
  | .progress _ :: rest => some { s with stack := rest }

/-! ## Enqueueing -/

def resolveQueuePriority : Option Priority → Int
  | some .foreground => 1
  | some .background => -1
  | _ => 0

def maxTimerTimeoutMs : Int := 2147000000

def normalizeTaskTimeoutMs : Option ℚ → Option Int
  | none => none
  | some value => if value ≤ 0 then none else some (min (max ⌊value⌋ 1) maxTimerTimeoutMs)

/-- The test of `enqueueLaneEntry`'s `findIndex`: `entry` goes before `queued`. -/
def goesBefore (entry queued : QueueEntry) : Bool :=
  decide (queued.priority < entry.priority) ||
    (decide (queued.priority = entry.priority) && decide (queued.sequence > entry.sequence))

def enqueueLaneEntry (st : LaneState) (entry : QueueEntry) : LaneState :=
  let insertAt := st.queue.findIdx (goesBefore entry)
  let entry := { entry with queuedAheadAtEnqueue := insertAt
                            activeAheadAtEnqueue := st.activeTaskIds.card }
  { st with queue := st.queue.insertIdx insertAt entry }

def QueueState.enqueueCommandInLane (s : QueueState) (lane : String)
    (opts : CommandQueueEnqueueOptions) : QueueState :=
  let id := s.nextPromise
  let s := { s with nextPromise := id + 1 }
  if s.gatewayDraining then { s with settled := s.settled ++ [(id, .gatewayDraining)] }
  else
    let cleaned := normalizeLane lane
    let (s, st) := s.getLaneState cleaned
    let entry : QueueEntry :=
      { id := id
        enqueuedAt := s.now
        sequence := s.nextQueueSequence
        priority := resolveQueuePriority opts.priority
        warnAfterMs := opts.warnAfterMs.getD 2000
        queuedAheadAtEnqueue := 0
        activeAheadAtEnqueue := 0
        taskTimeoutMs := normalizeTaskTimeoutMs opts.taskTimeoutMs
        taskTimeoutProgressAtMs := opts.taskTimeoutProgressAtMs
        onWait := opts.onWait }
    { s.setLane cleaned (enqueueLaneEntry st entry) with
      nextQueueSequence := s.nextQueueSequence + 1 }.runAfter [.drainLane cleaned]

/-! ## Control -/

def QueueState.markGatewayDraining (s : QueueState) : QueueState :=
  { s with gatewayDraining := true }

/-- `setCommandLaneConcurrency`, at a finite value. -/
def QueueState.setCommandLaneConcurrency (s : QueueState) (lane : String) (maxConcurrent : ℚ) :
    QueueState :=
  let cleaned := normalizeLane lane
  let (s, st) := s.getLaneState cleaned
  let minConcurrent : Int := if isProbeLane cleaned then 1 else 0
  let st := { st with maxConcurrent := max minConcurrent ⌊maxConcurrent⌋ }
  let s := s.setLane cleaned st
  if st.maxConcurrent > 0 then s.runAfter [.drainLane cleaned] else s

def QueueState.clearCommandLane (s : QueueState) (lane : String) : QueueState :=
  let cleaned := normalizeLane lane
  match s.lanes cleaned with
  | none => s
  | some st =>
    { s.setLane cleaned { st with queue := [] } with
      settled := s.settled ++ st.queue.map fun entry => (entry.id, .cleared) }

/-- What both resets do to a lane. -/
def LaneState.reset (st : LaneState) : LaneState :=
  { st with generation := st.generation + 1, activeTaskIds := ∅, draining := false }

def QueueState.resetCommandLane (s : QueueState) (lane : String) : QueueState :=
  let cleaned := normalizeLane lane
  match s.lanes cleaned with
  | none => s
  | some st =>
    (s.setLane cleaned st.reset).runAfter
      ((if st.queue ≠ [] then [.drainLane cleaned] else []) ++ [.notifyActiveTaskWaiters])

/-- Whether `resetAllLanes` drains the lane after the reset pass. -/
def QueueState.hasQueued (s : QueueState) (lane : String) : Bool :=
  match s.lanes lane with
  | some st => !st.queue.isEmpty
  | none => false

def QueueState.resetAllLanes (s : QueueState) : QueueState :=
  let lanesToDrain := s.laneOrder.filter s.hasQueued
  { s with gatewayDraining := false
           lanes := fun lane => (s.lanes lane).map LaneState.reset }.runAfter
    (lanesToDrain.map After.drainLane ++ [After.notifyActiveTaskWaiters])

def QueueState.waitForActiveTasks (s : QueueState) (timeoutMs : Option Int) : QueueState :=
  let id := s.nextPromise
  let s := { s with nextPromise := id + 1 }
  let activeAtStart := s.allActiveTaskIds
  if activeAtStart = ∅ then { s with waitersSettled := s.waitersSettled ++ [(id, true)] }
  else if timeoutMs.any (· ≤ 0) then { s with waitersSettled := s.waitersSettled ++ [(id, false)] }
  else
    let waiter : ActiveTaskWaiter := { id := id, activeTaskIds := activeAtStart }
    { s with activeTaskWaiters := s.activeTaskWaiters ++ [waiter] }.notifyActiveTaskWaiters

/-! ## Wake-ups -/

/-- The completion code of a task that settled with `outcome`. A completion of an older generation
frees no slot and pumps nothing. -/
def QueueState.finishTask (s : QueueState) (task : RunningTask) (outcome : Outcome) :
    Option QueueState := do
  let st ← s.lanes task.lane
  let s := { s with running := s.running.erase task }
  match completeTask st task.taskId task.taskGeneration with
  | some st' =>
    some ((s.setLane task.lane st').notifyActiveTaskWaiters.runAfter
      [.pump task.lane, .settle task.entry outcome])
  | none => some (s.runAfter [.settle task.entry outcome])

/-- `resolveActiveTaskWaiter` from the waiter's own timer. -/
def QueueState.expireWaiter (s : QueueState) (waiter : ActiveTaskWaiter) : QueueState :=
  { s with activeTaskWaiters := s.activeTaskWaiters.erase waiter
           waitersSettled := s.waitersSettled ++ [(waiter.id, false)] }

/-! ## Runs -/

/-- A call of an exported function. -/
inductive Call
  | enqueueCommandInLane (lane : String) (opts : CommandQueueEnqueueOptions)
  | setCommandLaneConcurrency (lane : String) (maxConcurrent : ℚ)
  | clearCommandLane (lane : String)
  | resetCommandLane (lane : String)
  | resetAllLanes
  | waitForActiveTasks (timeoutMs : Option Int)
  | markGatewayDraining

def QueueState.call (s : QueueState) : Call → QueueState
  | .enqueueCommandInLane lane opts => s.enqueueCommandInLane lane opts
  | .setCommandLaneConcurrency lane n => s.setCommandLaneConcurrency lane n
  | .clearCommandLane lane => s.clearCommandLane lane
  | .resetCommandLane lane => s.resetCommandLane lane
  | .resetAllLanes => s.resetAllLanes
  | .waitForActiveTasks timeoutMs => s.waitForActiveTasks timeoutMs
  | .markGatewayDraining => s.markGatewayDraining

inductive Event
  | call (c : Call)
  | resume
  /-- A task's promise settles: its function returned, threw, or its lane timeout fired. -/
  | finish (task : RunningTask) (ok : Bool)
  | waiterTimeout (waiter : ActiveTaskWaiter)
  | tick (now : Int)

/-- Outside code runs when the stack is empty, or inside a callback on top of it. -/
def QueueState.acceptsCalls (s : QueueState) : Bool :=
  match s.stack with
  | [] => true
  | frame :: _ => frame.isCallback

/-- One event, if it can happen in this state. -/
def QueueState.step (s : QueueState) : Event → Option QueueState
  | .call c => if s.acceptsCalls then some (s.call c) else none
  | .resume => s.resume
  | .finish task ok =>
    if s.stack = [] ∧ task ∈ s.running then
      s.finishTask task (if ok then .resolved else .rejected)
    else none
  | .waiterTimeout waiter =>
    if s.stack = [] ∧ waiter ∈ s.activeTaskWaiters then some (s.expireWaiter waiter) else none
  | .tick now => some { s with now := now }

/-- The states of all finite interleavings. -/
def Reachable : QueueState → Prop :=
  Lts.Reachable (fun s => ∃ now, s = .initial now) fun s e t => s.step e = some t

end OpenClaw.CommandQueue
