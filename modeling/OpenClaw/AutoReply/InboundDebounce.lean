import OpenClaw.Lib.Lts
import Mathlib.Data.List.AList

/-!
# `auto-reply/inbound-debounce.ts`

`createInboundDebouncer`, cut at its awaits. An item is its number in the order of arrival; what
`buildKey`, `resolveDebounceMs` and `shouldDebounce` say of it comes with its event, and timers fire
at any time. A task put on a key chain is a `KeyTask`, named by its place in `tasks`, and the buffer
that a task flushes is kept with it. Whether `onFlush` fulfils or rejects makes no difference to the
state, as `runFlush` never rejects.

`arrivals`, `flushed` and `cancelled` are not variables of the debouncer: they are the keys of the
items that arrived, and the calls of `onFlush` and `onCancel` in order.
-/

namespace OpenClaw.AutoReply

/-- How far the task of a chain slot is. -/
inductive TaskPhase
  /-- Waits for the slot before it. -/
  | queued
  /-- Waits for `ready`. -/
  | awaitsReady
  | flushing
  | done
  deriving DecidableEq

/-- A slot of a key chain, with the buffer whose `task` it is. -/
structure KeyTask where
  key : String
  /-- The slot whose promise it is chained to; `none` is `Promise.resolve()`. -/
  previous : Option Nat
  reserved : Bool
  /-- Runs at once and owns the promise in `keyChains`. -/
  now : Bool
  readyReleased : Bool
  items : List Nat
  timeout : Option Nat
  phase : TaskPhase
  /-- The promise in `keyChains` is resolved. -/
  settled : Bool
  cleaned : Bool
  deriving DecidableEq

/-- What an `enqueue` or `flushKey` waits for. -/
inductive DebounceCall
  | direct
  /-- `flushKey` inside `enqueue`, with the slot reserved before it. -/
  | buffer (task reserved : Nat)
  | task (task : Nat)
  | settled
  deriving DecidableEq

structure InboundDebounceParams where
  maxTrackedKeys : Nat
  serializeImmediate : Bool

structure InboundDebouncer where
  buffers : AList fun _ : String => Nat
  keyChains : AList fun _ : String => Nat
  tasks : List KeyTask
  calls : List DebounceCall
  arrivals : List (Option String)
  flushed : List (Option String × List Nat)
  cancelled : List (Option String × List Nat)

/-- What happens to a slot. -/
inductive TaskEvent
  /-- The slot before has settled. -/
  | start
  /-- `ready` resolves. -/
  | ready
  /-- `onFlush` settles. -/
  | flushSettles
  | cleanup
  deriving DecidableEq

inductive DebounceEvent
  | enqueue (key : Option String) (debounceMs : Nat) (shouldDebounce : Bool)
  | flushKey (key : String)
  | cancelKey (key : String)
  /-- The timer of a buffer fires. -/
  | fire (task : Nat)
  | task (task : Nat) (e : TaskEvent)
  /-- `onFlush` settles for an item without a slot. -/
  | directSettles (call : Nat)
  /-- What a call waits for has settled. -/
  | resume (call : Nat)
  deriving DecidableEq

namespace InboundDebouncer

def create : InboundDebouncer where
  buffers := ∅
  keyChains := ∅
  tasks := []
  calls := []
  arrivals := []
  flushed := []
  cancelled := []

def call (s : InboundDebouncer) (c : DebounceCall) : InboundDebouncer :=
  { s with calls := s.calls ++ [c] }

/-- `onFlush` is called. -/
def runFlush (s : InboundDebouncer) (key : Option String) (items : List Nat) : InboundDebouncer :=
  { s with flushed := s.flushed ++ [(key, items)] }

def setTask (s : InboundDebouncer) (i : Nat) (task : KeyTask) : InboundDebouncer :=
  { s with tasks := s.tasks.set i task }

/-- `keyChains.set(key, settled)` for a new slot. -/
def pushTask (s : InboundDebouncer) (task : KeyTask) : InboundDebouncer :=
  { s with
    tasks := s.tasks ++ [task]
    keyChains := s.keyChains.insert task.key s.tasks.length }

/-- `enqueueKeyTask` with `runFlush(items)`. -/
def enqueueKeyTask (s : InboundDebouncer) (key : String) (items : List Nat) : InboundDebouncer :=
  s.pushTask ⟨key, s.keyChains.lookup key, false, false, true, items, none, .queued, false, false⟩

/-- `runKeyTaskNow` with `runFlush(items)`. -/
def runKeyTaskNow (s : InboundDebouncer) (key : String) (items : List Nat) : InboundDebouncer :=
  (s.pushTask ⟨key, none, false, true, true, items, none, .flushing, false, false⟩).runFlush
    (some key) items

/-- `enqueueReservedKeyTask`, with the timeout of the buffer it is for. -/
def enqueueReservedKeyTask (s : InboundDebouncer) (key : String) (items : List Nat)
    (timeout : Option Nat) : InboundDebouncer :=
  s.pushTask
    ⟨key, s.keyChains.lookup key, true, false, false, items, timeout, .queued, false, false⟩

/-- The `release` of a reserved slot. -/
def release (s : InboundDebouncer) (i : Nat) : InboundDebouncer :=
  match s.tasks[i]? with
  | some task => s.setTask i { task with readyReleased := true }
  | none => s

/-- `flushBuffer`, up to its `await`. -/
def flushBuffer (s : InboundDebouncer) (key : String) (i : Nat) : InboundDebouncer :=
  let s := if s.buffers.lookup key = some i then { s with buffers := s.buffers.erase key } else s
  match s.tasks[i]? with
  | some task => s.setTask i { task with timeout := none, readyReleased := true }
  | none => s

def flushKey (s : InboundDebouncer) (key : String) : InboundDebouncer :=
  match s.buffers.lookup key with
  | some i => (s.flushBuffer key i).call (.task i)
  | none => s.call .settled

def cancelKey (s : InboundDebouncer) (key : String) : InboundDebouncer :=
  match s.buffers.lookup key with
  | some i =>
    match s.tasks[i]? with
    | some task =>
      { s with
        buffers := s.buffers.erase key
        cancelled := s.cancelled ++ [(some key, task.items)]
        }.setTask i { task with items := [], timeout := none, readyReleased := true }
    | none => s
  | none => s

def canTrackKey (s : InboundDebouncer) (params : InboundDebounceParams) (key : String) : Bool :=
  decide (key ∈ s.buffers) || decide (key ∈ s.keyChains) ||
    decide ((s.buffers.keys ++ s.keyChains.keys).dedup.length < params.maxTrackedKeys)

/-- The items of an existing buffer, and its timer, once an item joins it. -/
def joinBuffer (s : InboundDebouncer) (i item debounceMs : Nat) : InboundDebouncer :=
  match s.tasks[i]? with
  | some task =>
    s.setTask i { task with items := task.items ++ [item], timeout := some debounceMs }
  | none => s

/-- `enqueue` of an item with a key that is debounced. -/
def enqueueDebounced (s : InboundDebouncer) (params : InboundDebounceParams) (key : String)
    (item debounceMs : Nat) : InboundDebouncer :=
  match s.buffers.lookup key with
  | some existing => (s.joinBuffer existing item debounceMs).call .settled
  | none =>
    if s.canTrackKey params key then
      let t := s.enqueueReservedKeyTask key [item] (some debounceMs)
      { t with buffers := s.buffers.insert key s.tasks.length }.call .settled
    else (s.enqueueKeyTask key [item]).call (.task s.tasks.length)

/-- `enqueue` of an item with a key that is not debounced. -/
def enqueueImmediate (s : InboundDebouncer) (params : InboundDebounceParams) (key : String)
    (item : Nat) : InboundDebouncer :=
  match s.buffers.lookup key with
  | some i =>
    ((s.enqueueReservedKeyTask key [item] none).flushBuffer key i).call (.buffer i s.tasks.length)
  | none =>
    if (s.keyChains.lookup key).isSome then
      (s.enqueueKeyTask key [item]).call (.task s.tasks.length)
    else if params.serializeImmediate then
      (s.runKeyTaskNow key [item]).call (.task s.tasks.length)
    else (s.runFlush (some key) [item]).call .direct

def enqueue (s : InboundDebouncer) (params : InboundDebounceParams) (key : Option String)
    (debounceMs : Nat) (shouldDebounce : Bool) : InboundDebouncer :=
  let item := s.arrivals.length
  let canDebounce := decide (0 < debounceMs) && shouldDebounce
  let key := key.filter (· ≠ "")
  let s := { s with arrivals := s.arrivals ++ [key] }
  match key with
  | none => (s.runFlush none [item]).call .direct
  | some key =>
    if canDebounce then s.enqueueDebounced params key item debounceMs
    else s.enqueueImmediate params key item

/-- The task of a slot runs: a buffer without items is not flushed. -/
def runTask (s : InboundDebouncer) (i : Nat) (task : KeyTask) : InboundDebouncer :=
  if task.items = [] then s.setTask i { task with phase := .done, settled := !task.now }
  else (s.setTask i { task with phase := .flushing }).runFlush (some task.key) task.items

/-- The promise that a slot is chained to has settled. -/
def previousSettled (s : InboundDebouncer) (task : KeyTask) : Bool :=
  match task.previous with
  | none => true
  | some p => (s.tasks[p]?).any KeyTask.settled

def stepTask (s : InboundDebouncer) (i : Nat) (task : KeyTask) :
    TaskEvent → Option InboundDebouncer
  | .start =>
    if task.phase = .queued ∧ s.previousSettled task then
      some (if task.reserved then s.setTask i { task with phase := .awaitsReady }
        else s.runTask i task)
    else none
  | .ready =>
    if task.phase = .awaitsReady ∧ task.readyReleased then some (s.runTask i task) else none
  | .flushSettles =>
    if task.phase = .flushing then
      some (s.setTask i { task with phase := .done, settled := !task.now })
    else none
  | .cleanup =>
    if task.phase = .done ∧ task.cleaned = false then
      let s := s.setTask i { task with settled := true, cleaned := true }
      some (if s.keyChains.lookup task.key = some i then
        { s with keyChains := s.keyChains.erase task.key } else s)
    else none

def setCall (s : InboundDebouncer) (c : Nat) (call : DebounceCall) : InboundDebouncer :=
  { s with calls := s.calls.set c call }

/-- `next` of a slot has settled. -/
def taskDone (s : InboundDebouncer) (i : Nat) : Bool :=
  (s.tasks[i]?).any fun task => decide (task.phase = .done)

def resume (s : InboundDebouncer) (c : Nat) : Option InboundDebouncer :=
  match s.calls[c]? with
  | some (.buffer i reserved) =>
    if s.taskDone i then some ((s.release reserved).setCall c (.task reserved)) else none
  | some (.task i) => if s.taskDone i then some (s.setCall c .settled) else none
  | some .direct | some .settled | none => none

def step (params : InboundDebounceParams) (s : InboundDebouncer) :
    DebounceEvent → Option InboundDebouncer
  | .enqueue key debounceMs shouldDebounce => some (s.enqueue params key debounceMs shouldDebounce)
  | .flushKey key => some (s.flushKey key)
  | .cancelKey key => some (s.cancelKey key)
  | .fire i =>
    match s.tasks[i]? with
    | some task => if task.timeout.isSome then some (s.flushBuffer task.key i) else none
    | none => none
  | .directSettles c => if s.calls[c]? = some .direct then some (s.setCall c .settled) else none
  | .resume c => s.resume c
  | .task i e => s.tasks[i]?.bind fun task => s.stepTask i task e

def Step (params : InboundDebounceParams) (s : InboundDebouncer) (e : DebounceEvent)
    (t : InboundDebouncer) : Prop := s.step params e = some t

end InboundDebouncer

end OpenClaw.AutoReply
