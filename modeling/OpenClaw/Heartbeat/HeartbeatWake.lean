import OpenClaw.Normalization
import OpenClaw.Lib.KeyedList
import OpenClaw.Lib.Lts
import Mathlib.Algebra.Order.Group.Int

/-!
# `infra/heartbeat-wake.ts`

The module state of the heartbeat wakes and the timer bodies that have not returned, cut at the
`await` of the handler. Handlers are numbers, the same one for the same function. A body whose batch
is empty returns at once; every other one is a `WakeBatch` until its last result. The clock may show
anything, is read once by a segment, and a timer may fire whenever it is armed.

The fields from `bodies` on are not variables of the module: `requested` is the list of all requests
in order, a wake's `id` is its place there, and the rest says what became of the wakes.
-/

namespace OpenClaw.Heartbeat

inductive HeartbeatWakeIntent
  | scheduled
  | event
  | immediate
  | manual
  deriving DecidableEq

inductive HeartbeatWakeSource
  | interval
  | manual
  | execEvent
  | notificationsEvent
  | cron
  | hook
  | backgroundTask
  | backgroundTaskBlocked
  | acpSpawn
  | cliWatchdog
  | restartSentinel
  | retry
  | other
  deriving DecidableEq

structure HeartbeatWakeOverride where
  target : Option String
  «to» : Option String
  accountId : Option String
  deriving DecidableEq

structure HeartbeatWakeRequest where
  source : HeartbeatWakeSource
  intent : HeartbeatWakeIntent
  reason : Option String
  agentId : Option String
  sessionKey : Option String
  heartbeat : Option HeartbeatWakeOverride
  deriving DecidableEq

inductive HeartbeatRunResult
  | ran
  | skipped (reason : String)
  | failed (reason : String)
  /-- The handler throws or rejects. -/
  | throws
  deriving DecidableEq

def isRetryableHeartbeatBusySkipReason (reason : String) : Bool :=
  reason ∈ ["requests-in-flight", "cron-in-progress", "lanes-busy"]

/-- `normalizeHeartbeatWakeReason`. -/
def normalizeWakeReason (reason : Option String) : String :=
  (normalizeOptionalString reason).getD "requested"

def normalizeWakeTarget (value : Option String) : Option String :=
  (normalizeOptionalString value).filter (· ≠ "")

def getWakeTargetKey (agentId sessionKey : Option String) : String :=
  (normalizeWakeTarget agentId).getD "" ++ "::" ++ (normalizeWakeTarget sessionKey).getD ""

/-- `REASON_PRIORITY`: 0 is `RETRY`, 1 `INTERVAL`, 2 `DEFAULT` and 3 `ACTION`. -/
def resolveWakePriority (source : HeartbeatWakeSource) (intent : HeartbeatWakeIntent)
    (reason : String) : Nat :=
  if intent = .manual ∨ intent = .immediate then 3
  else if source = .retry ∨ reason = "retry" then 0
  else if intent = .scheduled ∨ source = .interval ∨ reason = "interval" then 1
  else 2

structure PendingWakeReason where
  id : Nat
  source : HeartbeatWakeSource
  intent : HeartbeatWakeIntent
  reason : String
  priority : Nat
  requestedAt : Int
  agentId : Option String
  sessionKey : Option String
  heartbeat : Option HeartbeatWakeOverride
  deriving DecidableEq

namespace PendingWakeReason

/-- The key a wake is kept under. -/
def key (wake : PendingWakeReason) : String := getWakeTargetKey wake.agentId wake.sessionKey

/-- Whom a wake is for. -/
def target (wake : PendingWakeReason) : Option String × Option String :=
  (wake.agentId, wake.sessionKey)

/-- The arguments `queuePendingWakeReason` gets to put a wake back. -/
def request (wake : PendingWakeReason) : HeartbeatWakeRequest :=
  ⟨wake.source, wake.intent, some wake.reason, wake.agentId, wake.sessionKey, wake.heartbeat⟩

end PendingWakeReason

/-- The `next` of `queuePendingWakeReason`. -/
def HeartbeatWakeRequest.pending (opts : HeartbeatWakeRequest) (id : Nat) (requestedAt : Int) :
    PendingWakeReason where
  id := id
  source := opts.source
  intent := opts.intent
  reason := normalizeWakeReason opts.reason
  priority := resolveWakePriority opts.source opts.intent (normalizeWakeReason opts.reason)
  requestedAt := requestedAt
  agentId := normalizeWakeTarget opts.agentId
  sessionKey := normalizeWakeTarget opts.sessionKey
  heartbeat := opts.heartbeat

inductive WakeTimerKind
  | normal
  | retry
  deriving DecidableEq

/-- `timer`, `timerDueAt` and `timerKind`, with the delay that the callback closes over. -/
structure WakeTimer where
  dueAt : Int
  kind : WakeTimerKind
  delay : Int
  deriving DecidableEq

/-- A timer body that waits for its handler. -/
structure WakeBatch where
  active : Nat
  pendingBatch : List PendingWakeReason
  /-- The wake that the handler was called with. -/
  current : PendingWakeReason
  left : List PendingWakeReason
  delay : Int
  deriving DecidableEq

structure WakeState where
  handler : Option Nat
  /-- The handlers registered so far; `handlerGeneration` also counts what disposers did. -/
  registrations : List (Nat × Option Nat)
  handlerGeneration : Nat
  pendingWakes : List PendingWakeReason
  scheduled : Bool
  running : Bool
  timer : Option WakeTimer
  bodies : List WakeBatch
  requested : List PendingWakeReason
  /-- The requests that did not enter `pendingWakes`. -/
  refused : List Nat
  handed : List Nat
  ran : List Nat
  deriving DecidableEq

inductive WakeEvent
  | requestHeartbeat (opts : HeartbeatWakeRequest) (coalesceMs : Option Int) (now : Int)
  | setHeartbeatWakeHandler (next : Option Nat) (now : Int)
  /-- The disposer of a registration. -/
  | dispose (registration : Nat)
  | fire (now : Int)
  /-- The handler of a body answers. -/
  | settle (body : Nat) (result : HeartbeatRunResult) (now : Int)
  deriving DecidableEq

def DEFAULT_COALESCE_MS : Int := 250

def DEFAULT_RETRY_MS : Int := 1000

def MAX_TIMER_TIMEOUT_MS : Int := 2147000000

/-- `resolveTimerTimeoutMs`, with no minimum; `none` is a value that is no finite number. -/
def resolveTimerTimeoutMs (valueMs : Option Int) (fallbackMs : Int) : Int :=
  min (max (valueMs.getD fallbackMs) 0) MAX_TIMER_TIMEOUT_MS

/-- `next` takes the place of the pending wake under its key. -/
def replaces (next previous : PendingWakeReason) : Bool :=
  decide (previous.priority < next.priority) ||
    (next.priority == previous.priority && decide (previous.requestedAt ≤ next.requestedAt))

/-- `merged`. -/
def merge (next previous : PendingWakeReason) : PendingWakeReason :=
  { next with heartbeat := next.heartbeat.orElse fun _ => previous.heartbeat }

/-- What `queuePendingWakeReason` makes of the map. -/
def queueWake (next : PendingWakeReason) (pendingWakes : List PendingWakeReason) :
    List PendingWakeReason :=
  match KeyedList.get PendingWakeReason.key next.key pendingWakes with
  | none => pendingWakes ++ [next]
  | some previous =>
    if replaces next previous then
      KeyedList.put PendingWakeReason.key (merge next previous) pendingWakes
    else pendingWakes

/-- A wake of a batch, to be queued again. -/
def PendingWakeReason.again (wake : PendingWakeReason) (now : Int) : PendingWakeReason :=
  wake.request.pending wake.id now

namespace WakeState

def initial : WakeState where
  handler := none
  registrations := []
  handlerGeneration := 0
  pendingWakes := []
  scheduled := false
  running := false
  timer := none
  bodies := []
  requested := []
  refused := []
  handed := []
  ran := []

def queuePendingWakeReason (s : WakeState) (next : PendingWakeReason) : WakeState :=
  { s with pendingWakes := queueWake next s.pendingWakes }

def schedule (s : WakeState) (coalesceMs : Option Int) (kind : WakeTimerKind) (now : Int) :
    WakeState :=
  let delay := resolveTimerTimeoutMs coalesceMs DEFAULT_COALESCE_MS
  match s.timer with
  | some timer =>
    if timer.kind = .retry ∨ timer.dueAt ≤ now + delay then s
    else { s with timer := some ⟨now + delay, kind, delay⟩ }
  | none => { s with timer := some ⟨now + delay, kind, delay⟩ }

/-- A wake is queued again under a new time. -/
def putBack (s : WakeState) (now : Int) (wake : PendingWakeReason) : WakeState :=
  s.queuePendingWakeReason (wake.again now)

/-- The handler is called with a wake. -/
def hand (s : WakeState) (wake : PendingWakeReason) : WakeState :=
  { s with handed := s.handed ++ [wake.id] }

/-- The `finally` of a timer body. -/
def finish (s : WakeState) (body : Nat) (delay now : Int) : WakeState :=
  let s := { s with bodies := s.bodies.eraseIdx body, running := false }
  if !s.pendingWakes.isEmpty || s.scheduled then s.schedule (some delay) .normal now else s

/-- The next pass of the loop over the batch, or its end. -/
def advance (s : WakeState) (body : Nat) (batch : WakeBatch) (now : Int) : WakeState :=
  match batch.left with
  | [] => s.finish body batch.delay now
  | next :: left =>
    { s with bodies := s.bodies.set body { batch with current := next, left } }.hand next

/-- The answer of the handler, up to the next call or the end of the body. -/
def settle (s : WakeState) (body : Nat) (batch : WakeBatch) (result : HeartbeatRunResult)
    (now : Int) : WakeState :=
  match result with
  | .ran => { s with ran := s.ran ++ [batch.current.id] }.advance body batch now
  | .failed _ => s.advance body batch now
  | .skipped reason =>
    if isRetryableHeartbeatBusySkipReason reason then
      ((s.putBack now batch.current).schedule (some DEFAULT_RETRY_MS) .retry now).advance body
        batch now
    else s.advance body batch now
  | .throws =>
    (((batch.pendingBatch.foldl (fun s wake => s.putBack now wake) s).schedule
      (some DEFAULT_RETRY_MS) .retry now).finish body batch.delay now)

/-- A timer body, up to its first `await`. -/
def fire (s : WakeState) (timer : WakeTimer) (now : Int) : WakeState :=
  let s := { s with timer := none, scheduled := false }
  match s.handler with
  | none => s
  | some active =>
    if s.running then { s with scheduled := true }.schedule (some timer.delay) timer.kind now
    else
      match s.pendingWakes with
      | [] => { s with running := false }
      | wake :: left =>
        { s with
          pendingWakes := []
          running := true
          bodies := s.bodies ++ [WakeBatch.mk active (wake :: left) wake left timer.delay] }.hand wake

def setHeartbeatWakeHandler (s : WakeState) (next : Option Nat) (now : Int) : WakeState :=
  let s := { s with
    handlerGeneration := s.handlerGeneration + 1
    handler := next
    registrations := s.registrations ++ [(s.handlerGeneration + 1, next)] }
  match next with
  | none => s
  | some _ =>
    let s := { s with timer := none, running := false, scheduled := false }
    if s.pendingWakes.isEmpty then s else s.schedule (some DEFAULT_COALESCE_MS) .normal now

def requestHeartbeat (s : WakeState) (opts : HeartbeatWakeRequest) (coalesceMs : Option Int)
    (now : Int) : WakeState :=
  let next := opts.pending s.requested.length now
  let t := s.queuePendingWakeReason next
  let entered := t.pendingWakes.any fun wake => wake.id == next.id
  { t with
    requested := s.requested ++ [next]
    refused := if entered then s.refused else s.refused ++ [next.id]
    }.schedule coalesceMs .normal now

def step (s : WakeState) : WakeEvent → Option WakeState
  | .requestHeartbeat opts coalesceMs now => some (s.requestHeartbeat opts coalesceMs now)
  | .setHeartbeatWakeHandler next now => some (s.setHeartbeatWakeHandler next now)
  | .dispose registration =>
    match s.registrations[registration]? with
    | some (generation, next) =>
      if s.handlerGeneration = generation ∧ s.handler = next then
        some { s with handlerGeneration := s.handlerGeneration + 1, handler := none }
      else some s
    | none => none
  | .fire now => s.timer.map fun timer => s.fire timer now
  | .settle body result now => s.bodies[body]?.map fun batch => s.settle body batch result now

def Step (s : WakeState) (e : WakeEvent) (t : WakeState) : Prop := s.step e = some t

end WakeState

end OpenClaw.Heartbeat
