import Mathlib.Logic.Function.Basic
import OpenClaw.Followup.ContextKey
import OpenClaw.Followup.Summary
import OpenClaw.Lib.Lts

/-!
# The followup queue and its drain

One queue object of `FOLLOWUP_QUEUES` with the async loop of `scheduleFollowupDrain` that drains
it. `Drain` says where the loop is suspended: at the await of a `runFollowup` call, or at the await
of an async helper that has returned. What runs between two awaits is one step, so everything that
enqueues, refreshes, aborts or clears happens between steps.

* `enqueueFollowupRun`, `clearFollowupQueue` and `refreshQueuedFollowupSession` are the calls from
  outside; `FollowupSystem.next` is the step function over them and the drain's own events.
* Waits that nothing happens after are one suspension: a promise that has resolved, or a chain of
  async functions returning through each other.
-/

namespace OpenClaw.Followup

structure FollowupQueueState where
  /-- The signal of the queue's `abortController`. -/
  abortController : SignalId
  /-- Whether `FOLLOWUP_QUEUES` still has this object under its key. -/
  registered : Bool := true
  items : List FollowupRun := []
  mode : QueueMode
  lastRun : Option RunRef := none
  summary : FollowupQueueSummaryState

/-- Why a drain stopped with an error. -/
inductive FailureCause
  | deferred
  | runFailed
  /-- `assertSingleAdmissionOwner` threw. -/
  | admissionOwners
  /-- The queue shrank under `dropAbortedFollowups`, which then read a missing item. -/
  | missingItem
  deriving DecidableEq

/-- Where the drain loop is suspended. -/
inductive Drain
  | idle
  /-- `dropAbortedFollowups` has handed the aborted item at `index` over; `second` is the call
  after the debounce. -/
  | dropping (second : Bool) (index : Nat) (item : FollowupRun)
  | dropped (second : Bool)
  | debouncing
  /-- A summary is being delivered. -/
  | delivering (d : SummaryRun) (admitted : Bool)
  /-- The delivery of an elided summary has returned true. -/
  | elidedDelivered (d : SummaryRun)
  /-- `drainElidedOverflowSummary` has returned false. -/
  | elidedSkipped
  /-- `drainOverflowSummaryGroup` has returned. -/
  | summaryDone (drained : Bool)
  /-- `drainCollectQueueStep` has returned `"skipped"`. -/
  | collectSkipped
  | running (item : FollowupRun) (admitted : Bool)
  /-- A collect group is running; `rest` are the groups of the batch after it. -/
  | runningGroup (group : List FollowupRun) (rest : List (List FollowupRun)) (admitted : Bool)
  /-- `drainNextQueueItem` found no item. -/
  | breaking
  | failed (cause : FailureCause)

structure FollowupSystem where
  queue : FollowupQueueState
  drain : Drain := .idle
  forceIndividualCollect : Bool := false
  abortedSignals : List SignalId
  runs : RunRef → Run
  /-- How many messages have been enqueued: the number of the next one. -/
  arrivals : Nat := 0

variable (env : FollowupEnv)

namespace FollowupSystem

variable (s : FollowupSystem)

def aborted (item : FollowupRun) : Bool := isFollowupRunAborted s.abortedSignals item

def contextKey (item : FollowupRun) : List Char :=
  resolveFollowupDeliveryContextKey env s.runs item

def setItems (items : List FollowupRun) : FollowupSystem :=
  { s with queue := { s.queue with items := items } }

def setSummary (summary : FollowupQueueSummaryState) : FollowupSystem :=
  { s with queue := { s.queue with summary := summary } }

def goto (drain : Drain) : FollowupSystem := { s with drain := drain }

/-- `shouldRestoreOnError`. -/
def canRestore : Bool :=
  s.queue.registered && !s.abortedSignals.contains s.queue.abortController

end FollowupSystem

/-! ## Settings -/

/-- `Math.floor` of a positive cap. -/
def QueueSettings.floorCap (settings : QueueSettings) : Option Nat :=
  (settings.cap.filter (0 < ·)).map fun cap => cap.floor.toNat

/-- `applyQueueRuntimeSettings` and the trim after it. -/
def FollowupQueueState.applySettings (q : FollowupQueueState) (settings : QueueSettings) :
    FollowupQueueState :=
  { q with
    mode := settings.mode
    summary := { q.summary with
      cap := settings.floorCap.getD q.summary.cap
      dropPolicy := settings.dropPolicy.getD q.summary.dropPolicy
      : FollowupQueueSummaryState }.trimSummaryElisionsToCap }

def defaultQueueCap : Nat := 20

/-- The queue `getFollowupQueue` creates, with no drain yet. -/
def FollowupSystem.created (settings : QueueSettings) (abortController : SignalId)
    (abortedSignals : List SignalId) (runs : RunRef → Run) : FollowupSystem where
  queue :=
    { abortController := abortController
      mode := settings.mode
      summary :=
        { cap := settings.floorCap.getD defaultQueueCap
          dropPolicy := settings.dropPolicy.getD .summarize } }
  abortedSignals := abortedSignals
  runs := runs

/-! ## Enqueueing -/

def followupRouteIdentityKey (run : FollowupRun) : String :=
  Json.text (.arr
    [.str (channelRouteDedupeKey env run.route),
     .str ((resolveFollowupReplyAnchor run).getD ""),
     .str ((run.originatingReplyToMode.map (·.text)).getD ""),
     .str (((normalizeChatType env run.originatingChatType).map (·.text)).getD "")])

def followupMessageRouteIdentityKey (run : FollowupRun) : String :=
  Json.text (.arr
    [.str (channelRouteDedupeKey env run.route),
     .str (((normalizeChatType env run.originatingChatType).map (·.text)).getD "")])

def isRunAlreadyQueued (run : FollowupRun) (items : List FollowupRun)
    (allowPromptFallback : Bool) : Bool :=
  match normalizeOptionalString run.messageId with
  | some messageId => items.any fun item =>
      normalizeOptionalString item.messageId = some messageId &&
        followupMessageRouteIdentityKey env item = followupMessageRouteIdentityKey env run
  | none =>
    allowPromptFallback && items.any fun item =>
      item.prompt = run.prompt && followupRouteIdentityKey env item = followupRouteIdentityKey env run

/-- A call of `enqueueFollowupRun`. `recentlySeen` is the answer of the recent-message cache, and
`ownerAccepts` that of the lifecycle's `onEnqueued`. -/
structure EnqueueRequest where
  run : FollowupRun
  settings : QueueSettings
  dedupeMode : QueueDedupeMode := .messageId
  recentlySeen : Bool := false
  ownerAccepts : Bool := true

/-- The messages that make room for a new one in a full queue. -/
def FollowupQueueState.overflowItems (q : FollowupQueueState) : List FollowupRun :=
  q.items.take (q.items.length - q.summary.cap + 1)

/-- `applyQueueDropPolicy`: whether the new message may be enqueued, and the queue with room for
it. -/
def FollowupQueueState.applyDropPolicy (q : FollowupQueueState) : Bool × FollowupQueueState :=
  if q.summary.cap = 0 ∨ q.items.length < q.summary.cap then (true, q)
  else if q.summary.dropPolicy = .new then (false, q)
  else
    (true,
      { q with
        items := q.items.drop (q.items.length - q.summary.cap + 1)
        summary :=
          if q.summary.dropPolicy = .summarize then q.summary.summarizeDropped q.overflowItems
          else q.summary })

/-- The tests of `enqueueFollowupRun` that turn a message away once the settings apply. -/
def EnqueueRequest.isRejected (request : EnqueueRequest) (q : FollowupQueueState) : Bool :=
  (request.dedupeMode ≠ .none && (normalizeOptionalString request.run.messageId).isSome &&
      request.recentlySeen) ||
    (request.dedupeMode ≠ .none &&
      isRunAlreadyQueued env request.run q.items (request.dedupeMode = .prompt)) ||
    (q.summary.dropPolicy = .new && 0 < q.summary.cap && q.summary.cap ≤ q.items.length) ||
    !request.ownerAccepts

namespace FollowupSystem

variable (s : FollowupSystem)

/-- The queue with the overflow of an enqueue dealt with: the policy applied, and the sources
without a line elided. -/
def makeRoom (q : FollowupQueueState) : Bool × FollowupQueueState :=
  let (shouldEnqueue, q) := q.applyDropPolicy
  (shouldEnqueue,
    if q.summary.dropPolicy = .summarize then
      { q with summary := q.summary.elideOverflow (s.contextKey env) }
    else q)

def enqueueFollowupRun (request : EnqueueRequest) : FollowupSystem :=
  if s.aborted request.run then s
  else
    let q := s.queue.applySettings request.settings
    if request.isRejected env q then { s with queue := q }
    else
      let (shouldEnqueue, q) := s.makeRoom env { q with lastRun := some request.run.run }
      if shouldEnqueue then
        let run := { request.run with
          origin := s.arrivals
          copy := 0
          queueAbortSignal := some q.abortController }
        { s with queue := { q with items := q.items ++ [run] }, arrivals := s.arrivals + 1 }
      else { s with queue := q }

def clearFollowupQueue : FollowupSystem :=
  { s with
    abortedSignals := s.queue.abortController :: s.abortedSignals
    queue := { s.queue with
      registered := false
      items := []
      lastRun := none
      summary := { s.queue.summary with
        droppedCount := 0
        summaryLines := []
        summarySources := []
        summaryElisions := []
        evictedSummaryCount := 0
        evictedSources := [] } } }

end FollowupSystem

/-! ## Session refresh -/

/-- The arguments of `refreshQueuedFollowupSession`. An optional argument that may be given as
undefined is an option of an option, and `nextThinking` the level it resolves to for a provider and
a model. -/
structure RefreshParams where
  previousSessionId : Option String := none
  nextSessionId : Option String := none
  nextSessionFile : Option String := none
  nextProvider : Option String := none
  nextModel : Option String := none
  nextModelOverrideSource : Option (Option OverrideSource) := none
  nextAuthProfileId : Option (Option String) := none
  nextAuthProfileIdSource : Option (Option OverrideSource) := none
  nextThinking : Option (String → String → Option ThinkLevel) := none

namespace RefreshParams

variable (params : RefreshParams)

def shouldRewriteSession : Bool :=
  params.previousSessionId.any (· ≠ "") && params.nextSessionId.any (· ≠ "") &&
    params.previousSessionId ≠ params.nextSessionId

def shouldRewriteModelSelection : Bool :=
  params.nextProvider.isSome || params.nextModel.isSome || params.nextModelOverrideSource.isSome

def shouldRewriteSelection : Bool :=
  params.shouldRewriteModelSelection || params.nextAuthProfileId.isSome ||
    params.nextAuthProfileIdSource.isSome || params.nextThinking.isSome

/-- The session part of `rewriteRun`. -/
def rewriteSession (run : Run) : Run :=
  if params.shouldRewriteSession ∧ some run.sessionId = params.previousSessionId then
    { run with
      sessionId := params.nextSessionId.getD run.sessionId
      sessionFile := (normalizeOptionalString params.nextSessionFile).getD run.sessionFile }
  else run

/-- The model, auth profile and thinking part of `rewriteRun`. -/
def rewriteSelection (run : Run) : Run :=
  if params.shouldRewriteSelection then
    let provider := params.nextProvider.getD run.provider
    let model := params.nextModel.getD run.model
    let authProfileId := match params.nextAuthProfileId with
      | some id => normalizeOptionalString id
      | none => run.authProfileId
    { run with
      provider := provider
      model := model
      hasAutoFallbackProvenance :=
        run.hasAutoFallbackProvenance && !params.shouldRewriteModelSelection
      hasSessionModelOverride :=
        if params.nextModelOverrideSource.isSome then provider ≠ "" || model ≠ ""
        else run.hasSessionModelOverride
      modelOverrideSource := params.nextModelOverrideSource.getD run.modelOverrideSource
      authProfileId := authProfileId
      authProfileIdSource := match params.nextAuthProfileIdSource with
        | some source => if authProfileId.isSome then source else none
        | none => run.authProfileIdSource
      thinkLevel := match params.nextThinking with
        | some resolve => resolve provider model
        | none => run.thinkLevel }
  else run

def rewriteRun (run : Run) : Run := params.rewriteSelection (params.rewriteSession run)

end RefreshParams

/-- The execution records a refresh rewrites, in its order. -/
def FollowupQueueState.runRefs (q : FollowupQueueState) : List RunRef :=
  q.lastRun.toList ++ q.items.map (·.run) ++ q.summary.summarySources.map (·.run) ++
    q.summary.summaryElisions.flatMap fun entry => entry.sources.map (·.run)

def FollowupSystem.refreshQueuedFollowupSession (s : FollowupSystem) (params : RefreshParams) :
    FollowupSystem :=
  if params.shouldRewriteSession || params.shouldRewriteSelection then
    { s with
      runs := s.queue.runRefs.foldl
        (fun runs ref => Function.update runs ref (params.rewriteRun (runs ref))) s.runs }
  else s

/-! ## The drain loop -/

namespace FollowupSystem

variable (s : FollowupSystem)

/-- The loop of `dropAbortedFollowups` from index `n - 1` down. -/
def sweep (second : Bool) : Nat → FollowupSystem
  | 0 => s.goto (.dropped second)
  | index + 1 =>
    match s.queue.items[index]? with
    | none => s.goto (.failed .missingItem)
    | some item =>
      if s.aborted item then s.goto (.dropping second index item) else sweep second index

def hasPendingQueueWork : Bool := s.queue.items ≠ [] || 0 < s.queue.summary.droppedCount

/-- The `finally` of the drain: a queue with pending work is scheduled again, if it is still the
registered one, and an empty one is deleted. -/
def finish : FollowupSystem :=
  if s.hasPendingQueueWork then
    if s.queue.registered then
      { s with forceIndividualCollect := false }.sweep false s.queue.items.length
    else s.goto .idle
  else { s with queue := { s.queue with registered := false }, drain := .idle }

/-- The head of the loop, up to the first await. -/
def loopHead : FollowupSystem :=
  if s.hasPendingQueueWork then s.sweep false s.queue.items.length else s.finish

/-- `scheduleFollowupDrain` on an idle queue. -/
def scheduleFollowupDrain : FollowupSystem := { s with forceIndividualCollect := false }.loopHead

/-! ### Overflow summaries -/

/-- `runQueueSummaryDelivery` up to the run. -/
def runQueueSummaryDelivery (d : SummaryRun) : FollowupSystem :=
  if assertSingleAdmissionOwner d.protectedSources then
    (s.setSummary (s.queue.summary.protectSources d.protectedSources)).goto (.delivering d false)
  else s.goto (.failed .admissionOwners)

/-- `drainOverflowSummaryGroup` up to its first await. -/
def drainOverflowSummaryGroup : FollowupSystem :=
  let (dropped, summary) := s.queue.summary.dropAbortedQueueSummarySources s.aborted
  if 0 < dropped ∧ summary.droppedCount = 0 then (s.setSummary summary).goto (.summaryDone true)
  else if 0 < summary.evictedSummaryCount then
    (s.setSummary summary.reportEvicted).goto (.summaryDone true)
  else
    match summary.drainElidedOverflowSummary (s.contextKey env) s.aborted with
    | (summary, .returned true) => (s.setSummary summary).goto (.summaryDone true)
    | (summary, .returned false) => (s.setSummary summary).goto .elidedSkipped
    | (summary, .started d) => (s.setSummary summary).runQueueSummaryDelivery d

/-- The rest of `drainOverflowSummaryGroup` when there was no elided summary to deliver. -/
def drainRetainedSummary : FollowupSystem :=
  match s.queue.summary.drainRetainedSummary (s.contextKey env) with
  | .returned drained => s.goto (.summaryDone drained)
  | .started d => s.runQueueSummaryDelivery d

/-- `onAdmitted` of a summary delivery. -/
def admitDelivery (d : SummaryRun) : FollowupSystem :=
  (s.setSummary (s.queue.summary.consumeQueueSummaryDelivery
    { d.delivery with sources := d.protectedSources })).goto (.delivering d true)

/-- `runQueueSummaryDelivery` after a run that resolved. -/
def resolveDelivery (d : SummaryRun) (admitted : Bool) : FollowupSystem :=
  let canceledSources := d.protectedSources.filter s.aborted
  let delivered := admitted || canceledSources = []
  let summary :=
    if admitted then s.queue.summary
    else s.queue.summary.consumeQueueSummaryDelivery
      (if canceledSources = [] then d.delivery else { d.delivery with sources := canceledSources })
  (s.setSummary (summary.endDelivery d false)).goto
    (if delivered && d.elided.isSome then .elidedDelivered d else .summaryDone true)

/-- `runQueueSummaryDelivery` after a run that threw. -/
def rejectDelivery (d : SummaryRun) (admitted deferred : Bool) : FollowupSystem :=
  let summary :=
    if admitted || deferred then s.queue.summary
    else s.queue.summary.releaseForRetry d.delivery.sources
  (s.setSummary (summary.endDelivery d (!admitted && deferred))).goto
    (.failed (if deferred then .deferred else .runFailed))

/-- `drainElidedOverflowSummary` after its delivery. -/
def finishElided (d : SummaryRun) : FollowupSystem :=
  match d.elided with
  | some (entryId, elidedCount) =>
    (s.setSummary (s.queue.summary.consumeElidedPrefix entryId elidedCount)).goto
      (.summaryDone true)
  | none => s.goto (.summaryDone true)

/-! ### Items -/

/-- `drainNextQueueItem` up to the run. -/
def drainNextQueueItem : FollowupSystem :=
  match s.queue.items with
  | [] => s.goto .breaking
  | item :: items => (s.setItems items).goto (.running item false)

def hasRuntimeOnlyFollowupMetadata (item : FollowupRun) : Bool :=
  item.currentInboundEventKind = some .roomEvent || item.currentInboundAudio

/-- The part of the loop after the overflow summaries, up to its next await. -/
def drainItems : FollowupSystem :=
  if s.queue.mode = .collect then
    let isCrossChannel := hasCrossChannelItems env s.queue.items ||
      s.queue.items.any hasRuntimeOnlyFollowupMetadata
    let forced := s.forceIndividualCollect && (isCrossChannel || s.queue.items.length ≤ 1)
    if !forced && !isCrossChannel then
      { s with forceIndividualCollect := false }.goto .collectSkipped
    else { s with forceIndividualCollect := forced || isCrossChannel }.drainNextQueueItem
  else s.drainNextQueueItem

/-- The loop over the groups of a batch, up to the next run. -/
def drainGroups (s : FollowupSystem) : List (List FollowupRun) → FollowupSystem
  | [] => s.loopHead
  | groupItems :: rest =>
    let currentGroupItems := groupItems.filter (· ∈ s.queue.items)
    let activeGroupItems := currentGroupItems.filter (!s.aborted ·)
    -- the aborted ones are dropped and the others reserved for the run
    let s' := s.setItems (s.queue.items.diff (currentGroupItems.filter s.aborted))
    if activeGroupItems = [] then s'.drainGroups rest
    else if assertSingleAdmissionOwner activeGroupItems then
      (s'.setItems (s'.queue.items.diff activeGroupItems)).goto
        (.runningGroup activeGroupItems rest false)
    else s'.goto (.failed .admissionOwners)

/-- The batch after `drainCollectQueueStep` skipped. -/
def drainCollectGroups : FollowupSystem :=
  match splitCollectItemsByDeliveryContext (s.contextKey env) s.queue.items with
  | [] => s.finish
  | groups => s.drainGroups groups

def restoreGroupItems (items : List FollowupRun) : FollowupSystem :=
  s.setItems (items.filter (· ∉ s.queue.items) ++ s.queue.items)

/-- A group's run has resolved. -/
def resolveGroup (group : List FollowupRun) (rest : List (List FollowupRun)) (admitted : Bool) :
    FollowupSystem :=
  let canceledSources := group.filter s.aborted
  let survivors := group.filter (!s.aborted ·)
  if !admitted && canceledSources ≠ [] then
    if s.canRestore && survivors ≠ [] then (s.restoreGroupItems survivors).loopHead
    else s.drainGroups rest
  else (s.setItems (s.queue.items.diff group)).drainGroups rest

/-- A group's run has thrown. -/
def rejectGroup (group : List FollowupRun) (admitted : Bool) : FollowupSystem :=
  if admitted then s.setItems (s.queue.items.diff group)
  else if s.canRestore then s.restoreGroupItems group
  else s

end FollowupSystem

/-- Whether a collect group passes its own `onAdmitted` on. -/
def needsGroupAdmission (group : List FollowupRun) : Bool :=
  1 < group.length || group.any fun item => item.queuedLifecycle.any (·.onAdmitted)

/-! ## Events -/

inductive FollowupEvent
  | enqueue (request : EnqueueRequest)
  | schedule
  | clear
  | refresh (params : RefreshParams)
  | abort (signal : SignalId)
  /-- The run in flight calls `onAdmitted`, and every source's own callback resolves. -/
  | onAdmitted
  | resolve
  | reject (deferred : Bool)
  /-- The helper the loop awaits has returned. -/
  | resume

namespace FollowupSystem

variable (s : FollowupSystem)

/-- The run in flight is admitted. -/
def onAdmitted : Option FollowupSystem :=
  match s.drain with
  | .delivering d admitted =>
    if d.needsAdmission then some (if admitted then s else s.admitDelivery d) else none
  | .running item _ => some (s.goto (.running item true))
  | .runningGroup group rest _ =>
    if needsGroupAdmission group then
      some ((s.setItems (s.queue.items.diff group)).goto (.runningGroup group rest true))
    else none
  | _ => none

/-- The run in flight resolves. -/
def resolve : Option FollowupSystem :=
  match s.drain with
  | .dropping second index _ => some ((s.setItems (s.queue.items.eraseIdx index)).sweep second index)
  | .delivering d admitted => some (s.resolveDelivery d admitted)
  | .running _ _ => some s.loopHead
  | .runningGroup group rest admitted => some (s.resolveGroup group rest admitted)
  | _ => none

/-- The run in flight throws. -/
def reject (deferred : Bool) : Option FollowupSystem :=
  let failed := Drain.failed (if deferred then .deferred else .runFailed)
  match s.drain with
  | .dropping _ _ _ => some (s.goto failed)
  | .delivering d admitted => some (s.rejectDelivery d admitted deferred)
  | .running item _ =>
    some ((if s.canRestore then s.setItems (item :: s.queue.items) else s).goto failed)
  | .runningGroup group _ admitted => some ((s.rejectGroup group admitted).goto failed)
  | _ => none

/-- The loop goes on after an await that was not a run. -/
def resume : Option FollowupSystem :=
  match s.drain with
  | .dropped false => some (if s.hasPendingQueueWork then s.goto .debouncing else s.finish)
  | .debouncing => some (s.sweep true s.queue.items.length)
  | .dropped true =>
    some (if s.hasPendingQueueWork then
      if 0 < s.queue.summary.droppedCount then s.drainOverflowSummaryGroup env else s.drainItems env
    else s.finish)
  | .elidedDelivered d => some (s.finishElided d)
  | .elidedSkipped => some (s.drainRetainedSummary env)
  | .summaryDone true => some s.loopHead
  | .summaryDone false => some (s.drainItems env)
  | .collectSkipped => some (s.drainCollectGroups env)
  | .breaking | .failed _ => some s.finish
  | _ => none

/-- The step function. An orphaned queue takes no more messages, and only the queue aborts its own
signal. -/
def next (s : FollowupSystem) : FollowupEvent → Option FollowupSystem
  | .enqueue request => if s.queue.registered then some (s.enqueueFollowupRun env request) else none
  | .schedule =>
    match s.drain with
    | .idle => if s.queue.registered then some s.scheduleFollowupDrain else none
    | _ => none
  | .clear => if s.queue.registered then some s.clearFollowupQueue else none
  | .refresh params => if s.queue.registered then some (s.refreshQueuedFollowupSession params) else none
  | .abort signal =>
    if signal = s.queue.abortController then none
    else some { s with abortedSignals := signal :: s.abortedSignals }
  | .onAdmitted => s.onAdmitted
  | .resolve => s.resolve
  | .reject deferred => s.reject deferred
  | .resume => s.resume env

def Init (s : FollowupSystem) : Prop :=
  ∃ settings abortController abortedSignals runs,
    abortController ∉ abortedSignals ∧ s = created settings abortController abortedSignals runs

def Step (s : FollowupSystem) (e : FollowupEvent) (t : FollowupSystem) : Prop := s.next env e = some t

/-- A state some run of the queue reaches. -/
abbrev Reached (s : FollowupSystem) : Prop := Lts.Reachable Init (Step env) s

end FollowupSystem

/-! ## A small queue

The data the concrete runs of this development use: one session, messages that differ in their text
alone, and a queue with room for one. -/

def plainEnv : FollowupEnv where
  toLowerCase := String.toLower
  isRoutableChannel := fun _ => false
  admissionNumber := id
  admissionNumber_injective := Function.injective_id

def plainRun : Run where
  sessionId := "session"
  sessionFile := "session.jsonl"
  provider := "provider"
  model := "model"
  blockReplyBreak := .textEnd

def smallQueue : FollowupSystem :=
  .created { mode := .followup, cap := some 1 } 0 [] fun _ => plainRun

theorem smallQueue_init : FollowupSystem.Init smallQueue :=
  ⟨_, 0, [], _, List.not_mem_nil, rfl⟩

def FollowupEvent.message (prompt : String) : FollowupEvent :=
  .enqueue { run := { run := 0, prompt := prompt }, settings := { mode := .followup } }

theorem smallQueue_reached {events : List FollowupEvent} {s : FollowupSystem}
    (h : Lts.run (FollowupSystem.next plainEnv) smallQueue events = some s) :
    FollowupSystem.Reached plainEnv s :=
  Lts.Reachable.run (.start smallQueue_init) h

end OpenClaw.Followup
