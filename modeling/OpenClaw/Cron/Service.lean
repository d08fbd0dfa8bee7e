import Mathlib.Logic.Function.Basic
import OpenClaw.Cron.Maintenance
import OpenClaw.Lib.Lts

/-!
# The cron service at work

`src/cron/service/timer.ts` (`onTimer`, the startup catch-up) and the manual runs of `ops.ts`.

Jobs run outside the store lock. A run first reserves its job under the lock, by writing
`runningAtMs` to the row and to disk; it is finalized under the lock when the job has ended. Between
the two any other operation may take the lock. One event is what happens while the lock is held
once, or what a run does between two such sections. Writes succeed, and `nowMs` is read once in an
event.
-/

namespace OpenClaw.Cron

/-! ## Store operations of a run -/

namespace CronStore

variable (deps : CronDeps)

/-- Reserve the jobs: each row is marked as running. -/
def reserve (s : CronStore) (ids : List String) (mark : CronJob → CronJob) : CronStore :=
  persist { s with jobs := s.jobs.map fun job => if job.id ∈ ids then mark job else job }

/-- Give reservations back, where the row still carries their marker. -/
def release (s : CronStore) (reserved : List (String × Int)) : CronStore :=
  { s with jobs := s.jobs.map fun job =>
      if job.state.runningAtMs.any fun runningAtMs => (job.id, runningAtMs) ∈ reserved then
        job.setRunningAtMs none
      else job }

/-- `releaseUnclaimedDueJobReservations`. -/
def releaseUnclaimed (s : CronStore) (unclaimed : List (String × Int)) (now : Int) : CronStore :=
  ((s.reload.release unclaimed).maintain deps {} now).1.persist

def skipInvalidPersistedManualRun (s : CronStore) (job : CronJob) (force : Bool)
    (errorText : String) (now : Int) : CronStore :=
  let result : CronRunResult :=
    { status := .skipped, error := some errorText, startedAt := now, endedAt := now }
  let skipped :=
    if shouldDelete job result then s.erase job.id
    else s.replace (applyJobResult deps job result force)
  (skipped.maintain deps { recomputeExpired := true } now).1.persist

/-- The locked part of `inspectManualRunPreflight`, and whether the job may run. -/
def inspectManualRunPreflight (s : CronStore) (id : String) (force : Bool) (now : Int) :
    CronStore × Bool :=
  let s := (s.maintain deps {} now).1
  match s.find id with
  | none => (s, false)
  | some job =>
    match assertSupportedJobSpec job with
    | .error error => (s.skipInvalidPersistedManualRun deps job force error now, false)
    | .ok _ => (s, isJobDue job now force)

/-- The reservation of `prepareManualRun`. -/
def reserveManualRun (s : CronStore) (id : String) (startedAt : Int) : Option CronStore :=
  (s.find id).bind fun job =>
    if job.state.runningAtMs.isSome then none
    else some (s.reserve [id] fun job =>
      { job with state := { job.state with runningAtMs := some startedAt, lastError := none } })

/-- `mergeManualRunSnapshotAfterReload`. `applied` is the store the outcome was applied to. -/
def mergeManualRunSnapshot (reloaded applied : CronStore) (id : String) : CronStore :=
  match applied.find id, reloaded.find id with
  | none, _ => reloaded.erase id
  | some _, none => reloaded
  | some job, some row =>
    reloaded.replace
      { row with enabled := job.enabled, updatedAtMs := job.updatedAtMs, state := job.state }

/-- The locked part of `finishPreparedManualRun`. -/
def finishManualRun (s : CronStore) (id : String) (result : CronRunResult) (force : Bool)
    (now : Int) : CronStore :=
  match s.find id with
  | none => s
  | some _ =>
    let applied := s.applyOutcome deps id result force
    let merged := applied.reload.mergeManualRunSnapshot applied id
    (merged.maintain deps { recomputeExpired := true } now).1.persist

end CronStore

/-! ## Startup -/

/-- What the service is started with. -/
structure ServiceConfig where
  maxMissedJobsPerRestart : Option Int := none
  startupDeferredMissedAgentJobDelayMs : Option Int := none
  missedJobStaggerMs : Option Int := none
  /-- Whether `onIsolatedAgentSetupTimeout` is set. -/
  hasSetupTimeoutRecoveryHandler : Bool := false

def markInterruptedStartupRun (job : CronJob) (runningAtMs nowMs : Int) : CronJob :=
  { job with
    enabled := if job.schedule.kind = .at then false else job.enabled
    updatedAtMs := nowMs
    state := { job.state with
      runningAtMs := none
      lastRunAtMs := some runningAtMs
      lastRunStatus := some .error
      lastStatus := some .error
      lastError := some "cron: job interrupted by gateway restart"
      lastDurationMs := some (max 0 (nowMs - runningAtMs))
      consecutiveErrors := some (max 0 (job.state.consecutiveErrors.getD 0) + 1)
      nextRunAtMs := none } }

structure StartupDeferredJob where
  jobId : String
  delayMs : Option Int := none
  deriving DecidableEq

structure StartupCatchupPlan where
  candidates : List String := []
  deferredJobs : List StartupDeferredJob := []

namespace CronStore

variable (deps : CronDeps) (config : ServiceConfig)

/-- The locked part of `start`. It returns the ids it marked as interrupted. -/
def recoverInterrupted (s : CronStore) (now : Int) : CronStore × List String :=
  let recovered := s.jobs.map fun job =>
    (job.state.runningAtMs.map (markInterruptedStartupRun job · now)).getD job
  let interruptedJobIds := (s.jobs.filter (·.state.runningAtMs.isSome)).map (·.id)
  (persist { s with jobs := recovered }, interruptedJobIds)

/-- `planStartupCatchup`, deferring agent turns. -/
def planStartupCatchup (s : CronStore) (skipJobIds : List String) (now : Int) :
    CronStore × StartupCatchupPlan :=
  let maxImmediate := max 0 (config.maxMissedJobsPerRestart.getD 5)
  let agentDelayMs := max 0 (config.startupDeferredMissedAgentJobDelayMs.getD (2 * 60000))
  let jobs := s.jobs.map (deferPendingBackoffMissedCronSlot deps skipJobIds now)
  let deferred := { s with jobs := jobs }
  let missed := collectRunnableJobs deps
    { skipJobIds := skipJobIds, skipAtIfAlreadyRan := true, allowCronMissedRunByLastRun := true }
    now jobs
  if missed = [] then (if jobs ≠ s.jobs then deferred.persist else deferred, {})
  else
    let sorted := missed.mergeSort fun a b =>
      a.state.nextRunAtMs.getD 0 ≤ b.state.nextRunAtMs.getD 0
    let startupEligible := sorted.filter (·.payload ≠ .agentTurn)
    let candidates := (startupEligible.take maxImmediate.toNat).map (·.id)
    let deferredOverflow := (startupEligible.drop maxImmediate.toNat).map fun job =>
      ({ jobId := job.id } : StartupDeferredJob)
    let deferredAgentJobs := (sorted.filter (·.payload = .agentTurn)).map fun job =>
      ({ jobId := job.id, delayMs := some agentDelayMs } : StartupDeferredJob)
    (deferred.reserve candidates fun job =>
        { job with state := { job.state with runningAtMs := some now, lastError := none } },
      ⟨candidates, deferredOverflow ++ deferredAgentJobs⟩)

/-- The deferral loop of `applyStartupCatchupOutcomes`, from the given offset on. -/
def deferStartupJobs (staggerMs baseNow : Int) :
    Int → List StartupDeferredJob → CronStore → CronStore
  | _, [], s => s
  | offset, deferred :: rest, s =>
    match (s.find deferred.jobId).filter isJobEnabled with
    | none => deferStartupJobs staggerMs baseNow offset rest s
    | some job =>
      let next := match deferred.delayMs with
        | some delayMs => baseNow + delayMs + offset - staggerMs
        | none => baseNow + offset
      deferStartupJobs staggerMs baseNow (offset + staggerMs) rest
        { s.replace (job.setNextRunAtMs (some next)) with
          pendingCatchupDeferralJobIds := insert deferred.jobId s.pendingCatchupDeferralJobIds }

/-- `applyStartupCatchupOutcomes`, of a service that has not been stopped: `unstarted` are the
reservations of the candidates it did not come to. -/
def applyStartupCatchupOutcomes (s : CronStore) (unstarted : List (String × Int))
    (outcomes : List (String × CronRunResult)) (deferredJobs : List StartupDeferredJob)
    (now : Int) : CronStore :=
  let staggerMs := max 0 (config.missedJobStaggerMs.getD 5000)
  let released := s.release unstarted
  if outcomes = [] ∧ deferredJobs = [] then
    if released.jobs ≠ s.jobs then
      (released.maintain deps { repairFutureCronNextRunAtMs := false } now).1.persist
    else released
  else
    let applied := outcomes.foldl
      (fun s outcome => s.applyOutcomeToStoredJob deps outcome.1 outcome.2) released
    let deferred := deferStartupJobs staggerMs now staggerMs deferredJobs applied
    (deferred.maintain deps { repairFutureCronNextRunAtMs := false } now).1.persist

/-- `applyStartupCatchupOutcomes`, of a stopped service: the outcomes are dropped. -/
def abandonStartupCatchup (s : CronStore) (unstarted : List (String × Int)) (now : Int) :
    CronStore :=
  let reloaded := s.reload
  let released := reloaded.release unstarted
  if released.jobs ≠ reloaded.jobs then
    (released.maintain deps { repairFutureCronNextRunAtMs := false } now).1.persist
  else released

end CronStore

/-! ## The service -/

/-- Who runs a job: a timer tick, a manual run or the startup catch-up. -/
inductive RunOwner
  | tick
  | manual (force : Bool)
  | startup
  deriving DecidableEq

/-- How far a run is. `token` is the run's `CronActiveJobMarker`. A worker of a tick finalizes a
setup timeout by itself; every other outcome waits for the end of the tick. -/
inductive RunStage
  | reserved (reservedAtMs : Int)
  | executing (token : Nat) (startedAt : Int)
  | setupTimedOut (token : Nat) (result : CronRunResult)
  | ended (token : Nat) (result : CronRunResult)
  deriving DecidableEq

/-- A run from its reservation to its finalization. -/
structure CronRun where
  id : String
  owner : RunOwner
  stage : RunStage
  deriving DecidableEq

namespace CronRun

/-- `executeJobCoreWithTimeout` is in flight. -/
def isExecuting (run : CronRun) : Bool := run.stage matches .executing ..

def isReserved (run : CronRun) : Bool := run.stage matches .reserved ..

/-- One of the tick's workers is busy with the run. -/
def occupiesWorker (run : CronRun) : Bool :=
  run.owner = .tick && run.stage matches .executing .. | .setupTimedOut ..

/-- The reservation, as the releases compare it. -/
def reservation? (run : CronRun) : Option (String × Int) :=
  match run.stage with
  | .reserved reservedAtMs => some (run.id, reservedAtMs)
  | _ => none

end CronRun

/-- A tick past its reservations. `releasedDue` are reservations it has given back: it tries again
at its end. -/
structure Tick where
  stopAdmittingDueJobs : Bool := false
  concurrency : Nat
  releasedDue : List (String × Int) := []

/-- A manual run between its two locked sections. -/
structure PreparedRun where
  id : String
  force : Bool
  now : Int
  deriving DecidableEq

/-- `CronServiceState`. `tick` is `some` while `running` is set. `activeJobs` are the active-job
markers. -/
structure CronService where
  store : CronStore
  now : Int
  stopped : Bool := false
  restartRecoveryPending : Bool := false
  tick : Option Tick := none
  startup : Option (List StartupDeferredJob) := none
  interruptedJobIds : List String := []
  prepared : List PreparedRun := []
  runs : List CronRun := []
  activeJobs : String → Option Nat := fun _ => none
  nextToken : Nat := 1

namespace CronService

/-- `resolveRunConcurrency`, capped by the due jobs. -/
def resolveRunConcurrency (deps : CronDeps) (due : Nat) : Nat :=
  min (max 1 (deps.cronConfig.maxConcurrentRuns.getD 1)).toNat (max 1 due)

/-- `isCronActiveJobMarkerCurrent`. -/
def isCurrent (s : CronService) (id : String) (token : Nat) : Bool := s.activeJobs id = some token

/-- The outcomes of ended runs that `filterCurrentCronRunOutcomes` keeps. -/
def currentOutcomes (s : CronService) (runs : List CronRun) : List (String × CronRunResult) :=
  runs.filterMap fun run =>
    match run.stage with
    | .ended token result | .setupTimedOut token result =>
      if s.isCurrent run.id token then some (run.id, result) else none
    | _ => none

/-- `clearCronJobActive`. -/
def clearActive (s : CronService) (run : CronRun) : CronService :=
  match run.stage with
  | .executing token _ | .setupTimedOut token _ | .ended token _ =>
    if s.isCurrent run.id token then { s with activeJobs := Function.update s.activeJobs run.id none }
    else s
  | .reserved _ => s

/-- A run goes on to its next stage. -/
def advance (s : CronService) (run : CronRun) (stage : RunStage) : CronService :=
  { s with runs := { run with stage := stage } :: s.runs.erase run }

/-- `markCronJobActive`, and the call of `executeJobCoreWithTimeout`. -/
def start (s : CronService) (run : CronRun) (startedAt : Int) : CronService :=
  { s.advance run (.executing s.nextToken startedAt) with
    activeJobs := Function.update s.activeJobs run.id (some s.nextToken)
    nextToken := s.nextToken + 1 }

/-- The runs of one owner leave the service. -/
def retire (s : CronService) (owner : RunOwner) : CronService :=
  let retired := s.runs.filter (·.owner = owner)
  { retired.foldl clearActive s with runs := s.runs.filter (·.owner ≠ owner) }

/-- The reservations of one owner that no worker has come to. -/
def unclaimed (s : CronService) (owner : RunOwner) : List (String × Int) :=
  (s.runs.filter (·.owner = owner)).filterMap CronRun.reservation?

end CronService

/-- What happens to the service. -/
inductive ServiceEvent
  | read
  | add (input : CronJobCreate) (opts : CronAddOptions) (freshId : String)
  | update (id : String) (patch : CronJobPatch)
  | remove (id : String)
  /-- `onTimer` up to its workers; `stops` says that `stop` came while its write was awaited. -/
  | tick (stops : Bool)
  /-- A worker takes the next due job. `stored` says that the reserved object is still the row. -/
  | claim (stored : Bool)
  /-- A worker finds the service stopped or about to restart. -/
  | stopAdmitting
  | ends (run : CronRun) (result : CronRunResult) (setupTimeout : Bool)
  | finalizeSetupTimeout (run : CronRun)
  | releaseUnclaimed
  | finishTick
  | inspectManualRun (id : String) (force : Bool)
  | prepareManualRun (prepared : PreparedRun) (stops : Bool)
  | finishManualRun (run : CronRun)
  | recoverInterrupted
  | planStartupCatchup
  | claimStartup
  | finishStartupCatchup
  | startupMaintenance
  | stop
  | restartRecovery (pending : Bool)
  | clock (now : Int)

namespace CronService

variable (deps : CronDeps) (config : ServiceConfig)

/-- `onTimer`, up to its workers. A tick that finds the service stopped once it holds the lock has
reloaded the store. -/
def onTick (s : CronService) (stops : Bool) : Option CronService :=
  if s.tick.isSome then none
  else if s.stopped || s.restartRecoveryPending then some { s with store := s.store.reload }
  else
    let reloaded := s.store.reload
    let due := (collectRunnableJobs deps {} s.now reloaded.jobs).map (·.id)
    if due = [] then some { s with store := s.store.emptyTick deps s.now }
    else
      let reserved := reloaded.reserve due (·.setRunningAtMs (some s.now))
      if stops then
        let released := reserved.release (due.map (·, s.now))
        some { s with store := (released.maintain deps {} s.now).1.persist, stopped := true }
      else
        some { s with
          store := reserved
          tick := some { concurrency := resolveRunConcurrency deps due.length }
          runs := s.runs ++ due.map fun id => ⟨id, .tick, .reserved s.now⟩ }

/-- A worker of the tick starts its next due job. -/
def claim (s : CronService) (stored : Bool) : Option CronService :=
  match s.tick, s.runs.find? fun run => run.owner = .tick && run.isReserved with
  | some tick, some run =>
    if tick.stopAdmittingDueJobs || s.stopped || s.restartRecoveryPending ||
        tick.concurrency ≤ s.runs.countP (·.occupiesWorker) then none
    else
      let startedAt := s.now
      let mark := fun job : CronJob =>
        { job with state := { job.state with runningAtMs := some startedAt, lastError := none } }
      let jobs := s.store.jobs.map fun job => if job.id = run.id then mark job else job
      let started := s.start run startedAt
      some (if stored then { started with store := { s.store with jobs := jobs } } else started)
  | _, _ => none

/-- `finalizeCompletedResults`, if it has a current outcome. -/
def finalize (s : CronService) (runs : List CronRun) : CronService :=
  let outcomes := s.currentOutcomes runs
  if outcomes = [] then s
  else { s with store := s.store.finalizeCompletedResults deps outcomes s.now }

/-- A worker finalizes a setup timeout; with a recovery handler the tick admits no more jobs. -/
def finalizeSetupTimeout (s : CronService) (run : CronRun) : Option CronService :=
  match run.stage, s.tick with
  | .setupTimedOut .., some tick =>
    if run ∈ s.runs then
      let stops := config.hasSetupTimeoutRecoveryHandler && s.currentOutcomes [run] ≠ []
      some { (s.finalize deps [run]).clearActive run with
        runs := s.runs.erase run
        tick := some { tick with stopAdmittingDueJobs := tick.stopAdmittingDueJobs || stops } }
    else none
  | _, _ => none

/-- `releaseUnclaimedDueJobReservations`, of a tick that admits no more jobs. -/
def releaseUnclaimed (s : CronService) : Option CronService :=
  match s.tick with
  | none => none
  | some tick =>
    let unclaimed := tick.releasedDue ++ s.unclaimed .tick
    if !tick.stopAdmittingDueJobs || unclaimed = [] then none
    else some { s with
      store := s.store.releaseUnclaimed deps unclaimed s.now
      runs := s.runs.filter fun run => !(run.owner = .tick && run.isReserved)
      tick := some { tick with releasedDue := unclaimed } }

/-- The end of the tick, when each of its runs has ended. -/
def finishTick (s : CronService) : Option CronService :=
  if s.tick.isSome && s.runs.all fun run => run.owner ≠ .tick || run.stage matches .ended .. then
    some { (s.finalize deps (s.runs.filter (·.owner = .tick))).retire .tick with tick := none }
  else none

/-- `inspectManualRunPreflight`. `enqueueRun` asks it once more than `run` does, and goes no
further. -/
def inspectManualRun (s : CronService) (id : String) (force : Bool) : Option CronService :=
  if s.stopped || s.restartRecoveryPending then none
  else
    let (store, runnable) := s.store.inspectManualRunPreflight deps id force s.now
    some { s with
      store := store
      prepared := if runnable then ⟨id, force, s.now⟩ :: s.prepared else s.prepared }

/-- The second locked section of `prepareManualRun`. -/
def prepareManualRun (s : CronService) (prepared : PreparedRun) (stops : Bool) :
    Option CronService :=
  if prepared ∉ s.prepared then none
  else
    let s := { s with prepared := s.prepared.erase prepared }
    match s.store.reserveManualRun prepared.id prepared.now with
    | none => some s
    | some store =>
      if s.stopped then some s
      else if stops then
        let released := store.reload.release [(prepared.id, prepared.now)]
        some { s with store := released.persist, stopped := true }
      else
        let run : CronRun := ⟨prepared.id, .manual prepared.force, .reserved prepared.now⟩
        some (start { s with store := store, runs := run :: s.runs } run prepared.now)

/-- The last locked section of a manual run. -/
def finishManualRun (s : CronService) (run : CronRun) : Option CronService :=
  match run.owner, run.stage with
  | .manual force, .ended token result =>
    if run ∉ s.runs then none
    else
      let store :=
        if s.isCurrent run.id token then s.store.finishManualRun deps run.id result force s.now
        else s.store
      some { s.clearActive run with store := store, runs := s.runs.erase run }
  | _, _ => none

/-- The first locked section of `start`. -/
def recoverInterrupted (s : CronService) : Option CronService :=
  if s.startup.isSome then none
  else
    let (store, interruptedJobIds) := s.store.recoverInterrupted s.now
    some { s with store := store, interruptedJobIds := interruptedJobIds, stopped := false }

def planStartupCatchup (s : CronService) : Option CronService :=
  if s.stopped || s.startup.isSome then none
  else
    let (store, plan) := s.store.planStartupCatchup deps config s.interruptedJobIds s.now
    if plan.candidates = [] ∧ plan.deferredJobs = [] then some { s with store := store }
    else
      let runs := plan.candidates.map fun id => ⟨id, .startup, .reserved s.now⟩
      some { s with store := store, startup := some plan.deferredJobs, runs := s.runs ++ runs }

/-- The startup catch-up runs its candidates one after the other. -/
def claimStartup (s : CronService) : Option CronService :=
  if s.stopped || s.runs.any fun run => run.owner = .startup && run.isExecuting then none
  else (s.runs.find? fun run => run.owner = .startup && run.isReserved).map (s.start · s.now)

/-- `applyStartupCatchupOutcomes`, when the candidates have ended or the service was stopped. -/
def finishStartupCatchup (s : CronService) : Option CronService :=
  match s.startup with
  | none => none
  | some deferredJobs =>
    let runs := s.runs.filter (·.owner = .startup)
    let unstarted := s.unclaimed .startup
    if runs.any (·.isExecuting) || (unstarted ≠ [] && !s.stopped) then none
    else
      let store :=
        if s.stopped then s.store.abandonStartupCatchup deps unstarted s.now
        else s.store.applyStartupCatchupOutcomes deps config unstarted (s.currentOutcomes runs)
          deferredJobs s.now
      some { s.retire .startup with store := store, startup := none }

/-- A job ends, with the times the service takes. -/
def ends (s : CronService) (run : CronRun) (result : CronRunResult) (setupTimeout : Bool) :
    Option CronService :=
  match run.stage with
  | .executing token startedAt =>
    if run ∉ s.runs then none
    else
      let result := { result with startedAt := startedAt, endedAt := s.now }
      some (s.advance run
        (if run.owner = .tick && setupTimeout then .setupTimedOut token result
        else .ended token result))
  | _ => none

/-- One event of the service, if it can happen. A request that throws changes nothing. -/
def step (s : CronService) : ServiceEvent → Option CronService
  | .read => some { s with store := s.store.read deps s.now }
  | .add input opts freshId =>
    some { s with store := (s.store.add deps input opts freshId s.now).toOption.getD s.store }
  | .update id patch =>
    some { s with store := (s.store.update deps id patch s.now).toOption.getD s.store }
  | .remove id => some { s with store := s.store.remove deps id s.now }
  | .tick stops => s.onTick deps stops
  | .claim stored => s.claim stored
  | .stopAdmitting =>
    s.tick.bind fun tick =>
      if s.stopped || s.restartRecoveryPending then
        some { s with tick := some { tick with stopAdmittingDueJobs := true } }
      else none
  | .ends run result setupTimeout => s.ends run result setupTimeout
  | .finalizeSetupTimeout run => s.finalizeSetupTimeout deps config run
  | .releaseUnclaimed => s.releaseUnclaimed deps
  | .finishTick => s.finishTick deps
  | .inspectManualRun id force => s.inspectManualRun deps id force
  | .prepareManualRun prepared stops => s.prepareManualRun prepared stops
  | .finishManualRun run => s.finishManualRun deps run
  | .recoverInterrupted => s.recoverInterrupted
  | .planStartupCatchup => s.planStartupCatchup deps config
  | .claimStartup => s.claimStartup
  | .finishStartupCatchup => s.finishStartupCatchup deps config
  | .startupMaintenance =>
    some { s with
      store := s.store.maintainAndPersist deps { recomputeExpired := true } s.now }
  | .stop => some { s with stopped := true }
  | .restartRecovery pending => some { s with restartRecoveryPending := pending }
  | .clock now => if s.now ≤ now then some { s with now := now } else none

/-- A loaded store and nothing in flight. -/
def Initial (s : CronService) : Prop :=
  s.runs = [] ∧ (s.store.jobs.map (·.id)).Nodup ∧ (s.store.persisted.map (·.id)).Nodup

/-- The jobs `executeJobCoreWithTimeout` is in flight for, one entry for each execution. -/
def inFlight (s : CronService) : List String := (s.runs.filter (·.isExecuting)).map (·.id)

end CronService

end OpenClaw.Cron
