import OpenClaw.Cron.Ops
import OpenClaw.Lib.Heap
import OpenClaw.Lib.Prog

/-!
# `src/cron/service/ops.ts`: the mutations in place

`Cron.Ops` gives the mutating requests as functions from store to store. Here they are the steps the
code takes: jobs, store files and marker sets are objects, `structuredClone` makes new ones, the
maintenance pass writes every job of the store where it is and drops markers from the live set, and
a throw leaves the objects as they are at that point. Only `persistOrRestore` undoes anything.

Times are read from the clock once for the request and once for the maintenance pass. The request
finds out from outside (`OpsEnv`) what loading and saving do, which fresh id is drawn, and whether
the checks of the fields the model leaves out (name, delivery, target agent) pass. The timer, the
change event, the log and the value the request returns are left out.
-/

namespace OpenClaw.Cron.InPlace

/-- What `recordScheduleComputeError` tells the user of a job it disabled. -/
structure AutoDisableNotification where
  jobId : String
  errorCount : Option Nat
  lastError : Option String
  deriving DecidableEq

/-- The part of `CronServiceState` the mutations work on, with the objects it points to. A store
file is one with its `jobs` array. -/
structure ServiceState where
  jobs : Heap CronJob := {}
  storeFiles : Heap (List Ref) := {}
  idSets : Heap (Finset String) := ⟨[∅]⟩
  store : Option Ref := none
  pendingCatchupDeferralJobIds : Ref := 0
  /-- There are rows in `pendingQuarantineConfigJobs`. -/
  pendingQuarantine : Bool := false
  /-- The rows on disk. -/
  persisted : List CronJob := []
  /-- The notifications that have been sent. -/
  notified : List AutoDisableNotification := []

namespace ServiceState

/-- The `jobs` array of the store. -/
def storeRefs (s : ServiceState) : List Ref := (s.store.bind s.storeFiles.read).getD []

def storeJobs (s : ServiceState) : List CronJob := s.jobs.readAll s.storeRefs

def deferralIds (s : ServiceState) : Finset String :=
  (s.idSets.read s.pendingCatchupDeferralJobIds).getD ∅

/-- The value of `state.store`, and that of `state.pendingCatchupDeferralJobIds`. -/
def view (s : ServiceState) : Option (List CronJob) × Finset String :=
  (s.store.map fun _ => s.storeJobs, s.deferralIds)

end ServiceState

/-- What a request gets from outside. -/
structure OpsEnv where
  /-- The clock at the request, and at its maintenance pass. -/
  now : Int
  maintenanceNow : Int
  freshId : String
  /-- `loadCronJobsStoreWithConfigJobs`: the valid rows, and whether some were invalid. -/
  load : Except String (List CronJob × Bool)
  /-- The quarantine file is written when the store is loaded, and the sanitized store is saved. -/
  loadFlushes : Bool := true
  loadSaves : Bool := true
  /-- The quarantine file is written before the store is saved. -/
  flushes : Bool := true
  /-- `saveCronJobsStore` after the mutation. -/
  save : Except String Unit
  /-- The checks of the fields that the model leaves out. -/
  otherChecks : Except String Unit := .ok ()

variable (deps : CronDeps) (env : OpsEnv)

abbrev Op := Prog ServiceState

/-! ## Objects -/

/-- A new job object. -/
def allocJob (job : CronJob) : Op Ref := fun s =>
  (.ok s.jobs.size, { s with jobs := s.jobs.alloc job })

/-- A job object is written in place. -/
def writeJob (r : Ref) (job : CronJob) : Op Unit :=
  Prog.modify fun s => { s with jobs := s.jobs.modify r fun _ => job }

/-- The state with the `jobs` array of its store changed. -/
def ServiceState.withStore (s : ServiceState) (f : List Ref → List Ref) : ServiceState :=
  { s with storeFiles := s.store.elim s.storeFiles fun r => s.storeFiles.modify r f }

def modifyStore (f : List Ref → List Ref) : Op Unit := Prog.modify (·.withStore f)

/-- The live marker set is changed. -/
def modifyIds (f : Finset String → Finset String) : Op Unit :=
  Prog.modify fun s => { s with idSets := s.idSets.modify s.pendingCatchupDeferralJobIds f }

/-- The jobs of the array with a property, each with its reference. -/
def ServiceState.findRefs (s : ServiceState) (p : CronJob → Bool) : List (Ref × CronJob) :=
  s.storeRefs.filterMap fun r => ((s.jobs.read r).filter p).map (r, ·)

/-! ## `store.ts` -/

/-- A store file with new job objects, which becomes the store. -/
def installStore (jobs : List CronJob) : Op Unit :=
  Prog.modify fun s =>
    { s with
      jobs := s.jobs.cloneAll jobs
      storeFiles := s.storeFiles.alloc (s.jobs.cloneRefs jobs)
      store := some s.storeFiles.size }

/-- Invalid rows are quarantined and the sanitized store is saved. -/
def quarantineLoaded : Op Unit :=
  Prog.modify fun s =>
    { s with
      pendingQuarantine := !env.loadFlushes
      persisted := if env.loadFlushes && env.loadSaves then s.storeJobs else s.persisted }

/-- `ensureLoaded` with `skipRecompute`. A failed save of the sanitized store is only logged. -/
def ensureLoaded : Op Unit := do
  match (← Prog.get).store with
  | some _ => pure ()
  | none =>
    let (jobs, invalid) ← Prog.ofExcept env.load
    installStore jobs
    if invalid then quarantineLoaded env else pure ()

/-- `persist`. Rows that cannot be quarantined keep the store from being written, without an
error. -/
def persist : Op Unit := do
  let s ← Prog.get
  if s.store.isSome ∧ (s.pendingQuarantine → env.flushes) then
    Prog.modify fun s => { s with pendingQuarantine := false }
    Prog.ofExcept env.save
    Prog.modify fun s => { s with persisted := s.storeJobs }
  else pure ()

/-! ## Rolling back -/

structure CronRollbackSnapshot where
  store : Option Ref
  pendingCatchupDeferralJobIds : Ref

/-- The state with a deep clone of the store, and a copy of the markers. -/
def ServiceState.snapshotted (s : ServiceState) : ServiceState :=
  { s with
    jobs := s.jobs.cloneAll s.storeJobs
    storeFiles := s.storeFiles.alloc (s.jobs.cloneRefs s.storeJobs)
    idSets := s.idSets.alloc s.deferralIds }

/-- The references of the clone and the copy. -/
def ServiceState.taken (s : ServiceState) : CronRollbackSnapshot :=
  ⟨s.store.map fun _ => s.storeFiles.size, s.idSets.size⟩

def snapshotStoreForRollback : Op CronRollbackSnapshot := fun s => (.ok s.taken, s.snapshotted)

/-- The snapshot becomes the state again. -/
def ServiceState.restore (s : ServiceState) (snapshot : CronRollbackSnapshot) : ServiceState :=
  { s with
    store := snapshot.store
    pendingCatchupDeferralJobIds := snapshot.pendingCatchupDeferralJobIds }

/-- `persistOrRestore`. The notifications are sent after the write. -/
def persistOrRestore (snapshot : CronRollbackSnapshot)
    (notifications : List AutoDisableNotification) : Op Unit := do
  Prog.tryCatch (persist env) fun err => do
    Prog.modify fun s => s.restore snapshot
    Prog.throw err
  Prog.modify fun s => { s with notified := s.notified ++ notifications }

/-! ## The maintenance pass -/

/-- The notification of a job that the pass has disabled. `recordScheduleComputeError` is the only
part of the pass that disables an enabled job. -/
def autoDisableNotification (job : CronJob) : List AutoDisableNotification :=
  if isJobEnabled job then []
  else [⟨job.id, job.state.scheduleErrorCount, job.state.lastError⟩]

/-- The marker of a deferred job whose slot has arrived is deleted. -/
def clearArrivedDeferral (job : CronJob) : Op Unit := do
  if job.id ∈ (← Prog.get).deferralIds ∧ deferralArrived job env.maintenanceNow then
    modifyIds (·.erase job.id)
  else pure ()

/-- The callback of the pass, on the object of a normalized job that is not skipped. -/
def maintainObject (opts : MaintenanceOpts) (r : Ref) (job : CronJob) :
    Op (List AutoDisableNotification) := do
  clearArrivedDeferral env job
  let deferred := decide (job.id ∈ (← Prog.get).deferralIds)
  let (maintained, _) := maintainJob deps opts env.maintenanceNow deferred job
  writeJob r maintained
  return autoDisableNotification maintained

/-- `walkSchedulableJobs` over the array, with what is to be notified. -/
def walkObjects (opts : MaintenanceOpts) : List Ref → Op (List AutoDisableNotification)
  | [] => return []
  | r :: rest => do
    match (← Prog.get).jobs.read r with
    | none => walkObjects opts rest
    | some job =>
      let tick := normalizeJobTickState job env.maintenanceNow
      writeJob r tick.job
      if tick.skip then walkObjects opts rest
      else
        let notifications ← maintainObject deps env opts r tick.job
        return notifications ++ (← walkObjects opts rest)

/-- `recomputeNextRunsForMaintenance`, with the deferred notifications. The markers of jobs that
are gone or disabled are deleted first. -/
def recomputeNextRunsForMaintenance (opts : MaintenanceOpts) :
    Op (List AutoDisableNotification) := do
  let s ← Prog.get
  let relevantDeferralIds := (s.storeJobs.filter isJobEnabled).map (·.id)
  modifyIds fun deferralIds =>
    if s.store.isSome then deferralIds.filter (· ∈ relevantDeferralIds) else deferralIds
  walkObjects deps env opts s.storeRefs

/-! ## The requests -/

/-- `finalizeUpdatedJob`, on the object of the next job. -/
def finalizeUpdatedJob (job : CronJob) (next : Ref) (nextJob : CronJob)
    (schedulingInputsRequested scheduleChanged : Bool) : Op Unit := do
  -- the anchor and the update time are written before a next run is computed
  writeJob next (anchoredJob job nextJob env.now scheduleChanged)
  writeJob next (← Prog.ofExcept
    (Cron.finalizeUpdatedJob deps job nextJob env.now schedulingInputsRequested scheduleChanged))

/-- The array with the next job in the place of the first one with its id. -/
def ServiceState.replaceRef (s : ServiceState) (next : Ref) (refs : List Ref) : List Ref :=
  match (s.jobs.read next).map fun nextJob =>
      refs.findIdx fun r => (s.jobs.read r).any (·.id = nextJob.id) with
  | some index => refs.set index next
  | none => refs

def persistUpdatedJob (snapshot : CronRollbackSnapshot) (next : Ref) : Op Unit := do
  let s ← Prog.get
  modifyStore (s.replaceRef next)
  persistOrRestore env snapshot []

/-- The jobs an `add` with a declaration key converges on. -/
def ServiceState.declared (s : ServiceState) (input : CronJobCreate) (opts : CronAddOptions) :
    List (Ref × CronJob) :=
  match normalizeOptionalString input.declarationKey with
  | none => []
  | some key => s.findRefs fun job => job.declarationKey = some key && opts.matchesExisting job

/-- `normalizeCronRunLogJobId`, for its throw. -/
def normalizeCronRunLogJobId (jobId : String) : Except String Unit :=
  let trimmed := JsString.trim jobId
  if trimmed = "" ∨ '/' ∈ trimmed.toList ∨ '\\' ∈ trimmed.toList ∨ '\x00' ∈ trimmed.toList then
    .error "invalid cron run log job id"
  else .ok ()

/-- The converging half of `add`. -/
def converge (existing : CronJob) (input : CronJobCreate) (opts : CronAddOptions) : Op Unit := do
  let next ← allocJob existing
  writeJob next (declaredJob existing input opts.enabledExplicit env.now)
  Prog.ofExcept env.otherChecks
  let nextJob ← Prog.ofExcept
    (applyDeclarativeJobSpec deps existing input opts.enabledExplicit env.now)
  if sameDeclaration opts existing nextJob then pure ()
  else
    let snapshot ← snapshotStoreForRollback
    finalizeUpdatedJob deps env existing next nextJob true (existing.schedule ≠ nextJob.schedule)
    persistUpdatedJob env snapshot next

/-- The creating half of `add`. -/
def create (input : CronJobCreate) : Op Unit := do
  let s ← Prog.get
  match (normalizeOptionalString input.id).filter fun id => s.storeJobs.any (·.id = id) with
  | some id => Prog.throw (.rejected s!"cron job already exists: {id}")
  | none =>
    let snapshot ← snapshotStoreForRollback
    Prog.ofExcept env.otherChecks
    let job ← allocJob (← Prog.ofExcept (createJob deps input env.freshId env.now))
    modifyStore (· ++ [job])
    let notifications ← recomputeNextRunsForMaintenance deps env {}
    persistOrRestore env snapshot notifications

def checkReservedId (input : CronJobCreate) : Except String Unit :=
  match normalizeOptionalString input.id with
  | none => if input.id.isSome then .error "cron job id must not be blank" else .ok ()
  | some id => normalizeCronRunLogJobId id

/-- `add`, on a loaded store. -/
def addLoaded (input : CronJobCreate) (opts : CronAddOptions) : Op Unit := do
  Prog.ofExcept (checkReservedId input)
  match (← Prog.get).declared input opts with
  | [] => InPlace.create deps env input
  | [(_, existing)] => converge deps env existing input opts
  | _ =>
    let key := (normalizeOptionalString input.declarationKey).getD ""
    Prog.throw (.rejected s!"cron declarationKey is ambiguous within caller scope: {key}")

/-- `CronUpdatePrecondition`: what it makes of the clone it is given, and whether it throws. -/
abbrev CronUpdatePrecondition := CronJob → Int → CronJob × Except String Unit

/-- The precondition is given a clone of the job. -/
def checkPrecondition (job : CronJob) : Option CronUpdatePrecondition → Op Unit
  | none => pure ()
  | some precondition => do
    let clone ← allocJob job
    writeJob clone (precondition job env.now).1
    Prog.ofExcept (precondition job env.now).2

/-- `updateLoadedJob`, on a loaded store. -/
def updateLoaded (id : String) (patch : CronJobPatch)
    (precondition : Option CronUpdatePrecondition) : Op Unit := do
  let snapshot ← snapshotStoreForRollback
  match (← Prog.get).findRefs (·.id = id) with
  | [] => Prog.throw (.rejected s!"unknown cron job id: {id}")
  | (_, job) :: _ =>
    checkPrecondition env job precondition
    let next ← allocJob job
    writeJob next (patchedJob job patch)
    Prog.ofExcept env.otherChecks
    let nextJob ← Prog.ofExcept (applyJobPatch deps job patch env.now)
    finalizeUpdatedJob deps env job next nextJob patch.schedulingInputsRequested
      patch.schedule.isSome
    persistUpdatedJob env snapshot next

/-- `remove`, on a loaded store. -/
def removeLoaded (id : String) : Op Unit := do
  if (← Prog.get).store.isNone then pure ()
  else
    let snapshot ← snapshotStoreForRollback
    let s ← Prog.get
    modifyStore (·.filter fun r => (s.jobs.read r).all (·.id ≠ id))
    let notifications ← recomputeNextRunsForMaintenance deps env {}
    persistOrRestore env snapshot notifications

/-- The mutating requests. -/
inductive Request
  | add (input : CronJobCreate) (opts : CronAddOptions)
  | update (id : String) (patch : CronJobPatch)
  | updateWithPrecondition (id : String) (patch : CronJobPatch)
      (precondition : CronUpdatePrecondition)
  | remove (id : String)

/-- The request, once the store is in memory. -/
def Request.mutate : Request → Op Unit
  | .add input opts => addLoaded deps env input opts
  | .update id patch => updateLoaded deps env id patch none
  | .updateWithPrecondition id patch precondition =>
    updateLoaded deps env id patch (some precondition)
  | .remove id => removeLoaded deps env id

/-- `add`, `update`, `updateWithPrecondition` and `remove`. -/
def Request.run (request : Request) : Op Unit := do
  ensureLoaded env
  request.mutate deps env

end OpenClaw.Cron.InPlace
