import OpenClaw.Cron.InPlace

/-!
# A request that throws leaves the store as it was

The objects of a request are in three groups: those the live state points to, those its snapshot
points to, and the clones it works on. Until the snapshot is taken only clones are written
(`Untouched`). After it the live objects are written as well, and never those of the snapshot
(`CanRestore`), so that restoring it gives back what was there.

**Main result.** `failed_request_restores`: a request that throws leaves the jobs, the catch-up
deferrals and the notifications as they were before it.
-/

namespace OpenClaw.Cron.InPlace

open Prog

variable {deps : CronDeps} {env : OpsEnv} {s t : ServiceState} {r : Ref} {own : List Ref}
  {v : Option (List CronJob) × Finset String} {n : List AutoDisableNotification}
  {snapshot : CronRollbackSnapshot}

/-! ## What a root points to -/

/-- The live state as a root of its objects. -/
def ServiceState.root (s : ServiceState) : CronRollbackSnapshot :=
  ⟨s.store, s.pendingCatchupDeferralJobIds⟩

def ServiceState.refsOf (s : ServiceState) (root : CronRollbackSnapshot) : List Ref :=
  (root.store.bind s.storeFiles.read).getD []

theorem view_restore (s : ServiceState) (root : CronRollbackSnapshot) :
    (s.restore root).view = (root.store.map fun _ => s.jobs.readAll (s.refsOf root),
      (s.idSets.read root.pendingCatchupDeferralJobIds).getD ∅) := rfl

/-- The objects of a root are there, and read as `v`. -/
structure Holds (v : Option (List CronJob) × Finset String) (root : CronRollbackSnapshot)
    (s : ServiceState) : Prop where
  store : ∀ r, root.store = some r → r < s.storeFiles.size
  refs : ∀ r ∈ s.refsOf root, r < s.jobs.size
  ids : root.pendingCatchupDeferralJobIds < s.idSets.size
  view : (s.restore root).view = v

/-- No reference of the state is dangling. -/
def ServiceState.WellFormed (s : ServiceState) : Prop := Holds s.view s.root s

variable {root : CronRollbackSnapshot}

theorem Holds.frame (h : Holds v root s) (t : ServiceState)
    (hjobs : ∀ r ∈ s.refsOf root, t.jobs.read r = s.jobs.read r)
    (hjobsSize : s.jobs.size ≤ t.jobs.size)
    (hfiles : ∀ r, root.store = some r → t.storeFiles.read r = s.storeFiles.read r)
    (hfilesSize : s.storeFiles.size ≤ t.storeFiles.size)
    (hids : t.idSets.read root.pendingCatchupDeferralJobIds =
      s.idSets.read root.pendingCatchupDeferralJobIds) (hidsSize : s.idSets.size ≤ t.idSets.size) :
    Holds v root t ∧ t.refsOf root = s.refsOf root := by
  have hrefs : t.refsOf root = s.refsOf root := by
    unfold ServiceState.refsOf
    cases hstore : root.store with
    | none => rfl
    | some r => exact congrArg (Option.getD · []) (hfiles r hstore)
  refine ⟨⟨fun r hr => (h.store r hr).trans_le hfilesSize, ?_, h.ids.trans_le hidsSize, ?_⟩, hrefs⟩
  · rw [hrefs]
    exact fun r hr => (h.refs r hr).trans_le hjobsSize
  · rw [← h.view]
    have hread := Heap.readAll_congr hjobs
    rw [← hrefs] at hread
    rw [view_restore, view_restore, hread, hrefs, hids]

theorem Holds.allocJob (h : Holds v root s) (job : CronJob) :
    Holds v root { s with jobs := s.jobs.alloc job } := by
  refine (h.frame { s with jobs := s.jobs.alloc job } (fun r hr => ?_) ?_ (fun _ _ => rfl) le_rfl rfl le_rfl).1
  · exact Heap.read_alloc_of_lt (h.refs r hr)
  · simp

theorem Holds.writeJob (h : Holds v root s) (hr : r ∉ s.refsOf root) (f : CronJob → CronJob) :
    Holds v root { s with jobs := s.jobs.modify r f } := by
  refine (h.frame { s with jobs := s.jobs.modify r f } (fun q hq => ?_) ?_ (fun _ _ => rfl) le_rfl rfl le_rfl).1
  · apply Heap.read_modify_of_ne
    intro heq
    exact hr (heq ▸ hq)
  · simp

/-! ## Before the snapshot -/

/-- Nothing of the live state has been written. The clones in `own` are not part of it. -/
structure Untouched (v : Option (List CronJob) × Finset String) (n : List AutoDisableNotification)
    (own : List Ref) (s : ServiceState) : Prop where
  live : Holds v s.root s
  notified : s.notified = n
  own : ∀ r ∈ own, r < s.jobs.size ∧ r ∉ s.storeRefs

/-- The snapshot reads as `v`, and neither the live state nor a clone shares an object with it. -/
structure CanRestore (v : Option (List CronJob) × Finset String) (n : List AutoDisableNotification)
    (snapshot : CronRollbackSnapshot) (own : List Ref) (s : ServiceState) : Prop where
  live : s.WellFormed
  saved : Holds v snapshot s
  notified : s.notified = n
  own : ∀ r ∈ own, r < s.jobs.size ∧ r ∉ s.refsOf snapshot
  refs : ∀ r ∈ s.storeRefs, r ∉ s.refsOf snapshot
  store : ∀ r, s.store = some r → snapshot.store ≠ some r
  ids : s.pendingCatchupDeferralJobIds ≠ snapshot.pendingCatchupDeferralJobIds

theorem Untouched.forget (h : Untouched v n own s) : Untouched v n [] s :=
  ⟨h.live, h.notified, nofun⟩

theorem ServiceState.WellFormed.untouched (h : s.WellFormed) : Untouched s.view s.notified [] s :=
  ⟨h, rfl, nofun⟩

theorem Untouched.allocJob (h : Untouched v n own s) (job : CronJob) :
    Untouched v n (s.jobs.size :: own) { s with jobs := s.jobs.alloc job } := by
  refine ⟨h.live.allocJob job, h.notified, fun r hr => ?_⟩
  rw [Heap.size_alloc]
  rcases List.mem_cons.1 hr with rfl | hr
  · exact ⟨Nat.lt_succ_self _, fun hmem => (h.live.refs _ hmem).false⟩
  · exact ⟨(h.own r hr).1.trans (Nat.lt_succ_self _), (h.own r hr).2⟩

theorem Untouched.writeJob (h : Untouched v n own s) (hr : r ∈ own) (f : CronJob → CronJob) :
    Untouched v n own { s with jobs := s.jobs.modify r f } := by
  refine ⟨h.live.writeJob (h.own r hr).2 f, h.notified, fun q hq => ?_⟩
  rw [Heap.size_modify]
  exact h.own q hq

/-! ## The snapshot -/

theorem refsOf_taken (s : ServiceState) :
    s.snapshotted.refsOf s.taken = s.jobs.cloneRefs s.storeJobs := by
  unfold ServiceState.refsOf ServiceState.taken ServiceState.snapshotted
  cases hstore : s.store with
  | none => simp [ServiceState.storeJobs, ServiceState.storeRefs, hstore, Heap.cloneRefs,
      Heap.readAll]
  | some q =>
    dsimp only [Option.map_some, Option.bind_some]
    rw [Heap.read_alloc_self]
    rfl

theorem holds_taken (h : Holds v s.root s) : Holds v s.taken s.snapshotted := by
  refine ⟨fun r hr => ?_, fun r hr => ?_, ?_, ?_⟩
  · cases hstore : s.store with
    | none => simp [ServiceState.taken, hstore] at hr
    | some q =>
      simp only [ServiceState.taken, hstore, Option.map_some, Option.some.injEq] at hr
      simp [ServiceState.snapshotted, ← hr]
  · rw [refsOf_taken, Heap.mem_cloneRefs] at hr
    simpa [ServiceState.snapshotted] using hr.2
  · simp [ServiceState.snapshotted, ServiceState.taken]
  · have hread : s.snapshotted.idSets.read s.idSets.size = some s.deferralIds :=
      Heap.read_alloc_self
    have hids : (s.snapshotted.idSets.read s.idSets.size).getD ∅ = s.deferralIds := by
      rw [hread, Option.getD_some]
    have hjobs : s.snapshotted.jobs.readAll (s.jobs.cloneRefs s.storeJobs) = s.storeJobs :=
      Heap.readAll_cloneAll _ _
    rw [← h.view, view_restore, view_restore, refsOf_taken, hjobs]
    refine Prod.ext ?_ hids
    exact Option.map_map _ _ _

theorem Holds.snapshotted (h : Holds v s.root s) :
    Holds v s.root s.snapshotted ∧ s.snapshotted.storeRefs = s.storeRefs := by
  refine h.frame s.snapshotted (fun r hr => Heap.read_cloneAll_of_lt (h.refs r hr)) ?_
    (fun r hr => Heap.read_alloc_of_lt (h.store r hr)) ?_ (Heap.read_alloc_of_lt h.ids) ?_
  all_goals simp [ServiceState.snapshotted]

theorem Untouched.snapshotted (h : Untouched v n own s) : Untouched v n own s.snapshotted := by
  refine ⟨h.live.snapshotted.1, h.notified, fun r hr => ⟨?_, ?_⟩⟩
  · exact (h.own r hr).1.trans_le (by simp [ServiceState.snapshotted])
  · rw [h.live.snapshotted.2]
    exact (h.own r hr).2

theorem Untouched.canRestore (h : Untouched v n own s) :
    CanRestore v n s.taken own s.snapshotted := by
  have hnew : ∀ r, r < s.jobs.size → r ∉ s.snapshotted.refsOf s.taken := by
    intro r hr hmem
    rw [refsOf_taken, Heap.mem_cloneRefs] at hmem
    omega
  have hs := h.snapshotted
  refine ⟨?_, holds_taken h.live, h.notified, fun r hr => ⟨(hs.own r hr).1, ?_⟩, ?_, ?_, ?_⟩
  · have hview : s.snapshotted.view = v := hs.live.view
    unfold ServiceState.WellFormed
    rw [hview]
    exact hs.live
  · exact hnew r (h.own r hr).1
  · rw [h.live.snapshotted.2]
    exact fun r hr => hnew r (h.live.refs r hr)
  · intro r hr htaken
    have hlt := h.live.store r hr
    have hstore : s.store = some r := hr
    simp only [ServiceState.taken, hstore, Option.map_some, Option.some.injEq] at htaken
    exact hlt.ne htaken.symm
  · exact h.live.ids.ne

/-! ## After the snapshot -/

theorem Holds.wellFormed (h : Holds v s.root s) : s.WellFormed := by
  have hview : s.view = v := h.view
  unfold ServiceState.WellFormed
  rw [hview]
  exact h

section

variable (h : CanRestore v n snapshot own s)
include h

theorem CanRestore.allocJob (job : CronJob) :
    CanRestore v n snapshot (s.jobs.size :: own) { s with jobs := s.jobs.alloc job } := by
  refine ⟨(h.live.allocJob job).wellFormed, h.saved.allocJob job, h.notified, fun r hr => ?_,
    h.refs, h.store, h.ids⟩
  rw [Heap.size_alloc]
  rcases List.mem_cons.1 hr with rfl | hr
  · exact ⟨Nat.lt_succ_self _, fun hmem => (h.saved.refs _ hmem).false⟩
  · exact ⟨(h.own r hr).1.trans (Nat.lt_succ_self _), (h.own r hr).2⟩

theorem CanRestore.writeJob (hr : r ∈ s.storeRefs ∨ r ∈ own) (f : CronJob → CronJob) :
    CanRestore v n snapshot own { s with jobs := s.jobs.modify r f } := by
  have hapart : r ∉ s.refsOf snapshot := hr.elim (h.refs r) fun hr => (h.own r hr).2
  have hsize := Heap.size_modify (h := s.jobs) (r := r) (f := f)
  refine ⟨⟨h.live.store, fun q hq => ?_, h.live.ids, rfl⟩, h.saved.writeJob hapart f, h.notified,
    fun q hq => ?_, h.refs, h.store, h.ids⟩
  · rw [hsize]
    exact h.live.refs q hq
  · rw [hsize]
    exact h.own q hq

theorem CanRestore.modifyIds (f : Finset String → Finset String) : CanRestore v n snapshot own
      { s with idSets := s.idSets.modify s.pendingCatchupDeferralJobIds f } := by
  have hsaved := h.saved.frame { s with idSets := s.idSets.modify s.pendingCatchupDeferralJobIds f }
    (fun _ _ => rfl) le_rfl (fun _ _ => rfl) le_rfl (Heap.read_modify_of_ne h.ids.symm) (by simp)
  refine ⟨⟨h.live.store, h.live.refs, ?_, rfl⟩, hsaved.1, h.notified, h.own, h.refs, h.store, h.ids⟩
  exact (Heap.size_modify (h := s.idSets)).symm ▸ h.live.ids

end

theorem size_withStore (f : List Ref → List Ref) :
    (s.withStore f).storeFiles.size = s.storeFiles.size := by
  unfold ServiceState.withStore
  cases s.store with
  | none => rfl
  | some r => exact Heap.size_modify

theorem read_withStore_of_ne (f : List Ref → List Ref) (hr : s.store ≠ some r) :
    (s.withStore f).storeFiles.read r = s.storeFiles.read r := by
  unfold ServiceState.withStore
  cases hstore : s.store with
  | none => rfl
  | some q =>
    rw [hstore, ne_eq, Option.some.injEq] at hr
    exact Heap.read_modify_of_ne (Ne.symm hr)

theorem mem_storeRefs_withStore (h : s.WellFormed) (f : List Ref → List Ref)
    (hr : r ∈ (s.withStore f).storeRefs) : r ∈ f s.storeRefs := by
  unfold ServiceState.storeRefs ServiceState.withStore at *
  cases hstore : s.store with
  | none =>
    rw [hstore] at hr
    cases hr
  | some q =>
    obtain ⟨refs, hrefs⟩ := Heap.exists_read (h.store q hstore)
    rw [hstore] at hr
    dsimp only [Option.bind_some, Option.elim_some] at hr ⊢
    rw [Heap.read_modify_self, hrefs] at hr
    rw [hrefs]
    exact hr

theorem CanRestore.modifyStore (h : CanRestore v n snapshot own s) {f : List Ref → List Ref}
    (hf : ∀ q ∈ f s.storeRefs, q ∈ s.storeRefs ∨ q ∈ own) :
    CanRestore v n snapshot own (s.withStore f) := by
  have hsaved := h.saved.frame (s.withStore f) (fun _ _ => rfl) le_rfl
    (fun r hr => read_withStore_of_ne f fun heq => h.store r heq hr) (size_withStore f).ge rfl le_rfl
  have hrefs : ∀ q ∈ (s.withStore f).storeRefs, q ∈ s.storeRefs ∨ q ∈ own :=
    fun q hq => hf q (mem_storeRefs_withStore h.live f hq)
  refine ⟨⟨fun r hr => ?_, fun r hr => ?_, h.live.ids, rfl⟩, hsaved.1, h.notified, fun r hr => ?_,
    fun r hr => ?_, h.store, h.ids⟩
  · rw [size_withStore]
    exact h.live.store r hr
  · exact (hrefs r hr).elim (h.live.refs r) fun hr => (h.own r hr).1
  · rw [hsaved.2]
    exact h.own r hr
  · rw [hsaved.2]
    exact (hrefs r hr).elim (h.refs r) fun hr => (h.own r hr).2

/-! ## What the steps keep -/

/-- The snapshot is taken, and nothing of the live state has been written. -/
structure Prepared (v : Option (List CronJob) × Finset String) (n : List AutoDisableNotification)
    (snapshot : CronRollbackSnapshot) (own : List Ref) (s : ServiceState) : Prop where
  untouched : Untouched v n own s
  canRestore : CanRestore v n snapshot own s

section Triples

variable {E : ServiceState → Prop}

theorem snapshot_triple : Triple (Untouched v n own) snapshotStoreForRollback
    (fun snapshot => Prepared v n snapshot own) E where
  ok h heq := by
    cases heq
    exact ⟨h.snapshotted, h.canRestore⟩
  error _ heq := nomatch heq

theorem allocJob_untouched (job : CronJob) : Triple (Untouched v n own) (allocJob job)
    (fun r => Untouched v n (r :: own)) E where
  ok h heq := by
    cases heq
    exact h.allocJob job
  error _ heq := nomatch heq

theorem allocJob_prepared (job : CronJob) : Triple (Prepared v n snapshot own) (allocJob job)
    (fun r => Prepared v n snapshot (r :: own)) E where
  ok h heq := by
    cases heq
    exact ⟨h.untouched.allocJob job, h.canRestore.allocJob job⟩
  error _ heq := nomatch heq

theorem writeJob_untouched (hr : r ∈ own) (job : CronJob) :
    Triple (Untouched v n own) (writeJob r job) (fun _ => Untouched v n own) E :=
  .modify fun _ h => h.writeJob hr _

theorem writeJob_prepared (hr : r ∈ own) (job : CronJob) :
    Triple (Prepared v n snapshot own) (writeJob r job) (fun _ => Prepared v n snapshot own) E :=
  .modify fun _ h => ⟨h.untouched.writeJob hr _, h.canRestore.writeJob (.inr hr) _⟩

theorem check_untouched {α : Type} (x : Except String α) : Triple (Untouched v n own)
    (ofExcept x) (fun a s => x = .ok a ∧ Untouched v n own s) (Untouched v n []) :=
  .ofExcept (fun _ ha _ h => ⟨ha, h⟩) fun _ h => h.forget

theorem check_prepared {α : Type} (x : Except String α) : Triple (Prepared v n snapshot own)
    (ofExcept x) (fun a s => x = .ok a ∧ Prepared v n snapshot own s) (Untouched v n []) :=
  .ofExcept (fun _ ha _ h => ⟨ha, h⟩) fun _ h => h.untouched.forget

/-! ## The maintenance pass -/

/-- The pass walks over the array `refs`. -/
structure Walking (v : Option (List CronJob) × Finset String) (n : List AutoDisableNotification)
    (snapshot : CronRollbackSnapshot) (own refs : List Ref) (s : ServiceState) : Prop where
  canRestore : CanRestore v n snapshot own s
  storeRefs : s.storeRefs = refs

variable {refs : List Ref}

theorem writeJob_walking (hr : r ∈ refs) (job : CronJob) :
    Triple (Walking v n snapshot own refs) (writeJob r job)
      (fun _ => Walking v n snapshot own refs) E :=
  .modify fun _ h => ⟨h.canRestore.writeJob (.inl (h.storeRefs ▸ hr)) _, h.storeRefs⟩

theorem modifyIds_walking (f : Finset String → Finset String) :
    Triple (Walking v n snapshot own refs) (modifyIds f)
      (fun _ => Walking v n snapshot own refs) E :=
  .modify fun _ h => ⟨h.canRestore.modifyIds f, h.storeRefs⟩

theorem maintainObject_walking (opts : MaintenanceOpts) (hr : r ∈ refs) (job : CronJob) :
    Triple (Walking v n snapshot own refs) (maintainObject deps env opts r job)
      (fun _ => Walking v n snapshot own refs) E := by
  refine .bind (R := fun _ => Walking v n snapshot own refs) ?_ fun _ => ?_
  · refine Triple.get.bind fun s => ?_
    refine .pre ?_ fun _ h => h.2
    exact .ite (fun _ => modifyIds_walking _) fun _ => .pure fun _ h => h
  · refine Triple.get.bind fun s => ?_
    refine .pre ?_ fun _ h => h.2
    exact (writeJob_walking hr _).bind fun _ => .pure fun _ h => h

theorem walkObjects_walking (opts : MaintenanceOpts) {left : List Ref} (hleft : left ⊆ refs) :
    Triple (Walking v n snapshot own refs) (walkObjects deps env opts left)
      (fun _ => Walking v n snapshot own refs) E := by
  induction left with
  | nil => exact .pure fun _ h => h
  | cons r rest ih =>
    obtain ⟨hr, hrest⟩ := List.cons_subset.1 hleft
    refine Triple.get.bind fun s => ?_
    refine .pre ?_ fun _ h => h.2
    cases s.jobs.read r with
    | none => exact ih hrest
    | some job =>
      refine (writeJob_walking hr _).bind fun _ => ?_
      refine .ite (fun _ => ih hrest) fun _ => ?_
      exact (maintainObject_walking opts hr _).bind fun _ =>
        (ih hrest).bind fun _ => .pure fun _ h => h

theorem recompute_canRestore (opts : MaintenanceOpts) :
    Triple (CanRestore v n snapshot own) (recomputeNextRunsForMaintenance deps env opts)
      (fun _ => CanRestore v n snapshot own) E := by
  refine Triple.get.bind fun s => ?_
  have hwalk : Triple (Walking v n snapshot own s.storeRefs) (walkObjects deps env opts s.storeRefs)
      (fun _ => CanRestore v n snapshot own) E :=
    (walkObjects_walking opts (List.Subset.refl _)).post fun _ _ h => h.canRestore
  refine .bind (R := fun _ => Walking v n snapshot own s.storeRefs) ?_ fun _ => hwalk
  refine (modifyIds_walking _).pre ?_
  rintro t ⟨rfl, h⟩
  exact ⟨h, rfl⟩

/-! ## Persisting -/

theorem CanRestore.saving (h : CanRestore v n snapshot own s) (persisted : List CronJob)
    (pending : Bool) : CanRestore v n snapshot own
      { s with persisted := persisted, pendingQuarantine := pending } :=
  ⟨⟨h.live.store, h.live.refs, h.live.ids, rfl⟩,
    ⟨h.saved.store, h.saved.refs, h.saved.ids, h.saved.view⟩, h.notified, h.own, h.refs, h.store,
    h.ids⟩

theorem CanRestore.restore (h : CanRestore v n snapshot own s) :
    Untouched v n [] (s.restore snapshot) :=
  ⟨⟨h.saved.store, h.saved.refs, h.saved.ids, h.saved.view⟩, h.notified, nofun⟩

theorem persist_canRestore : Triple (CanRestore v n snapshot own) (persist env)
    (fun _ => CanRestore v n snapshot own) (CanRestore v n snapshot own) := by
  refine Triple.get.bind fun s => ?_
  refine .pre ?_ fun _ h => h.2
  refine .ite (fun _ => ?_) fun _ => .pure fun _ h => h
  refine .bind (R := fun _ => CanRestore v n snapshot own) ?_ fun _ => ?_
  · exact .modify fun s h => h.saving s.persisted false
  refine .bind (.ofExcept (fun _ _ _ h => h) fun _ h => h) fun _ => ?_
  exact .modify fun s h => h.saving s.storeJobs s.pendingQuarantine

theorem persistOrRestore_triple (notifications : List AutoDisableNotification) :
    Triple (CanRestore v n snapshot own) (persistOrRestore env snapshot notifications)
      (fun _ => ServiceState.WellFormed) (Untouched v n []) := by
  refine .bind (R := fun _ => CanRestore v n snapshot own) ?_ fun _ => ?_
  · refine persist_canRestore.tryCatch fun err => ?_
    exact (Triple.modify fun s h => h.restore).bind fun _ => .throw fun _ h => h
  · exact .modify fun s h => ⟨h.live.store, h.live.refs, h.live.ids, rfl⟩

/-! ## The requests -/

theorem finalizeUpdatedJob_prepared (hr : r ∈ own) (job nextJob : CronJob)
    (schedulingInputsRequested scheduleChanged : Bool) :
    Triple (Prepared v n snapshot own)
      (InPlace.finalizeUpdatedJob deps env job r nextJob schedulingInputsRequested scheduleChanged)
      (fun _ => Prepared v n snapshot own) (Untouched v n []) := by
  refine (writeJob_prepared hr _).bind fun _ => ?_
  exact (check_prepared _).bind fun _ => .fact fun _ => writeJob_prepared hr _

/-- The array gains no other reference than the one that is put into it. -/
theorem mem_of_mem_replaceRef {next q : Ref} (hq : q ∈ s.replaceRef next refs) :
    q ∈ refs ∨ q = next := by
  unfold ServiceState.replaceRef at hq
  split at hq
  · exact List.mem_or_eq_of_mem_set hq
  · exact .inl hq

theorem persistUpdatedJob_triple {next : Ref} (hnext : next ∈ own) :
    Triple (Prepared v n snapshot own) (persistUpdatedJob env snapshot next)
      (fun _ => ServiceState.WellFormed) (Untouched v n []) := by
  refine Triple.get.bind fun s => ?_
  refine .bind (R := fun _ => CanRestore v n snapshot own) ?_ fun _ => persistOrRestore_triple []
  refine .modify ?_
  rintro t ⟨rfl, h⟩
  refine h.canRestore.modifyStore fun q hq => ?_
  rcases mem_of_mem_replaceRef hq with hq | rfl
  · exact .inl hq
  · exact .inr hnext

/-- A request on a loaded store. -/
abbrev Atomic (m : Op Unit) : Prop :=
  ∀ v n, Triple (Untouched v n []) m (fun _ => ServiceState.WellFormed) (Untouched v n [])

theorem converge_atomic (existing : CronJob) (input : CronJobCreate) (opts : CronAddOptions) :
    Atomic (converge deps env existing input opts) := by
  intro v n
  refine (allocJob_untouched existing).bind fun next => ?_
  have hnext : next ∈ [next] := List.mem_singleton_self next
  refine (writeJob_untouched hnext _).bind fun _ => ?_
  refine (check_untouched _).bind fun _ => .fact fun _ => ?_
  refine (check_untouched _).bind fun nextJob => .fact fun _ => ?_
  refine .ite (fun _ => .pure fun _ h => h.live.wellFormed) fun _ => ?_
  refine snapshot_triple.bind fun snapshot => ?_
  refine (finalizeUpdatedJob_prepared hnext _ _ _ _).bind fun _ => ?_
  exact persistUpdatedJob_triple hnext

theorem create_atomic (input : CronJobCreate) : Atomic (InPlace.create deps env input) := by
  intro v n
  refine Triple.get.bind fun s => .pre ?_ fun _ h => h.2
  split
  · exact .throw fun _ h => h
  refine snapshot_triple.bind fun snapshot => ?_
  refine (check_prepared _).bind fun _ => .fact fun _ => ?_
  refine (check_prepared _).bind fun job => .fact fun _ => ?_
  refine (allocJob_prepared job).bind fun r => ?_
  refine .bind (R := fun _ => CanRestore v n snapshot [r]) ?_ fun _ => ?_
  · -- the new job comes last in the array
    refine .modify fun s h => h.canRestore.modifyStore fun q hq => ?_
    rcases List.mem_append.1 hq with hq | hq
    · exact .inl hq
    · exact .inr hq
  · exact (recompute_canRestore {}).bind fun notifications => persistOrRestore_triple notifications

theorem addLoaded_atomic (input : CronJobCreate) (opts : CronAddOptions) :
    Atomic (addLoaded deps env input opts) := by
  intro v n
  refine (check_untouched _).bind fun _ => .fact fun _ => ?_
  refine Triple.get.bind fun s => .pre ?_ fun _ h => h.2
  split
  · exact create_atomic input v n
  · exact converge_atomic _ input opts v n
  · exact .throw fun _ h => h

theorem checkPrecondition_triple (job : CronJob) (precondition : Option CronUpdatePrecondition) :
    Triple (Prepared v n snapshot []) (checkPrecondition env job precondition)
      (fun _ => Prepared v n snapshot []) (Untouched v n []) := by
  cases precondition with
  | none => exact .pure fun _ h => h
  | some precondition =>
    refine (allocJob_prepared job).bind fun clone => ?_
    refine (writeJob_prepared (List.mem_singleton_self clone) _).bind fun _ => ?_
    refine (check_prepared _).post fun _ s h => ?_
    have hrestore := h.2.canRestore
    exact ⟨h.2.untouched.forget, hrestore.live, hrestore.saved, hrestore.notified, nofun,
      hrestore.refs, hrestore.store, hrestore.ids⟩

theorem updateLoaded_atomic (id : String) (patch : CronJobPatch)
    (precondition : Option CronUpdatePrecondition) :
    Atomic (updateLoaded deps env id patch precondition) := by
  intro v n
  refine snapshot_triple.bind fun snapshot => ?_
  refine Triple.get.bind fun s => .pre ?_ fun _ h => h.2
  split
  · exact .throw fun _ h => h.untouched.forget
  refine (checkPrecondition_triple _ precondition).bind fun _ => ?_
  refine (allocJob_prepared _).bind fun next => ?_
  have hnext : next ∈ [next] := List.mem_singleton_self next
  refine (writeJob_prepared hnext _).bind fun _ => ?_
  refine (check_prepared _).bind fun _ => .fact fun _ => ?_
  refine (check_prepared _).bind fun nextJob => .fact fun _ => ?_
  refine (finalizeUpdatedJob_prepared hnext _ _ _ _).bind fun _ => ?_
  exact persistUpdatedJob_triple hnext

theorem removeLoaded_atomic (id : String) : Atomic (removeLoaded deps env id) := by
  intro v n
  refine Triple.get.bind fun s => .pre ?_ fun _ h => h.2
  refine .ite (fun _ => .pure fun _ h => h.live.wellFormed) fun _ => ?_
  refine snapshot_triple.bind fun snapshot => Triple.get.bind fun s => .pre ?_ fun _ h => h.2
  refine .bind (R := fun _ => CanRestore v n snapshot []) ?_ fun _ => ?_
  · exact .modify fun s h => h.canRestore.modifyStore fun q hq => .inl (List.mem_of_mem_filter hq)
  · exact (recompute_canRestore {}).bind fun notifications => persistOrRestore_triple notifications

theorem mutate_atomic (request : Request) : Atomic (request.mutate deps env) := by
  cases request with
  | add input opts => exact addLoaded_atomic input opts
  | update id patch => exact updateLoaded_atomic id patch none
  | updateWithPrecondition id patch precondition =>
    exact updateLoaded_atomic id patch (some precondition)
  | remove id => exact removeLoaded_atomic id

end Triples

/-! ## Loading -/

theorem ensureLoaded_of_loaded (h : s.store.isSome) : ensureLoaded env s = (.ok (), s) := by
  obtain ⟨r, hr⟩ := Option.isSome_iff_exists.1 h
  unfold ensureLoaded
  rw [Prog.bind_of_ok (rfl : (Prog.get : Op ServiceState) s = (.ok s, s)), hr]
  rfl

theorem wellFormed_install (hs : s.WellFormed) (jobs : List CronJob) :
    ServiceState.WellFormed { s with
      jobs := s.jobs.cloneAll jobs
      storeFiles := s.storeFiles.alloc (s.jobs.cloneRefs jobs)
      store := some s.storeFiles.size } := by
  refine ⟨fun r hr => ?_, fun r hr => ?_, hs.ids, rfl⟩
  · cases hr
    rw [Heap.size_alloc]
    exact Nat.lt_succ_self _
  · have hrefs : r ∈ s.jobs.cloneRefs jobs := by
      unfold ServiceState.refsOf ServiceState.root at hr
      dsimp only [Option.bind_some] at hr
      rw [Heap.read_alloc_self] at hr
      exact hr
    rw [Heap.size_cloneAll]
    exact (Heap.mem_cloneRefs.1 hrefs).2

variable (env n) in
theorem ensureLoaded_triple : Triple (fun t => t.WellFormed ∧ t.notified = n) (ensureLoaded env)
    (fun _ t => t.WellFormed ∧ t.notified = n) (fun t => t.WellFormed ∧ t.notified = n) := by
  refine Triple.get.bind fun s => .pre ?_ fun _ h => h.2
  cases s.store with
  | some r => exact .pure fun _ h => h
  | none =>
    refine .bind (.ofExcept (fun _ _ _ h => h) fun _ h => h) fun loaded => ?_
    refine .bind (R := fun _ t => t.WellFormed ∧ t.notified = n) ?_ fun _ => ?_
    · exact .modify fun s h => ⟨wellFormed_install h.1 loaded.1, h.2⟩
    · refine .ite (fun _ => ?_) fun _ => .pure fun _ h => h
      exact .modify fun s h => ⟨⟨h.1.store, h.1.refs, h.1.ids, rfl⟩, h.2⟩

/-- **A request that throws leaves the store as it was.** It may have loaded the store before; a
store that was in memory is the one it found. -/
theorem failed_request_restores (deps : CronDeps) (env : OpsEnv) (request : Request) {e : Stop}
    (hs : s.WellFormed) (h : request.run deps env s = (.error e, t)) :
    let before := (ensureLoaded env s).2
    (s.store.isSome → before = s) ∧ t.view = before.view ∧ t.notified = s.notified := by
  have hloaded : s.store.isSome → (ensureLoaded env s).2 = s :=
    fun hstore => by rw [ensureLoaded_of_loaded hstore]
  have hkeep := ensureLoaded_triple env s.notified
  rcases bind_eq_error h with hload | ⟨_, u, hload, hmutate⟩
  · refine ⟨hloaded, by rw [hload], ?_⟩
    exact (hkeep.error ⟨hs, rfl⟩ hload).2
  · obtain ⟨hu, hnotified⟩ := hkeep.ok ⟨hs, rfl⟩ hload
    have hback := (mutate_atomic request u.view u.notified).error hu.untouched hmutate
    refine ⟨hloaded, ?_, hback.notified.trans hnotified⟩
    rw [hload]
    exact hback.live.view

/-! ## States with given jobs -/

/-- A state with the jobs and the markers in memory. -/
def ServiceState.holding (jobs : List CronJob) (deferralIds : Finset String) : ServiceState where
  jobs := ⟨jobs⟩
  storeFiles := ⟨[List.range' 0 jobs.length]⟩
  idSets := ⟨[deferralIds]⟩
  store := some 0

theorem holding_spec (jobs : List CronJob) (deferralIds : Finset String) :
    (ServiceState.holding jobs deferralIds).WellFormed ∧
      (ServiceState.holding jobs deferralIds).view = (some jobs, deferralIds) := by
  have hread : (Heap.mk jobs).readAll (List.range' 0 jobs.length) = jobs :=
    Heap.readAll_cloneAll {} jobs
  refine ⟨⟨fun r hr => ?_, fun r hr => ?_, Nat.zero_lt_one, rfl⟩, ?_⟩
  · cases hr
    exact Nat.zero_lt_one
  · have hlt := (List.mem_range'_1.1 hr).2
    rwa [Nat.zero_add] at hlt
  · exact congrArg (fun jobs => (some jobs, deferralIds)) hread

/-- A job that runs every hour. -/
def keptJob : CronJob where
  id := "kept"
  createdAtMs := 0
  updatedAtMs := 0
  schedule := .every 3600000 (some 0)
  sessionTarget := "main"
  wakeMode := .now
  payload := .systemEvent

/-- A job whose expression has failed twice: the next maintenance pass disables it. -/
def failingJob : CronJob :=
  { keptJob with id := "failing", schedule := .cron "bad" none none,
                 state := { scheduleErrorCount := some 2 } }

/-- A request at a full disk. -/
def fullDisk : OpsEnv where
  now := 0
  maintenanceNow := 0
  freshId := "fresh"
  load := .ok ([], false)
  save := .error "disk full"

/-- The library rejects every expression. -/
def rejecting : CronDeps :=
  { CronDeps.sample {} with nextRun := fun _ _ _ => .error "bad expression" }

/-- The removal drops the job and its marker and disables the other job, and all of it comes
back. -/
theorem failed_request_restores_removal :
    ((Request.remove "kept").run rejecting fullDisk
      (.holding [keptJob, failingJob] {"kept"})).2.view = (some [keptJob, failingJob], {"kept"}) := by
  obtain ⟨hs, hview⟩ := holding_spec [keptJob, failingJob] {"kept"}
  have hthrows : ((Request.remove "kept").run rejecting fullDisk
      (.holding [keptJob, failingJob] {"kept"})).1 = .error (.rejected "disk full") := by
    decide +kernel
  cases hrun : (Request.remove "kept").run rejecting fullDisk
      (.holding [keptJob, failingJob] {"kept"}) with
  | mk x t =>
    rw [hrun] at hthrows
    subst hthrows
    have hrestored := failed_request_restores rejecting fullDisk (.remove "kept") hs hrun
    rw [← hview, hrestored.2.1, hrestored.1 rfl]

end OpenClaw.Cron.InPlace
