import OpenClaw.AutoReply.DebounceOrder
import OpenClaw.Lib.ListSum

/-!
# Runs of the debouncer

`Sound` puts together what every reachable state satisfies. The steps that need no caller and no
timer (a slot starts, its promise resolves, `onFlush` settles, a call resumes) come to an end, and
where none of them is left every call has settled and only buffers with an armed timer hold items.
-/

namespace OpenClaw.AutoReply

namespace InboundDebouncer

structure Sound (s : InboundDebouncer) : Prop where
  chained : Chained s.tasks s.keyChains
  buffered : Buffered s.tasks s.buffers s.calls
  delivered : Delivered s.tasks s.arrivals s.flushed s.cancelled

variable {s t : InboundDebouncer} {key : String} {i : Nat} {task next : KeyTask}

theorem sound_create : Sound create where
  chained := {
    ok := fun _ _ h => by cases h
    previous := fun _ _ _ h => by cases h
    behind := fun _ _ _ _ h => by cases h
    last := fun _ _ h => by cases h
    free := fun _ _ _ _ h => by cases h }
  buffered := {
    last := fun _ _ h => by cases h
    armed := fun _ _ h => by cases h
    timer := fun _ _ h => by cases h
    held := fun _ _ h => by cases h
    calls := fun _ _ h => by cases h }
  delivered := .initial

/-! ## Arrivals -/

/-- The state in which an item of a key is given its place. -/
def arrive (s : InboundDebouncer) (key : Option String) : InboundDebouncer :=
  { s with arrivals := s.arrivals ++ [key] }

theorem ok_of_queued (hphase : task.phase = .queued) (hsettled : task.settled = false)
    (hcleaned : task.cleaned = false) (hheld : task.readyReleased = false → task.reserved = true) :
    task.Ok where
  settled := fun h => by rw [hsettled] at h; cases h
  done := fun _ => .inr hcleaned
  cleaned := fun h => by rw [hcleaned] at h; cases h
  held := fun h => ⟨hheld h, .inl hphase⟩

theorem Sound.enqueueKeyTask (h : Sound s) (hbuffer : s.buffers.lookup key = none) :
    Sound (((s.arrive (some key)).enqueueKeyTask key [s.arrivals.length]).call
      (.task s.tasks.length)) where
  chained := h.chained.push rfl (ok_of_queued rfl rfl rfl fun h => by cases h) fun _ => rfl
  buffered := h.buffered.push hbuffer rfl ⟨_, List.getElem?_concat_length, rfl⟩
    fun h => by cases h
  delivered := h.delivered.arrive_pushed rfl

theorem Sound.waiting_eq_nil (h : Sound s) (hchain : s.keyChains.lookup key = none) :
    waiting (some key) s.tasks = [] := by
  refine AutoReply.waiting_eq_nil fun task htask hkey => ?_
  obtain ⟨i, hi⟩ := List.mem_iff_getElem?.1 htask
  have hsettled := h.chained.free key hchain i task hi (Option.some.inj hkey)
  exact waits_of_done ((h.chained.ok i task hi).settled hsettled)

theorem Sound.runKeyTaskNow (h : Sound s) (hbuffer : s.buffers.lookup key = none)
    (hchain : s.keyChains.lookup key = none) :
    Sound (((s.arrive (some key)).runKeyTaskNow key [s.arrivals.length]).call
      (.task s.tasks.length)) where
  chained := h.chained.push hchain.symm
    ⟨fun h => Bool.noConfusion h, fun h => TaskPhase.noConfusion h, fun h => Bool.noConfusion h,
      fun h => Bool.noConfusion h⟩
    fun hne => absurd hchain hne
  buffered := h.buffered.push hbuffer rfl ⟨_, List.getElem?_concat_length, rfl⟩
    fun h => by cases h
  delivered := by
    have hflushed := h.delivered.arrive_flushed (some key) (h.waiting_eq_nil hchain)
    refine hflushed.of_waiting_eq fun k => ?_
    have hnone : ∀ task : KeyTask, task.phase = .flushing → task.waitsFor k = [] := fun task ht => by
      rw [KeyTask.waitsFor, waits_of_flushing ht]
      exact ite_self _
    exact (waiting_append k s.tasks _).trans
      ((congrArg _ (hnone _ rfl)).trans (List.append_nil _))

theorem Sound.direct (h : Sound s) (key : Option String) (hnone : waiting key s.tasks = []) :
    Sound (((s.arrive key).runFlush key [s.arrivals.length]).call .direct) where
  chained := h.chained
  buffered := h.buffered.call trivial
  delivered := h.delivered.arrive_flushed key hnone

theorem Sound.exists_buffer (h : Sound s) (hbuffer : s.buffers.lookup key = some i) :
    ∃ task, s.tasks[i]? = some task ∧ task.key = key ∧ task.readyReleased = false ∧
      task.timeout ≠ none ∧ task.waits = task.items := by
  obtain ⟨⟨task, htask, hkey⟩, -⟩ := h.buffered.last key i hbuffer
  obtain ⟨other, hother, hreleased, htimeout⟩ := h.buffered.armed key i hbuffer
  rw [htask] at hother
  cases hother
  refine ⟨task, htask, hkey, hreleased, htimeout, ?_⟩
  rcases ((h.chained.ok i task htask).held hreleased).2 with hphase | hphase
  · exact waits_of_queued hphase
  · exact waits_of_awaitsReady hphase

theorem waits_congr (hphase : next.phase = task.phase) (hitems : next.items = task.items) :
    next.waits = task.waits := by
  rw [KeyTask.waits, KeyTask.waits, hphase, hitems]

theorem Sound.joinBuffer (h : Sound s) (hbuffer : s.buffers.lookup key = some i) (debounceMs : Nat) :
    Sound (((s.arrive (some key)).joinBuffer i s.arrivals.length debounceMs).call .settled) := by
  obtain ⟨task, hi, rfl, hreleased, htimeout, hwaits⟩ := h.exists_buffer hbuffer
  have hok := h.chained.ok i task hi
  have hjoin : (s.arrive (some task.key)).joinBuffer i s.arrivals.length debounceMs =
      (s.arrive (some task.key)).setTask i { task with
        items := task.items ++ [s.arrivals.length], timeout := some debounceMs } := by
    unfold InboundDebouncer.joinBuffer
    rw [show (s.arrive (some task.key)).tasks[i]? = some task from hi]
  rw [hjoin]
  refine ⟨?_, ?_, ?_⟩
  · exact h.chained.set hi rfl rfl ⟨hok.settled, hok.done, hok.cleaned, hok.held⟩ id (.inl rfl)
  · have hset : Buffered (s.tasks.set i { task with
        items := task.items ++ [s.arrivals.length], timeout := some debounceMs }) s.buffers s.calls :=
      h.buffered.set hi rfl rfl (iff_of_true (Option.some_ne_none debounceMs) htimeout)
    exact hset.call trivial
  · refine h.delivered.arrive_joined hi (h.buffered.last _ i hbuffer) rfl ?_
    rw [hwaits]
    rcases (hok.held hreleased).2 with hphase | hphase
    · exact waits_of_queued hphase
    · exact waits_of_awaitsReady hphase

theorem flushBuffer_eq (hbuffer : s.buffers.lookup key = some i) (hi : s.tasks[i]? = some task) :
    s.flushBuffer key i = { s with
      buffers := s.buffers.erase key
      tasks := s.tasks.set i { task with timeout := none, readyReleased := true } } := by
  unfold flushBuffer
  rw [if_pos hbuffer]
  dsimp only
  rw [hi]
  rfl

theorem Sound.flushBuffer (h : Sound s) (hbuffer : s.buffers.lookup key = some i) :
    Sound (s.flushBuffer key i) := by
  obtain ⟨task, hi, -, hreleased, -, -⟩ := h.exists_buffer hbuffer
  have hok := h.chained.ok i task hi
  rw [flushBuffer_eq hbuffer hi]
  refine ⟨?_, h.buffered.unbuffer hbuffer hi rfl rfl rfl, h.delivered.set hi rfl rfl⟩
  exact h.chained.set hi rfl rfl ⟨hok.settled, hok.done, hok.cleaned, fun h => by cases h⟩ id
    (.inl rfl)

theorem flushBuffer_released (hbuffer : s.buffers.lookup key = some i)
    (hi : s.tasks[i]? = some task) :
    ∃ task, (s.flushBuffer key i).tasks[i]? = some task ∧ task.readyReleased = true := by
  rw [flushBuffer_eq hbuffer hi]
  exact ⟨_, getElem?_set_of_some hi _, rfl⟩

theorem Sound.flushAndReserve (h : Sound s) (hbuffer : s.buffers.lookup key = some i) :
    Sound ((((s.arrive (some key)).enqueueReservedKeyTask key [s.arrivals.length] none).flushBuffer
      key i).call (.buffer i s.tasks.length)) := by
  obtain ⟨task, hi, hkey, hreleased, -, -⟩ := h.exists_buffer hbuffer
  have hflushed := h.flushBuffer hbuffer
  rw [flushBuffer_eq hbuffer hi] at hflushed
  have hpushed : ((s.arrive (some key)).enqueueReservedKeyTask key [s.arrivals.length]
      none).tasks[i]? = some task := getElem?_push_of_some hi _
  have hlookup : ((s.arrive (some key)).enqueueReservedKeyTask key [s.arrivals.length]
      none).buffers.lookup key = some i := hbuffer
  rw [flushBuffer_eq hlookup hpushed]
  have htasks : (s.tasks ++ [KeyTask.mk key (s.keyChains.lookup key) true false false
      [s.arrivals.length] none .queued false false]).set i
        { task with timeout := none, readyReleased := true } =
      s.tasks.set i { task with timeout := none, readyReleased := true } ++
        [KeyTask.mk key (s.keyChains.lookup key) true false false [s.arrivals.length] none .queued
          false false] := List.set_append_left i _ (lt_of_getElem? hi)
  have hlen : s.tasks.length =
      (s.tasks.set i { task with timeout := none, readyReleased := true }).length :=
    List.length_set.symm
  show Sound (InboundDebouncer.mk (s.buffers.erase key) (s.keyChains.insert key s.tasks.length)
    ((s.tasks ++ [KeyTask.mk key (s.keyChains.lookup key) true false false [s.arrivals.length] none
      .queued false false]).set i { task with timeout := none, readyReleased := true }) (s.calls ++ [.buffer i s.tasks.length]) (s.arrivals ++ [some key])
    s.flushed s.cancelled)
  rw [htasks, hlen]
  refine ⟨hflushed.chained.push rfl (ok_of_queued rfl rfl rfl fun _ => rfl) fun _ => rfl, ?_,
    hflushed.delivered.arrive_pushed rfl⟩
  refine hflushed.buffered.push (AList.lookup_erase key s.buffers) rfl ⟨?_, ?_, ?_⟩
    fun _ => ⟨i, rfl⟩
  · exact hlen ▸ lt_of_getElem? hi
  · exact ⟨_, getElem?_push_of_some (getElem?_set_of_some hi _) _, rfl⟩
  · exact ⟨_, List.getElem?_concat_length, rfl⟩

theorem Sound.newBuffer (h : Sound s) (hbuffer : s.buffers.lookup key = none) (debounceMs : Nat) :
    Sound ({ (s.arrive (some key)).enqueueReservedKeyTask key [s.arrivals.length]
      (some debounceMs) with buffers := s.buffers.insert key s.tasks.length }.call .settled) where
  chained := h.chained.push rfl (ok_of_queued rfl rfl rfl fun _ => rfl) fun _ => rfl
  buffered := by
    have hnew : Buffered (s.tasks ++ [KeyTask.mk key (s.keyChains.lookup key) true false false
        [s.arrivals.length] (some debounceMs) .queued false false])
        (s.buffers.insert key s.tasks.length) s.calls :=
      h.buffered.buffer hbuffer (Option.some_ne_none debounceMs) rfl
    exact hnew.call trivial
  delivered := h.delivered.arrive_pushed rfl

theorem Sound.enqueue (h : Sound s) (params : InboundDebounceParams) (key : Option String)
    (debounceMs : Nat) (shouldDebounce : Bool) :
    Sound (s.enqueue params key debounceMs shouldDebounce) := by
  unfold InboundDebouncer.enqueue
  cases hkey : key.filter (· ≠ "") with
  | none => exact h.direct none (AutoReply.waiting_eq_nil fun _ _ hk => by cases hk)
  | some key =>
    dsimp only
    split
    · unfold enqueueDebounced
      cases hbuffer : s.buffers.lookup key with
      | some i => exact h.joinBuffer hbuffer debounceMs
      | none =>
        dsimp only
        split
        · exact h.newBuffer hbuffer debounceMs
        · exact h.enqueueKeyTask hbuffer
    · unfold enqueueImmediate
      cases hbuffer : s.buffers.lookup key with
      | some i => exact h.flushAndReserve hbuffer
      | none =>
        cases hchain : s.keyChains.lookup key with
        | some p => exact h.enqueueKeyTask hbuffer
        | none =>
          by_cases hserialize : params.serializeImmediate = true
          · rw [if_neg (by decide), if_pos hserialize]
            exact h.runKeyTaskNow hbuffer hchain
          · rw [if_neg (by decide), if_neg hserialize]
            exact h.direct (some key) (h.waiting_eq_nil hchain)

/-! ## Flushing and cancelling -/

theorem Sound.flushKey (h : Sound s) (key : String) : Sound (s.flushKey key) := by
  unfold InboundDebouncer.flushKey
  cases hbuffer : s.buffers.lookup key with
  | some i =>
    obtain ⟨task, hi, -⟩ := h.exists_buffer hbuffer
    have hflushed := h.flushBuffer hbuffer
    exact ⟨hflushed.chained, hflushed.buffered.call (flushBuffer_released hbuffer hi),
      hflushed.delivered⟩
  | none => exact ⟨h.chained, h.buffered.call trivial, h.delivered⟩

theorem Sound.cancelKey (h : Sound s) (key : String) : Sound (s.cancelKey key) := by
  unfold InboundDebouncer.cancelKey
  cases hbuffer : s.buffers.lookup key with
  | some i =>
    obtain ⟨task, hi, rfl, -, -, hwaits⟩ := h.exists_buffer hbuffer
    have hok := h.chained.ok i task hi
    dsimp only
    rw [hi]
    refine ⟨?_, h.buffered.unbuffer hbuffer hi rfl rfl rfl, ?_⟩
    · exact h.chained.set hi rfl rfl ⟨hok.settled, hok.done, hok.cleaned,
        fun h => Bool.noConfusion h⟩ id (.inl rfl)
    · exact h.delivered.cancel hi rfl hwaits (ite_self _)
  | none => exact h

theorem Sound.fire (h : Sound s) (hi : s.tasks[i]? = some task) (htimeout : task.timeout.isSome) :
    Sound (s.flushBuffer task.key i) :=
  h.flushBuffer (h.buffered.timer i task hi (Option.isSome_iff_ne_none.1 htimeout))

/-! ## Slots -/

theorem ok_of_done (hok : task.Ok) (hreleased : task.readyReleased = true)
    (hphase : task.phase ≠ .done) :
    KeyTask.Ok { task with phase := .done, settled := !task.now } where
  settled := fun _ => rfl
  done := fun _ => by
    right
    show task.cleaned = false
    by_contra hcleaned
    exact hphase (hok.cleaned (by simpa using hcleaned))
  cleaned := fun _ => rfl
  held := fun hr => by
    have hr' : task.readyReleased = false := hr
    rw [hreleased] at hr'
    cases hr'

theorem ok_of_phase {phase : TaskPhase} (hok : task.Ok) (hphase : task.phase ≠ .done)
    (hheld : task.readyReleased = false → task.reserved = true ∧ phase = .awaitsReady) :
    KeyTask.Ok { task with phase } where
  settled := fun hs => absurd (hok.settled hs) hphase
  done := fun _ => by
    right
    show task.cleaned = false
    by_contra hcleaned
    exact hphase (hok.cleaned (by simpa using hcleaned))
  cleaned := fun hc => absurd (hok.cleaned hc) hphase
  held := fun hr => ⟨(hheld hr).1, .inr (hheld hr).2⟩

theorem not_settled (hok : task.Ok) (hphase : task.phase ≠ .done) : task.settled ≠ true :=
  fun hs => hphase (hok.settled hs)

theorem Sound.runTask (h : Sound s) (hi : s.tasks[i]? = some task)
    (hbefore : SettledBefore s.tasks task.key i) (hreleased : task.readyReleased = true)
    (hphase : task.phase = .queued ∨ task.phase = .awaitsReady) : Sound (s.runTask i task) := by
  have hok := h.chained.ok i task hi
  have hdone : task.phase ≠ .done := by
    rcases hphase with hphase | hphase <;> rw [hphase] <;> exact TaskPhase.noConfusion
  have hwaits : task.waits = task.items := if_pos hphase
  have hnot := not_settled hok hdone
  unfold InboundDebouncer.runTask
  split
  · rename_i hempty
    refine ⟨h.chained.set hi rfl rfl (ok_of_done hok hreleased hdone)
      (fun hs => absurd hs hnot) (.inr hbefore), h.buffered.set hi rfl rfl Iff.rfl, ?_⟩
    refine h.delivered.set hi rfl ?_
    rw [hwaits, hempty]
    exact waits_of_done rfl
  · refine ⟨h.chained.set hi rfl rfl (ok_of_phase hok hdone fun hr => ?_)
      (fun hs => absurd hs hnot) (.inr hbefore), h.buffered.set hi rfl rfl Iff.rfl, ?_⟩
    · rw [hreleased] at hr
      cases hr
    · exact h.delivered.flush h.chained hi hbefore rfl hwaits (waits_of_flushing rfl)

theorem settled_of_previousSettled (h : s.previousSettled task = true) (p : Nat)
    (hp : task.previous = some p) :
    ∃ previous, s.tasks[p]? = some previous ∧ previous.settled = true := by
  rw [previousSettled, hp] at h
  exact (Option.any_eq_true _ _).1 h

variable {e : TaskEvent}

theorem Sound.stepTask (h : Sound s) (hi : s.tasks[i]? = some task)
    (ht : s.stepTask i task e = some t) : Sound t := by
  have hok := h.chained.ok i task hi
  cases e with
  | start =>
    rw [InboundDebouncer.stepTask] at ht
    split at ht
    · rename_i hguard
      have hbefore := h.chained.settledBefore_of_previous hi (settled_of_previousSettled hguard.2)
      have hdone : task.phase ≠ .done := by
        rw [hguard.1]
        exact TaskPhase.noConfusion
      cases ht
      split
      · rename_i hreserved
        refine ⟨h.chained.set hi rfl rfl (ok_of_phase hok hdone fun _ => ⟨hreserved, rfl⟩)
          (fun hs => absurd hs (not_settled hok hdone)) (.inr hbefore),
          h.buffered.set hi rfl rfl Iff.rfl, h.delivered.set hi rfl ?_⟩
        rw [waits_of_queued hguard.1]
        exact waits_of_awaitsReady rfl
      · rename_i hreserved
        refine h.runTask hi hbefore ?_ (.inl hguard.1)
        by_contra hreleased
        exact hreserved (hok.held (by simpa using hreleased)).1
    · cases ht
  | ready =>
    rw [InboundDebouncer.stepTask] at ht
    split at ht
    · rename_i hguard
      cases ht
      refine h.runTask hi (h.chained.settledBefore_of_started hi ?_) hguard.2 (.inr hguard.1)
      rw [hguard.1]
      exact TaskPhase.noConfusion
    · cases ht
  | flushSettles =>
    rw [InboundDebouncer.stepTask] at ht
    split at ht
    · rename_i hphase
      have hdone : task.phase ≠ .done := by
        rw [hphase]
        exact TaskPhase.noConfusion
      have hreleased : task.readyReleased = true := by
        by_contra hr
        rcases (hok.held (by simpa using hr)).2 with hq | hq <;> rw [hphase] at hq <;> cases hq
      cases ht
      refine ⟨h.chained.set hi rfl rfl (ok_of_done hok hreleased hdone)
        (fun hs => absurd hs (not_settled hok hdone)) (.inr ?_),
        h.buffered.set hi rfl rfl Iff.rfl, h.delivered.set hi rfl ?_⟩
      · refine h.chained.settledBefore_of_started hi ?_
        rw [hphase]
        exact TaskPhase.noConfusion
      · rw [waits_of_flushing hphase]
        exact waits_of_done rfl
    · cases ht
  | cleanup =>
    rw [InboundDebouncer.stepTask] at ht
    split at ht
    · rename_i hguard
      have hset : Sound (s.setTask i { task with settled := true, cleaned := true }) :=
        ⟨h.chained.set hi rfl rfl ⟨fun _ => hguard.1, fun _ => .inl rfl, fun _ => hguard.1,
            hok.held⟩ (fun _ => rfl) (.inl rfl),
          h.buffered.set hi rfl rfl Iff.rfl, h.delivered.set hi rfl (waits_congr rfl rfl)⟩
      cases ht
      split
      · rename_i hlookup
        have hnext := getElem?_set_of_some hi { task with settled := true, cleaned := true }
        have hsettled : KeyTask.settled { task with settled := true, cleaned := true } = true := rfl
        have herase := hset.chained.erase hnext hlookup hsettled
        exact ⟨herase, hset.buffered, hset.delivered⟩
      · exact hset
    · cases ht

/-! ## Calls -/

theorem taskDone_iff : s.taskDone i = true ↔ ∃ task, s.tasks[i]? = some task ∧ task.phase = .done := by
  rw [taskDone, Option.any_eq_true]
  simp only [decide_eq_true_eq]

variable {c : Nat}

theorem Sound.resume (h : Sound s) (ht : s.resume c = some t) : Sound t := by
  unfold InboundDebouncer.resume at ht
  split at ht
  · rename_i i reserved hc
    obtain ⟨hlt, hreleased, task, hr, htimeout⟩ := h.buffered.calls c _ hc
    split at ht
    · cases ht
      have hok := h.chained.ok reserved task hr
      have hrelease : s.release reserved =
          s.setTask reserved { task with readyReleased := true } := by
        rw [release, hr]
      rw [hrelease]
      have hset : (s.tasks.set reserved { task with readyReleased := true })[reserved]? =
          some { task with readyReleased := true } := getElem?_set_of_some hr _
      refine ⟨h.chained.set hr rfl rfl ⟨hok.settled, hok.done, hok.cleaned,
          fun h => Bool.noConfusion h⟩ id (.inl rfl), ?_,
        h.delivered.set hr rfl (waits_congr rfl rfl)⟩
      refine (h.buffered.release hr htimeout).setCall hc (fun b r heq other hother => ?_)
        ⟨_, hset, rfl⟩
      cases heq
      rw [hset] at hother
      exact Option.some.inj hother ▸ rfl
    · cases ht
  · rename_i i hc
    split at ht
    · cases ht
      refine ⟨h.chained, h.buffered.setCall hc (fun b r heq => by cases heq) trivial, h.delivered⟩
    · cases ht
  · cases ht
  · cases ht
  · cases ht

theorem Sound.step (h : Sound s) {params : InboundDebounceParams} {e : DebounceEvent}
    (ht : Step params s e t) : Sound t := by
  cases e with
  | enqueue key debounceMs shouldDebounce =>
    cases ht
    exact h.enqueue params key debounceMs shouldDebounce
  | flushKey key =>
    cases ht
    exact h.flushKey key
  | cancelKey key =>
    cases ht
    exact h.cancelKey key
  | fire i =>
    unfold Step InboundDebouncer.step at ht
    dsimp only at ht
    cases hi : s.tasks[i]? with
    | none =>
      rw [hi] at ht
      cases ht
    | some task =>
      rw [hi] at ht
      dsimp only at ht
      split at ht
      · cases ht
        exact h.fire hi ‹_›
      · cases ht
  | task i e =>
    obtain ⟨task, hi, ht⟩ := Option.bind_eq_some_iff.1 ht
    exact h.stepTask hi ht
  | directSettles c =>
    unfold Step InboundDebouncer.step at ht
    dsimp only at ht
    split at ht
    · rename_i hc
      cases ht
      exact ⟨h.chained, h.buffered.setCall hc (fun b r heq => by cases heq) trivial, h.delivered⟩
    · cases ht
  | resume c => exact h.resume ht

/-- The states a debouncer reaches. -/
abbrev Reached (params : InboundDebounceParams) : InboundDebouncer → Prop :=
  Lts.Reachable (· = create) (Step params)

theorem Reached.sound {params : InboundDebounceParams} (h : Reached params s) : Sound s :=
  h.invariant (fun _ hs => hs ▸ sound_create) fun _ _ _ hs hst => hs.step hst

/-! ## Steps without a caller or a timer -/

/-- A step that only needs promises to resolve and `onFlush` to settle. -/
def Internal (params : InboundDebounceParams) (s t : InboundDebouncer) : Prop :=
  (∃ i e, Step params s (.task i e) t) ∨ (∃ c, Step params s (.directSettles c) t) ∨
    ∃ c, Step params s (.resume c) t

/-- The steps that a slot has before it. -/
def remaining (task : KeyTask) : Nat :=
  match task.phase with
  | .queued => 4
  | .awaitsReady => 3
  | .flushing => 2
  | .done => if task.cleaned then 0 else 1

def callRemaining : DebounceCall → Nat
  | .buffer .. => 2
  | .task _ | .direct => 1
  | .settled => 0

/-- The internal steps that a state has before it. -/
def left (s : InboundDebouncer) : Nat :=
  (s.tasks.map remaining).sum + (s.calls.map callRemaining).sum

theorem left_setTask (hi : s.tasks[i]? = some task) (hlt : remaining next < remaining task) :
    (s.setTask i next).left < s.left :=
  Nat.add_lt_add_right (List.sum_map_set_lt hi hlt) _

theorem left_runTask (hi : s.tasks[i]? = some task)
    (hphase : task.phase = .queued ∨ task.phase = .awaitsReady) : (s.runTask i task).left < s.left := by
  have h3 : 3 ≤ remaining task := by
    rcases hphase with hphase | hphase <;> simp [remaining, hphase]
  unfold runTask
  split
  · refine left_setTask hi (Nat.lt_of_lt_of_le ?_ h3)
    show (if task.cleaned = true then 0 else 1) < 3
    split <;> decide
  · have hlt : (s.setTask i { task with phase := .flushing }).left < s.left :=
      left_setTask hi (Nat.lt_of_lt_of_le (by decide : 2 < 3) h3)
    exact hlt

theorem left_stepTask (hi : s.tasks[i]? = some task) (ht : s.stepTask i task e = some t) :
    t.left < s.left := by
  cases e with
  | start =>
    rw [stepTask] at ht
    split at ht
    · rename_i hguard
      cases ht
      split
      · refine left_setTask hi ?_
        show 3 < remaining task
        rw [remaining, hguard.1]
        exact Nat.lt_succ_self 3
      · exact left_runTask hi (.inl hguard.1)
    · cases ht
  | ready =>
    rw [stepTask] at ht
    split at ht
    · rename_i hguard
      cases ht
      exact left_runTask hi (.inr hguard.1)
    · cases ht
  | flushSettles =>
    rw [stepTask] at ht
    split at ht
    · rename_i hphase
      cases ht
      refine left_setTask hi ?_
      show (if task.cleaned = true then 0 else 1) < remaining task
      rw [remaining, hphase]
      split <;> decide
    · cases ht
  | cleanup =>
    rw [stepTask] at ht
    split at ht
    · rename_i hguard
      have hlt : (s.setTask i { task with settled := true, cleaned := true }).left < s.left := by
        refine left_setTask hi ?_
        have hnext : remaining { task with settled := true, cleaned := true } = 0 := by
          simp [remaining, hguard.1]
        rw [hnext, remaining, hguard.1, hguard.2]
        decide
      cases ht
      split
      · exact hlt
      · exact hlt
    · cases ht

theorem left_setCall {old new : DebounceCall} (hc : s.calls[c]? = some old)
    (hlt : callRemaining new < callRemaining old) : (s.setCall c new).left < s.left :=
  Nat.add_lt_add_left (List.sum_map_set_lt hc hlt) _

theorem left_release (s : InboundDebouncer) (i : Nat) : (s.release i).left = s.left := by
  unfold release
  split
  · rename_i task hi
    have hsum := List.sum_map_set remaining hi { task with readyReleased := true }
    have hsame : remaining { task with readyReleased := true } = remaining task := rfl
    have hsums : ((s.tasks.set i { task with readyReleased := true }).map remaining).sum =
        (s.tasks.map remaining).sum := by omega
    exact congrArg (· + (s.calls.map callRemaining).sum) hsums
  · rfl

theorem calls_release (s : InboundDebouncer) (i : Nat) : (s.release i).calls = s.calls := by
  unfold release
  split <;> rfl

theorem left_internal {params : InboundDebounceParams} (h : Internal params s t) :
    t.left < s.left := by
  rcases h with ⟨i, e, ht⟩ | ⟨c, ht⟩ | ⟨c, ht⟩
  · obtain ⟨task, hi, ht⟩ := Option.bind_eq_some_iff.1 ht
    exact left_stepTask hi ht
  · unfold Step InboundDebouncer.step at ht
    dsimp only at ht
    split at ht
    · rename_i hc
      cases ht
      exact left_setCall hc (by decide)
    · cases ht
  · have ht' : s.resume c = some t := ht
    unfold resume at ht'
    split at ht'
    · rename_i i reserved hc
      split at ht'
      · cases ht'
        rw [← left_release s reserved]
        rw [← calls_release s reserved] at hc
        exact left_setCall hc Nat.one_lt_two
      · cases ht'
    · rename_i i hc
      split at ht'
      · cases ht'
        exact left_setCall hc Nat.zero_lt_one
      · cases ht'
    · cases ht'
    · cases ht'
    · cases ht'

theorem internal_halts (params : InboundDebounceParams) (s : InboundDebouncer) :
    Lts.Halts (Internal params) s :=
  Lts.halts_of_measure Nat.lt_wfRel.wf (I := fun _ => True) left (fun _ _ _ _ => trivial)
    (fun _ _ _ h => left_internal h) trivial

/-! ## Where no internal step is left -/

/-- The item of a slot waits for the timer of its buffer. -/
def InBuffer (s : InboundDebouncer) (i : Nat) (task : KeyTask) : Prop :=
  s.buffers.lookup task.key = some i ∧ task.timeout ≠ none

variable {params : InboundDebounceParams}

theorem settled_of_quiescent (hq : ∀ t, ¬ Internal params s t) (h : Sound s)
    (hi : s.tasks[i]? = some task) (hdone : task.phase = .done) : task.settled = true := by
  rcases (h.chained.ok i task hi).done hdone with hsettled | hcleaned
  · exact hsettled
  · have hstep : ∃ t, s.stepTask i task .cleanup = some t := by
      rw [stepTask, if_pos ⟨hdone, hcleaned⟩]
      exact ⟨_, rfl⟩
    obtain ⟨t, ht⟩ := hstep
    exact absurd (.inl ⟨i, .cleanup, Option.bind_eq_some_iff.2 ⟨task, hi, ht⟩⟩) (hq t)

variable {call : DebounceCall}

section

variable (hq : ∀ t, ¬ Internal params s t)
include hq

theorem not_quiescent_of_taskDone (hc : s.calls[c]? = some call) (hdone : s.taskDone i = true) :
    call ≠ .task i ∧ ∀ reserved, call ≠ .buffer i reserved := by
  refine ⟨fun heq => ?_, fun reserved heq => ?_⟩
  · subst heq
    have hstep : s.resume c = some (s.setCall c .settled) := by
      rw [resume, hc]
      exact if_pos hdone
    exact hq _ (.inr (.inr ⟨c, hstep⟩))
  · subst heq
    have hstep : s.resume c = some ((s.release reserved).setCall c (.task reserved)) := by
      rw [resume, hc]
      exact if_pos hdone
    exact hq _ (.inr (.inr ⟨c, hstep⟩))

theorem done_or_inBuffer (h : Sound s) (hi : s.tasks[i]? = some task) :
    task.phase = .done ∨ s.InBuffer i task := by
  induction i using Nat.strong_induction_on generalizing task with
  | _ i ih =>
    have hno : ∀ e t, s.stepTask i task e ≠ some t := fun e t ht =>
      hq t (.inl ⟨i, e, Option.bind_eq_some_iff.2 ⟨task, hi, ht⟩⟩)
    have hreleased : task.readyReleased = true ∨ s.InBuffer i task ∨
        ∃ (c b : Nat), s.calls[c]? = some (.buffer b i) := by
      by_cases hr : task.readyReleased = true
      · exact .inl hr
      · rcases h.buffered.held i task hi (by simpa using hr) with hbuffer | hcall
        · obtain ⟨other, hother, -, -, htimeout, -⟩ := h.exists_buffer hbuffer
          rw [hi] at hother
          cases hother
          exact .inr (.inl ⟨hbuffer, htimeout⟩)
        · exact .inr (.inr hcall)
    have hdone : ∀ j other, j < i → s.tasks[j]? = some other →
        (∀ key, s.buffers.lookup key ≠ some j) → other.phase = .done := fun j other hlt hj hb => by
      rcases ih j hlt hj with hd | hd
      · exact hd
      · exact absurd hd.1 (hb other.key)
    cases hphase : task.phase with
    | done => exact .inl rfl
    | flushing =>
      exact absurd (if_pos hphase) (hno .flushSettles _)
    | queued =>
      exfalso
      refine hno .start _ (if_pos ⟨hphase, ?_⟩)
      unfold previousSettled
      split
      · rfl
      · rename_i p hp
        obtain ⟨hlt, previous, hprevious, hkey⟩ := h.chained.previous i p task hi hp
        have hlast : ∀ key, s.buffers.lookup key ≠ some p := fun key hb => by
          obtain ⟨⟨last, hlast, hk⟩, hafter⟩ := h.buffered.last key p hb
          rw [hprevious] at hlast
          cases hlast
          exact hafter i task hi hlt (hkey.symm.trans hk)
        refine (Option.any_eq_true _ _).2 ⟨previous, hprevious, ?_⟩
        exact settled_of_quiescent hq h hprevious (hdone p previous hlt hprevious hlast)
    | awaitsReady =>
      rcases hreleased with hr | hb | ⟨c, b, hc⟩
      · exact absurd (if_pos ⟨hphase, hr⟩) (hno .ready _)
      · exact .inr hb
      · obtain ⟨hlt, ⟨other, hother, hr⟩, -⟩ := h.buffered.calls c _ hc
        have hb : ∀ key, s.buffers.lookup key ≠ some b := fun key hb => by
          obtain ⟨last, hlast, -, hnot, -⟩ := h.exists_buffer hb
          rw [hother] at hlast
          cases hlast
          rw [hr] at hnot
          cases hnot
        have htask : s.taskDone b = true :=
          taskDone_iff.2 ⟨other, hother, hdone b other hlt hother hb⟩
        exact absurd rfl ((not_quiescent_of_taskDone hq hc htask).2 i)

theorem taskDone_of_released (h : Sound s) (hi : s.tasks[i]? = some task)
    (hr : task.readyReleased = true) : s.taskDone i = true := by
  rcases done_or_inBuffer hq h hi with hdone | ⟨hbuffer, -⟩
  · exact taskDone_iff.2 ⟨task, hi, hdone⟩
  · obtain ⟨other, hother, -, hnot, -⟩ := h.exists_buffer hbuffer
    rw [hi] at hother
    cases hother
    rw [hr] at hnot
    cases hnot

theorem calls_settled (h : Sound s) (hcall : call ∈ s.calls) : call = .settled := by
  obtain ⟨c, hc⟩ := List.mem_iff_getElem?.1 hcall
  have hok := h.buffered.calls c call hc
  cases call with
  | settled => rfl
  | direct => exact absurd (.inr (.inl ⟨c, if_pos hc⟩)) (hq _)
  | task i =>
    obtain ⟨task, hi, hr⟩ := hok
    exact absurd rfl (not_quiescent_of_taskDone hq hc (taskDone_of_released hq h hi hr)).1
  | buffer i reserved =>
    obtain ⟨-, ⟨task, hi, hr⟩, -⟩ := hok
    exact absurd rfl ((not_quiescent_of_taskDone hq hc (taskDone_of_released hq h hi hr)).2 reserved)

theorem inBuffer_of_waiting (h : Sound s) {key : Option String} {item : Nat}
    (hitem : item ∈ waiting key s.tasks) :
    ∃ i task, s.tasks[i]? = some task ∧ some task.key = key ∧ item ∈ task.items ∧
      s.InBuffer i task := by
  obtain ⟨task, htask, hitem⟩ := List.mem_flatMap.1 hitem
  obtain ⟨i, hi⟩ := List.mem_iff_getElem?.1 htask
  rw [KeyTask.waitsFor] at hitem
  split at hitem
  · rename_i hkey
    rcases done_or_inBuffer hq h hi with hdone | hbuffer
    · rw [waits_of_done hdone] at hitem
      cases hitem
    · obtain ⟨other, hother, -, -, -, hwaits⟩ := h.exists_buffer hbuffer.1
      rw [hi] at hother
      cases hother
      exact ⟨i, task, hi, hkey, hwaits ▸ hitem, hbuffer⟩
  · cases hitem

end

end InboundDebouncer

open InboundDebouncer

/-- **The debouncer delivers every item once, in order, and settles.** -/
theorem inbound_items_delivered (params : InboundDebounceParams) {s : InboundDebouncer}
    (h : Reached params s) :
    (∀ key, (arrived key s.arrivals).Nodup ∧
      (ofKey key s.flushed ++ ofKey key s.cancelled ++ waiting key s.tasks).Perm
        (arrived key s.arrivals) ∧
      (ofKey key s.flushed).Pairwise (· < ·)) ∧
    (∀ (i j : Nat) (a b : KeyTask), s.tasks[i]? = some a → s.tasks[j]? = some b → a.key = b.key →
      a.phase = .flushing → b.phase = .flushing → i = j) ∧
    Lts.Halts (Internal params) s ∧
    ((∀ t, ¬ Internal params s t) → (∀ call ∈ s.calls, call = .settled) ∧
      ∀ key, ∀ item ∈ waiting key s.tasks, ∃ i task, s.tasks[i]? = some task ∧
        some task.key = key ∧ item ∈ task.items ∧ s.InBuffer i task) := by
  have hs := h.sound
  refine ⟨fun key => ⟨nodup_arrived key s.arrivals, hs.delivered.placed key, ?_⟩, ?_,
    internal_halts params s, fun hq => ⟨?_, ?_⟩⟩
  · exact (hs.delivered.sorted key).sublist (List.sublist_append_left _ _)
  · intro i j a b hi hj hkey ha hb
    have hne : ∀ (task : KeyTask), task.phase = .flushing → task.phase ≠ .queued ∧
        task.phase ≠ .done := fun task ht => by
      rw [ht]
      exact ⟨TaskPhase.noConfusion, TaskPhase.noConfusion⟩
    rcases Nat.lt_trichotomy i j with hlt | heq | hlt
    · have hsettled := hs.chained.settledBefore_of_started hj (hne b hb).1 i a hi hlt hkey
      exact absurd ((hs.chained.ok i a hi).settled hsettled) (hne a ha).2
    · exact heq
    · have hsettled := hs.chained.settledBefore_of_started hi (hne a ha).1 j b hj hlt hkey.symm
      exact absurd ((hs.chained.ok j b hj).settled hsettled) (hne b hb).2
  · intro call hcall
    exact calls_settled hq hs hcall
  · intro key item hitem
    exact inBuffer_of_waiting hq hs hitem

/-- A buffered message is overtaken by none that is not debounced. -/
def bufferedThenImmediate : List DebounceEvent :=
  [.enqueue (some "a") 100 true, .enqueue (some "a") 0 true, .task 0 .start, .task 0 .ready]

def afterBufferedThenImmediate : InboundDebouncer where
  buffers := ∅
  keyChains := AList.singleton "a" 1
  tasks := [⟨"a", none, true, false, true, [0], none, .flushing, false, false⟩,
    ⟨"a", some 0, true, false, false, [1], none, .queued, false, false⟩]
  calls := [.settled, .buffer 0 1]
  arrivals := [some "a", some "a"]
  flushed := [(some "a", [0])]
  cancelled := []

theorem inbound_items_delivered_in_order :
    Lts.Halts (Internal ⟨2048, false⟩) afterBufferedThenImmediate ∧
      (ofKey (some "a") afterBufferedThenImmediate.flushed ++
        ofKey (some "a") afterBufferedThenImmediate.cancelled ++
        waiting (some "a") afterBufferedThenImmediate.tasks).Perm [0, 1] := by
  have hstart : Reached ⟨2048, false⟩ create := .start rfl
  have hreach : Reached ⟨2048, false⟩ afterBufferedThenImmediate :=
    hstart.run (rfl : Lts.run (step ⟨2048, false⟩) create bufferedThenImmediate =
      some afterBufferedThenImmediate)
  have h := inbound_items_delivered ⟨2048, false⟩ hreach
  exact ⟨h.2.2.1, (h.1 (some "a")).2.1⟩

end OpenClaw.AutoReply
