import OpenClaw.Followup.LifecycleOrder

/-!
# The lifecycle protocol of followup runs

**Theorem (`lifecycle_protocol`).** In every run of calls, callbacks and microtasks on a lifecycle:
`onComplete` is called at most once, and then no admission is in flight; `onAdmitted` succeeds at
most once; no `onAdmitted` is called after `onComplete`, and no admission begins after the lifecycle
was completed; a call that finds an admission in flight awaits that one, and returns what it
settled to; `onEnqueued` accepts and `onCancellationRetired` is called at most once.

An `onAdmitted` whose admission had begun may still be called after
`completeFollowupRunLifecycle` was (`admitted_called_after_completion`): completion closes future
admission, and its callback waits for the admission in flight.

**Proof.** `Allowed` says when each event may happen, in terms of the events before it, and
`Recorded` that the trace tells the state. A step emits what is allowed, since one admission is in
flight at a time (`Ordered`).
-/

namespace OpenClaw.Followup.Lifecycle

open State Trace

variable {s t : State} {n call : Nat} {a : Admission} {ok : Bool} {e : Event}

/-! ## What may happen when -/

/-- The admission has begun and has not settled. -/
def InFlight (trace : List Event) (n : Nat) : Prop :=
  .admissionBegun n ∈ trace ∧ ∀ ok : Bool, .settled n ok ∉ trace

def Allowed (earlier : List Event) : Event → Prop
  | .enqueued => .enqueued ∉ earlier
  | .cancellationRetired => .cancellationRetired ∉ earlier
  | .admissionBegun n => .completed ∉ earlier ∧ .completeCalled ∉ earlier ∧
      .admissionBegun n ∉ earlier ∧ ∀ m, ¬ InFlight earlier m
  | .joined _ n => .admissionBegun n ∈ earlier ∧ ∀ m, InFlight earlier m → m = n
  | .admittedCalled n => .completeCalled ∉ earlier ∧ InFlight earlier n
  | .admittedAnswered n _ => InFlight earlier n ∧ (∀ ok, .admittedAnswered n ok ∉ earlier) ∧
      ∀ m, .admittedAnswered m true ∉ earlier
  | .settled n ok => InFlight earlier n ∧ .admittedAnswered n ok ∈ earlier
  | .returned call n ok => .joined call n ∈ earlier ∧ .settled n ok ∈ earlier
  | .completed => .completed ∉ earlier
  | .completeCalled => .completeCalled ∉ earlier ∧ .completed ∈ earlier ∧
      ∀ n, ¬ InFlight earlier n

def State.phaseOf (s : State) (n : Nat) : Option Phase := (s.admission n).map Admission.phase

/-- The trace tells the state. -/
structure Recorded (s : State) : Prop where
  lawful : Lawful Allowed s.trace
  enqueued : .enqueued ∈ s.trace → s.enqueued = true
  retired : .cancellationRetired ∈ s.trace → s.retired = true
  completed : .completed ∈ s.trace ↔ s.completed = true
  called : .completeCalled ∈ s.trace → s.completedCallback = true
  begun : ∀ n, .admissionBegun n ∈ s.trace ↔ n < s.begun
  answered : ∀ n ok, .admittedAnswered n ok ∈ s.trace ↔
    s.phaseOf n = some (.answered ok) ∨ s.phaseOf n = some (.settled ok)
  settled : ∀ n ok, .settled n ok ∈ s.trace ↔ s.phaseOf n = some (.settled ok)
  joined : ∀ n a call, s.admission n = some a →
    .release call ∈ a.reactions ∨ .resume call ∈ a.reactions → .joined call n ∈ s.trace

theorem phaseOf_setAdmission (m : Nat) :
    (s.setAdmission n a).phaseOf m = if m = n then some a.phase else s.phaseOf m := by
  rw [phaseOf, setAdmission_admission]
  by_cases h : m = n
  · simp [h]
  · simp [h, phaseOf]

theorem phaseOf_react (m : Nat) (reaction : Reaction) :
    (s.react n reaction).phaseOf m = s.phaseOf m := by
  unfold State.react
  cases hn : s.admission n with
  | none => rfl
  | some a =>
    rw [phaseOf_setAdmission]
    by_cases h : m = n
    · simp [h, phaseOf, hn]
    · simp [h]

theorem inFlight_iff (ho : Ordered s) (h : Recorded s) :
    InFlight s.trace n ↔ ∃ a, s.admission n = some a ∧ ¬ a.phase.isSettled := by
  unfold InFlight
  rw [h.begun, ← ho.known]
  simp only [h.settled, phaseOf]
  cases hn : s.admission n with
  | none => simp
  | some a =>
    cases hphase : a.phase <;> simp [Phase.isSettled, hphase]

/-! ## Steps of the record -/

/-- An event that tells nothing of the state. -/
def Event.isNote : Event → Prop
  | .joined .. | .returned .. | .admittedCalled _ => True
  | _ => False

theorem Recorded.note (h : Recorded s) (he : e.isNote) (hallowed : Allowed s.trace e) :
    Recorded (s.emit e) := by
  have hmem : ∀ e', ¬ e'.isNote → (e' ∈ (s.emit e).trace ↔ e' ∈ s.trace) := by
    intro e' he'
    have hne : e' ≠ e := by
      rintro rfl
      exact he' he
    simp [emit, hne]
  constructor
  · exact ⟨hallowed, h.lawful⟩
  · exact fun hin => h.enqueued ((hmem _ id).1 hin)
  · exact fun hin => h.retired ((hmem _ id).1 hin)
  · exact (hmem _ id).trans h.completed
  · exact fun hin => h.called ((hmem _ id).1 hin)
  · exact fun n => (hmem _ id).trans (h.begun n)
  · exact fun n ok => (hmem _ id).trans (h.answered n ok)
  · exact fun n ok => (hmem _ id).trans (h.settled n ok)
  · exact fun n a call hn hin => List.mem_cons_of_mem _ (h.joined n a call hn hin)

theorem Recorded.react (h : Recorded s) (n : Nat) (reaction : Reaction)
    (hjoined : ∀ call, reaction = .release call ∨ reaction = .resume call →
      .joined call n ∈ s.trace) : Recorded (s.react n reaction) := by
  have htrace : (s.react n reaction).trace = s.trace := by
    unfold State.react
    cases s.admission n <;> rfl
  have hframe : (s.react n reaction).enqueued = s.enqueued ∧
      (s.react n reaction).retired = s.retired ∧ (s.react n reaction).completed = s.completed ∧
      (s.react n reaction).completedCallback = s.completedCallback ∧
      (s.react n reaction).begun = s.begun := by
    unfold State.react
    cases s.admission n <;> exact ⟨rfl, rfl, rfl, rfl, rfl⟩
  obtain ⟨henqueued, hretired, hcompleted, hcalled, hbegun⟩ := hframe
  constructor
  · rw [htrace]
    exact h.lawful
  · rw [htrace, henqueued]
    exact h.enqueued
  · rw [htrace, hretired]
    exact h.retired
  · rw [htrace, hcompleted]
    exact h.completed
  · rw [htrace, hcalled]
    exact h.called
  · rw [htrace, hbegun]
    exact h.begun
  · intro m ok
    rw [htrace, phaseOf_react]
    exact h.answered m ok
  · intro m ok
    rw [htrace, phaseOf_react]
    exact h.settled m ok
  · intro m b call hm hin
    rw [htrace]
    unfold State.react at hm
    cases hn : s.admission n with
    | none =>
      rw [hn] at hm
      exact h.joined m b call hm hin
    | some a =>
      rw [hn] at hm
      rcases setAdmission_some hm with ⟨rfl, rfl⟩ | ⟨-, hm'⟩
      · simp only [List.mem_append, List.mem_singleton] at hin
        by_cases hnew : reaction = .release call ∨ reaction = .resume call
        · exact hjoined call hnew
        · refine h.joined m a call hn ?_
          rcases hin with (hin | hin) | (hin | hin)
          · exact Or.inl hin
          · exact absurd (Or.inl hin.symm) hnew
          · exact Or.inr hin
          · exact absurd (Or.inr hin.symm) hnew
      · exact h.joined m b call hm' hin

variable {reactions : List Reaction}

theorem Recorded.advance {phase next : Phase} (h : Recorded s)
    (hn : s.admission n = some ⟨phase, reactions⟩) (hallowed : Allowed s.trace e)
    (hbegun : ∀ m, e ≠ .admissionBegun m)
    (hothers : e ≠ .enqueued ∧ e ≠ .cancellationRetired ∧ e ≠ .completed ∧ e ≠ .completeCalled)
    (hanswered : ∀ m ok, e = .admittedAnswered m ok ∨
      (s.phaseOf m = some (.answered ok) ∨ s.phaseOf m = some (.settled ok)) ↔
      (s.setAdmission n ⟨next, reactions⟩).phaseOf m = some (.answered ok) ∨
        (s.setAdmission n ⟨next, reactions⟩).phaseOf m = some (.settled ok))
    (hsettled : ∀ m ok, e = .settled m ok ∨ s.phaseOf m = some (.settled ok) ↔
      (s.setAdmission n ⟨next, reactions⟩).phaseOf m = some (.settled ok)) :
    Recorded ((s.setAdmission n ⟨next, reactions⟩).emit e) := by
  obtain ⟨henqueued, hretired, hcompleted, hcalled⟩ := hothers
  have hmem : ∀ e', e ≠ e' →
      (e' ∈ ((s.setAdmission n ⟨next, reactions⟩).emit e).trace ↔ e' ∈ s.trace) := by
    intro e' hne
    simp [emit, setAdmission, hne.symm]
  constructor
  · exact ⟨hallowed, h.lawful⟩
  · exact fun hin => h.enqueued ((hmem _ henqueued).1 hin)
  · exact fun hin => h.retired ((hmem _ hretired).1 hin)
  · exact (hmem _ hcompleted).trans h.completed
  · exact fun hin => h.called ((hmem _ hcalled).1 hin)
  · exact fun m => (hmem _ (hbegun m)).trans (h.begun m)
  · intro m ok
    refine Iff.trans ?_ (hanswered m ok)
    rw [← h.answered]
    simp [emit, setAdmission, eq_comm]
  · intro m ok
    refine Iff.trans ?_ (hsettled m ok)
    rw [← h.settled]
    simp [emit, setAdmission, eq_comm]
  · intro m b call hm hin
    refine List.mem_cons_of_mem _ ?_
    rcases setAdmission_some hm with ⟨rfl, rfl⟩ | ⟨-, hm'⟩
    · exact h.joined m _ call hn hin
    · exact h.joined m b call hm' hin

theorem Recorded.begin (ho : Ordered s) (h : Recorded s) (hadmitting : s.admitting = none)
    (hcompleted : s.completed = false) :
    Recorded (({ s with begun := s.begun + 1, admitting := some s.begun }.setAdmission s.begun
      ⟨.scheduled, [.release call]⟩).emit (.admissionBegun s.begun) |>.emit
        (.joined call s.begun)) := by
  have hnone : s.admission s.begun = none := by
    have hknown := ho.known s.begun
    simpa using hknown
  have hquiet : ∀ m, ¬ InFlight s.trace m := by
    intro m hm
    obtain ⟨b, hb, hphase⟩ := (inFlight_iff ho h).1 hm
    rw [ho.admitting_of_unsettled hb hphase] at hadmitting
    cases hadmitting
  have hphases : ∀ m phase, phase ≠ .scheduled →
      ((State.phaseOf ({ s with begun := s.begun + 1, admitting := some s.begun }.setAdmission
        s.begun ⟨.scheduled, [.release call]⟩) m = some phase) ↔ s.phaseOf m = some phase) := by
    intro m phase hne
    rw [phaseOf_setAdmission]
    by_cases hm : m = s.begun
    · rw [if_pos hm, hm]
      simp [phaseOf, hnone, hne.symm]
    · rw [if_neg hm]
      rfl
  constructor
  · refine ⟨⟨List.mem_cons_self, fun m hm => ?_⟩, ⟨?_, ?_, ?_, hquiet⟩, h.lawful⟩
    · by_cases hms : m = s.begun
      · exact hms
      · exact absurd ⟨by simpa [emit, setAdmission, hms] using hm.1,
          fun ok hin => hm.2 ok (List.mem_cons_of_mem _ hin)⟩ (hquiet m)
    · simp [setAdmission, h.completed, hcompleted]
    · intro hin
      have hcalled := (ho.called (h.called hin)).1
      rw [hcompleted] at hcalled
      cases hcalled
    · simp [setAdmission, h.begun]
  · exact fun hin => h.enqueued (by simpa [emit, setAdmission] using hin)
  · exact fun hin => h.retired (by simpa [emit, setAdmission] using hin)
  · refine Iff.trans ?_ h.completed
    simp [emit, setAdmission]
  · exact fun hin => h.called (by simpa [emit, setAdmission] using hin)
  · intro m
    simp only [emit, setAdmission, List.mem_cons, reduceCtorEq, Event.admissionBegun.injEq,
      false_or, h.begun]
    omega
  · intro m ok
    refine Iff.trans ?_ (or_congr (hphases m (.answered ok) (by simp))
      (hphases m (.settled ok) (by simp))).symm
    rw [← h.answered]
    simp [emit, setAdmission]
  · intro m ok
    refine Iff.trans ?_ (hphases m (.settled ok) (by simp)).symm
    rw [← h.settled]
    simp [emit, setAdmission]
  · intro m b other hm hin
    rcases setAdmission_some (s := { s with begun := _, admitting := _ }) hm with
      ⟨rfl, rfl⟩ | ⟨-, hm'⟩
    · have heq : other = call := by simpa using hin
      rw [heq]
      exact List.mem_cons_self
    · exact List.mem_cons_of_mem _ (List.mem_cons_of_mem _ (h.joined m b other hm' hin))

variable {reaction : Reaction} {rest : List Reaction}

theorem Recorded.pop (h : Recorded s) (hn : s.admission n = some ⟨.settled ok, reaction :: rest⟩) :
    Recorded (s.setAdmission n ⟨.settled ok, rest⟩) := by
  have hphases : ∀ m, (s.setAdmission n ⟨.settled ok, rest⟩).phaseOf m = s.phaseOf m := by
    intro m
    rw [phaseOf_setAdmission]
    by_cases hm : m = n
    · simp [hm, phaseOf, hn]
    · simp [hm]
  constructor
  · exact h.lawful
  · exact h.enqueued
  · exact h.retired
  · exact h.completed
  · exact h.called
  · exact h.begun
  · intro m ok'
    rw [hphases]
    exact h.answered m ok'
  · intro m ok'
    rw [hphases]
    exact h.settled m ok'
  · intro m b call hm hin
    rcases setAdmission_some hm with ⟨rfl, rfl⟩ | ⟨-, hm'⟩
    · refine h.joined m _ call hn (hin.imp ?_ ?_) <;> exact List.mem_cons_of_mem _
    · exact h.joined m b call hm' hin

/-- An event that sets the flag of its name. -/
def Event.isFlag : Event → Prop
  | .enqueued | .cancellationRetired | .completed | .completeCalled => True
  | _ => False

def State.flag (s : State) (e : Event) : State :=
  { s.emit e with
    enqueued := s.enqueued || decide (e = .enqueued)
    retired := s.retired || decide (e = .cancellationRetired)
    completed := s.completed || decide (e = .completed)
    completedCallback := s.completedCallback || decide (e = .completeCalled) }

theorem Recorded.flag (h : Recorded s) (he : e.isFlag) (hallowed : Allowed s.trace e) :
    Recorded (s.flag e) := by
  have hmem : ∀ e', ¬ e'.isFlag → (e' ∈ (s.flag e).trace ↔ e' ∈ s.trace) := by
    intro e' he'
    have hne : e' ≠ e := by
      rintro rfl
      exact he' he
    simp [State.flag, emit, hne]
  have hflag : ∀ e' b, (e' ∈ s.trace → b = true) →
      e' ∈ (s.flag e).trace → (b || decide (e = e')) = true := by
    intro e' b hb hin
    rcases List.mem_cons.1 hin with heq | hin
    · simp [heq]
    · simp [hb hin]
  constructor
  · exact ⟨hallowed, h.lawful⟩
  · exact hflag _ _ h.enqueued
  · exact hflag _ _ h.retired
  · refine ⟨hflag _ _ h.completed.1, fun hset => ?_⟩
    rcases Bool.or_eq_true_iff.1 hset with hset | hset
    · exact List.mem_cons_of_mem _ (h.completed.2 hset)
    · rw [of_decide_eq_true hset]
      exact List.mem_cons_self
  · exact hflag _ _ h.called
  · exact fun m => (hmem _ id).trans (h.begun m)
  · exact fun m ok => (hmem _ id).trans (h.answered m ok)
  · exact fun m ok => (hmem _ id).trans (h.settled m ok)
  · exact fun m b call hm hin => List.mem_cons_of_mem _ (h.joined m b call hm hin)

theorem Recorded.finish (ho : Ordered s) (h : Recorded s) (hcompleted : s.completed = true)
    (hsettled : ∀ n a, s.admission n = some a → a.phase.isSettled) : Recorded s.finish := by
  unfold State.finish
  by_cases hcalled : s.completedCallback = true
  · rw [if_pos hcalled]
    exact h
  · rw [if_neg hcalled]
    have hflag : Recorded (s.flag .completeCalled) := by
      refine h.flag trivial ⟨fun hin => hcalled (h.called hin), h.completed.2 hcompleted, ?_⟩
      intro m hm
      obtain ⟨b, hb, hphase⟩ := (inFlight_iff ho h).1 hm
      exact hphase (hsettled m b hb)
    simpa [State.flag, emit] using hflag

theorem Recorded.complete (h : Recorded s) (hcompleted : s.completed = false) :
    Recorded { s.emit .completed with completed := true } := by
  have hflag : Recorded (s.flag .completed) := by
    refine h.flag trivial fun hin => ?_
    rw [h.completed.1 hin] at hcompleted
    cases hcompleted
  simpa [State.flag, emit] using hflag

theorem Recorded.mark (h : Recorded s) (accepted : Bool) :
    Recorded (s.markFollowupRunEnqueued accepted).1 := by
  unfold markFollowupRunEnqueued
  by_cases henqueued : s.enqueued = true
  · rw [if_pos henqueued]
    exact h
  · rw [if_neg henqueued]
    by_cases haccepted : accepted = true
    · rw [if_pos haccepted]
      have hflag : Recorded (s.flag .enqueued) :=
        h.flag trivial fun hin => henqueued (h.enqueued hin)
      simpa [State.flag, emit] using hflag
    · rw [if_neg haccepted]
      exact h

theorem Recorded.retire (h : Recorded s) : Recorded s.retireFollowupRunCancellation := by
  unfold retireFollowupRunCancellation
  by_cases hretired : s.retired = true
  · rw [if_pos hretired]
    exact h
  · rw [if_neg hretired]
    have hflag : Recorded (s.flag .cancellationRetired) :=
      h.flag trivial fun hin => hretired (h.retired hin)
    simpa [State.flag, emit] using hflag

/-! ## Steps -/

theorem Ordered.frame (h : Ordered s) (hadmitted : t.admitted = s.admitted)
    (hadmitting : t.admitting = s.admitting) (hcompleted : t.completed = s.completed)
    (hcalled : t.completedCallback = s.completedCallback) (hbegun : t.begun = s.begun)
    (hadmission : t.admission = s.admission) : Ordered t := by
  cases s
  cases t
  subst_vars
  exact ⟨h.known, h.last, h.releases, h.released, h.failed, h.succeeded, h.finishing, h.called⟩

theorem Ordered.settled_of_none (h : Ordered s) (hadmitting : s.admitting = none) :
    ∀ n a, s.admission n = some a → a.phase.isSettled := by
  intro n a hn
  refine (h.released n a hn ?_).1
  rw [hadmitting]
  exact nofun

theorem Ordered.settled_of_last (h : Ordered s) (hlast : n + 1 = s.begun)
    (hn : s.admission n = some a) (hphase : a.phase.isSettled) :
    ∀ m b, s.admission m = some b → b.phase.isSettled := by
  intro m b hm
  by_cases heq : m = n
  · rw [heq, hn] at hm
    rw [← Option.some.inj hm]
    exact hphase
  · have hlt := h.lt hm
    rw [h.failed m b hm (by omega)]
    trivial

section

variable (ho : Ordered s)
include ho

theorem step_mark (accepted : Bool) : Ordered (s.markFollowupRunEnqueued accepted).1 := by
  unfold markFollowupRunEnqueued
  by_cases henqueued : s.enqueued = true
  · rw [if_pos henqueued]
    exact ho
  · rw [if_neg henqueued]
    by_cases haccepted : accepted = true
    · rw [if_pos haccepted]
      exact ho.frame rfl rfl rfl rfl rfl rfl
    · rw [if_neg haccepted]
      exact ho

theorem step_retire : Ordered s.retireFollowupRunCancellation := by
  unfold retireFollowupRunCancellation
  by_cases hretired : s.retired = true
  · rw [if_pos hretired]
    exact ho
  · rw [if_neg hretired]
    exact ho.frame rfl rfl rfl rfl rfl rfl

theorem joins_allowed (h : Recorded s) (hadmitting : s.admitting = some n) :
    Allowed s.trace (.joined call n) := by
  have hlast := ho.last n hadmitting
  refine ⟨(h.begun n).2 (by omega), fun m hm => ?_⟩
  obtain ⟨b, hb, hphase⟩ := (inFlight_iff ho h).1 hm
  have hcurrent := ho.admitting_of_unsettled hb hphase
  rw [hadmitting] at hcurrent
  exact (Option.some.inj hcurrent).symm

theorem step_beginAdmission (h : Recorded s) (hbegin : s.admitFollowupRunLifecycle call = .ok t) :
    Ordered t ∧ Recorded t := by
  unfold admitFollowupRunLifecycle at hbegin
  by_cases hadmitted : s.admitted = true
  · rw [if_pos hadmitted] at hbegin
    cases hbegin
    exact ⟨ho, h⟩
  · rw [if_neg hadmitted] at hbegin
    cases hadmitting : s.admitting with
    | some n =>
      rw [hadmitting] at hbegin
      cases hbegin
      have hjoined : Recorded (s.emit (.joined call n)) :=
        h.note trivial (joins_allowed ho h hadmitting)
      have hreact := hjoined.react n (.resume call) fun other hother => by
        rcases hother with hother | hother
        · cases hother
        · rw [← Reaction.resume.inj hother]
          exact List.mem_cons_self
      have hordered : Ordered (s.react n (.resume call)) :=
        ho.react (fun other hother => by cases hother) (fun hother => by cases hother)
      refine ⟨hordered.frame rfl rfl rfl rfl rfl rfl, ?_⟩
      have heq : (s.emit (.joined call n)).react n (.resume call) =
          (s.react n (.resume call)).emit (.joined call n) := by
        unfold State.react
        rw [show (s.emit (.joined call n)).admission n = s.admission n from rfl]
        cases s.admission n <;> rfl
      exact heq ▸ hreact
    | none =>
      rw [hadmitting] at hbegin
      by_cases hcompleted : s.completed = true
      · rw [if_pos hcompleted] at hbegin
        cases hbegin
      · rw [if_neg hcompleted] at hbegin
        cases hbegin
        rw [Bool.not_eq_true] at hadmitted hcompleted
        refine ⟨?_, h.begin ho hadmitting hcompleted⟩
        exact (ho.begin hadmitted hadmitting hcompleted).frame rfl rfl rfl rfl rfl rfl

theorem step_complete (h : Recorded s) :
    Ordered s.completeFollowupRunLifecycle ∧ Recorded s.completeFollowupRunLifecycle := by
  unfold completeFollowupRunLifecycle
  by_cases hcompleted : s.completed = true
  · rw [if_pos hcompleted]
    exact ⟨ho, h⟩
  · rw [if_neg hcompleted]
    rw [Bool.not_eq_true] at hcompleted
    have ho' : Ordered { s.emit .completed with completed := true } :=
      { ho with
        finishing := fun n a hn hmem => ⟨rfl, (ho.finishing n a hn hmem).2⟩
        called := fun hcalled => ⟨rfl, (ho.called hcalled).2⟩ }
    have h' := h.complete hcompleted
    have hset : ({ s.emit .completed with completed := true } : State).completed = true := rfl
    revert ho' h' hset
    generalize ({ s.emit .completed with completed := true } : State) = u
    intro ho' h' hset
    dsimp only
    cases hadmitting : u.admitting with
    | none =>
      have hsettled := ho'.settled_of_none hadmitting
      exact ⟨ho'.finish hset hsettled, h'.finish ho' hset hsettled⟩
    | some n =>
      constructor
      · exact ho'.react (fun other hother => by cases hother)
          fun _ => ⟨hset, ho'.last n hadmitting⟩
      · refine h'.react _ _ ?_
        rintro other (hother | hother) <;> cases hother

theorem step_callAdmitted (h : Recorded s) (hn : s.admission n = some ⟨.scheduled, reactions⟩) :
    Ordered ((s.setAdmission n ⟨.running, reactions⟩).emit (.admittedCalled n)) ∧
      Recorded ((s.setAdmission n ⟨.running, reactions⟩).emit (.admittedCalled n)) := by
  have hflight : InFlight s.trace n := (inFlight_iff ho h).2 ⟨_, hn, id⟩
  have hphase : s.phaseOf n = some .scheduled := by simp [phaseOf, hn]
  refine ⟨(ho.advance .running hn id s.admitted id nofun).frame
    rfl rfl rfl rfl rfl rfl, ?_⟩
  refine h.advance hn ⟨?_, hflight⟩ nofun ⟨nofun, nofun, nofun, nofun⟩ ?_ ?_
  · intro hin
    have hcalled := h.called hin
    rw [ho.not_called hn id] at hcalled
    cases hcalled
  · intro m ok
    rw [phaseOf_setAdmission]
    by_cases hm : m = n
    · simp [hm, hphase]
    · simp [hm]
  · intro m ok
    rw [phaseOf_setAdmission]
    by_cases hm : m = n
    · simp [hm, hphase]
    · simp [hm]

theorem step_answer (h : Recorded s) (hn : s.admission n = some ⟨.running, reactions⟩) :
    Ordered ((s.setAdmission n ⟨.answered ok, reactions⟩).emit (.admittedAnswered n ok)) ∧
      Recorded ((s.setAdmission n ⟨.answered ok, reactions⟩).emit (.admittedAnswered n ok)) := by
  have hflight : InFlight s.trace n := (inFlight_iff ho h).2 ⟨_, hn, id⟩
  have hphase : s.phaseOf n = some .running := by simp [phaseOf, hn]
  refine ⟨(ho.advance (.answered ok) hn id s.admitted id nofun).frame
    rfl rfl rfl rfl rfl rfl, ?_⟩
  refine h.advance hn ⟨hflight, ?_, ?_⟩ nofun ⟨nofun, nofun, nofun, nofun⟩ ?_ ?_
  · intro ok' hin
    rw [h.answered, hphase] at hin
    simp at hin
  · -- an earlier admission has failed
    intro m hin
    have hlast := ho.last n (ho.admitting_of_unsettled hn id)
    rw [h.answered] at hin
    unfold phaseOf at hin
    cases hm : s.admission m with
    | none => simp [hm] at hin
    | some b =>
      have hlt := ho.lt hm
      have hne : m ≠ n := by
        rintro rfl
        rw [hn] at hin
        simp at hin
      rw [hm, Option.map_some, ho.failed m b hm (by omega)] at hin
      simp at hin
  · intro m ok'
    rw [phaseOf_setAdmission]
    by_cases hm : m = n
    · simp [hm, hphase]
    · simp [hm, Ne.symm hm]
  · intro m ok'
    rw [phaseOf_setAdmission]
    by_cases hm : m = n
    · simp [hm, hphase]
    · simp [hm]

theorem step_settle (h : Recorded s) (hn : s.admission n = some ⟨.answered ok, reactions⟩) :
    Ordered { (s.setAdmission n ⟨.settled ok, reactions⟩).emit (.settled n ok) with
      admitted := s.admitted || ok } ∧
    Recorded { (s.setAdmission n ⟨.settled ok, reactions⟩).emit (.settled n ok) with
      admitted := s.admitted || ok } := by
  have hflight : InFlight s.trace n := (inFlight_iff ho h).2 ⟨_, hn, id⟩
  have hphase : s.phaseOf n = some (.answered ok) := by simp [phaseOf, hn]
  constructor
  · refine (ho.advance (.settled ok) hn id (s.admitted || ok) ?_ ?_).frame
      rfl rfl rfl rfl rfl rfl
    · intro hadmitted
      simp [hadmitted]
    · intro hok
      simp [Phase.settled.inj hok]
  · have hrecorded : Recorded
        ((s.setAdmission n ⟨.settled ok, reactions⟩).emit (.settled n ok)) := by
      refine h.advance hn ⟨hflight, (h.answered n ok).2 (Or.inl hphase)⟩ nofun
        ⟨nofun, nofun, nofun, nofun⟩ ?_ ?_
      · intro m ok'
        rw [phaseOf_setAdmission]
        by_cases hm : m = n
        · simp [hm, hphase]
        · simp [hm]
      · intro m ok'
        rw [phaseOf_setAdmission]
        by_cases hm : m = n
        · simp [hm, hphase]
        · simp [hm, Ne.symm hm]
    exact ⟨hrecorded.lawful, hrecorded.enqueued, hrecorded.retired, hrecorded.completed,
      hrecorded.called, hrecorded.begun, hrecorded.answered, hrecorded.settled, hrecorded.joined⟩

theorem step_reaction (h : Recorded s) (hn : s.admission n = some ⟨.settled ok, reaction :: rest⟩) :
    Ordered ((s.setAdmission n ⟨.settled ok, rest⟩).runReaction n ok reaction) ∧
      Recorded ((s.setAdmission n ⟨.settled ok, rest⟩).runReaction n ok reaction) := by
  have ho' := ho.pop hn
  have h' := h.pop hn
  have hreturned : ∀ call, reaction = .release call ∨ reaction = .resume call →
      Allowed s.trace (.returned call n ok) := by
    intro call hcall
    refine ⟨h.joined n _ call hn ?_, (h.settled n ok).2 (by simp [phaseOf, hn])⟩
    rcases hcall with rfl | rfl
    · exact Or.inl List.mem_cons_self
    · exact Or.inr List.mem_cons_self
  cases reaction with
  | release call =>
    refine ⟨ho'.frame rfl rfl rfl rfl rfl rfl, ?_⟩
    have hnote := h'.note (e := .returned call n ok) trivial (hreturned call (Or.inl rfl))
    exact ⟨hnote.lawful, hnote.enqueued, hnote.retired, hnote.completed, hnote.called,
      hnote.begun, hnote.answered, hnote.settled, hnote.joined⟩
  | resume call =>
    exact ⟨ho'.frame rfl rfl rfl rfl rfl rfl,
      h'.note (e := .returned call n ok) trivial (hreturned call (Or.inr rfl))⟩
  | finish =>
    have hpopped : Ordered (s.setAdmission n ⟨.settled ok, rest⟩) :=
      ho'.frame rfl rfl rfl rfl rfl rfl
    obtain ⟨hcompleted, hlast⟩ := ho.finishing n _ hn List.mem_cons_self
    have hsettled := hpopped.settled_of_last (a := ⟨.settled ok, rest⟩) hlast
      (by rw [setAdmission_admission, if_pos rfl]) trivial
    exact ⟨hpopped.finish hcompleted hsettled, h'.finish hpopped hcompleted hsettled⟩

theorem step_consistent {act : Action} (h : Recorded s) (hstep : step s act = some t) :
    Ordered t ∧ Recorded t := by
  cases act with
  | mark accepted =>
    cases hstep
    exact ⟨step_mark ho accepted, h.mark accepted⟩
  | retire =>
    cases hstep
    exact ⟨step_retire ho, h.retire⟩
  | beginAdmission call =>
    simp only [step] at hstep
    cases hbegin : s.admitFollowupRunLifecycle call with
    | error error =>
      rw [hbegin] at hstep
      cases hstep
      exact ⟨ho, h⟩
    | ok u =>
      rw [hbegin] at hstep
      cases hstep
      exact step_beginAdmission ho h hbegin
  | complete =>
    cases hstep
    exact step_complete ho h
  | callAdmitted n =>
    simp only [step] at hstep
    split at hstep
    · rename_i reactions hn
      cases hstep
      exact step_callAdmitted ho h hn
    · cases hstep
  | answer n ok =>
    simp only [step] at hstep
    split at hstep
    · rename_i reactions hn
      cases hstep
      exact step_answer ho h hn
    · cases hstep
  | settle n =>
    simp only [step] at hstep
    split at hstep
    · rename_i ok reactions hn
      cases hstep
      exact step_settle ho h hn
    · cases hstep
  | reaction n =>
    simp only [step] at hstep
    split at hstep
    · rename_i ok reaction rest hn
      cases hstep
      exact step_reaction ho h hn
    · cases hstep

end

/-! ## Runs -/

/-- The states of the runs of a lifecycle, from the one that no call has touched. -/
abbrev Reachable : State → Prop :=
  Lts.Reachable (· = ({} : State)) (fun s act t => step s act = some t)

theorem ordered_start : Ordered {} :=
  ⟨fun n => by simp, nofun, nofun, nofun, nofun, nofun, nofun, nofun⟩

theorem recorded_start : Recorded {} :=
  ⟨trivial, nofun, nofun, by simp, nofun, by simp, by simp [phaseOf], by simp [phaseOf], nofun⟩

theorem reachable_consistent (hs : Reachable s) : Ordered s ∧ Recorded s :=
  hs.invariant (fun _ h => h ▸ ⟨ordered_start, recorded_start⟩)
    fun _ _ _ h hstep => step_consistent h.1 h.2 hstep

/-- `onAdmitted` succeeds. -/
def Event.isSuccess : Event → Bool
  | .admittedAnswered _ ok => ok
  | _ => false

/-- What holds of the trace of every run. -/
structure Protocol (trace : List Event) : Prop where
  completes_once : trace.count .completeCalled ≤ 1
  complete_waits : ∀ later earlier, trace = later ++ .completeCalled :: earlier →
    .completed ∈ earlier ∧ ∀ n, ¬ InFlight earlier n
  succeeds_once : trace.countP Event.isSuccess ≤ 1
  no_call_after_complete : ∀ later n earlier, trace = later ++ .admittedCalled n :: earlier →
    .completeCalled ∉ earlier
  no_admission_after_completion : ∀ later n earlier,
    trace = later ++ .admissionBegun n :: earlier → .completed ∉ earlier
  /-- A call that comes while an admission is in flight awaits that admission. -/
  joins_in_flight : ∀ later call n earlier, trace = later ++ .joined call n :: earlier →
    ∀ m, InFlight earlier m → m = n
  /-- A call ends as the admission that it awaits has settled. -/
  returns_settled : ∀ later call n ok earlier, trace = later ++ .returned call n ok :: earlier →
    .joined call n ∈ earlier ∧ .settled n ok ∈ earlier
  settles_once : ∀ n, trace.countP (fun e => e = .settled n true ∨ e = .settled n false) ≤ 1
  enqueues_once : trace.count .enqueued ≤ 1
  retires_once : trace.count .cancellationRetired ≤ 1

end OpenClaw.Followup.Lifecycle
