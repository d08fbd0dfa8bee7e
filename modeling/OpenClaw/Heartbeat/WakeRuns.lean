import OpenClaw.Heartbeat.WakeFates
import Mathlib.Data.List.Flatten
import Mathlib.Data.List.Perm.Basic

/-!
# Runs of the heartbeat wakes

What every state reached by steps that meet `keepsWakes` satisfies:

* `Attended`: at most one body runs the current handler, and `running` is set while one does;
* `Armed`: a timer is armed whenever `running` is not set, a handler is registered and wakes are
  pending;
* `Settled`: every wake that is pending or waits in a batch is in one place, and did not run.

`keepsWakes` excludes what breaks them: a handler registered again while it runs, a body that ends
while another one runs the current handler, a wake put back over a newer one of its target or under
an older one, a wake queued over one of another target with the same key, and a throw in a batch of
which a wake has run or waits in another batch.
-/

namespace OpenClaw.Heartbeat

open PendingWakeReason

/-! ## The answer of a handler -/

namespace WakeBatch

/-- The wakes of the batch whose call has not answered. -/
def due (batch : WakeBatch) : List PendingWakeReason := batch.current :: batch.left

/-- The wakes that an answer puts back. -/
def putBack (batch : WakeBatch) : HeartbeatRunResult → List PendingWakeReason
  | .throws => batch.pendingBatch
  | .skipped reason => if isRetryableHeartbeatBusySkipReason reason then [batch.current] else []
  | .ran | .failed _ => []

/-- The wakes that the body still has to hand over after an answer. -/
def leftAfter (batch : WakeBatch) : HeartbeatRunResult → List PendingWakeReason
  | .throws => []
  | .ran | .failed _ | .skipped _ => batch.left

def ranNow (batch : WakeBatch) : HeartbeatRunResult → List Nat
  | .ran => [batch.current.id]
  | .throws | .failed _ | .skipped _ => []

end WakeBatch

namespace WakeState

variable {s t : WakeState}

theorem schedule_eq (s : WakeState) (coalesceMs : Option Int) (kind : WakeTimerKind) (now : Int) :
    ∃ timer, s.schedule coalesceMs kind now = { s with timer := some timer } := by
  unfold schedule
  cases htimer : s.timer with
  | none => exact ⟨_, rfl⟩
  | some timer =>
    show ∃ timer', (if timer.kind = .retry ∨ timer.dueAt ≤ now + _ then s else _) = _
    split
    · exact ⟨timer, by rw [← htimer]⟩
    · exact ⟨_, rfl⟩

theorem foldl_putBack (now : Int) (wakes : List PendingWakeReason) (s : WakeState) :
    wakes.foldl (fun s wake => s.putBack now wake) s =
      { s with pendingWakes := putBackAll now wakes s.pendingWakes } := by
  induction wakes generalizing s with
  | nil => rfl
  | cons w ws ih => exact ih (s.putBack now w)

/-- The timer is armed, or nothing waits for one, or it is as before. -/
def KeepsTimer (s t : WakeState) : Prop :=
  t.timer ≠ none ∨ (t.running = false ∧ t.pendingWakes = []) ∨
    (t.running = s.running ∧ t.pendingWakes = s.pendingWakes ∧ t.timer = s.timer)

/-- What the `finally` of a body does. -/
structure Finishes (s : WakeState) (body : Nat) (t : WakeState) : Prop where
  eq : ∃ timer, t = { s with bodies := s.bodies.eraseIdx body, running := false, timer := timer }
  timer : KeepsTimer s t

theorem finishes (s : WakeState) (body : Nat) (delay now : Int) :
    Finishes s body (s.finish body delay now) := by
  unfold finish
  dsimp only
  split
  · obtain ⟨timer, htimer⟩ := schedule_eq
      { s with bodies := s.bodies.eraseIdx body, running := false } (some delay) .normal now
    rw [htimer]
    exact ⟨⟨some timer, rfl⟩, .inl (Option.some_ne_none timer)⟩
  · rename_i hempty
    have hpending : s.pendingWakes = [] := by
      by_contra hne
      simp [hne] at hempty
    exact ⟨⟨s.timer, rfl⟩, .inr (.inl ⟨rfl, hpending⟩)⟩

/-- The bodies once the handler of `body` has answered and `left` is still to be handed over. -/
def bodiesAfter (s : WakeState) (body : Nat) (batch : WakeBatch) :
    List PendingWakeReason → List WakeBatch
  | [] => s.bodies.eraseIdx body
  | next :: left => s.bodies.set body { batch with current := next, left }

structure Answers (s : WakeState) (body : Nat) (batch : WakeBatch) (result : HeartbeatRunResult)
    (now : Int) (t : WakeState) : Prop where
  handler : t.handler = s.handler
  requested : t.requested = s.requested
  pendingWakes : t.pendingWakes = putBackAll now (batch.putBack result) s.pendingWakes
  ran : t.ran = s.ran ++ batch.ranNow result
  bodies : t.bodies = s.bodiesAfter body batch (batch.leftAfter result)
  handed : t.handed = s.handed ++ ((batch.leftAfter result).take 1).map PendingWakeReason.id
  running : t.running = (s.running && !(batch.leftAfter result).isEmpty)
  timer : KeepsTimer s t

theorem answers_advance (s : WakeState) (body : Nat) (batch : WakeBatch)
    (result : HeartbeatRunResult) (now : Int) {ran : List Nat} (timer : Option WakeTimer)
    (hleft : batch.leftAfter result = batch.left) (hran : ran = s.ran ++ batch.ranNow result)
    (htimer : timer ≠ none ∨ (batch.putBack result = [] ∧ timer = s.timer)) :
    Answers s body batch result now
      (advance { s with
        pendingWakes := putBackAll now (batch.putBack result) s.pendingWakes
        ran, timer } body batch now) := by
  unfold advance
  cases hl : batch.left with
  | nil =>
    have hend := finishes { s with
        pendingWakes := putBackAll now (batch.putBack result) s.pendingWakes
        ran, timer } body batch.delay now
    obtain ⟨timer', ht⟩ := hend.eq
    have hkeep : KeepsTimer s (finish { s with
        pendingWakes := putBackAll now (batch.putBack result) s.pendingWakes
        ran, timer } body batch.delay now) := by
      rcases hend.timer with h | h | ⟨hrunning, hpending, htimer'⟩
      · exact .inl h
      · exact .inr (.inl h)
      · rcases htimer with h | ⟨hback, h⟩
        · exact .inl (by rw [htimer']; exact h)
        · refine .inr (.inr ⟨hrunning, ?_, htimer'.trans h⟩)
          rw [hpending, hback]
          rfl
    rw [ht] at hkeep ⊢
    have hnil : batch.leftAfter result = [] := hleft.trans hl
    constructor <;> first | rfl | assumption | skip
    · rw [hnil]
      rfl
    · rw [hnil]
      exact (List.append_nil _).symm
    · rw [hnil]
      exact (Bool.and_false _).symm
  | cons next left =>
    have hcons : batch.leftAfter result = next :: left := hleft.trans hl
    constructor <;> first | rfl | assumption | skip
    · rw [hcons]
      rfl
    · rw [hcons]
      rfl
    · rw [hcons]
      exact (Bool.and_true _).symm
    · rcases htimer with h | ⟨hback, h⟩
      · exact .inl h
      · refine .inr (.inr ⟨rfl, ?_, h⟩)
        show putBackAll now (batch.putBack result) s.pendingWakes = s.pendingWakes
        rw [hback]
        rfl

theorem answers (s : WakeState) (body : Nat) (batch : WakeBatch) (result : HeartbeatRunResult)
    (now : Int) : Answers s body batch result now (s.settle body batch result now) := by
  cases result with
  | ran => exact answers_advance s body batch .ran now s.timer rfl rfl (.inr ⟨rfl, rfl⟩)
  | failed reason =>
    exact answers_advance s body batch (.failed reason) now s.timer rfl (List.append_nil _).symm
      (.inr ⟨rfl, rfl⟩)
  | skipped reason =>
    by_cases hbusy : isRetryableHeartbeatBusySkipReason reason = true
    · have hback : batch.putBack (.skipped reason) = [batch.current] := if_pos hbusy
      obtain ⟨timer, htimer⟩ := schedule_eq (s.putBack now batch.current) (some DEFAULT_RETRY_MS)
        .retry now
      have hadvance := answers_advance s body batch (.skipped reason) now (some timer) rfl
        (List.append_nil _).symm (.inl (Option.some_ne_none timer))
      rw [hback] at hadvance
      show Answers s body batch _ now (if _ then _ else _)
      rw [if_pos hbusy, htimer]
      exact hadvance
    · have hback : batch.putBack (.skipped reason) = [] := if_neg hbusy
      have hadvance := answers_advance s body batch (.skipped reason) now s.timer rfl
        (List.append_nil _).symm (.inr ⟨hback, rfl⟩)
      rw [hback] at hadvance
      show Answers s body batch _ now (if _ then _ else _)
      rw [if_neg hbusy]
      exact hadvance
  | throws =>
    show Answers s body batch _ now (finish (schedule (List.foldl _ s _) _ _ _) _ _ _)
    rw [foldl_putBack]
    obtain ⟨timer, htimer⟩ := schedule_eq { s with
      pendingWakes := putBackAll now batch.pendingBatch s.pendingWakes } (some DEFAULT_RETRY_MS)
      .retry now
    rw [htimer]
    have hend := finishes { s with
      pendingWakes := putBackAll now batch.pendingBatch s.pendingWakes
      timer := some timer } body batch.delay now
    obtain ⟨timer', ht⟩ := hend.eq
    have hkeep := hend.timer
    rw [ht] at hkeep ⊢
    constructor <;> first | rfl | skip
    · exact (List.append_nil _).symm
    · exact (List.append_nil _).symm
    · exact (Bool.and_false _).symm
    · rcases hkeep with h | h | ⟨-, -, h⟩
      · exact .inl h
      · exact .inr (.inl h)
      · exact .inl (by rw [h]; exact Option.some_ne_none timer)

/-! ## The runs that keep their wakes -/

/-- The bodies other than one of them. -/
def others (s : WakeState) (body : Nat) : List WakeBatch := s.bodies.eraseIdx body

/-- What a step must not do to the wakes. -/
def keepsWakes (s : WakeState) : WakeEvent → Bool
  | .requestHeartbeat opts _ now =>
    queuesFairly (opts.pending s.requested.length now) s.pendingWakes
  | .setHeartbeatWakeHandler (some next) _ => s.bodies.all fun batch => batch.active != next
  | .settle body result now =>
    match s.bodies[body]? with
    | none => true
    | some batch =>
      putsBackFairly now batch.left (batch.putBack result) s.pendingWakes &&
        (!(batch.leftAfter result).isEmpty ||
          (s.others body).all fun other => some other.active != s.handler) &&
        (result != .throws ||
          batch.pendingBatch.all fun wake => !decide (wake.id ∈ s.ran) &&
            (s.others body).all fun other => other.due.all fun w => w.id != wake.id)
  | .setHeartbeatWakeHandler none _ | .dispose _ | .fire _ => true

/-! ## One invocation of the current handler -/

/-- How many bodies run the current handler. -/
def attending (s : WakeState) : Nat := s.bodies.countP fun batch => some batch.active == s.handler

/-- At most one body runs the current handler, and `running` is set while one does. -/
def Attended (s : WakeState) : Prop := s.attending ≤ s.running.toNat

/-- `running` is set only while a body runs, and no pending wake is without a timer otherwise. -/
structure Armed (s : WakeState) : Prop where
  bodies : s.running = true → s.bodies ≠ []
  timer : s.running = false → s.handler ≠ none → s.pendingWakes ≠ [] → s.timer ≠ none

theorem Armed.of_keepsTimer (h : Armed s) (hkeep : KeepsTimer s t) (hhandler : t.handler = s.handler)
    (hbodies : t.running = true → t.bodies ≠ []) : Armed t where
  bodies := hbodies
  timer := fun hrunning hset hpending => by
    rcases hkeep with hkeep | ⟨-, hkeep⟩ | ⟨hr, hp, ht⟩
    · exact hkeep
    · exact absurd hkeep hpending
    · rw [ht]
      exact h.timer (hr ▸ hrunning) (hhandler ▸ hset) (hp ▸ hpending)

section Settle

variable {body : Nat} {batch : WakeBatch}

section

variable (h : s.bodies[body]? = some batch)
include h

theorem perm_others : s.bodies.Perm (batch :: s.others body) := by
  obtain ⟨hlt, rfl⟩ := List.getElem?_eq_some_iff.1 h
  exact (List.getElem_cons_eraseIdx_perm hlt).symm

theorem set_perm_others (next : WakeBatch) :
    (s.bodies.set body next).Perm (next :: s.others body) :=
  List.set_perm_cons_eraseIdx (List.getElem?_eq_some_iff.1 h).1 next

theorem flatMap_due : (s.bodies.flatMap WakeBatch.due).Perm
      (batch.current :: (batch.left ++ (s.others body).flatMap WakeBatch.due)) :=
  (perm_others h).flatMap_right _

theorem flatMap_due_bodiesAfter (left : List PendingWakeReason) :
    ((s.bodiesAfter body batch left).flatMap WakeBatch.due).Perm
      (left ++ (s.others body).flatMap WakeBatch.due) := by
  cases left with
  | nil => exact .refl _
  | cons next left => exact (set_perm_others h { batch with current := next, left }).flatMap_right _

end

end Settle

/-! ### Steps -/

theorem attending_eq_zero (h : ∀ batch ∈ s.bodies, some batch.active ≠ s.handler) :
    s.attending = 0 := by
  rw [attending, List.countP_eq_zero]
  intro batch hbatch
  simpa using h batch hbatch

variable {body : Nat} {batch : WakeBatch} {result : HeartbeatRunResult} {now : Int}

theorem Attended.settle (h : Attended s) (hbatch : s.bodies[body]? = some batch)
    (ht : Answers s body batch result now t)
    (hguard : keepsWakes s (.settle body result now) = true) : Attended t := by
  simp only [keepsWakes, hbatch, Bool.and_eq_true] at hguard
  have hothers := hguard.1.2
  have hrunning := ht.running
  have hbodies := ht.bodies
  cases hleft : batch.leftAfter result with
  | nil =>
    -- the body ends, and no other one runs the current handler
    rw [hleft] at hothers hbodies
    have hfree : ∀ other ∈ s.others body, some other.active ≠ s.handler := by simpa using hothers
    have hzero : t.attending = 0 := attending_eq_zero fun other hother => by
      rw [hbodies] at hother
      rw [ht.handler]
      exact hfree other hother
    rw [Attended, hzero]
    exact Nat.zero_le _
  | cons next left =>
    rw [hleft] at hbodies hrunning
    have hcount : t.attending = s.attending := by
      rw [attending, attending, ht.handler, hbodies, (perm_others hbatch).countP_eq]
      exact (set_perm_others hbatch _).countP_eq _
    have hsame : (s.running && !(next :: left).isEmpty) = s.running := Bool.and_true _
    rw [Attended, hcount, hrunning, hsame]
    exact h

theorem Armed.settle (h : Armed s) (hbatch : s.bodies[body]? = some batch)
    (ht : Answers s body batch result now t) : Armed t := by
  refine h.of_keepsTimer ht.timer ht.handler fun hrunning hnil => ?_
  rw [ht.running, Bool.and_eq_true] at hrunning
  rw [ht.bodies] at hnil
  cases hleft : batch.leftAfter result with
  | nil =>
    rw [hleft] at hrunning
    cases hrunning.2
  | cons next left =>
    rw [hleft] at hnil
    have hset : s.bodies.set body { batch with current := next, left } = [] := hnil
    rw [List.set_eq_nil_iff] at hset
    rw [hset] at hbatch
    cases hbatch

/-- `fire` calls the handler, or at most sets a timer. -/
inductive Fires (s : WakeState) : WakeState → Prop
  | waits (scheduled : Bool) (timer : Option WakeTimer)
      (hidle : s.running = false → s.handler = none ∨ s.pendingWakes = []) :
      Fires s { s with scheduled, timer }
  | calls (active : Nat) (wake : PendingWakeReason) (left : List PendingWakeReason) (delay : Int)
      (hhandler : s.handler = some active) (hrunning : s.running = false)
      (hpending : s.pendingWakes = wake :: left) :
      Fires s { s with
        timer := none, scheduled := false, pendingWakes := [], running := true
        bodies := s.bodies ++ [WakeBatch.mk active (wake :: left) wake left delay]
        handed := s.handed ++ [wake.id] }

theorem fires (s : WakeState) (timer : WakeTimer) (now : Int) : Fires s (s.fire timer now) := by
  obtain ⟨handler, registrations, handlerGeneration, pendingWakes, scheduled, running, before,
    bodies, requested, refused, handed, ran⟩ := s
  cases handler with
  | none => exact .waits false none fun _ => .inl rfl
  | some active =>
    cases running with
    | true =>
      obtain ⟨timer', htimer⟩ := schedule_eq ⟨some active, registrations, handlerGeneration,
        pendingWakes, true, true, none, bodies, requested, refused, handed, ran⟩
        (some timer.delay) timer.kind now
      show Fires _ (schedule ⟨some active, registrations, handlerGeneration, pendingWakes, true,
        true, none, bodies, requested, refused, handed, ran⟩ (some timer.delay) timer.kind now)
      rw [htimer]
      exact .waits true (some timer') fun h => absurd h Bool.noConfusion
    | false =>
      cases pendingWakes with
      | nil => exact .waits false none fun _ => .inr rfl
      | cons wake left => exact .calls active wake left timer.delay rfl rfl rfl

theorem Attended.fire (h : Attended s) (ht : Fires s t) : Attended t := by
  cases ht with
  | waits => exact h
  | calls active wake left delay hhandler hrunning =>
    rw [Attended, hrunning] at h
    have hzero : s.attending = 0 := Nat.le_zero.1 h
    show List.countP _ (s.bodies ++ [_]) ≤ 1
    rw [List.countP_append]
    exact (Nat.add_le_add hzero.le List.countP_le_length).trans_eq (Nat.zero_add 1)

theorem Armed.fire (h : Armed s) (ht : Fires s t) : Armed t := by
  cases ht with
  | waits scheduled timer hidle =>
    refine ⟨h.bodies, fun hrunning hset hpending => ?_⟩
    rcases hidle hrunning with hnone | hnil
    · exact absurd hnone hset
    · exact absurd hnil hpending
  | calls =>
    exact ⟨fun _ => List.append_ne_nil_of_right_ne_nil _ (List.cons_ne_nil _ _),
      fun hrunning : true = false => Bool.noConfusion hrunning⟩

/-! ## Every wake in one place -/

structure InPlace (s : WakeState) : Prop where
  distinct : Distinct s.requested s.pendingWakes (s.bodies.flatMap WakeBatch.due) s.ran
  known : ∀ batch ∈ s.bodies, ∀ wake ∈ batch.pendingBatch, Known s.requested wake
  due : ∀ batch ∈ s.bodies, ∀ wake ∈ batch.due, wake ∈ batch.pendingBatch

theorem InPlace.settle (h : InPlace s) (hbatch : s.bodies[body]? = some batch)
    (ht : Answers s body batch result now t)
    (hguard : keepsWakes s (.settle body result now) = true) : InPlace t := by
  have hmem : batch ∈ s.bodies := List.mem_of_getElem? hbatch
  have hplace := h.distinct.perm (flatMap_due hbatch)
  have hleft := hplace.sublist (List.sublist_cons_self _ _)
  have hdistinct : Distinct s.requested (putBackAll now (batch.putBack result) s.pendingWakes)
      (batch.leftAfter result ++ (s.others body).flatMap WakeBatch.due)
      (s.ran ++ batch.ranNow result) := by
    cases result with
    | ran => exact hplace.settle_ran
    | failed =>
      show Distinct _ _ _ (s.ran ++ [])
      rw [List.append_nil]
      exact hleft
    | skipped reason =>
      show Distinct _ (putBackAll now (if _ then _ else _) _) _ (s.ran ++ [])
      rw [List.append_nil]
      split
      · -- the wake of the call is put back
        refine hleft.putBackAll fun wake hw => ?_
        rw [List.mem_singleton.1 hw]
        have hcurrent : batch.current ∈ s.pendingWakes ++ (batch.current ::
          (batch.left ++ (s.others body).flatMap WakeBatch.due)) := by simp
        refine ⟨hplace.known _ hcurrent, fun other hother hid => ?_, hplace.ran_gone _ hcurrent⟩
        have hids := (List.perm_middle.map PendingWakeReason.id).nodup_iff.1 hplace.ids
        refine (List.nodup_cons.1 hids).1 (List.mem_map.2 ⟨other, ?_, hid⟩)
        exact List.mem_append_right _ hother
      · exact hleft
    | throws =>
      show Distinct _ _ _ (s.ran ++ [])
      rw [List.append_nil]
      simp only [keepsWakes, hbatch, Bool.and_eq_true] at hguard
      have hfree := hguard.2
      refine (hleft.sublist (List.sublist_append_right _ _)).putBackAll fun wake hw => ?_
      have hwake : (!decide (wake.id ∈ s.ran) &&
          (s.others body).all fun other => other.due.all fun w => w.id != wake.id) = true :=
        List.all_eq_true.1 hfree wake hw
      simp only [Bool.and_eq_true, Bool.not_eq_true', decide_eq_false_iff_not,
        List.all_eq_true, bne_iff_ne] at hwake
      refine ⟨h.known batch hmem wake hw, fun other hother => ?_, hwake.1⟩
      obtain ⟨b, hb, hother⟩ := List.mem_flatMap.1 hother
      exact hwake.2 b hb other hother
  have hbodies : ∀ b ∈ t.bodies, b ∈ s.bodies ∨ ∃ next left,
      batch.left = next :: left ∧ b = { batch with current := next, left } := fun b hb => by
    rw [ht.bodies] at hb
    cases hl : batch.leftAfter result with
    | nil =>
      rw [hl] at hb
      exact .inl (List.mem_of_mem_eraseIdx hb)
    | cons next left =>
      rw [hl] at hb
      rcases List.mem_or_eq_of_mem_set hb with hb | rfl
      · exact .inl hb
      · refine .inr ⟨next, left, ?_, rfl⟩
        rw [← hl]
        cases result with
        | throws => cases hl
        | ran | failed | skipped => rfl
  refine ⟨?_, fun b hb wake hw => ?_, fun b hb wake hw => ?_⟩
  · rw [ht.requested, ht.pendingWakes, ht.ran, ht.bodies]
    exact hdistinct.perm (flatMap_due_bodiesAfter hbatch _).symm
  · rw [ht.requested]
    rcases hbodies b hb with hb | ⟨next, left, -, rfl⟩
    · exact h.known b hb wake hw
    · exact h.known batch hmem wake hw
  · rcases hbodies b hb with hb | ⟨next, left, hl, rfl⟩
    · exact h.due b hb wake hw
    · refine h.due batch hmem wake (List.mem_cons_of_mem _ ?_)
      rw [hl]
      exact hw

theorem InPlace.fire (h : InPlace s) (ht : Fires s t) : InPlace t := by
  cases ht with
  | waits => exact ⟨h.distinct, h.known, h.due⟩
  | calls active wake left delay _ _ hpending =>
    refine ⟨?_, fun b hb w hw => ?_, fun b hb w hw => ?_⟩
    · show Distinct s.requested [] ((s.bodies ++ [_]).flatMap WakeBatch.due) s.ran
      rw [List.flatMap_append, List.flatMap_singleton]
      have htake := h.distinct.take
      rw [hpending] at htake
      exact htake
    · rcases List.mem_append.1 hb with hb | hb
      · exact h.known b hb w hw
      · rw [List.mem_singleton.1 hb, ← hpending] at hw
        exact h.distinct.known w (List.mem_append_left _ hw)
    · rcases List.mem_append.1 hb with hb | hb
      · exact h.due b hb w hw
      · rw [List.mem_singleton.1 hb] at hw ⊢
        exact hw

/-! ## Requests and handlers -/

theorem requestHeartbeat_eq (s : WakeState) (opts : HeartbeatWakeRequest) (coalesceMs : Option Int)
    (now : Int) : ∃ refused timer, s.requestHeartbeat opts coalesceMs now = { s with
      pendingWakes := queueWake (opts.pending s.requested.length now) s.pendingWakes
      requested := s.requested ++ [opts.pending s.requested.length now]
      refused, timer := some timer } := by
  unfold requestHeartbeat
  exact ⟨_, schedule_eq _ coalesceMs .normal now⟩

inductive Registers (s : WakeState) : Option Nat → WakeState → Prop
  | cleared (registrations : List (Nat × Option Nat)) (handlerGeneration : Nat) :
      Registers s none { s with handler := none, registrations, handlerGeneration }
  | registered (active : Nat) (registrations : List (Nat × Option Nat)) (handlerGeneration : Nat)
      (timer : Option WakeTimer) (htimer : s.pendingWakes ≠ [] → timer ≠ none) :
      Registers s (some active) { s with
        handler := some active, registrations, handlerGeneration, timer
        running := false, scheduled := false }

theorem registers (s : WakeState) (next : Option Nat) (now : Int) :
    Registers s next (s.setHeartbeatWakeHandler next now) := by
  cases next with
  | none => exact .cleared _ _
  | some active =>
    unfold setHeartbeatWakeHandler
    dsimp only
    by_cases hnil : s.pendingWakes = []
    · rw [if_pos (by rw [hnil]; rfl)]
      exact .registered active _ _ none fun hne => absurd hnil hne
    · obtain ⟨timer, htimer⟩ := schedule_eq { s with
        handler := some active
        registrations := s.registrations ++ [(s.handlerGeneration + 1, some active)]
        handlerGeneration := s.handlerGeneration + 1
        timer := none, running := false, scheduled := false } (some DEFAULT_COALESCE_MS) .normal now
      rw [if_neg (by simpa using hnil), htimer]
      exact .registered active _ _ (some timer) fun _ => Option.some_ne_none timer

/-- What every reachable state satisfies. -/
structure Sound (s : WakeState) : Prop where
  attended : Attended s
  armed : Armed s
  inPlace : InPlace s

theorem sound_initial : Sound initial where
  attended := le_rfl
  armed := ⟨fun h => absurd h Bool.false_ne_true, fun _ h => absurd rfl h⟩
  inPlace := ⟨.nil [], fun _ h => absurd h List.not_mem_nil, fun _ h => absurd h List.not_mem_nil⟩

theorem Sound.cleared (h : Sound s) (registrations : List (Nat × Option Nat))
    (handlerGeneration : Nat) :
    Sound { s with handler := none, registrations, handlerGeneration } where
  attended := by
    have hzero : attending { s with handler := none, registrations, handlerGeneration } = 0 :=
      attending_eq_zero fun batch _ => Option.some_ne_none batch.active
    rw [Attended, hzero]
    exact Nat.zero_le _
  armed := ⟨h.armed.bodies, fun _ hset => absurd rfl hset⟩
  inPlace := ⟨h.inPlace.distinct, h.inPlace.known, h.inPlace.due⟩

theorem Sound.registered (h : Sound s) {next : Option Nat} (ht : Registers s next t)
    (hguard : keepsWakes s (.setHeartbeatWakeHandler next now) = true) : Sound t := by
  cases ht with
  | cleared => exact h.cleared _ _
  | registered active registrations handlerGeneration timer htimer =>
    refine ⟨?_, ⟨fun hrunning => absurd hrunning Bool.false_ne_true,
      fun _ _ hpending => htimer hpending⟩, h.inPlace.distinct, h.inPlace.known, h.inPlace.due⟩
    have hzero : attending { s with
        handler := some active, registrations, handlerGeneration, timer
        running := false, scheduled := false } = 0 := attending_eq_zero fun batch hbatch heq => by
      have hne := List.all_eq_true.1 hguard batch hbatch
      exact (bne_iff_ne.1 hne) (Option.some.inj heq)
    rw [Attended, hzero]
    exact Nat.zero_le _

theorem Sound.requested (h : Sound s) (opts : HeartbeatWakeRequest) (coalesceMs : Option Int)
    (now : Int) : Sound (s.requestHeartbeat opts coalesceMs now) := by
  obtain ⟨refused, timer, ht⟩ := requestHeartbeat_eq s opts coalesceMs now
  rw [ht]
  exact ⟨h.attended, ⟨h.armed.bodies, fun _ _ _ => Option.some_ne_none timer⟩,
    h.inPlace.distinct.request opts now,
    fun batch hbatch wake hw => (h.inPlace.known batch hbatch wake hw).append _, h.inPlace.due⟩

variable {e : WakeEvent}

theorem Sound.step (h : Sound s) (hst : Step s e t) (hguard : keepsWakes s e = true) : Sound t := by
  cases e with
  | requestHeartbeat opts coalesceMs now =>
    cases hst
    exact h.requested opts coalesceMs now
  | setHeartbeatWakeHandler next now =>
    cases hst
    exact h.registered (registers s next now) hguard
  | dispose registration =>
    have hdispose : t = s ∨ t = { s with
        handlerGeneration := s.handlerGeneration + 1, handler := none } := by
      unfold Step WakeState.step at hst
      dsimp only at hst
      split at hst
      · split at hst
        · exact .inr (Option.some.inj hst).symm
        · exact .inl (Option.some.inj hst).symm
      · cases hst
    rcases hdispose with rfl | rfl
    · exact h
    · exact h.cleared s.registrations (s.handlerGeneration + 1)
  | fire now =>
    obtain ⟨timer, -, rfl⟩ := Option.map_eq_some_iff.1 hst
    have ht := fires s timer now
    exact ⟨h.attended.fire ht, h.armed.fire ht, h.inPlace.fire ht⟩
  | settle body result now =>
    obtain ⟨batch, hbatch, rfl⟩ := Option.map_eq_some_iff.1 hst
    have ht := answers s body batch result now
    exact ⟨h.attended.settle hbatch ht hguard, h.armed.settle hbatch ht,
      h.inPlace.settle hbatch ht hguard⟩

/-- The runs whose steps keep the wakes. -/
abbrev Reached : WakeState → Prop :=
  Lts.Reachable (· = initial) (Lts.Guarded Step fun s e => keepsWakes s e = true)

theorem Reached.sound (h : Reached s) : Sound s :=
  h.invariant (fun _ hs => hs ▸ sound_initial) fun _ _ _ hs hst => hs.step hst.1 hst.2

/-! ## Where a wake goes -/

/-- The wakes that wait for a handler: in `pendingWakes`, or in a batch behind another one. -/
def waiting (s : WakeState) : List PendingWakeReason :=
  s.pendingWakes ++ s.bodies.flatMap WakeBatch.left

/-- A wake that waited before a step was handed over in it, still waits in a batch, or is pending
itself or through a later wake that covers it. -/
def Kept (s t : WakeState) (wake : PendingWakeReason) : Prop :=
  wake.id ∈ t.handed.drop s.handed.length ∨ wake ∈ t.bodies.flatMap WakeBatch.left ∨
    ∃ later ∈ t.pendingWakes, Covers later wake

variable {wake : PendingWakeReason}

theorem Kept.of_stays (hw : wake ∈ s.waiting)
    (hpending : ∀ w ∈ s.pendingWakes, ∃ later ∈ t.pendingWakes, Covers later w)
    (hbodies : t.bodies = s.bodies) : Kept s t wake := by
  rcases List.mem_append.1 hw with hw | hw
  · exact .inr (.inr (hpending wake hw))
  · exact .inr (.inl (by rw [hbodies]; exact hw))

theorem kept_fire (ht : Fires s t) (hw : wake ∈ s.waiting) : Kept s t wake := by
  cases ht with
  | waits => exact .of_stays hw (fun w hw => ⟨w, hw, .refl w⟩) rfl
  | calls active next left delay _ _ hpending =>
    rcases List.mem_append.1 hw with hw | hw
    · rw [hpending] at hw
      rcases List.mem_cons.1 hw with rfl | hw
      · left
        show wake.id ∈ (s.handed ++ [wake.id]).drop s.handed.length
        rw [List.drop_left]
        exact List.mem_singleton_self _
      · exact .inr (.inl (List.mem_flatMap.2 ⟨WakeBatch.mk active (next :: left) next left delay,
          List.mem_append_right _ (List.mem_singleton_self _), hw⟩))
    · obtain ⟨batch, hbatch, hw⟩ := List.mem_flatMap.1 hw
      exact .inr (.inl (List.mem_flatMap.2 ⟨batch, List.mem_append_left _ hbatch, hw⟩))

theorem kept_settle (h : InPlace s) (hbatch : s.bodies[body]? = some batch)
    (ht : Answers s body batch result now t)
    (hguard : keepsWakes s (.settle body result now) = true) (hw : wake ∈ s.waiting) :
    Kept s t wake := by
  have hmem : batch ∈ s.bodies := List.mem_of_getElem? hbatch
  simp only [keepsWakes, hbatch, Bool.and_eq_true] at hguard
  have hfair := hguard.1.1
  have hbodies : ∀ b ∈ s.others body, b ∈ t.bodies := fun b hb => by
    rw [ht.bodies]
    cases batch.leftAfter result with
    | nil => exact hb
    | cons next left =>
      exact (set_perm_others hbatch _).mem_iff.2 (List.mem_cons_of_mem _ hb)
  rcases List.mem_append.1 hw with hw | hw
  · have hcovers := exists_covers_putBackAll hfair hw
    rw [← ht.pendingWakes] at hcovers
    exact .inr (.inr hcovers)
  · obtain ⟨b, hb, hw⟩ := List.mem_flatMap.1 hw
    rcases List.mem_cons.1 ((perm_others hbatch).mem_iff.1 hb) with rfl | hb
    · -- the next wake of the batch is handed over, unless the handler threw
      have hadvance : b.leftAfter result = b.left → Kept s t wake := fun hleft => by
        have hbs := ht.bodies
        have hhanded := ht.handed
        rw [hleft] at hbs hhanded
        cases hl : b.left with
        | nil =>
          rw [hl] at hw
          cases hw
        | cons next left =>
          rw [hl] at hw hbs hhanded
          rcases List.mem_cons.1 hw with rfl | hw
          · left
            rw [hhanded, List.drop_left]
            exact List.mem_singleton_self _
          · refine .inr (.inl (List.mem_flatMap.2 ⟨{ b with current := next, left }, ?_, hw⟩))
            rw [hbs]
            exact (set_perm_others hbatch _).mem_iff.2 List.mem_cons_self
      cases result with
      | ran | failed | skipped => exact hadvance rfl
      | throws =>
        have hbatchwake := h.due b hmem wake (List.mem_cons_of_mem _ hw)
        have hcovers := exists_covers_of_left hfair hbatchwake hw
          (h.known b hmem wake hbatchwake).normal
        rw [← ht.pendingWakes] at hcovers
        exact .inr (.inr hcovers)
    · exact .inr (.inl (List.mem_flatMap.2 ⟨b, hbodies b hb, hw⟩))

theorem Sound.kept (h : Sound s) (hst : Step s e t) (hguard : keepsWakes s e = true)
    (hw : wake ∈ s.waiting) : Kept s t wake := by
  cases e with
  | requestHeartbeat opts coalesceMs now =>
    cases hst
    obtain ⟨refused, timer, ht⟩ := requestHeartbeat_eq s opts coalesceMs now
    rw [ht]
    exact .of_stays hw (fun w hw => exists_covers_queueWake hguard hw) rfl
  | setHeartbeatWakeHandler next now =>
    cases hst
    have hstays : (s.setHeartbeatWakeHandler next now).pendingWakes = s.pendingWakes ∧
        (s.setHeartbeatWakeHandler next now).bodies = s.bodies := by
      have ht := registers s next now
      generalize s.setHeartbeatWakeHandler next now = t at ht
      cases ht with
      | cleared | registered => exact ⟨rfl, rfl⟩
    exact .of_stays hw (fun w hw => ⟨w, hstays.1 ▸ hw, .refl w⟩) hstays.2
  | dispose registration =>
    have hstays : t.pendingWakes = s.pendingWakes ∧ t.bodies = s.bodies := by
      unfold Step WakeState.step at hst
      dsimp only at hst
      split at hst
      · split at hst
        · exact Option.some.inj hst ▸ ⟨rfl, rfl⟩
        · exact Option.some.inj hst ▸ ⟨rfl, rfl⟩
      · cases hst
    exact .of_stays hw (fun w hw => ⟨w, hstays.1 ▸ hw, .refl w⟩) hstays.2
  | fire now =>
    obtain ⟨timer, -, rfl⟩ := Option.map_eq_some_iff.1 hst
    exact kept_fire (fires s timer now) hw
  | settle body result now =>
    obtain ⟨batch, hbatch, rfl⟩ := Option.map_eq_some_iff.1 hst
    exact kept_settle h.inPlace hbatch (answers s body batch result now) hguard hw

theorem waiting_of_handed (hst : Step s e t) {id : Nat} (hid : id ∈ t.handed.drop s.handed.length) :
    ∃ wake ∈ s.waiting, wake.id = id := by
  have hsame : t.handed = s.handed → ∃ wake ∈ s.waiting, wake.id = id := fun h => by
    rw [h, List.drop_length] at hid
    cases hid
  cases e with
  | requestHeartbeat opts coalesceMs now =>
    cases hst
    obtain ⟨refused, timer, ht⟩ := requestHeartbeat_eq s opts coalesceMs now
    exact hsame (by rw [ht])
  | setHeartbeatWakeHandler next now =>
    cases hst
    refine hsame ?_
    have ht := registers s next now
    generalize s.setHeartbeatWakeHandler next now = t at ht
    cases ht with
    | cleared | registered => rfl
  | dispose registration =>
    refine hsame ?_
    unfold Step WakeState.step at hst
    dsimp only at hst
    split at hst
    · split at hst
      · exact Option.some.inj hst ▸ rfl
      · exact Option.some.inj hst ▸ rfl
    · cases hst
  | fire now =>
    obtain ⟨timer, -, rfl⟩ := Option.map_eq_some_iff.1 hst
    have ht := fires s timer now
    generalize s.fire timer now = t at ht hid hsame
    cases ht with
    | waits => exact hsame rfl
    | calls active wake left delay _ _ hpending =>
      have hid' : id ∈ (s.handed ++ [wake.id]).drop s.handed.length := hid
      rw [List.drop_left, List.mem_singleton] at hid'
      refine ⟨wake, List.mem_append_left _ ?_, hid'.symm⟩
      rw [hpending]
      exact List.mem_cons_self
  | settle body result now =>
    obtain ⟨batch, hbatch, rfl⟩ := Option.map_eq_some_iff.1 hst
    rw [(answers s body batch result now).handed, List.drop_left] at hid
    obtain ⟨wake, hwake, rfl⟩ := List.mem_map.1 hid
    refine ⟨wake, List.mem_append_right _ (List.mem_flatMap.2 ⟨batch, ?_, ?_⟩), rfl⟩
    · exact List.mem_of_getElem? hbatch
    · cases result with
      | throws => cases hwake
      | ran | failed | skipped => exact List.mem_of_mem_take hwake

theorem InPlace.ran_gone (h : InPlace s) (hw : wake ∈ s.waiting) : wake.id ∉ s.ran := by
  apply h.distinct.ran_gone
  rcases List.mem_append.1 hw with hw | hw
  · exact List.mem_append_left _ hw
  · obtain ⟨batch, hbatch, hw⟩ := List.mem_flatMap.1 hw
    refine List.mem_append_right _ (List.mem_flatMap.2 ⟨batch, hbatch, ?_⟩)
    exact List.mem_cons_of_mem _ hw

end WakeState

open WakeState

/-- **Wakes are exclusive, not lost and not repeated** in the runs that keep them. -/
theorem heartbeat_wakes_kept {s : WakeState} (h : Reached s) :
    s.attending ≤ 1 ∧
    (s.bodies = [] → s.handler ≠ none → s.pendingWakes ≠ [] → s.timer ≠ none) ∧
    ∀ e t, Step s e t → keepsWakes s e = true →
      (∀ wake ∈ s.waiting, Kept s t wake) ∧ ∀ id ∈ t.handed.drop s.handed.length, id ∉ s.ran := by
  have hs := h.sound
  refine ⟨hs.attended.trans (Bool.toNat_le _), fun hbodies => ?_, fun e t hst hguard => ⟨?_, ?_⟩⟩
  · apply hs.armed.timer
    by_contra hrunning
    exact hs.armed.bodies (by simpa using hrunning) hbodies
  · intro wake hw
    exact hs.kept hst hguard hw
  · intro id hid
    obtain ⟨wake, hw, rfl⟩ := waiting_of_handed hst hid
    exact hs.inPlace.ran_gone hw

def agentWake (agentId : String) : HeartbeatWakeRequest :=
  ⟨.other, .event, none, some agentId, none, none⟩

/-- The first of two wakes of a batch has run. -/
def firstRan : List WakeEvent :=
  [.setHeartbeatWakeHandler (some 7) 0, .requestHeartbeat (agentWake "a") none 0,
    .requestHeartbeat (agentWake "b") none 0, .fire 250, .settle 0 .ran 300]

def afterFirstRan : WakeState :=
  { initial with
    handler := some 7
    registrations := [(1, some 7)]
    handlerGeneration := 1
    running := true
    bodies := [⟨7, [(agentWake "a").pending 0 0, (agentWake "b").pending 1 0],
      (agentWake "b").pending 1 0, [], 250⟩]
    requested := [(agentWake "a").pending 0 0, (agentWake "b").pending 1 0]
    handed := [0, 1]
    ran := [0] }

theorem heartbeat_wakes_kept_first_ran :
    afterFirstRan.attending ≤ 1 ∧
    (afterFirstRan.bodies = [] → afterFirstRan.handler ≠ none → afterFirstRan.pendingWakes ≠ [] →
      afterFirstRan.timer ≠ none) ∧
    ∀ e t, Step afterFirstRan e t → keepsWakes afterFirstRan e = true →
      (∀ wake ∈ afterFirstRan.waiting, Kept afterFirstRan t wake) ∧
        ∀ id ∈ t.handed.drop 2, id ∉ [0] := by
  have hstart : Reached initial := .start rfl
  have hreach : Reached afterFirstRan :=
    hstart.run_guarded (by decide +kernel : Lts.run _ initial firstRan = some afterFirstRan)
  exact heartbeat_wakes_kept hreach

/-- The second call throws, and both wakes are pending again. -/
def afterThrow : WakeState :=
  { afterFirstRan with
    running := false
    bodies := []
    pendingWakes := [(agentWake "a").pending 0 400, (agentWake "b").pending 1 400]
    timer := some ⟨1400, .retry, 1000⟩ }

/-- The wake that ran is handed over again. -/
theorem heartbeat_wake_repeated :
    ¬ ∀ s e t, Lts.Reachable (· = initial) Step s → Step s e t →
      ∀ id ∈ t.handed.drop s.handed.length, id ∉ s.ran := by
  intro h
  have hstart : Lts.Reachable (· = initial) Step initial := .start rfl
  have hreach : Lts.Reachable (· = initial) Step afterThrow :=
    hstart.run
      (by decide +kernel : Lts.run _ initial (firstRan ++ [.settle 0 .throws 400]) =
        some afterThrow)
  have hstep : Step afterThrow (.fire 1400) (afterThrow.fire ⟨1400, .retry, 1000⟩ 1400) := rfl
  exact absurd (h _ _ _ hreach hstep 0) (by decide +kernel)

end OpenClaw.Heartbeat
