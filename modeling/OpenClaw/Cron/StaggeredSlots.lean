import OpenClaw.Cron.Jobs
import OpenClaw.Lib.Slots

/-!
# Staggered cron slots

**Theorem (`staggered_slots_exact`).** Let the cron library look slots up in a set of whole seconds
(`LibrarySlots`). The effective slots of a job are these moved by its offset. From any time that is
not before the offset, `computeStaggeredCronNextRunAtMs` gives the least effective slot after it, in
its first attempt; `isStaggeredCronRunAtMs` recognizes the effective slots; and
`shouldRepairFutureCronNextRunAtMs` repairs none of them.

The backward lookup clamps its cursor at the epoch, so that effective slots whose base slot is more
than a second before the epoch are not recognized (`slot_before_epoch`).
-/

namespace OpenClaw.Cron

open Slots

variable {deps : CronDeps} {S : String → String → Set Int} {expr : String} {tz : Option String}
  {staggerMs : Option Int} {job : CronJob} {nowMs runAtMs offsetMs : Int}

/-- The cron library looks up the slots of an expression in a time zone: the least one after the
cursor and the greatest one before it. Slots are whole seconds. -/
structure LibrarySlots (deps : CronDeps) (S : String → String → Set Int) : Prop where
  seconds : ∀ expr tz, ∀ s ∈ S expr tz, 1000 ∣ s
  next : ∀ expr tz c, ∃ r, deps.nextRun expr tz c = .ok r ∧ LeastAfter (S expr tz) c r
  previous : ∀ expr tz c, ∃ r, deps.previousRun expr tz c = .ok r ∧
    GreatestBefore (S expr tz) c r

/-- The slots of a cron schedule. An empty expression has none. -/
def scheduleSlots (deps : CronDeps) (S : String → String → Set Int) (expr : String)
    (tz : Option String) : Set Int :=
  {s | JsString.trim expr ≠ "" ∧ s ∈ S (JsString.trim expr) (resolveCronTimezone deps tz)}

theorem scheduleSlots_of_nonempty (h : JsString.trim expr ≠ "") :
    scheduleSlots deps S expr tz = S (JsString.trim expr) (resolveCronTimezone deps tz) := by
  simp [scheduleSlots, h]

variable (expr tz) in
theorem scheduleSlots_seconds (hlib : LibrarySlots deps S) :
    ∀ s ∈ scheduleSlots deps S expr tz, 1000 ∣ s :=
  fun s hs => hlib.seconds _ _ s hs.2

/-! ## Base lookups -/

variable (expr tz staggerMs) in
theorem computeNextRunAtMs_slots (hlib : LibrarySlots deps S) (cursorMs : Int) :
    ∃ r, computeNextRunAtMs deps (.cron expr tz staggerMs) cursorMs = .ok r ∧
      LeastAfter (scheduleSlots deps S expr tz) cursorMs r := by
  by_cases hempty : JsString.trim expr = ""
  · refine ⟨none, ?_, fun s hs => absurd hempty hs.1⟩
    simp [computeNextRunAtMs, computeCronNextRunAtMs, hempty]
    rfl
  · obtain ⟨r, hr, hleast⟩ := hlib.next (JsString.trim expr) (resolveCronTimezone deps tz) cursorMs
    rw [scheduleSlots_of_nonempty hempty]
    refine ⟨r, ?_, hleast⟩
    unfold computeNextRunAtMs computeCronNextRunAtMs
    dsimp only
    rw [if_neg hempty, hr]
    cases r with
    | none => rfl
    | some s =>
      show (if cursorMs < s then (.ok (some s) : Except String (Option Int)) else _) = _
      rw [if_pos hleast.lt]

variable (expr tz staggerMs) in
theorem computePreviousRunAtMs_slots (hlib : LibrarySlots deps S) (cursorMs : Int) :
    ∃ r, computePreviousRunAtMs deps (.cron expr tz staggerMs) cursorMs = .ok r ∧
      GreatestBefore (scheduleSlots deps S expr tz) cursorMs r := by
  by_cases hempty : JsString.trim expr = ""
  · refine ⟨none, ?_, fun s hs => absurd hempty hs.1⟩
    simp [computePreviousRunAtMs, hempty]
    rfl
  · obtain ⟨r, hr, hgreatest⟩ :=
      hlib.previous (JsString.trim expr) (resolveCronTimezone deps tz) cursorMs
    rw [scheduleSlots_of_nonempty hempty]
    refine ⟨r, ?_, hgreatest⟩
    unfold computePreviousRunAtMs
    dsimp only
    rw [if_neg hempty, hr]
    cases r with
    | none => rfl
    | some s =>
      show (.ok (Option.filter (· < cursorMs) (some s)) : Except String (Option Int)) = _
      simp [hgreatest.lt]

/-! ## Effective slots -/

/-- `offsetMs` of a job with a cron schedule. -/
def staggerOffsetMs (deps : CronDeps) (job : CronJob) (expr : String) (staggerMs : Option Int) :
    Int :=
  resolveStableCronOffsetMs deps job.id (resolveCronStaggerMs expr staggerMs)

variable (deps job expr staggerMs) in
theorem staggerOffsetMs_nonneg : 0 ≤ staggerOffsetMs deps job expr staggerMs := by
  unfold staggerOffsetMs resolveStableCronOffsetMs
  by_cases h : resolveCronStaggerMs expr staggerMs ≤ 1
  · rw [if_pos h]
  · rw [if_neg h]
    exact Int.emod_nonneg _ (by omega)

/-- When a job runs: the slots of its schedule, moved by its offset. -/
def effectiveSlots (deps : CronDeps) (S : String → String → Set Int) (job : CronJob)
    (expr : String) (tz : Option String) (staggerMs : Option Int) : Set Int :=
  shifted (scheduleSlots deps S expr tz) (staggerOffsetMs deps job expr staggerMs)

theorem staggeredNext_slots (hlib : LibrarySlots deps S) (attempts : Nat) :
    ∃ r, staggeredNext deps (.cron expr tz staggerMs) offsetMs nowMs (attempts + 1)
        (nowMs - offsetMs) = .ok r ∧
      LeastAfter (shifted (scheduleSlots deps S expr tz) offsetMs) nowMs r := by
  obtain ⟨r, hr, hleast⟩ := computeNextRunAtMs_slots expr tz staggerMs hlib (nowMs - offsetMs)
  refine ⟨r.map (· + offsetMs), ?_, hleast.shift⟩
  rw [staggeredNext, hr]
  cases r with
  | none => rfl
  | some s =>
    have hlt := hleast.lt
    show (if nowMs < s + offsetMs then (.ok (some (s + offsetMs)) : Except String (Option Int))
      else _) = _
    rw [if_pos (by omega)]
    rfl

variable (expr tz staggerMs nowMs offsetMs) in
theorem staggeredPrevious_slots (hlib : LibrarySlots deps S) (attempts : Nat) :
    ∃ r, staggeredPrevious deps (.cron expr tz staggerMs) offsetMs nowMs (attempts + 1)
        (nowMs - offsetMs) = .ok (r.map (· + offsetMs)) ∧
      GreatestBefore (scheduleSlots deps S expr tz) (nowMs - offsetMs) r := by
  obtain ⟨r, hr, hgreatest⟩ := computePreviousRunAtMs_slots expr tz staggerMs hlib (nowMs - offsetMs)
  refine ⟨r, ?_, hgreatest⟩
  rw [staggeredPrevious, hr]
  cases r with
  | none => rfl
  | some s =>
    have hlt := hgreatest.lt
    show (if s + offsetMs ≤ nowMs then (.ok (some (s + offsetMs)) : Except String (Option Int))
      else _) = _
    rw [if_pos (by omega)]
    rfl

theorem computeStaggeredCronNextRunAtMs_slots (hlib : LibrarySlots deps S)
    (hschedule : job.schedule = .cron expr tz staggerMs)
    (hnow : staggerOffsetMs deps job expr staggerMs ≤ nowMs) :
    ∃ r, computeStaggeredCronNextRunAtMs deps job nowMs = .ok r ∧
      LeastAfter (effectiveSlots deps S job expr tz staggerMs) nowMs r := by
  have hnonneg := staggerOffsetMs_nonneg deps expr staggerMs job
  unfold computeStaggeredCronNextRunAtMs effectiveSlots
  rw [hschedule]
  change ∃ r, (if staggerOffsetMs deps job expr staggerMs ≤ 0 then _ else _) = _ ∧ _
  by_cases hzero : staggerOffsetMs deps job expr staggerMs ≤ 0
  · rw [if_pos hzero, le_antisymm hzero hnonneg, shifted_zero]
    exact computeNextRunAtMs_slots _ _ _ hlib nowMs
  · rw [if_neg hzero, show resolveStableCronOffsetMs deps job.id
      (resolveCronStaggerMs expr staggerMs) = staggerOffsetMs deps job expr staggerMs from rfl,
      max_eq_right (by omega)]
    exact staggeredNext_slots hlib 3

variable (runAtMs) in
theorem isStaggeredCronRunAtMs_slots (hlib : LibrarySlots deps S)
    (hschedule : job.schedule = .cron expr tz staggerMs)
    (hrun : staggerOffsetMs deps job expr staggerMs ≤ runAtMs + 1000) :
    ∃ b, isStaggeredCronRunAtMs deps job runAtMs = .ok b ∧
      (b = true ↔ runAtMs ∈ effectiveSlots deps S job expr tz staggerMs) := by
  have hnonneg := staggerOffsetMs_nonneg deps expr staggerMs job
  have hseconds := scheduleSlots_seconds expr tz hlib
  unfold isStaggeredCronRunAtMs computeStaggeredCronPreviousRunAtMs effectiveSlots
  rw [hschedule]
  change ∃ b, ((if staggerOffsetMs deps job expr staggerMs ≤ 0 then _ else _) >>= _) = _ ∧ _
  by_cases hzero : staggerOffsetMs deps job expr staggerMs ≤ 0
  · obtain ⟨r, hr, hgreatest⟩ := computePreviousRunAtMs_slots expr tz staggerMs hlib (runAtMs + 1000)
    rw [if_pos hzero, hr]
    refine ⟨decide (r = some runAtMs), rfl, ?_⟩
    rw [decide_eq_true_eq, le_antisymm hzero hnonneg, shifted_zero]
    exact hgreatest.eq_some_iff (by omega) hseconds
  · obtain ⟨r, hr, hgreatest⟩ := staggeredPrevious_slots expr tz staggerMs (runAtMs + 1000) (staggerOffsetMs deps job expr staggerMs) hlib 3
    rw [if_neg hzero, show resolveStableCronOffsetMs deps job.id
      (resolveCronStaggerMs expr staggerMs) = staggerOffsetMs deps job expr staggerMs from rfl,
      max_eq_right (by omega), hr]
    refine ⟨decide (r.map (· + staggerOffsetMs deps job expr staggerMs) = some runAtMs), rfl, ?_⟩
    rw [decide_eq_true_eq]
    -- the lookup of the base slot is one second past `runAtMs - offset`
    rw [show runAtMs + 1000 - staggerOffsetMs deps job expr staggerMs =
      runAtMs - staggerOffsetMs deps job expr staggerMs + 1000 by omega] at hgreatest
    have hslot : r = some (runAtMs - staggerOffsetMs deps job expr staggerMs) ↔
        runAtMs - staggerOffsetMs deps job expr staggerMs ∈ scheduleSlots deps S expr tz :=
      hgreatest.eq_some_iff (by omega) hseconds
    refine Iff.trans ?_ hslot
    cases r with
    | none => simp
    | some s =>
      simp only [Option.map_some, Option.some.injEq]
      omega

/-! ## Repairs -/

theorem shouldRepair_slot (hlib : LibrarySlots deps S)
    (hschedule : job.schedule = .cron expr tz staggerMs)
    (hnow : staggerOffsetMs deps job expr staggerMs ≤ nowMs)
    (hnext : job.state.nextRunAtMs = some runAtMs)
    (hslot : runAtMs ∈ effectiveSlots deps S job expr tz staggerMs) :
    shouldRepairFutureCronNextRunAtMs deps job nowMs = false := by
  unfold shouldRepairFutureCronNextRunAtMs
  rw [hnext]
  by_cases hpos : 0 < runAtMs
  · rw [Option.filter_some, if_pos (by simpa using hpos)]
    dsimp only
    by_cases hearly : job.schedule.kind ≠ .cron ∨ runAtMs ≤ nowMs ∨
        job.state.runningAtMs.isSome = true
    · rw [if_pos hearly]
    · rw [if_neg hearly]
      by_cases hbackoff : isPendingErrorBackoffSlot deps job runAtMs nowMs = true
      · rw [if_pos hbackoff]
      · rw [if_neg hbackoff]
        obtain ⟨b, hb, hiff⟩ := isStaggeredCronRunAtMs_slots runAtMs hlib hschedule
          (by omega)
        rw [hb, hiff.2 hslot]
        cases computeStaggeredCronNextRunAtMs deps job nowMs with
        | error err => rfl
        | ok natural => cases natural <;> rfl
  · simp [Option.filter_some, hpos]

/-! ## The result -/

/-- **Staggered lookups are exact.** -/
theorem staggered_slots_exact (hlib : LibrarySlots deps S)
    (hschedule : job.schedule = .cron expr tz staggerMs) :
    (∀ nowMs, staggerOffsetMs deps job expr staggerMs ≤ nowMs →
      ∃ r, computeStaggeredCronNextRunAtMs deps job nowMs = .ok r ∧
        LeastAfter (effectiveSlots deps S job expr tz staggerMs) nowMs r) ∧
    (∀ runAtMs, staggerOffsetMs deps job expr staggerMs ≤ runAtMs + 1000 →
      ∃ b, isStaggeredCronRunAtMs deps job runAtMs = .ok b ∧
        (b = true ↔ runAtMs - staggerOffsetMs deps job expr staggerMs ∈
          scheduleSlots deps S expr tz)) ∧
    ∀ nowMs runAtMs, staggerOffsetMs deps job expr staggerMs ≤ nowMs →
      job.state.nextRunAtMs = some runAtMs →
      runAtMs ∈ effectiveSlots deps S job expr tz staggerMs →
      shouldRepairFutureCronNextRunAtMs deps job nowMs = false := by
  refine ⟨fun nowMs hnow => ?_, fun runAtMs hrun => ?_, fun nowMs runAtMs hnow hnext hslot => ?_⟩
  · exact computeStaggeredCronNextRunAtMs_slots hlib hschedule hnow
  · exact isStaggeredCronRunAtMs_slots _ hlib hschedule hrun
  · exact shouldRepair_slot hlib hschedule hnow hnext hslot

/-! ## Slots before the epoch -/

/-- A library whose slots are all multiples of a step, and digests that are all `digest`. -/
def everyStep (step : Int) (digest : Nat) : CronDeps :=
  { CronDeps.sample {} with
    nextRun := fun _ _ c => .ok (some ((c / step + 1) * step))
    previousRun := fun _ _ c => .ok (some ((c - 1) / step * step))
    digest := fun _ => digest }

theorem everyStep_slots {step : Int} (hpos : 0 < step) (hseconds : 1000 ∣ step) (digest : Nat) :
    LibrarySlots (everyStep step digest) fun _ _ => {s | step ∣ s} := by
  constructor
  · exact fun _ _ s hs => hseconds.trans hs
  · intro _ _ c
    refine ⟨_, rfl, ⟨Dvd.intro_left _ rfl, ?_⟩, ?_⟩
    · exact Int.lt_ediv_add_one_mul_self c hpos
    · rintro s ⟨⟨q, rfl⟩, hlt⟩
      have hq : c / step < q := Int.ediv_lt_of_lt_mul hpos (by rwa [mul_comm])
      rw [mul_comm step q]
      exact Int.mul_le_mul_of_nonneg_right (by omega) hpos.le
  · intro _ _ c
    refine ⟨_, rfl, ⟨Dvd.intro_left _ rfl, ?_⟩, ?_⟩
    · have hle := Int.ediv_mul_le (c - 1) hpos.ne'
      omega
    · rintro s ⟨⟨q, rfl⟩, hlt⟩
      have hq : q ≤ (c - 1) / step := (Int.le_ediv_iff_mul_le hpos).2 (by rw [mul_comm]; omega)
      rw [mul_comm step q]
      exact Int.mul_le_mul_of_nonneg_right hq hpos.le

def cronJob (expr : String) (staggerMs : Option Int) : CronJob where
  id := "cron"
  createdAtMs := 0
  updatedAtMs := 0
  schedule := .cron expr none staggerMs
  sessionTarget := "isolated"
  wakeMode := .now
  payload := .agentTurn

/-- An hourly job with the default stagger, whose offset is 200 seconds. -/
theorem staggered_slots_exact_hourly :
    ∃ b, isStaggeredCronRunAtMs (everyStep 3600000 200000) (cronJob "0 * * * *" none) 3800000 =
        .ok b ∧
      (b = true ↔ 3800000 - staggerOffsetMs (everyStep 3600000 200000) (cronJob "0 * * * *" none)
        "0 * * * *" none ∈ scheduleSlots (everyStep 3600000 200000)
          (fun _ _ => {s | 3600000 ∣ s}) "0 * * * *" none) :=
  (staggered_slots_exact (everyStep_slots (by decide) (by decide) 200000)
    (show (cronJob "0 * * * *" none).schedule = _ from rfl)).2.1 3800000 (by decide +kernel)

/-- With a slot every second and an offset of 200 seconds, the time 100 seconds after the epoch is
an effective slot, and it is not recognized. -/
theorem slot_before_epoch :
    ¬ ∀ deps S, LibrarySlots deps S → ∀ job expr tz staggerMs,
      job.schedule = .cron expr tz staggerMs → ∀ runAtMs,
      (isStaggeredCronRunAtMs deps job runAtMs = .ok true ↔
        runAtMs - staggerOffsetMs deps job expr staggerMs ∈ scheduleSlots deps S expr tz) := by
  intro h
  have hiff := h (everyStep 1000 200000) _ (everyStep_slots (by decide) (by decide) 200000)
    (cronJob "* * * * * *" (some 300000)) _ _ _ rfl 100000
  have hslot : (100000 : Int) - staggerOffsetMs (everyStep 1000 200000)
      (cronJob "* * * * * *" (some 300000)) "* * * * * *" (some 300000) ∈
      scheduleSlots (everyStep 1000 200000) (fun _ _ => {s | 1000 ∣ s}) "* * * * * *" none :=
    ⟨by decide +kernel, show (1000 : Int) ∣ _ by decide +kernel⟩
  have hnot : isStaggeredCronRunAtMs (everyStep 1000 200000)
      (cronJob "* * * * * *" (some 300000)) 100000 = .ok false := by
    decide +kernel
  rw [hiff.2 hslot] at hnot
  cases hnot

end OpenClaw.Cron
