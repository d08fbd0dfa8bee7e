import OpenClaw.AuthProfiles.Cooldowns

/-!
# Lazy clearing

`clearExpiredCooldowns` changes the record in memory alone, so a failure that reads the record from
disk still finds windows that are over. The two records are followed side by side.

* `Swept`: a window is the same in both, or it is over and gone from memory.
* `Lags`: what the two have in common. A sweep keeps it, and so does a failure that does not keep a
  window ending after the last date: `resolveProfileUnusableUntil` does not count such a window,
  `keepActiveWindowOrRecompute` does.
-/

namespace OpenClaw.AuthProfiles

/-! ## The two records -/

inductive CopyOp
  | clearExpired
  | failure (reason : AuthProfileFailureReason) (cfg : ResolvedAuthCooldownConfig)
      (modelId : Option String)

structure Copies where
  clock : Int
  memory : ProfileUsageStats
  disk : ProfileUsageStats

def Copies.next (s : Copies) (now : Int) : CopyOp → Copies
  | .clearExpired => { s with clock := now, memory := clearExpiredCooldowns s.memory now }
  | .failure reason cfg modelId =>
    ⟨now, computeNextProfileUsageStats s.memory now reason cfg modelId,
      computeNextProfileUsageStats s.disk now reason cfg modelId⟩

/-- Time does not run backwards, and the clock shows a date. -/
def Copies.Step (s : Copies) (e : Int × CopyOp) (t : Copies) : Prop :=
  s.clock ≤ e.1 ∧ asDateTimestampMs (some e.1) = some e.1 ∧ t = s.next e.1 e.2

/-- The window that a failure writes. -/
def laneWindow (stats : ProfileUsageStats) (reason : AuthProfileFailureReason) : Option Int :=
  if hasDisabledLane reason then stats.disabledUntil else stats.cooldownUntil

/-- A failure finds no window in its lane that ends after the last date. -/
def Copies.LaneDated (s : Copies) (e : Int × CopyOp) : Prop :=
  match e.2 with
  | .clearExpired => True
  | .failure reason _ _ => ∀ u, laneWindow s.memory reason = some u → u ≤ MAX_DATE_TIMESTAMP_MS

/-- The runs from one record in both places. -/
abbrev Copies.Reached : Copies → Prop :=
  Lts.Reachable (fun s => s.memory = s.disk) (Lts.Guarded Copies.Step Copies.LaneDated)

/-! ## Windows with what is recorded about them -/

section Windows

variable {α : Type} {w w' : Option Int × α} {x : α} {t now : Int} {stats m d : ProfileUsageStats}

def ProfileUsageStats.blocked (stats : ProfileUsageStats) :=
  (stats.blockedUntil, stats.blockedReason, stats.blockedSource, stats.blockedModel)

def ProfileUsageStats.cooldown (stats : ProfileUsageStats) :=
  (stats.cooldownUntil, stats.cooldownReason, stats.cooldownModel)

def ProfileUsageStats.disabled (stats : ProfileUsageStats) :=
  (stats.disabledUntil, stats.disabledReason)

/-- A window that ends later than `now` is the same in both. -/
def SameOpen (now : Int) (w w' : Option Int × α) : Prop :=
  ∀ u, now < u → w.1 = some u ∨ w'.1 = some u → w = w'

structure Agree (now : Int) (m d : ProfileUsageStats) : Prop where
  errorCount : m.errorCount = d.errorCount
  failureCounts : m.failureCounts = d.failureCounts
  lastFailureAt : m.lastFailureAt = d.lastFailureAt
  blocked : SameOpen now m.blocked d.blocked
  cooldown : SameOpen now m.cooldown d.cooldown
  disabled : SameOpen now m.disabled d.disabled

/-- The first is the second, or it has been cleared since the second was over. -/
def Swept (t : Int) (w w' : Option Int × α) : Prop :=
  w = w' ∨ w.1 = none ∧ ∃ u, w'.1 = some u ∧ 0 < u ∧ u ≤ t

theorem Swept.sameOpen (h : Swept t w w') (ht : t ≤ now) : SameOpen now w w' := by
  intro u hu hopen
  obtain h | ⟨hnone, v, hv, -, hle⟩ := h
  · exact h
  · rw [hnone, hv] at hopen
    simp only [reduceCtorEq, Option.some.injEq, false_or] at hopen
    omega

theorem Swept.mono (h : Swept t w w') (ht : t ≤ now) : Swept now w w' :=
  h.imp_right fun ⟨hnone, u, hu, hpos, hle⟩ => ⟨hnone, u, hu, hpos, hle.trans ht⟩

theorem Swept.clear (h : Swept t w w') (ht : t ≤ now) :
    Swept now (if windowExpired w.1 now then (none, x) else w) w' := by
  split
  · rename_i hexpired
    obtain rfl | ⟨hnone, -⟩ := h
    · cases hw : w.1 with
      | none => simp [windowExpired, hw] at hexpired
      | some u =>
        simp only [windowExpired, hw, Bool.and_eq_true, decide_eq_true_eq] at hexpired
        exact .inr ⟨rfl, u, hw, hexpired⟩
    · simp [windowExpired, hnone] at hexpired
  · exact h.mono ht

theorem Swept.keep (h : Swept t w w') (ht : t ≤ now) :
    keepActiveWindowOrRecompute w.1 now = keepActiveWindowOrRecompute w'.1 now := by
  obtain rfl | ⟨hnone, u, hu, -, hle⟩ := h
  · rfl
  · funext r
    simp [keepActiveWindowOrRecompute, hnone, hu, (hle.trans ht).not_gt]

/-! ## The windows that count -/

/-- An end that `resolveProfileUnusableUntil` takes the maximum of. -/
def Counted (stats : ProfileUsageStats) (u : Int) : Prop :=
  0 < u ∧ u ≤ MAX_DATE_TIMESTAMP_MS ∧
    (stats.blocked.1 = some u ∨ stats.cooldown.1 = some u ∨ stats.disabled.1 = some u)

/-- The profile was unusable and is not any more. -/
def Over (now : Int) (stats : ProfileUsageStats) : Prop :=
  (∃ u, Counted stats u) ∧ ∀ u, Counted stats u → u ≤ now

theorem mem_counted {u : Int} :
    u ∈ ((stats.windows.filterMap asDateTimestampMs).filter fun value => decide (0 < value)) ↔
      Counted stats u := by
  simp only [List.mem_filter, List.mem_filterMap, asDateTimestampMs_eq_some, decide_eq_true_eq,
    ProfileUsageStats.windows, Counted, ProfileUsageStats.blocked, ProfileUsageStats.cooldown,
    ProfileUsageStats.disabled, List.mem_cons, List.not_mem_nil, or_false]
  constructor
  · rintro ⟨⟨w, hw, rfl, -, hle⟩, hpos⟩
    exact ⟨hpos, hle, by simpa only [eq_comm] using hw⟩
  · rintro ⟨hpos, hle, hw⟩
    exact ⟨⟨some u, by simpa only [eq_comm] using hw, rfl, by unfold MAX_DATE_TIMESTAMP_MS; omega,
      hle⟩, hpos⟩

theorem unusableUntil_isNone :
    (resolveProfileUnusableUntil stats).isNone = true ↔ ∀ u, ¬ Counted stats u := by
  rw [Option.isNone_iff_eq_none, resolveProfileUnusableUntil, List.max?_eq_none_iff,
    List.eq_nil_iff_forall_not_mem]
  simp only [mem_counted]

def previousCooldownExpired (stats : ProfileUsageStats) (now : Int) : Bool :=
  match resolveProfileUnusableUntil stats with
  | some unusableUntil => decide (unusableUntil ≤ now)
  | none => false

theorem previousCooldownExpired_iff : previousCooldownExpired stats now = true ↔ Over now stats := by
  unfold previousCooldownExpired
  cases h : resolveProfileUnusableUntil stats with
  | none =>
    have hnone := unusableUntil_isNone.1 (by rw [h]; rfl)
    simp [Over, hnone]
  | some u =>
    obtain ⟨hmem, hmax⟩ := List.max?_eq_some_iff.1 h
    simp only [mem_counted] at hmem hmax
    simp only [decide_eq_true_eq]
    exact ⟨fun hle => ⟨⟨u, hmem⟩, fun v hv => (hmax v hv).trans hle⟩, fun hover => hover.2 u hmem⟩

/-! ## The record on disk lags behind -/

/-- The counters are the same, or were reset in memory and would be reset on disk. -/
def CountersLag (t : Int) (m d : ProfileUsageStats) : Prop :=
  m.errorCount.getD 0 = d.errorCount.getD 0 ∧ m.failureCounts.getD [] = d.failureCounts.getD [] ∧
      (Over t d → ∃ u, Counted m u) ∨
    m.errorCount.getD 0 = 0 ∧ m.failureCounts.getD [] = [] ∧ Over t d

structure WindowsLag (t : Int) (m d : ProfileUsageStats) : Prop where
  last : m.lastFailureAt = d.lastFailureAt
  blocked : Swept t m.blocked d.blocked
  cooldown : Swept t m.cooldown d.cooldown
  disabled : Swept t m.disabled d.disabled

structure Lags (t : Int) (m d : ProfileUsageStats) : Prop extends WindowsLag t m d where
  counters : CountersLag t m d

theorem WindowsLag.counted_disk (h : WindowsLag t m d) {u : Int} (hu : Counted m u) :
    Counted d u := by
  have hkept {α : Type} {w w' : Option Int × α} (hw : Swept t w w') (hu : w.1 = some u) :
      w'.1 = some u := by
    obtain rfl | ⟨hnone, -⟩ := hw
    · exact hu
    · cases hnone.symm.trans hu
  exact ⟨hu.1, hu.2.1,
    hu.2.2.imp (hkept h.blocked) (.imp (hkept h.cooldown) (hkept h.disabled))⟩

theorem WindowsLag.counted_memory (h : WindowsLag t m d) {u : Int} (hu : Counted d u)
    (ht : t < u) : Counted m u := by
  have hkept {α : Type} {w w' : Option Int × α} (hw : Swept t w w') (hu : w'.1 = some u) :
      w.1 = some u := (hw.sameOpen le_rfl u ht (.inr hu)) ▸ hu
  exact ⟨hu.1, hu.2.1,
    hu.2.2.imp (hkept h.blocked) (.imp (hkept h.cooldown) (hkept h.disabled))⟩

theorem Lags.countersLag (h : Lags t m d) (ht : t ≤ now) : CountersLag now m d := by
  obtain ⟨hcount, hcounts, hopen⟩ | ⟨hcount, hcounts, hover⟩ := h.counters
  · refine .inl ⟨hcount, hcounts, fun hover => ?_⟩
    by_cases hlater : ∃ v, Counted d v ∧ t < v
    · obtain ⟨v, hv, htv⟩ := hlater
      exact ⟨v, h.counted_memory hv htv⟩
    · exact hopen ⟨hover.1, fun v hv => not_lt.1 fun htv => hlater ⟨v, hv, htv⟩⟩
  · exact .inr ⟨hcount, hcounts, hover.1, fun u hu => (hover.2 u hu).trans ht⟩

/-! ## Sweeps -/

/-- The record without the windows that are over at `now`. -/
def clearWindows (stats : ProfileUsageStats) (now : Int) : ProfileUsageStats :=
  let stats' := if windowExpired stats.cooldownUntil now then
      { stats with cooldownUntil := none, cooldownReason := none, cooldownModel := none }
    else stats
  let stats' := if windowExpired stats.blockedUntil now then
      { stats' with
        blockedUntil := none, blockedReason := none, blockedSource := none, blockedModel := none }
    else stats'
  if windowExpired stats.disabledUntil now then
    { stats' with disabledUntil := none, disabledReason := none }
  else stats'

theorem clearWindows_groups (stats : ProfileUsageStats) (now : Int) :
    (clearWindows stats now).blocked =
        (if windowExpired stats.blocked.1 now then (none, none, none, none) else stats.blocked) ∧
      (clearWindows stats now).cooldown =
        (if windowExpired stats.cooldown.1 now then (none, none, none) else stats.cooldown) ∧
      (clearWindows stats now).disabled =
        (if windowExpired stats.disabled.1 now then (none, none) else stats.disabled) ∧
      (clearWindows stats now).errorCount = stats.errorCount ∧
      (clearWindows stats now).failureCounts = stats.failureCounts ∧
      (clearWindows stats now).lastFailureAt = stats.lastFailureAt := by
  unfold clearWindows ProfileUsageStats.blocked ProfileUsageStats.cooldown
    ProfileUsageStats.disabled
  cases windowExpired stats.cooldownUntil now <;> cases windowExpired stats.blockedUntil now <;>
    cases windowExpired stats.disabledUntil now <;> exact ⟨rfl, rfl, rfl, rfl, rfl, rfl⟩

def someExpired (stats : ProfileUsageStats) (now : Int) : Bool :=
  windowExpired stats.cooldownUntil now || windowExpired stats.blockedUntil now ||
    windowExpired stats.disabledUntil now

theorem clearExpiredCooldowns_eq (stats : ProfileUsageStats) (now : Int) :
    clearExpiredCooldowns stats now =
      if someExpired stats now && (resolveProfileUnusableUntil (clearWindows stats now)).isNone then
        { clearWindows stats now with errorCount := some 0, failureCounts := none }
      else clearWindows stats now := rfl

theorem exists_counted (h : someExpired stats now = true) (hnow : now ≤ MAX_DATE_TIMESTAMP_MS) :
    ∃ u, Counted stats u := by
  have hcounted {w : Option Int} (hw : windowExpired w now = true) :
      ∃ u, w = some u ∧ 0 < u ∧ u ≤ MAX_DATE_TIMESTAMP_MS := by
    cases w with
    | none => cases hw
    | some u =>
      simp only [windowExpired, Bool.and_eq_true, decide_eq_true_eq] at hw
      exact ⟨u, rfl, hw.1, hw.2.trans hnow⟩
  simp only [someExpired, Bool.or_eq_true] at h
  obtain (h | h) | h := h <;> obtain ⟨u, hu, hpos, hle⟩ := hcounted h
  · exact ⟨u, hpos, hle, .inr (.inl hu)⟩
  · exact ⟨u, hpos, hle, .inl hu⟩
  · exact ⟨u, hpos, hle, .inr (.inr hu)⟩

theorem clearWindows_of_none (h : someExpired stats now = false) :
    clearWindows stats now = stats := by
  simp only [someExpired, Bool.or_eq_false_iff] at h
  simp [clearWindows, h]

theorem Lags.clear (h : Lags t m d) (ht : t ≤ now) (hnow : now ≤ MAX_DATE_TIMESTAMP_MS) :
    Lags now (clearExpiredCooldowns m now) d := by
  obtain ⟨hblocked, hcooldown, hdisabled, hcount, hcounts, hlast⟩ := clearWindows_groups m now
  have hwindows : WindowsLag now (clearWindows m now) d :=
    ⟨hlast.trans h.last, hblocked ▸ h.blocked.clear ht, hcooldown ▸ h.cooldown.clear ht,
      hdisabled ▸ h.disabled.clear ht⟩
  rw [clearExpiredCooldowns_eq]
  cases hexpired : someExpired m now with
  | false =>
    rw [clearWindows_of_none hexpired] at hwindows ⊢
    exact ⟨hwindows, h.countersLag ht⟩
  | true =>
    rw [Bool.true_and]
    split
    · rename_i hnone
      rw [unusableUntil_isNone] at hnone
      obtain ⟨u, hu⟩ := exists_counted hexpired hnow
      refine ⟨⟨hwindows.last, hwindows.blocked, hwindows.cooldown, hwindows.disabled⟩,
        .inr ⟨rfl, rfl, ⟨u, h.counted_disk hu⟩, fun v hv => not_lt.1 fun hlater => ?_⟩⟩
      exact hnone v (hwindows.counted_memory hv hlater)
    · rename_i hsome
      simp only [unusableUntil_isNone, not_forall, not_not] at hsome
      refine ⟨hwindows, ?_⟩
      unfold CountersLag
      rw [hcount, hcounts]
      exact (h.countersLag ht).imp_left fun ⟨hcount, hcounts, _⟩ =>
        ⟨hcount, hcounts, fun _ => hsome⟩

/-! ## Failures -/

/-- The counters that a failure goes on from. -/
def baseCounts (stats : ProfileUsageStats) (now : Int) (cfg : ResolvedAuthCooldownConfig) :
    Nat × FailureCounts :=
  let failureWindowExpired :=
    match stats.lastFailureAt with
    | some last => decide (0 < last) && decide (cfg.failureWindowMs < ((now - last : Int) : ℚ))
    | none => false
  let shouldResetCounters := failureWindowExpired || previousCooldownExpired stats now
  (if shouldResetCounters then 0 else stats.errorCount.getD 0,
    if shouldResetCounters then [] else stats.failureCounts.getD [])

variable (reason : AuthProfileFailureReason) (cfg : ResolvedAuthCooldownConfig)
  (modelId : Option String)

theorem Lags.baseCounts (h : Lags t m d) (ht : t ≤ now) :
    baseCounts m now cfg = baseCounts d now cfg := by
  unfold AuthProfiles.baseCounts
  rw [h.last]
  obtain ⟨hcount, hcounts, hopen⟩ | ⟨hcount, hcounts, hover⟩ := h.countersLag ht
  · have hexpired : previousCooldownExpired m now = previousCooldownExpired d now := by
      rw [Bool.eq_iff_iff, previousCooldownExpired_iff, previousCooldownExpired_iff]
      constructor
      · rintro ⟨⟨u, hu⟩, hm⟩
        refine ⟨⟨u, h.counted_disk hu⟩, fun v hv => not_lt.1 fun hlater => ?_⟩
        exact (hm v (h.counted_memory hv (ht.trans_lt hlater))).not_gt hlater
      · exact fun hover => ⟨hopen hover, fun u hu => hover.2 u (h.counted_disk hu)⟩
    rw [hcount, hcounts, hexpired]
  · rw [previousCooldownExpired_iff.2 hover, hcount, hcounts]
    simp

theorem Swept.nextCooldownModel (h : Swept t m.cooldown d.cooldown) (ht : t ≤ now) :
    nextCooldownModel (some m) now reason modelId =
      AuthProfiles.nextCooldownModel (some d) now reason modelId := by
  unfold AuthProfiles.nextCooldownModel
  obtain h | ⟨hnone, u, hu, -, hle⟩ := h
  · obtain ⟨huntil, hrest⟩ := Prod.mk.inj h
    have hopen : cooldownOpen (some m) now = cooldownOpen (some d) now := by
      simp only [cooldownOpen, Option.bind_some, huntil]
    simp only [hopen, Option.bind_some, (Prod.mk.inj hrest).2]
  · have hmemory : m.cooldownUntil = none := hnone
    have hdisk : d.cooldownUntil = some u := hu
    have hclosed : cooldownOpen (some d) now = false := by
      simp [cooldownOpen, hdisk, hle.trans ht]
    have hswept : cooldownOpen (some m) now = false := by simp [cooldownOpen, hmemory]
    simp [hclosed, hswept]

theorem Lags.failure (h : Lags t m d) (ht : t ≤ now) :
    (computeNextProfileUsageStats m now reason cfg modelId).errorCount =
        (computeNextProfileUsageStats d now reason cfg modelId).errorCount ∧
      (computeNextProfileUsageStats m now reason cfg modelId).failureCounts =
        (computeNextProfileUsageStats d now reason cfg modelId).failureCounts ∧
      WindowsLag now (computeNextProfileUsageStats m now reason cfg modelId)
        (computeNextProfileUsageStats d now reason cfg modelId) := by
  obtain ⟨hcount, hcounts⟩ := Prod.mk.inj (h.baseCounts cfg ht)
  have hmodel := h.cooldown.nextCooldownModel reason modelId ht
  have hcooldown := h.cooldown.keep ht
  have hdisabled := h.disabled.keep ht
  simp only [ProfileUsageStats.cooldown, ProfileUsageStats.disabled] at hcooldown hdisabled
  unfold computeNextProfileUsageStats
  unfold previousCooldownExpired at hcount hcounts
  cases disabledFailureBackoffPolicy cfg reason with
  | none =>
    dsimp only
    erw [hcount, hcounts, hcooldown]
    refine ⟨rfl, rfl, rfl, h.blocked.mono ht, .inl ?_, h.disabled.mono ht⟩
    exact Prod.ext rfl (Prod.ext rfl hmodel)
  | some policy =>
    dsimp only
    erw [hcount, hcounts, hdisabled]
    exact ⟨rfl, rfl, rfl, h.blocked.mono ht, h.cooldown.mono ht, .inl rfl⟩

theorem exists_counted_of_failure
    (hlane : ∀ u, laneWindow m reason = some u → u ≤ MAX_DATE_TIMESTAMP_MS)
    (hnow : now ≤ MAX_DATE_TIMESTAMP_MS) (hpos : 0 < now) :
    ∃ u, Counted (computeNextProfileUsageStats m now reason cfg modelId) u := by
  have hwritten {w : Option Int} (hw : ∀ u, w = some u → u ≤ MAX_DATE_TIMESTAMP_MS) (d : ℚ) :
      0 < keepActiveWindowOrRecompute w now (resolveUsageWindowUntil now d) ∧
        keepActiveWindowOrRecompute w now (resolveUsageWindowUntil now d) ≤
          MAX_DATE_TIMESTAMP_MS := by
    obtain ⟨hnew, hdate⟩ := resolveUsageWindowUntil_spec hnow d
    unfold keepActiveWindowOrRecompute
    cases w with
    | none => exact ⟨hpos.trans_le hnew, hdate⟩
    | some u =>
      dsimp only
      split
      · exact ⟨by omega, hw u rfl⟩
      · exact ⟨hpos.trans_le hnew, hdate⟩
  unfold laneWindow at hlane
  cases hdisabled : hasDisabledLane reason with
  | true =>
    obtain ⟨⟨d, hd⟩, -⟩ := computeNext_of_lane m now cfg modelId hdisabled
    rw [hdisabled] at hlane
    exact ⟨_, (hwritten hlane d).1, (hwritten hlane d).2, .inr (.inr hd)⟩
  | false =>
    obtain ⟨⟨d, hd⟩, -⟩ := computeNext_of_not_lane m now cfg modelId hdisabled
    rw [hdisabled] at hlane
    exact ⟨_, (hwritten hlane d).1, (hwritten hlane d).2, .inr (.inl hd)⟩

end Windows

/-! ## Runs -/

namespace Copies

variable {s t : Copies} {now : Int} {reason : AuthProfileFailureReason}
  {cfg : ResolvedAuthCooldownConfig} {modelId : Option String}

theorem lags_refl (stats : ProfileUsageStats) (now : Int) : Lags now stats stats :=
  ⟨⟨rfl, .inl rfl, .inl rfl, .inl rfl⟩, .inl ⟨rfl, rfl, And.left⟩⟩

theorem lags_step {e : Int × CopyOp} (h : Lags s.clock s.memory s.disk)
    (hstep : Lts.Guarded Step LaneDated s e t) : Lags t.clock t.memory t.disk := by
  obtain ⟨⟨hclock, hdate, rfl⟩, hlane⟩ := hstep
  obtain ⟨-, -, hnow⟩ := asDateTimestampMs_eq_some.1 hdate
  obtain ⟨now, op⟩ := e
  cases op with
  | clearExpired => exact h.clear hclock hnow
  | failure reason cfg modelId =>
    obtain ⟨hcount, hcounts, hwindows⟩ := h.failure reason cfg modelId hclock
    refine ⟨hwindows, .inl ⟨congrArg (·.getD 0) hcount, congrArg (·.getD []) hcounts, ?_⟩⟩
    rintro ⟨⟨u, hu⟩, hover⟩
    exact exists_counted_of_failure reason cfg modelId hlane hnow (hu.1.trans_le (hover u hu))

/-- **Lazy clearing is invisible**: the next failure leaves the same counters and the same open
windows in the record that was swept and in the one that was not. -/
theorem lazy_clearing_invisible (hs : Reached s)
    (hstep : Step s (now, .failure reason cfg modelId) t) : Agree now t.memory t.disk := by
  have hlags : Lags s.clock s.memory s.disk := by
    refine hs.invariant (fun s h => ?_) fun s e t h hstep => lags_step h hstep
    rw [h]
    exact lags_refl _ _
  obtain ⟨hclock, -, rfl⟩ := hstep
  obtain ⟨hcount, hcounts, hwindows⟩ := hlags.failure reason cfg modelId hclock
  exact ⟨hcount, hcounts, hwindows.last, hwindows.blocked.sameOpen le_rfl,
    hwindows.cooldown.sameOpen le_rfl, hwindows.disabled.sameOpen le_rfl⟩

/-! ## A window after the last date -/

def hourlyConfig : ResolvedAuthCooldownConfig where
  billingBackoffMs := 3600000
  billingMaxMs := 3600000
  authPermanentBackoffMs := 3600000
  authPermanentMaxMs := 3600000
  failureWindowMs := 86400000

def disabledForGood : Copies :=
  let stats : ProfileUsageStats :=
    { cooldownUntil := some 1000, disabledUntil := some 9000000000000000 }
  ⟨0, stats, stats⟩

def billingFailure : CopyOp := .failure .billing hourlyConfig none

theorem lazy_clearing_invisible_once :
    Agree 3000 ((disabledForGood.next 2000 .clearExpired).next 3000 billingFailure).memory
      ((disabledForGood.next 2000 .clearExpired).next 3000 billingFailure).disk :=
  lazy_clearing_invisible
    (.next (a := (2000, .clearExpired)) (.start (s := disabledForGood) rfl)
      ⟨⟨by decide, by decide, rfl⟩, trivial⟩)
    ⟨by decide, by decide, rfl⟩

/-- The second failure: the sweep's reset is behind it in memory and is made again on disk. -/
theorem stale_window_resets_again :
    ¬ ∀ (s t : Copies) (now : Int) (reason : AuthProfileFailureReason)
      (cfg : ResolvedAuthCooldownConfig) (modelId : Option String),
      Lts.Reachable (fun s => s.memory = s.disk) Step s →
        Step s (now, .failure reason cfg modelId) t → Agree now t.memory t.disk := by
  intro h
  have hreached : Lts.Reachable (fun s => s.memory = s.disk) Step
      ((disabledForGood.next 2000 .clearExpired).next 3000 billingFailure) :=
    .next (a := (3000, billingFailure))
      (.next (a := (2000, .clearExpired)) (.start (s := disabledForGood) rfl)
        ⟨by decide, by decide, rfl⟩) ⟨by decide, by decide, rfl⟩
  have hcount := (h _ _ 4000 .billing hourlyConfig none hreached
    ⟨by decide, by decide, rfl⟩).errorCount
  revert hcount
  decide +kernel

end Copies

end OpenClaw.AuthProfiles
