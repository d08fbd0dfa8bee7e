import OpenClaw.AuthProfiles.Usage
import OpenClaw.Lib.Lts

/-!
# The windows of a profile over its runs

Failures, blocks and sweeps at times that do not decrease. Beside the record the system keeps the
failures of the cooldown window that is open: the one that opened it and those recorded since.

* `computeNext_keeps`, `clearExpiredCooldowns_windows`: what a failure and a sweep do to the windows.
* `notEarlier_iff`: the end of the windows, taken together, is not earlier when each active window
  is followed by one that ends no earlier.
* `Scoped`: a cooldown that has a model is that of every failure of its window.
-/

namespace OpenClaw.AuthProfiles

variable (toLowerCase : String → String) (profile : AuthProfileCredential)

/-! ## Runs -/

inductive Op
  | failure (reason : AuthProfileFailureReason) (cfg : ResolvedAuthCooldownConfig)
      (modelId : Option String) (probe : Option WhamCooldownProbeResult)
  | block (blockedUntil : Int) (source : AuthProfileBlockedSource) (modelId : Option String)
      (calledAt : Int)
  | clearExpired

structure Event where
  now : Int
  op : Op

/-- A recorded failure, as its caller gave it. -/
structure Failure where
  reason : AuthProfileFailureReason
  modelId : Option String
  deriving DecidableEq

structure System where
  clock : Int
  stats : Option ProfileUsageStats
  window : List Failure

def apply (stats : Option ProfileUsageStats) (e : Event) : Option ProfileUsageStats :=
  match e.op with
  | .failure reason cfg modelId probe =>
    markAuthProfileFailure toLowerCase profile stats reason cfg modelId probe e.now
  | .block blockedUntil source modelId calledAt =>
    markAuthProfileBlockedUntil toLowerCase profile stats blockedUntil source modelId calledAt e.now
  | .clearExpired => stats.map fun stats => clearExpiredCooldowns stats e.now

def recordedFailure (e : Event) : List Failure :=
  match e.op with
  | .failure reason _ modelId probe =>
    if isRecorded toLowerCase profile reason probe then [⟨reason, modelId⟩] else []
  | _ => []

/-- The cooldown window has not ended. -/
def cooldownOpen (stats : Option ProfileUsageStats) (now : Int) : Bool :=
  match stats.bind (·.cooldownUntil) with
  | some ms => decide (now < ms)
  | none => false

/-- The failures of the window that is open after the event. -/
def nextWindow (s : System) (e : Event) : List Failure :=
  if cooldownOpen (apply toLowerCase profile s.stats e) e.now then
    (if cooldownOpen s.stats e.now then s.window else []) ++ recordedFailure toLowerCase profile e
  else []

def next (s : System) (e : Event) : System where
  clock := e.now
  stats := apply toLowerCase profile s.stats e
  window := nextWindow toLowerCase profile s e

/-- Time does not run backwards, and the clock shows a date. -/
def Step (s : System) (e : Event) (t : System) : Prop :=
  s.clock ≤ e.now ∧ asDateTimestampMs (some e.now) = some e.now ∧ t = next toLowerCase profile s e

/-- The states of a profile that starts without a record. -/
abbrev Reached : System → Prop :=
  Lts.Reachable (fun s => s.stats = none ∧ s.window = []) (Step toLowerCase profile)

/-! ## Windows -/

section Windows

variable {w : Option Int} {now ms d : Int} {stats : ProfileUsageStats}

variable {u : Int}

theorem asDateTimestampMs_eq_some : asDateTimestampMs w = some u ↔
      w = some u ∧ -MAX_DATE_TIMESTAMP_MS ≤ u ∧ u ≤ MAX_DATE_TIMESTAMP_MS := by
  simp [asDateTimestampMs, Option.filter_eq_some_iff]

theorem isActive_iff : isActiveUnusableWindow w now = true ↔
    ∃ u, w = some u ∧ 0 < u ∧ now < u ∧ u ≤ MAX_DATE_TIMESTAMP_MS := by
  unfold isActiveUnusableWindow
  constructor
  · intro h
    split at h
    · rename_i u hu
      obtain ⟨rfl, -, hle⟩ := asDateTimestampMs_eq_some.1 hu
      simp only [Bool.and_eq_true, decide_eq_true_eq] at h
      exact ⟨u, rfl, h.1, h.2, hle⟩
    · cases h
  · intro h
    obtain ⟨u, rfl, hpos, hnow, hle⟩ := h
    have hdate : asDateTimestampMs (some u) = some u :=
      asDateTimestampMs_eq_some.2 ⟨rfl, by have := hle; unfold MAX_DATE_TIMESTAMP_MS; omega, hle⟩
    rw [hdate]
    simp [hpos, hnow]

/-- The end of an active window, and that it is one. -/
def ActiveUntil (w : Option Int) (now u : Int) : Prop :=
  w = some u ∧ 0 < u ∧ now < u ∧ u ≤ MAX_DATE_TIMESTAMP_MS

/-- The record without the windows that are over. -/
def stillActive (stats : ProfileUsageStats) (now : Int) : ProfileUsageStats :=
  { stats with
    blockedUntil := stats.blockedUntil.filter fun u => isActiveUnusableWindow (some u) now
    cooldownUntil := stats.cooldownUntil.filter fun u => isActiveUnusableWindow (some u) now
    disabledUntil := stats.disabledUntil.filter fun u => isActiveUnusableWindow (some u) now }

/-- The profile's unusable-until time over the windows that are still active. -/
def unusableUntilAt (stats : Option ProfileUsageStats) (now : Int) : Option Int :=
  stats.bind fun stats => resolveProfileUnusableUntil (stillActive stats now)

/-- The second time is not earlier than the first. -/
def NotEarlier (before after : Option Int) : Prop :=
  ∀ u, before = some u → ∃ v, after = some v ∧ u ≤ v

/-- The ends of the windows that are active. -/
def activeEnds (stats : Option ProfileUsageStats) (now : Int) : List Int :=
  match stats with
  | none => []
  | some stats =>
    ((stillActive stats now).windows.filterMap asDateTimestampMs).filter fun u => decide (0 < u)

theorem unusableUntilAt_eq (stats : Option ProfileUsageStats) (now : Int) :
    unusableUntilAt stats now = (activeEnds stats now).max? := by
  cases stats <;> rfl

theorem asDateTimestampMs_filter_active :
    (asDateTimestampMs (w.filter fun u => isActiveUnusableWindow (some u) now) = some u ∧ 0 < u) ↔
      ActiveUntil w now u := by
  rw [asDateTimestampMs_eq_some, Option.filter_eq_some_iff, isActive_iff]
  constructor
  · intro h
    obtain ⟨⟨⟨hw, v, hv, hpos, hnow, hle⟩, -⟩, -⟩ := h
    cases hv
    exact ⟨hw, hpos, hnow, hle⟩
  · intro h
    obtain ⟨hw, hpos, hnow, hle⟩ := h
    refine ⟨⟨⟨hw, u, rfl, hpos, hnow, hle⟩, ?_, hle⟩, hpos⟩
    omega

theorem mem_activeEnds :
    u ∈ activeEnds (some stats) now ↔ ∃ w ∈ stats.windows, ActiveUntil w now u := by
  simp only [activeEnds, List.mem_filter, List.mem_filterMap, decide_eq_true_eq,
    ProfileUsageStats.windows, stillActive, List.mem_cons, List.not_mem_nil, or_false,
    exists_eq_or_imp, exists_eq_left]
  simp only [or_and_right, asDateTimestampMs_filter_active]

theorem notEarlier_max? {before after : List Int} :
    NotEarlier before.max? after.max? ↔ ∀ u ∈ before, ∃ v ∈ after, u ≤ v := by
  constructor
  · intro h u hu
    obtain ⟨m, hm⟩ : ∃ m, before.max? = some m := by
      cases hb : before.max? with
      | none => rw [List.max?_eq_none_iff.1 hb] at hu; cases hu
      | some m => exact ⟨m, rfl⟩
    obtain ⟨v, hv, hle⟩ := h m hm
    have hmem := (List.max?_eq_some_iff.1 hv).1
    exact ⟨v, hmem, ((List.max?_eq_some_iff.1 hm).2 u hu).trans hle⟩
  · intro h u hu
    obtain ⟨v, hv, hle⟩ := h u (List.max?_eq_some_iff.1 hu).1
    cases ha : after.max? with
    | none => rw [List.max?_eq_none_iff.1 ha] at hv; cases hv
    | some m => exact ⟨m, rfl, hle.trans ((List.max?_eq_some_iff.1 ha).2 v hv)⟩

theorem notEarlier_iff {before after : Option ProfileUsageStats} :
    NotEarlier (unusableUntilAt before now) (unusableUntilAt after now) ↔
      ∀ u ∈ activeEnds before now, ∃ v ∈ activeEnds after now, u ≤ v := by
  rw [unusableUntilAt_eq, unusableUntilAt_eq, notEarlier_max?]

/-- An active window stays as it is. -/
def Keeps (now : Int) (w w' : Option Int) : Prop := ∀ u, ActiveUntil w now u → w' = some u

/-- An active window is followed by one that ends no earlier. -/
def Extends (now : Int) (w w' : Option Int) : Prop :=
  ∀ u, ActiveUntil w now u → ∃ v, ActiveUntil w' now v ∧ u ≤ v

theorem Keeps.refl : Keeps now w w := fun _ h => h.1

theorem Keeps.extends {w' : Option Int} (h : Keeps now w w') : Extends now w w' :=
  fun u hu => ⟨u, ⟨h u hu, hu.2⟩, le_rfl⟩

theorem keeps_keepActiveWindowOrRecompute (u : Int) :
    Keeps now w (some (keepActiveWindowOrRecompute w now u)) := by
  intro v hv
  obtain ⟨rfl, -, hnow, -⟩ := hv
  simp [keepActiveWindowOrRecompute, hnow]

theorem keeps_of_expired (h : windowExpired w now = true) : Keeps now w none := by
  intro u hu
  obtain ⟨rfl, -, hnow, -⟩ := hu
  simp only [windowExpired, Bool.and_eq_true, decide_eq_true_eq] at h
  omega

theorem resolveUsageWindowUntil_spec (hnow : now ≤ MAX_DATE_TIMESTAMP_MS) (d : ℚ) :
    now ≤ resolveUsageWindowUntil now d ∧ resolveUsageWindowUntil now d ≤ MAX_DATE_TIMESTAMP_MS := by
  unfold resolveUsageWindowUntil
  split
  · exact ⟨le_rfl, hnow⟩
  · cases h : resolveExpiresAtMsFromDurationMs (max 1 ⌊d⌋) now with
    | none => exact ⟨le_rfl, hnow⟩
    | some u =>
      unfold resolveExpiresAtMsFromDurationMs at h
      split at h
      · cases h
      · cases hdate : asDateTimestampMs (some now) with
        | none => simp [hdate] at h
        | some v =>
          obtain ⟨hv, -⟩ := asDateTimestampMs_eq_some.1 hdate
          simp only [hdate, Option.ite_none_right_eq_some, asDateTimestampMs_eq_some,
            Option.some.injEq] at h hv
          simp only [Option.getD_some]
          omega

end Windows

/-! ## What the writers do to the windows -/

section Writers

variable (stats : ProfileUsageStats) (now : Int) {reason : AuthProfileFailureReason}
  (cfg : ResolvedAuthCooldownConfig) (modelId : Option String)

/-- The reasons that have the disabled window. -/
def hasDisabledLane (reason : AuthProfileFailureReason) : Bool :=
  reason == .billing || reason == .authPermanent

theorem disabledFailureBackoffPolicy_eq_none :
    disabledFailureBackoffPolicy cfg reason = none ↔ hasDisabledLane reason = false := by
  cases reason <;> simp [disabledFailureBackoffPolicy, hasDisabledLane]

theorem computeNext_of_lane (h : hasDisabledLane reason = true) :
    (∃ d, (computeNextProfileUsageStats stats now reason cfg modelId).disabledUntil =
        some (keepActiveWindowOrRecompute stats.disabledUntil now
          (resolveUsageWindowUntil now d))) ∧
      (computeNextProfileUsageStats stats now reason cfg modelId).blockedUntil =
        stats.blockedUntil ∧
      (computeNextProfileUsageStats stats now reason cfg modelId).cooldownUntil =
        stats.cooldownUntil ∧
      (computeNextProfileUsageStats stats now reason cfg modelId).cooldownModel =
        stats.cooldownModel := by
  obtain ⟨policy, hpolicy⟩ : ∃ policy, disabledFailureBackoffPolicy cfg reason = some policy := by
    cases hp : disabledFailureBackoffPolicy cfg reason with
    | none => rw [(disabledFailureBackoffPolicy_eq_none cfg).1 hp] at h; cases h
    | some policy => exact ⟨policy, rfl⟩
  unfold computeNextProfileUsageStats
  rw [hpolicy]
  exact ⟨⟨_, rfl⟩, rfl, rfl, rfl⟩

/-- The model of the cooldown window after one more failure. -/
def nextCooldownModel (stats : Option ProfileUsageStats) (now : Int)
    (reason : AuthProfileFailureReason) (modelId : Option String) : Option String :=
  if cooldownOpen stats now then
    widenCooldownModel (stats.bind (·.cooldownModel)) modelId reason
  else if isModelScopedCooldownReason (some reason) then modelId
  else none

theorem computeNext_of_not_lane (h : hasDisabledLane reason = false) :
    (∃ d, (computeNextProfileUsageStats stats now reason cfg modelId).cooldownUntil =
      some (keepActiveWindowOrRecompute stats.cooldownUntil now (resolveUsageWindowUntil now d))) ∧
      (computeNextProfileUsageStats stats now reason cfg modelId).blockedUntil =
        stats.blockedUntil ∧
      (computeNextProfileUsageStats stats now reason cfg modelId).disabledUntil =
        stats.disabledUntil ∧
      (computeNextProfileUsageStats stats now reason cfg modelId).cooldownModel =
        nextCooldownModel (some stats) now reason modelId := by
  have hpolicy := (disabledFailureBackoffPolicy_eq_none cfg).2 h
  unfold computeNextProfileUsageStats
  rw [hpolicy]
  refine ⟨⟨_, rfl⟩, rfl, rfl, ?_⟩
  unfold nextCooldownModel cooldownOpen
  cases hc : stats.cooldownUntil <;> simp [hc]

theorem computeNext_keeps (reason : AuthProfileFailureReason) :
    Keeps now stats.blockedUntil
        (computeNextProfileUsageStats stats now reason cfg modelId).blockedUntil ∧
      Keeps now stats.cooldownUntil
        (computeNextProfileUsageStats stats now reason cfg modelId).cooldownUntil ∧
      Keeps now stats.disabledUntil
        (computeNextProfileUsageStats stats now reason cfg modelId).disabledUntil := by
  cases h : hasDisabledLane reason with
  | true =>
    obtain ⟨⟨d, hdisabled⟩, hblocked, hcooldown, -⟩ :=
      computeNext_of_lane stats now cfg modelId h
    rw [hdisabled, hblocked, hcooldown]
    exact ⟨.refl, .refl, keeps_keepActiveWindowOrRecompute _⟩
  | false =>
    obtain ⟨⟨d, hcooldown⟩, hblocked, hdisabled, -⟩ :=
      computeNext_of_not_lane stats now cfg modelId h
    rw [hdisabled, hblocked, hcooldown]
    exact ⟨.refl, keeps_keepActiveWindowOrRecompute _, .refl⟩

theorem clearExpiredCooldowns_windows :
    (clearExpiredCooldowns stats now).blockedUntil =
        (if windowExpired stats.blockedUntil now then none else stats.blockedUntil) ∧
      (clearExpiredCooldowns stats now).cooldownUntil =
        (if windowExpired stats.cooldownUntil now then none else stats.cooldownUntil) ∧
      (clearExpiredCooldowns stats now).disabledUntil =
        (if windowExpired stats.disabledUntil now then none else stats.disabledUntil) ∧
      (clearExpiredCooldowns stats now).cooldownModel =
        (if windowExpired stats.cooldownUntil now then none else stats.cooldownModel) := by
  unfold clearExpiredCooldowns
  simp only [apply_ite ProfileUsageStats.blockedUntil, apply_ite ProfileUsageStats.cooldownUntil,
    apply_ite ProfileUsageStats.disabledUntil, apply_ite ProfileUsageStats.cooldownModel, ite_self,
    and_self]

theorem keeps_clear (w : Option Int) :
    Keeps now w (if windowExpired w now then none else w) := by
  split
  · rename_i h
    exact keeps_of_expired h
  · exact .refl

end Writers

end OpenClaw.AuthProfiles
