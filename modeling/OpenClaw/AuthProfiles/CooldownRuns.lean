import OpenClaw.AuthProfiles.Cooldowns

/-!
# The cooldowns of a profile protect it

A block clears the cooldown it finds (`apply_of_block`), every other event keeps or extends each
window (`apply_keeps`). So the profile becomes usable no earlier than it was exactly when a block
ends no earlier than the cooldown, or another window does (`KeepsCooldown`). The model of a cooldown
is dropped by the first failure of its window that is not its own (`Scoped`).
-/

namespace OpenClaw.AuthProfiles

variable {toLowerCase : String → String} {profile : AuthProfileCredential} {s t : System}
  {e : Event} {stats stats' : Option ProfileUsageStats}

/-! ## Blocks -/

/-- The end of the block that an event records. -/
def blockEnd (toLowerCase : String → String) (profile : AuthProfileCredential) (e : Event) :
    Option Int :=
  match e.op with
  | .failure reason _ _ probe =>
    if isRecorded toLowerCase profile reason probe then
      (currentWhamResult toLowerCase profile reason probe).bind fun whamResult =>
        whamResult.blockedUntil.filter (· != 0)
    else none
  | .block blockedUntil _ _ calledAt =>
    if isAuthCooldownBypassedForProvider toLowerCase profile.provider ||
        !isFutureDateTimestampMs blockedUntil calledAt then none
    else some blockedUntil
  | .clearExpired => none

/-- A field of the record, if there is one. -/
abbrev blockedWindow (stats : Option ProfileUsageStats) : Option Int :=
  stats.bind (·.blockedUntil)

abbrev cooldownWindow (stats : Option ProfileUsageStats) : Option Int :=
  stats.bind (·.cooldownUntil)

abbrev disabledWindow (stats : Option ProfileUsageStats) : Option Int :=
  stats.bind (·.disabledUntil)

variable {now u : Int}

theorem mem_activeEnds_iff : u ∈ activeEnds stats now ↔
    ActiveUntil (blockedWindow stats) now u ∨ ActiveUntil (cooldownWindow stats) now u ∨
      ActiveUntil (disabledWindow stats) now u := by
  cases stats with
  | none => simp [activeEnds, ActiveUntil]
  | some stats => simp [mem_activeEnds, ProfileUsageStats.windows]

theorem getD_windows (stats : Option ProfileUsageStats) :
    (stats.getD {}).blockedUntil = blockedWindow stats ∧
      (stats.getD {}).cooldownUntil = cooldownWindow stats ∧
      (stats.getD {}).disabledUntil = disabledWindow stats ∧
      (stats.getD {}).cooldownModel = stats.bind (·.cooldownModel) := by
  cases stats <;> exact ⟨rfl, rfl, rfl, rfl⟩

/-- No block that is on record ends after the last date. -/
def Dated (stats : Option ProfileUsageStats) : Prop :=
  ∀ u, blockedWindow stats = some u → u ≤ MAX_DATE_TIMESTAMP_MS

/-- What a block leaves: the later of its end and that of the block that was active, no cooldown,
and the disabled window. -/
structure Blocked (stats stats' : Option ProfileUsageStats) (now u : Int) : Prop where
  valid : u ≤ MAX_DATE_TIMESTAMP_MS
  blocked : ∃ x, blockedWindow stats' = some (max x u) ∧
    (x = 0 ∨ blockedWindow stats = some x ∧ now < x) ∧
    ∀ v, ActiveUntil (blockedWindow stats) now v → x = v
  cooldown : cooldownWindow stats' = none
  disabled : disabledWindow stats' = disabledWindow stats
  model : stats'.bind (·.cooldownModel) = none

variable {reason : AuthProfileFailureReason}

theorem hasDisabledLane_of_probe {probe : Option WhamCooldownProbeResult}
    {result : WhamCooldownProbeResult}
    (h : currentWhamResult toLowerCase profile reason probe = some result) :
    hasDisabledLane reason = false := by
  unfold currentWhamResult at h
  split at h
  · rename_i hprobe
    cases reason <;> simp_all [shouldProbeWhamForFailure, hasDisabledLane]
  · cases h

theorem existingActiveUntil_cases (w : Option Int) (now : Int) :
    (existingActiveUntil w now = 0 ∨
        w = some (existingActiveUntil w now) ∧ now < existingActiveUntil w now) ∧
      ∀ v, ActiveUntil w now v → existingActiveUntil w now = v := by
  unfold existingActiveUntil
  cases w with
  | none =>
    refine ⟨.inl rfl, fun v hv => ?_⟩
    cases hv.1
  | some ms =>
    dsimp only
    split
    · rename_i hnow
      refine ⟨.inr ⟨rfl, hnow⟩, fun v hv => ?_⟩
      exact Option.some.inj hv.1
    · rename_i hnow
      refine ⟨.inl rfl, fun v hv => ?_⟩
      obtain ⟨hms, -, hv, -⟩ := hv
      cases hms
      exact absurd hv hnow

theorem resolveActiveWindowUntil_cases (w : Option Int) (now : Int) :
    (resolveActiveWindowUntil w now = 0 ∨
        w = some (resolveActiveWindowUntil w now) ∧ now < resolveActiveWindowUntil w now) ∧
      ∀ v, ActiveUntil w now v → resolveActiveWindowUntil w now = v := by
  unfold resolveActiveWindowUntil
  cases hdate : asDateTimestampMs w with
  | none =>
    refine ⟨.inl rfl, fun v hv => ?_⟩
    obtain ⟨rfl, hpos, -, hle⟩ := hv
    have hv : asDateTimestampMs (some v) = some v := by
      refine asDateTimestampMs_eq_some.2 ⟨rfl, ?_, hle⟩
      omega
    rw [hv] at hdate
    cases hdate
  | some ms =>
    obtain ⟨rfl, -⟩ := asDateTimestampMs_eq_some.1 hdate
    dsimp only
    split
    · rename_i hnow
      exact ⟨.inr ⟨rfl, hnow⟩, fun v hv => Option.some.inj hv.1⟩
    · rename_i hnow
      refine ⟨.inl rfl, fun v hv => ?_⟩
      obtain ⟨hms, -, hv, -⟩ := hv
      cases hms
      exact absurd hv hnow

theorem isFutureDateTimestampMs_le (h : isFutureDateTimestampMs u now = true) :
    u ≤ MAX_DATE_TIMESTAMP_MS := by
  unfold isFutureDateTimestampMs at h
  split at h
  · rename_i v _ hv _
    obtain ⟨hv, -, hle⟩ := asDateTimestampMs_eq_some.1 hv
    cases hv
    exact hle
  · cases h

theorem apply_of_block (h : blockEnd toLowerCase profile e = some u) :
    Blocked stats (apply toLowerCase profile stats e) e.now u := by
  obtain ⟨hblocked, -, hdisabled, -⟩ := getD_windows stats
  unfold blockEnd at h
  unfold apply
  cases hop : e.op with
  | failure reason cfg modelId probe =>
    rw [hop] at h
    dsimp only at h ⊢
    -- The probe of the failure found a block.
    split at h
    · rename_i hrecorded
      cases hwham : currentWhamResult toLowerCase profile reason probe with
      | none => rw [hwham] at h; cases h
      | some result =>
        rw [hwham] at h
        have hfilter : result.blockedUntil.filter (· != 0) = some u := h
        have hvalid := result.blockedUntil_le u (Option.filter_eq_some_iff.1 hfilter).1
        obtain ⟨-, -, hlane, -⟩ := computeNext_of_not_lane (stats.getD {}) e.now cfg modelId
          (hasDisabledLane_of_probe hwham)
        obtain ⟨hcases, hactive⟩ := existingActiveUntil_cases (stats.getD {}).blockedUntil e.now
        simp only [markAuthProfileFailure, hrecorded, Bool.not_true, Bool.false_eq_true, if_false,
          hwham, applyWhamCooldownResult, hfilter]
        rw [hblocked] at hcases hactive
        refine ⟨hvalid, ⟨_, ?_, hcases, hactive⟩, rfl, ?_, rfl⟩
        · rw [hblocked]
          rfl
        · exact hlane.trans hdisabled
    · cases h
  | block blockedUntil source modelId calledAt =>
    rw [hop] at h
    dsimp only at h ⊢
    -- The provider reported a block.
    split at h
    · cases h
    · rename_i hcond
      cases h
      obtain ⟨hcases, hactive⟩ := resolveActiveWindowUntil_cases (stats.getD {}).blockedUntil e.now
      simp only [Bool.or_eq_true, Bool.not_eq_true', not_or, Bool.not_eq_false] at hcond
      simp only [markAuthProfileBlockedUntil, hcond.1, hcond.2, Bool.not_true, Bool.or_self,
        Bool.false_eq_true, if_false, buildBlockedProfileUsageStats]
      rw [hblocked] at hcases hactive
      refine ⟨isFutureDateTimestampMs_le hcond.2, ⟨_, ?_, hcases, hactive⟩, rfl, hdisabled, rfl⟩
      rw [hblocked]
      rfl
  | clearExpired =>
    rw [hop] at h
    cases h

/-! ## Every event -/

inductive Written (stats stats' : Option ProfileUsageStats) (now : Int) :
    List Failure → Option Int → Prop
  | same (h : stats' = stats) : Written stats stats' now [] none
  | cleared (h : stats' = stats.map fun stats => clearExpiredCooldowns stats now) :
    Written stats stats' now [] none
  | lane (failure : Failure) (lane : hasDisabledLane failure.reason = true)
      (blocked : blockedWindow stats' = blockedWindow stats)
      (cooldown : cooldownWindow stats' = cooldownWindow stats)
      (model : stats'.bind (·.cooldownModel) = stats.bind (·.cooldownModel))
      (disabled : ∃ u, disabledWindow stats' =
        some (keepActiveWindowOrRecompute (disabledWindow stats) now u)) :
    Written stats stats' now [failure] none
  | cooldown (failure : Failure) (lane : hasDisabledLane failure.reason = false)
      (blocked : blockedWindow stats' = blockedWindow stats)
      (disabled : disabledWindow stats' = disabledWindow stats)
      (model : stats'.bind (·.cooldownModel) =
        nextCooldownModel stats now failure.reason failure.modelId)
      (cooldown : ∃ d, cooldownWindow stats' = some (keepActiveWindowOrRecompute
        (cooldownWindow stats) now (resolveUsageWindowUntil now d))) :
    Written stats stats' now [failure] none
  | probed (failure : Failure) (lane : hasDisabledLane failure.reason = false)
      (blocked : blockedWindow stats' = blockedWindow stats)
      (disabled : disabledWindow stats' = disabledWindow stats)
      (model : stats'.bind (·.cooldownModel) =
        nextCooldownModel stats now failure.reason failure.modelId)
      (cooldown : ∃ d, cooldownWindow stats' = some (max
        (existingActiveUntil (cooldownWindow stats) now) (resolveUsageWindowUntil now d))) :
    Written stats stats' now [failure] none
  | blocked (failures : List Failure) (u : Int) (blocked : Blocked stats stats' now u) :
    Written stats stats' now failures (some u)

/-- An event without an answer of the probe and without a block. -/
def Plain (toLowerCase : String → String) (profile : AuthProfileCredential) (e : Event) : Prop :=
  match e.op with
  | .failure reason _ _ probe => currentWhamResult toLowerCase profile reason probe = none
  | .block _ _ _ _ => False
  | .clearExpired => True

theorem nextCooldownModel_getD (now : Int) (reason : AuthProfileFailureReason)
    (modelId : Option String) :
    nextCooldownModel (some (stats.getD {})) now reason modelId =
      nextCooldownModel stats now reason modelId := by
  cases stats <;> rfl

theorem written_computed (now : Int) (reason : AuthProfileFailureReason)
    (cfg : ResolvedAuthCooldownConfig) (modelId : Option String) :
    Written stats (some (computeNextProfileUsageStats (stats.getD {}) now reason cfg modelId)) now
      [⟨reason, modelId⟩] none := by
  obtain ⟨hblocked, hcooldown, hdisabled, hmodel⟩ := getD_windows stats
  cases hlane : hasDisabledLane reason with
  | true =>
    obtain ⟨⟨d, hd⟩, hb, hc, hm⟩ := computeNext_of_lane (stats.getD {}) now cfg modelId hlane
    refine .lane _ hlane (hb.trans hblocked) (hc.trans hcooldown) (hm.trans hmodel)
      ⟨resolveUsageWindowUntil now d, ?_⟩
    rw [← hdisabled]
    exact hd
  | false =>
    obtain ⟨⟨d, hd⟩, hb, hdis, hm⟩ :=
      computeNext_of_not_lane (stats.getD {}) now cfg modelId hlane
    refine .cooldown _ hlane (hb.trans hblocked) (hdis.trans hdisabled) ?_ ⟨d, ?_⟩
    · exact hm.trans (nextCooldownModel_getD now reason modelId)
    · rw [← hcooldown]
      exact hd

theorem written_probed (now : Int) (cfg : ResolvedAuthCooldownConfig) (modelId : Option String)
    (result : WhamCooldownProbeResult) (hlane : hasDisabledLane reason = false)
    (hfilter : result.blockedUntil.filter (· != 0) = none) :
    Written stats (some (applyWhamCooldownResult (stats.getD {})
      (computeNextProfileUsageStats (stats.getD {}) now reason cfg modelId) now result)) now
      [⟨reason, modelId⟩] none := by
  obtain ⟨hblocked, hcooldown, hdisabled, -⟩ := getD_windows stats
  obtain ⟨-, hb, hdis, hm⟩ := computeNext_of_not_lane (stats.getD {}) now cfg modelId hlane
  unfold applyWhamCooldownResult
  rw [hfilter]
  refine .probed _ hlane (hb.trans hblocked) (hdis.trans hdisabled) ?_ ⟨result.cooldownMs, ?_⟩
  · exact hm.trans (nextCooldownModel_getD now reason modelId)
  · rw [← hcooldown]
    rfl

theorem apply_written (toLowerCase : String → String) (profile : AuthProfileCredential)
    (stats : Option ProfileUsageStats) (e : Event) :
    Written stats (apply toLowerCase profile stats e) e.now
      (recordedFailure toLowerCase profile e) (blockEnd toLowerCase profile e) := by
  cases hend : blockEnd toLowerCase profile e with
  | some u => exact .blocked _ u (apply_of_block hend)
  | none =>
    unfold blockEnd at hend
    unfold recordedFailure apply
    split at hend
    · rename_i reason cfg modelId probe hop
      rw [hop]
      dsimp only
      by_cases hrecorded : isRecorded toLowerCase profile reason probe = true
      · rw [if_pos hrecorded] at hend ⊢
        simp only [markAuthProfileFailure, hrecorded, Bool.not_true, Bool.false_eq_true, if_false]
        cases hwham : currentWhamResult toLowerCase profile reason probe with
        | none => exact written_computed e.now reason cfg modelId
        | some result =>
          rw [hwham] at hend
          exact written_probed e.now cfg modelId result (hasDisabledLane_of_probe hwham) hend
      · rw [if_neg hrecorded]
        refine .same ?_
        simp [markAuthProfileFailure, hrecorded]
    · rename_i hop
      rw [hop]
      refine .same ?_
      split at hend
      · rename_i hcond
        simp only [markAuthProfileBlockedUntil, hcond, if_true]
      · cases hend
    · rename_i hop
      rw [hop]
      exact .cleared rfl

theorem existing_extends {w : Option Int} {d : Int} (hd : d ≤ MAX_DATE_TIMESTAMP_MS) :
    Extends now w (some (max (existingActiveUntil w now) d)) := by
  intro u hu
  have hexisting := (existingActiveUntil_cases w now).2 u hu
  obtain ⟨-, hpos, hnow, hle⟩ := hu
  rw [hexisting]
  exact ⟨max u d, ⟨rfl, by omega, by omega, by omega⟩, by omega⟩

theorem keeps_cleared (stats : Option ProfileUsageStats) (now : Int) :
    Keeps now (blockedWindow stats)
        (blockedWindow (stats.map fun stats => clearExpiredCooldowns stats now)) ∧
      Keeps now (cooldownWindow stats)
        (cooldownWindow (stats.map fun stats => clearExpiredCooldowns stats now)) ∧
      Keeps now (disabledWindow stats)
        (disabledWindow (stats.map fun stats => clearExpiredCooldowns stats now)) := by
  cases stats with
  | none => exact ⟨.refl, .refl, .refl⟩
  | some stats =>
    obtain ⟨hblocked, hcooldown, hdisabled, -⟩ := clearExpiredCooldowns_windows stats now
    simp only [blockedWindow, cooldownWindow, disabledWindow, Option.map_some, Option.bind_some,
      hblocked, hcooldown, hdisabled]
    exact ⟨keeps_clear now _, keeps_clear now _, keeps_clear now _⟩

variable {failures : List Failure}

theorem Written.extends (h : Written stats stats' now failures none)
    (hnow : now ≤ MAX_DATE_TIMESTAMP_MS) :
    Extends now (blockedWindow stats) (blockedWindow stats') ∧
      Extends now (cooldownWindow stats) (cooldownWindow stats') ∧
      Extends now (disabledWindow stats) (disabledWindow stats') := by
  cases h with
  | same h =>
    rw [h]
    exact ⟨Keeps.refl.extends, Keeps.refl.extends, Keeps.refl.extends⟩
  | cleared h =>
    obtain ⟨hblocked, hcooldown, hdisabled⟩ := keeps_cleared stats now
    rw [h]
    exact ⟨hblocked.extends, hcooldown.extends, hdisabled.extends⟩
  | lane failure hlane hblocked hcooldown hmodel hdisabled =>
    obtain ⟨u, hu⟩ := hdisabled
    rw [hblocked, hcooldown, hu]
    exact ⟨Keeps.refl.extends, Keeps.refl.extends,
      (keeps_keepActiveWindowOrRecompute u).extends⟩
  | cooldown failure hlane hblocked hdisabled hmodel hcooldown =>
    obtain ⟨d, hd⟩ := hcooldown
    rw [hblocked, hdisabled, hd]
    exact ⟨Keeps.refl.extends, (keeps_keepActiveWindowOrRecompute _).extends,
      Keeps.refl.extends⟩
  | probed failure hlane hblocked hdisabled hmodel hcooldown =>
    obtain ⟨d, hd⟩ := hcooldown
    rw [hblocked, hdisabled, hd]
    exact ⟨Keeps.refl.extends, existing_extends (resolveUsageWindowUntil_spec hnow d).2,
      Keeps.refl.extends⟩

theorem apply_keeps (h : Plain toLowerCase profile e) :
    Keeps e.now (cooldownWindow stats) (cooldownWindow (apply toLowerCase profile stats e)) ∧
      Keeps e.now (disabledWindow stats) (disabledWindow (apply toLowerCase profile stats e)) := by
  unfold Plain at h
  unfold apply
  cases hop : e.op with
  | failure reason cfg modelId probe =>
    rw [hop] at h
    dsimp only at h ⊢
    unfold markAuthProfileFailure
    rw [h]
    split
    · exact ⟨.refl, .refl⟩
    · obtain ⟨-, hcooldown, hdisabled⟩ :=
        computeNext_keeps (stats.getD {}) e.now cfg modelId reason
      obtain ⟨-, hc, hd, -⟩ := getD_windows stats
      rw [hc] at hcooldown
      rw [hd] at hdisabled
      exact ⟨hcooldown, hdisabled⟩
  | block blockedUntil source modelId calledAt =>
    rw [hop] at h
    exact h.elim
  | clearExpired => exact (keeps_cleared stats e.now).2

/-! ## The end of the windows -/

/-- A block ends no earlier than the cooldown it clears, or a block or disabled window that is
active does. -/
def KeepsCooldown (toLowerCase : String → String) (profile : AuthProfileCredential) (s : System)
    (e : Event) : Prop :=
  ∀ b, blockEnd toLowerCase profile e = some b →
    ∀ u, ActiveUntil (cooldownWindow s.stats) e.now u →
      u ≤ b ∨ (∃ v, ActiveUntil (blockedWindow s.stats) e.now v ∧ u ≤ v) ∨
        ∃ v, ActiveUntil (disabledWindow s.stats) e.now v ∧ u ≤ v

variable {block : Option Int}

theorem Written.dated (h : Written stats stats' now failures block) (hdated : Dated stats) :
    Dated stats' := by
  intro u hu
  cases h with
  | same h => exact hdated u (h ▸ hu)
  | cleared h =>
    cases stats with
    | none =>
      rw [h] at hu
      cases hu
    | some stats =>
      rw [h, blockedWindow, Option.map_some, Option.bind_some,
        (clearExpiredCooldowns_windows stats now).1] at hu
      split at hu
      · cases hu
      · exact hdated u hu
  | lane _ _ hblocked => exact hdated u (hblocked ▸ hu)
  | cooldown _ _ hblocked => exact hdated u (hblocked ▸ hu)
  | probed _ _ hblocked => exact hdated u (hblocked ▸ hu)
  | blocked _ b hblocked =>
    obtain ⟨x, hx, hold, -⟩ := hblocked.blocked
    have hb := hblocked.valid
    rw [hx] at hu
    cases hu
    obtain rfl | ⟨hx, -⟩ := hold
    · unfold MAX_DATE_TIMESTAMP_MS at hb ⊢
      omega
    · exact max_le (hdated x hx) hb

theorem notEarlier_of_extends (h : Extends now (blockedWindow stats) (blockedWindow stats') ∧
      Extends now (cooldownWindow stats) (cooldownWindow stats') ∧
      Extends now (disabledWindow stats) (disabledWindow stats')) :
    NotEarlier (unusableUntilAt stats now) (unusableUntilAt stats' now) := by
  obtain ⟨hblocked, hcooldown, hdisabled⟩ := h
  refine notEarlier_iff.2 fun u hu => ?_
  simp only [mem_activeEnds_iff] at hu ⊢
  obtain hu | hu | hu := hu
  · obtain ⟨v, hv, hle⟩ := hblocked u hu
    exact ⟨v, .inl hv, hle⟩
  · obtain ⟨v, hv, hle⟩ := hcooldown u hu
    exact ⟨v, .inr (.inl hv), hle⟩
  · obtain ⟨v, hv, hle⟩ := hdisabled u hu
    exact ⟨v, .inr (.inr hv), hle⟩

theorem Blocked.notEarlier_iff {b : Int} (h : Blocked stats stats' now b) (hdated : Dated stats) :
    NotEarlier (unusableUntilAt stats now) (unusableUntilAt stats' now) ↔
      ∀ u, ActiveUntil (cooldownWindow stats) now u →
        u ≤ b ∨ (∃ v, ActiveUntil (blockedWindow stats) now v ∧ u ≤ v) ∨
          ∃ v, ActiveUntil (disabledWindow stats) now v ∧ u ≤ v := by
  obtain ⟨x, hx, hold, hactive⟩ := h.blocked
  rw [OpenClaw.AuthProfiles.notEarlier_iff]
  simp only [mem_activeEnds_iff, hx, h.cooldown, h.disabled]
  constructor
  · intro hle u hu
    obtain ⟨v, hv, huv⟩ := hle u (.inr (.inl hu))
    obtain hv | hv | hv := hv
    · obtain ⟨hmax, hpos, hnow, hdate⟩ := hv
      cases hmax
      obtain hb | hb := le_total x b
      · exact .inl (by omega)
      · rw [max_eq_left hb] at hpos hnow hdate huv
        obtain rfl | ⟨hx, -⟩ := hold
        · omega
        · exact .inr (.inl ⟨x, ⟨hx, hpos, hnow, hdate⟩, huv⟩)
    · cases hv.1
    · exact .inr (.inr ⟨v, hv, huv⟩)
  · intro hcooldown u hu
    have hxle : x ≤ MAX_DATE_TIMESTAMP_MS := by
      obtain rfl | ⟨hx, -⟩ := hold
      · decide
      · exact hdated x hx
    -- Where the later block ends no earlier than `u`, it is the window that follows.
    have hfollow : ∀ v, u ≤ v → 0 < u → now < u → v ≤ max x b →
        ∃ v, (ActiveUntil (some (max x b)) now v ∨ ActiveUntil none now v ∨
          ActiveUntil (disabledWindow stats) now v) ∧ u ≤ v := fun v huv hpos hnow hv =>
      ⟨max x b, .inl ⟨rfl, by omega, by omega, max_le hxle h.valid⟩, by omega⟩
    obtain hu | hu | hu := hu
    · have := hactive u hu
      exact hfollow u le_rfl hu.2.1 hu.2.2.1 (by omega)
    · obtain hle | ⟨v, hv, hle⟩ | ⟨v, hv, hle⟩ := hcooldown u hu
      · exact hfollow b hle hu.2.1 hu.2.2.1 (le_max_right x b)
      · have := hactive v hv
        exact hfollow v hle hu.2.1 hu.2.2.1 (by omega)
      · exact ⟨v, .inr (.inr hv), hle⟩
    · exact ⟨u, .inr (.inr hu), le_rfl⟩

/-! ## The model of a cooldown -/

variable {modelId : Option String} {model : String}

theorem widenCooldownModel_eq_some {existing : Option String}
    (hmodel : truthy (some model) = true)
    (h : widenCooldownModel existing modelId reason = some model) :
    existing = some model ∧ modelId = some model ∧
      isModelScopedCooldownReason (some reason) = true := by
  unfold widenCooldownModel at h
  split at h
  · cases h
  rename_i hsame
  split at h
  · cases h
  rename_i hunknown
  split at h
  · cases h
  rename_i hscoped
  subst h
  have hscoped : isModelScopedCooldownReason (some reason) = true := by simpa using hscoped
  have hknown : truthy modelId = true := by simpa [hscoped, hmodel] using hunknown
  refine ⟨rfl, ?_, hscoped⟩
  have hne : ¬ (some model != modelId) = true := by simpa [hmodel, hknown] using hsame
  exact (by simpa using hne : some model = modelId).symm

theorem nextCooldownModel_eq_some (hmodel : truthy (some model) = true)
    (h : nextCooldownModel stats now reason modelId = some model) :
    (cooldownOpen stats now = true → stats.bind (·.cooldownModel) = some model) ∧
      modelId = some model ∧ isModelScopedCooldownReason (some reason) = true := by
  unfold nextCooldownModel at h
  split at h
  · obtain ⟨hexisting, hmodelId, hscoped⟩ := widenCooldownModel_eq_some hmodel h
    exact ⟨fun _ => hexisting, hmodelId, hscoped⟩
  · rename_i hopen
    split at h
    · rename_i hscoped
      exact ⟨fun h => absurd h hopen, h, hscoped⟩
    · cases h

/-- A failure that leaves the cooldown to its model, apart from those with the disabled window. -/
def Failure.OfModel (model : String) (failure : Failure) : Prop :=
  hasDisabledLane failure.reason = false →
    isModelScopedCooldownReason (some failure.reason) = true ∧ failure.modelId = some model

/-- The model of a cooldown is that of every failure of its window. -/
def Scoped (s : System) : Prop :=
  ∀ model, truthy (some model) = true → s.stats.bind (·.cooldownModel) = some model →
    ∀ failure ∈ s.window, failure.OfModel model

theorem Scoped.step (h : Scoped s) : Scoped (next toLowerCase profile s e) := by
  intro model hmodel hstats failure hmem
  replace hstats : (apply toLowerCase profile s.stats e).bind (·.cooldownModel) = some model :=
    hstats
  replace hmem : failure ∈ nextWindow toLowerCase profile s e := hmem
  unfold nextWindow at hmem
  split at hmem
  case isFalse => cases hmem
  -- A failure from before counts while the window was open.
  have hbefore (hsame : cooldownOpen s.stats e.now = true →
        s.stats.bind (·.cooldownModel) = some model) :
      failure ∈ (if cooldownOpen s.stats e.now then s.window else []) → failure.OfModel model := by
    intro hmem
    split at hmem
    · rename_i hopen
      exact h model hmodel (hsame hopen) failure hmem
    · cases hmem
  have hwritten := apply_written toLowerCase profile s.stats e
  revert hmem
  generalize recordedFailure toLowerCase profile e = failures at hwritten ⊢
  generalize blockEnd toLowerCase profile e = block at hwritten
  intro hmem
  cases hwritten with
  | same hsame =>
    rw [List.append_nil] at hmem
    exact hbefore (fun _ => hsame ▸ hstats) hmem
  | cleared hcleared =>
    rw [List.append_nil] at hmem
    refine hbefore (fun _ => ?_) hmem
    cases hs : s.stats with
    | none =>
      rw [hcleared, hs] at hstats
      cases hstats
    | some stats =>
      rw [hcleared, hs, Option.map_some, Option.bind_some,
        (clearExpiredCooldowns_windows stats e.now).2.2.2] at hstats
      split at hstats
      · cases hstats
      · exact hstats
  | lane new hlane hblocked hcooldown hsame =>
    obtain hmem | hmem := List.mem_append.1 hmem
    · exact hbefore (fun _ => hsame ▸ hstats) hmem
    · obtain rfl := List.mem_singleton.1 hmem
      intro hnot
      rw [hlane] at hnot
      cases hnot
  | cooldown new hlane hblocked hdisabled hnext
  | probed new hlane hblocked hdisabled hnext =>
    rw [hnext] at hstats
    obtain ⟨hsame, hmodelId, hscoped⟩ := nextCooldownModel_eq_some hmodel hstats
    obtain hmem | hmem := List.mem_append.1 hmem
    · exact hbefore hsame hmem
    · obtain rfl := List.mem_singleton.1 hmem
      exact fun _ => ⟨hscoped, hmodelId⟩
  | blocked _ _ hblocked =>
    rw [hblocked.model] at hstats
    cases hstats

/-- The window of a cooldown that has not ended holds the failure that opened it. -/
def Opened (s : System) : Prop :=
  cooldownOpen s.stats s.clock = true →
    ∃ failure ∈ s.window, hasDisabledLane failure.reason = false

theorem cooldownOpen_iff :
    cooldownOpen stats now = true ↔ ∃ u, cooldownWindow stats = some u ∧ now < u := by
  unfold cooldownOpen
  rw [show stats.bind (·.cooldownUntil) = cooldownWindow stats from rfl]
  cases h : cooldownWindow stats with
  | none => simp
  | some u => simp

theorem cooldownOpen_mono {later : Int} (hle : now ≤ later) (h : cooldownOpen stats later = true) :
    cooldownOpen stats now = true := by
  obtain ⟨u, hu, hlater⟩ := cooldownOpen_iff.1 h
  exact cooldownOpen_iff.2 ⟨u, hu, by omega⟩

theorem Written.opens (h : Written stats stats' now failures block)
    (hopen : cooldownOpen stats' now = true) : cooldownOpen stats now = true ∨
      ∃ failure ∈ failures, hasDisabledLane failure.reason = false := by
  obtain ⟨u, hu, hnow⟩ := cooldownOpen_iff.1 hopen
  cases h with
  | same hsame => exact .inl (hsame ▸ hopen)
  | cleared hcleared =>
    refine .inl (cooldownOpen_iff.2 ⟨u, ?_, hnow⟩)
    cases stats with
    | none =>
      rw [hcleared] at hu
      cases hu
    | some stats =>
      rw [hcleared, cooldownWindow, Option.map_some, Option.bind_some,
        (clearExpiredCooldowns_windows stats now).2.1] at hu
      split at hu
      · cases hu
      · exact hu
  | lane _ _ _ hcooldown => exact .inl (cooldownOpen_iff.2 ⟨u, hcooldown ▸ hu, hnow⟩)
  | cooldown failure hlane => exact .inr ⟨failure, List.mem_singleton_self _, hlane⟩
  | probed failure hlane => exact .inr ⟨failure, List.mem_singleton_self _, hlane⟩
  | blocked _ _ hblocked =>
    rw [hblocked.cooldown] at hu
    cases hu

theorem Opened.step (h : Opened s) (hclock : s.clock ≤ e.now) :
    Opened (next toLowerCase profile s e) := by
  intro hopen
  replace hopen : cooldownOpen (apply toLowerCase profile s.stats e) e.now = true := hopen
  show ∃ failure ∈ nextWindow toLowerCase profile s e, _
  unfold nextWindow
  rw [if_pos hopen]
  obtain hbefore | ⟨failure, hmem, hlane⟩ :=
    (apply_written toLowerCase profile s.stats e).opens hopen
  · obtain ⟨failure, hmem, hlane⟩ := h (cooldownOpen_mono hclock hbefore)
    rw [if_pos hbefore]
    exact ⟨failure, List.mem_append_left _ hmem, hlane⟩
  · exact ⟨failure, List.mem_append_right _ hmem, hlane⟩

/-- A profile whose provider manages its cooldowns has no record. -/
def Unmanaged (toLowerCase : String → String) (profile : AuthProfileCredential) (s : System) :
    Prop :=
  isAuthCooldownBypassedForProvider toLowerCase profile.provider = true → s.stats = none

theorem Unmanaged.step (h : Unmanaged toLowerCase profile s) :
    Unmanaged toLowerCase profile (next toLowerCase profile s e) := by
  intro hbypassed
  show apply toLowerCase profile s.stats e = none
  unfold apply
  rw [h hbypassed]
  split
  · simp [markAuthProfileFailure, isRecorded, hbypassed]
  · simp [markAuthProfileBlockedUntil, hbypassed]
  · rfl

/-! ## Runs -/

/-- What holds of every state of a run. -/
structure Invariant (toLowerCase : String → String) (profile : AuthProfileCredential)
    (s : System) : Prop where
  dated : Dated s.stats
  ofModel : Scoped s
  opened : Opened s
  unmanaged : Unmanaged toLowerCase profile s

theorem Reached.invariant (h : Reached toLowerCase profile s) :
    Invariant toLowerCase profile s := by
  refine Lts.Reachable.invariant h (fun s hs => ?_) fun s e t hs ht => ?_
  · obtain ⟨hstats, hwindow⟩ := hs
    refine ⟨?_, ?_, ?_, fun _ => hstats⟩
    · intro u hu
      rw [hstats] at hu
      cases hu
    · intro model _ hmodel
      rw [hstats] at hmodel
      cases hmodel
    · intro hopen
      rw [hstats] at hopen
      cases hopen
  · obtain ⟨hclock, -, rfl⟩ := ht
    exact ⟨(apply_written toLowerCase profile s.stats e).dated hs.dated, hs.ofModel.step,
      hs.opened.step hclock, hs.unmanaged.step⟩

/-- A window is active. -/
def AnyActive (stats : Option ProfileUsageStats) (now : Int) : Prop :=
  isActiveUnusableWindow (blockedWindow stats) now = true ∨
    isActiveUnusableWindow (cooldownWindow stats) now = true ∨
    isActiveUnusableWindow (disabledWindow stats) now = true

/-- Only a cooldown is active, and all that failed in its window is one model, not this one. -/
structure OtherModelOnly (s : System) (now : Int) (forModel : Option String) : Prop where
  blocked : isActiveUnusableWindow (blockedWindow s.stats) now = false
  disabled : isActiveUnusableWindow (disabledWindow s.stats) now = false
  opened : ∃ failure ∈ s.window, hasDisabledLane failure.reason = false
  model : ∃ model, some model ≠ forModel ∧ ∀ failure ∈ s.window, failure.OfModel model

theorem unusable_of_active {stats : ProfileUsageStats} (h : AnyActive (some stats) now) :
    ∃ v, resolveProfileUnusableUntil stats = some v ∧ now < v := by
  obtain ⟨w, hw, u, hu⟩ : ∃ w ∈ stats.windows, ∃ u, ActiveUntil w now u := by
    obtain h | h | h := h
    · exact ⟨_, .head _, isActive_iff.1 h⟩
    · exact ⟨_, .tail _ (.head _), isActive_iff.1 h⟩
    · exact ⟨_, .tail _ (.tail _ (.head _)), isActive_iff.1 h⟩
  obtain ⟨hwu, hpos, hnow, hle⟩ := hu
  have hdate : asDateTimestampMs w = some u := by
    refine asDateTimestampMs_eq_some.2 ⟨hwu, ?_, hle⟩
    omega
  have hmem : u ∈ (stats.windows.filterMap asDateTimestampMs).filter fun u => decide (0 < u) :=
    List.mem_filter.2 ⟨List.mem_filterMap.2 ⟨w, hw, hdate⟩, by simpa using hpos⟩
  unfold resolveProfileUnusableUntil
  cases hmax : ((stats.windows.filterMap asDateTimestampMs).filter
      fun u => decide (0 < u)).max? with
  | none => rw [List.max?_eq_none_iff.1 hmax] at hmem; cases hmem
  | some v => exact ⟨v, rfl, lt_of_lt_of_le hnow ((List.max?_eq_some_iff.1 hmax).2 u hmem)⟩

variable {forModel : Option String}

theorem bypass_of_not_inCooldown {stats : ProfileUsageStats}
    (hmanaged : isAuthCooldownBypassedForProvider toLowerCase profile.provider = false)
    (hactive : AnyActive (some stats) now)
    (h : isProfileInCooldown toLowerCase profile (some stats) now forModel = false) :
    shouldBypassModelScopedCooldown stats now forModel = true := by
  obtain ⟨v, hv, hnow⟩ := unusable_of_active hactive
  by_contra hnot
  simp [isProfileInCooldown, hmanaged, hnot, hv, hnow] at h

theorem Invariant.otherModelOnly (h : Invariant toLowerCase profile s) (hclock : s.clock ≤ now)
    (hactive : AnyActive s.stats now)
    (hnot : isProfileInCooldown toLowerCase profile s.stats now forModel = false) :
    OtherModelOnly s now forModel := by
  cases hs : s.stats with
  | none =>
    rw [hs] at hactive
    obtain hactive | hactive | hactive := hactive <;> cases hactive
  | some stats =>
    have hmanaged : isAuthCooldownBypassedForProvider toLowerCase profile.provider = false := by
      by_contra hbypassed
      have hnone := h.unmanaged (by simpa using hbypassed)
      rw [hs] at hnone
      cases hnone
    rw [hs] at hactive hnot
    have hbypass := bypass_of_not_inCooldown hmanaged hactive hnot
    unfold shouldBypassModelScopedCooldown at hbypass
    simp only [Bool.and_eq_true, Bool.not_eq_true', bne_iff_ne, ne_eq] at hbypass
    obtain ⟨⟨⟨⟨⟨-, -⟩, hmodel⟩, hother⟩, hblocked⟩, hdisabled⟩ := hbypass
    have hcooldown : isActiveUnusableWindow stats.cooldownUntil now = true := by
      obtain hactive | hactive | hactive := hactive
      · exact absurd hactive (by simpa using hblocked)
      · exact hactive
      · exact absurd hactive (by simpa using hdisabled)
    have hopen : cooldownOpen s.stats s.clock = true := by
      obtain ⟨u, hu, -, hnow, -⟩ := isActive_iff.1 hcooldown
      exact cooldownOpen_mono hclock (cooldownOpen_iff.2 ⟨u, hs ▸ hu, hnow⟩)
    obtain ⟨model, heq⟩ : ∃ model, stats.cooldownModel = some model := by
      cases hm : stats.cooldownModel with
      | none => rw [hm] at hmodel; cases hmodel
      | some model => exact ⟨model, rfl⟩
    rw [heq] at hmodel hother
    refine ⟨hs ▸ hblocked, hs ▸ hdisabled, h.opened hopen, model, hother, ?_⟩
    exact h.ofModel model hmodel (hs ▸ heq)

/-- The profile becomes usable no earlier through an event. -/
def KeepsUntil (s : System) (e : Event) (t : System) : Prop :=
  NotEarlier (unusableUntilAt s.stats e.now) (unusableUntilAt t.stats e.now)

/-- An event without the probe's answer and without a block leaves an active cooldown and an active
disabled window exactly as they were. -/
def PlainKeeps (toLowerCase : String → String) (profile : AuthProfileCredential) (s : System) :
    Prop :=
  ∀ e t, Step toLowerCase profile s e t → Plain toLowerCase profile e →
    Keeps e.now (cooldownWindow s.stats) (cooldownWindow t.stats) ∧
      Keeps e.now (disabledWindow s.stats) (disabledWindow t.stats)

/-- A profile with an active window is passed over only for another model. -/
def UsableForOthersOnly (toLowerCase : String → String) (profile : AuthProfileCredential)
    (s : System) : Prop :=
  ∀ now forModel, s.clock ≤ now → AnyActive s.stats now →
    isProfileInCooldown toLowerCase profile s.stats now forModel = false →
      OtherModelOnly s now forModel

/-- **Cooldowns.** -/
theorem cooldowns_protect_profile (toLowerCase : String → String)
    (profile : AuthProfileCredential) (s : System) (h : Reached toLowerCase profile s) :
    (∀ e t, Step toLowerCase profile s e t →
        (KeepsUntil s e t ↔ KeepsCooldown toLowerCase profile s e)) ∧
      PlainKeeps toLowerCase profile s ∧ UsableForOthersOnly toLowerCase profile s := by
  have hinv := Reached.invariant h
  refine ⟨fun e t ht => ?_, fun e t ht hplain => ?_, fun now forModel hclock hactive hnot => ?_⟩
  · obtain ⟨-, hdate, rfl⟩ := ht
    have hnow := (asDateTimestampMs_eq_some.1 hdate).2.2
    have hwritten := apply_written toLowerCase profile s.stats e
    show NotEarlier _ (unusableUntilAt (apply toLowerCase profile s.stats e) e.now) ↔ _
    unfold KeepsCooldown
    cases hend : blockEnd toLowerCase profile e with
    | none =>
      rw [hend] at hwritten
      refine ⟨fun _ b hb => ?_, fun _ => notEarlier_of_extends (hwritten.extends hnow)⟩
      cases hb
    | some b =>
      rw [(apply_of_block hend).notEarlier_iff hinv.dated]
      refine ⟨fun h b' hb => ?_, fun h => h b rfl⟩
      cases hb
      exact h
  · obtain ⟨-, -, rfl⟩ := ht
    exact apply_keeps hplain
  · exact hinv.otherModelOnly hclock hactive hnot

/-! ## Two answers of the probe -/

def codexProfile : AuthProfileCredential := ⟨.oauth, "openai", "access"⟩

def defaultCooldownConfig : ResolvedAuthCooldownConfig where
  billingBackoffMs := 18000000
  billingMaxMs := 86400000
  authPermanentBackoffMs := 600000
  authPermanentMaxMs := 3600000
  failureWindowMs := 86400000

/-- The answer to an account that is gone. -/
def deadAccount : WhamCooldownProbeResult where
  cooldownMs := 86400000
  blockedUntil := none
  blockedSource := none
  blockedUntil_le := nofun

/-- The answer to an account whose window resets two hours from the start. -/
def personalRolling : WhamCooldownProbeResult where
  cooldownMs := 15000
  blockedUntil := some 7200000
  blockedSource := some .wham
  blockedUntil_le := by
    intro ms h
    cases h
    decide

def rateLimited (now : Int) (probe : WhamCooldownProbeResult) : Event :=
  ⟨now, .failure .rateLimit defaultCooldownConfig (some "gpt") (some probe)⟩

def afterDeadAccount : System :=
  next id codexProfile ⟨0, none, []⟩ (rateLimited 1000 deadAccount)

theorem reached_afterDeadAccount : Reached id codexProfile afterDeadAccount :=
  .next (a := rateLimited 1000 deadAccount) (.start (s := ⟨0, none, []⟩) ⟨rfl, rfl⟩)
    ⟨by decide, by decide, rfl⟩

theorem cooldowns_protect_profile_deadAccount :
    unusableUntilAt afterDeadAccount.stats 2000 = some 86401000 ∧
      (∀ e t, Step id codexProfile afterDeadAccount e t →
        (KeepsUntil afterDeadAccount e t ↔ KeepsCooldown id codexProfile afterDeadAccount e)) ∧
      PlainKeeps id codexProfile afterDeadAccount ∧
      UsableForOthersOnly id codexProfile afterDeadAccount :=
  ⟨by decide +kernel, cooldowns_protect_profile id codexProfile _ reached_afterDeadAccount⟩

/-- A block of two hours replaces a cooldown of a day. -/
theorem block_clears_later_cooldown :
    ¬ ∀ (toLowerCase : String → String) (profile : AuthProfileCredential) (s : System),
      Reached toLowerCase profile s →
        (∀ e t, Step toLowerCase profile s e t → KeepsUntil s e t) ∧
          PlainKeeps toLowerCase profile s ∧ UsableForOthersOnly toLowerCase profile s := by
  intro h
  obtain ⟨hkeeps, -⟩ := h id codexProfile afterDeadAccount reached_afterDeadAccount
  have hstep := hkeeps (rateLimited 2000 personalRolling) _ ⟨by decide, by decide, rfl⟩
  have hbefore : unusableUntilAt afterDeadAccount.stats 2000 = some 86401000 := by decide +kernel
  have hafter : unusableUntilAt (next id codexProfile afterDeadAccount
      (rateLimited 2000 personalRolling)).stats 2000 = some 7200000 := by decide +kernel
  obtain ⟨v, hv, hle⟩ := hstep _ hbefore
  cases hv.symm.trans hafter
  revert hle
  decide

end OpenClaw.AuthProfiles
