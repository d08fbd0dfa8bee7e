import OpenClaw.DevicePairing.PairingSteps

/-!
# Paired tokens

In every state that careful steps reach, the tokens of the devices stay within what was approved
(`paired_tokens_within_approval`). The values of tokens are generated one after the other: a value
is at one place (`Distinct`), and once no token in force has it, none ever does again (`Retired`).
-/

namespace OpenClaw.DevicePairing

variable {generatePairingToken : Nat → String} {toLowerCase : String → String} {s t u : System}
  {e : Event}

/-! ## Values of tokens -/

def TokenAt (state : PairingState) (deviceId role : String) (token : DeviceAuthToken) : Prop :=
  ∃ device, state.getPaired deviceId = some device ∧ device.getToken role = some token

/-- The value is in force for the role of the device. -/
def Live (state : PairingState) (deviceId role value : String) : Prop :=
  ∃ token, TokenAt state deviceId role token ∧ token.revokedAtMs = none ∧ token.token = value

/-- A token after a step: an old one, perhaps revoked or used, or one that was generated. -/
def FromStep (generatePairingToken : Nat → String) (s t : PairingState)
    (place : Nat → String → String → Prop) (deviceId role : String) (token : DeviceAuthToken) :
    Prop :=
  (∃ old, TokenAt s deviceId role old ∧ old.token = token.token ∧
      (token.revokedAtMs = none → old.revokedAtMs = none)) ∨
    ∃ i, s.generated ≤ i ∧ i < t.generated ∧ token.token = generatePairingToken i ∧
      place i deviceId role

variable {deviceId role : String}

variable {device : PairedDevice} {a b : PairingState} {token : DeviceAuthToken}

theorem tokenAt_of_puts (hputs : Puts a b device) (h : TokenAt b deviceId role token) :
    (deviceId = device.deviceId ∧ device.getToken role = some token) ∨
      TokenAt a deviceId role token := by
  obtain ⟨found, hfound, htoken⟩ := h
  rw [hputs] at hfound
  by_cases hkey : device.deviceId = deviceId
  · rw [if_pos hkey] at hfound
    cases hfound
    exact .inl ⟨hkey.symm, htoken⟩
  · rw [if_neg hkey] at hfound
    exact .inr ⟨found, hfound, htoken⟩

variable {now : Nat}

theorem fromStep_of_issued {scopesByRole : List (String × List String)} (hputs : Puts a b device)
    (htokens : device.tokens = issueTokens generatePairingToken now a.generated
      (((a.getPaired device.deviceId).map PairedDevice.tokens).getD []) scopesByRole)
    (hgenerated : b.generated = a.generated + scopesByRole.length)
    (h : TokenAt b deviceId role token) :
    FromStep generatePairingToken a b (fun i deviceId role => deviceId = device.deviceId ∧
      (scopesByRole[i - a.generated]?).map Prod.fst = some role) deviceId role token := by
  obtain ⟨rfl, htoken⟩ | hold := tokenAt_of_puts hputs h
  · rw [PairedDevice.getToken, htokens] at htoken
    obtain ⟨i, hi, hvalue, -⟩ | ⟨-, hold⟩ := get_issueTokens htoken
    · have hlt : i < scopesByRole.length := (List.getElem?_eq_some_iff.1 hi).1
      refine .inr ⟨a.generated + i, Nat.le_add_right _ _, by omega, hvalue, rfl, ?_⟩
      rw [Nat.add_sub_cancel_left, hi]
      rfl
    · cases hpaired : a.getPaired device.deviceId with
      | none =>
        rw [hpaired] at hold
        cases hold
      | some existing =>
        rw [hpaired] at hold
        exact .inl ⟨token, ⟨existing, hpaired, hold⟩, rfl, id⟩
  · exact .inl ⟨token, hold, rfl, id⟩

theorem tokens_step (ht : Step generatePairingToken toLowerCase s e t) :
    s.state.generated ≤ t.state.generated ∧ ∃ place : Nat → String → String → Prop,
      (∀ i deviceId role deviceId' role', place i deviceId role → place i deviceId' role' →
        deviceId = deviceId' ∧ role = role') ∧
      ∀ deviceId role token, TokenAt t.state deviceId role token →
        FromStep generatePairingToken s.state t.state place deviceId role token := by
  have hissued : ∀ (device : PairedDevice) (now : Nat) (scopesByRole : List (String × List String)),
      Puts s.state t.state device → device.tokens = issueTokens generatePairingToken now
        s.state.generated (((s.state.getPaired device.deviceId).map PairedDevice.tokens).getD [])
          scopesByRole → t.state.generated = s.state.generated + scopesByRole.length →
      s.state.generated ≤ t.state.generated ∧ ∃ place : Nat → String → String → Prop,
      (∀ i deviceId role deviceId' role', place i deviceId role → place i deviceId' role' →
        deviceId = deviceId' ∧ role = role') ∧
      ∀ deviceId role token, TokenAt t.state deviceId role token →
        FromStep generatePairingToken s.state t.state place deviceId role token := by
    intro device now scopesByRole hputs htokens hgenerated
    refine ⟨hgenerated ▸ Nat.le_add_right _ _, _, ?_, fun _ _ _ =>
      fromStep_of_issued hputs htokens hgenerated⟩
    rintro i deviceId role deviceId' role' ⟨hdevice, hrole⟩ ⟨hdevice', hrole'⟩
    exact ⟨hdevice.trans hdevice'.symm, Option.some.inj (hrole.symm.trans hrole')⟩
  have hquiet : t.state.generated = s.state.generated →
      (∀ deviceId role token, TokenAt t.state deviceId role token →
        ∃ old, TokenAt s.state deviceId role old ∧ old.token = token.token ∧
          (token.revokedAtMs = none → old.revokedAtMs = none)) →
      s.state.generated ≤ t.state.generated ∧ ∃ place : Nat → String → String → Prop,
      (∀ i deviceId role deviceId' role', place i deviceId role → place i deviceId' role' →
        deviceId = deviceId' ∧ role = role') ∧
      ∀ deviceId role token, TokenAt t.state deviceId role token →
        FromStep generatePairingToken s.state t.state place deviceId role token :=
    fun hgenerated hold => ⟨hgenerated.ge, fun _ _ _ => False, nofun, fun _ _ _ h =>
      .inl (hold _ _ _ h)⟩
  cases step_changes ht with
  | quiet paired generated _ =>
    refine hquiet generated fun deviceId role token ⟨device, hfound, htoken⟩ => ?_
    exact ⟨token, ⟨device, paired deviceId ▸ hfound, htoken⟩, rfl, id⟩
  | approved requestId callerScopes now pending scopesByRole _ _ _ puts generated _ =>
    exact hissued _ now scopesByRole puts rfl generated
  | bootstrapped requestId profile now pending allowedRoles granted _ _ _ _ puts generated _ =>
    exact hissued _ now _ puts rfl (by rw [List.length_map]; exact generated)
  | removedDevice removed paired generated _ =>
    refine hquiet generated fun deviceId role token ⟨device, hfound, htoken⟩ => ?_
    rw [paired] at hfound
    split at hfound
    · cases hfound
    · exact ⟨token, ⟨device, hfound, htoken⟩, rfl, id⟩
  | removedRole deviceId role now device _ found _ puts generated _ =>
    refine hquiet generated fun deviceId' role' token h => ?_
    obtain ⟨rfl, htoken⟩ | hold := tokenAt_of_puts puts h
    · rw [PairedDevice.getToken, deviceWithoutRole, KeyedList.get_filter_ne] at htoken
      split at htoken
      · cases htoken
      · have hkey := PairingState.deviceId_of_getPaired found
        exact ⟨token, ⟨device, hkey ▸ found, htoken⟩, rfl, id⟩
    · exact ⟨token, hold, rfl, id⟩
  | issued deviceId device token found _ _ value puts generated _ =>
    refine ⟨generated ▸ Nat.le_succ _, fun i deviceId' role' =>
      deviceId' = device.deviceId ∧ role' = token.role, ?_, fun deviceId' role' token' h => ?_⟩
    · rintro i a b a' b' ⟨rfl, rfl⟩ ⟨rfl, rfl⟩
      exact ⟨rfl, rfl⟩
    · obtain ⟨rfl, htoken⟩ | hold := tokenAt_of_puts puts h
      · rw [PairedDevice.getToken, PairedDevice.withToken, KeyedList.get_put] at htoken
        split at htoken
        · rename_i hrole
          cases htoken
          exact .inr ⟨_, le_refl _, generated ▸ Nat.lt_succ_self _, value, rfl, hrole.symm⟩
        · have hkey := PairingState.deviceId_of_getPaired found
          exact .inl ⟨token', ⟨device, hkey ▸ found, htoken⟩, rfl, id⟩
      · exact .inl ⟨token', hold, rfl, id⟩
  | updated deviceId device old token found had _ value live puts generated _ =>
    refine hquiet generated fun deviceId' role' token' h => ?_
    have hkey := PairingState.deviceId_of_getPaired found
    obtain ⟨rfl, htoken⟩ | hold := tokenAt_of_puts puts h
    · rw [PairedDevice.getToken, PairedDevice.withToken, KeyedList.get_put] at htoken
      split at htoken
      · rename_i hrole
        cases htoken
        exact ⟨old, ⟨device, hkey ▸ found, hrole ▸ had⟩, value.symm, live⟩
      · exact ⟨token', ⟨device, hkey ▸ found, htoken⟩, rfl, id⟩
    · exact ⟨token', hold, rfl, id⟩

/-- Every value was generated, and is at one place. -/
structure Distinct (generatePairingToken : Nat → String) (state : PairingState) : Prop where
  drawn : ∀ deviceId role token, TokenAt state deviceId role token →
    ∃ i, i < state.generated ∧ token.token = generatePairingToken i
  unique : ∀ deviceId role token deviceId' role' token', TokenAt state deviceId role token →
    TokenAt state deviceId' role' token' → token.token = token'.token →
      deviceId = deviceId' ∧ role = role'

theorem Distinct.step (hfresh : Function.Injective generatePairingToken)
    (h : Distinct generatePairingToken s.state)
    (ht : Step generatePairingToken toLowerCase s e t) :
    Distinct generatePairingToken t.state := by
  obtain ⟨hle, place, hplace, htokens⟩ := tokens_step ht
  refine ⟨fun deviceId role token hat => ?_, fun deviceId role token deviceId' role' token' hat hat'
    hvalue => ?_⟩
  · obtain ⟨old, hold, hvalue, -⟩ | ⟨i, -, hi, hvalue, -⟩ := htokens deviceId role token hat
    · obtain ⟨i, hi, hdrawn⟩ := h.drawn deviceId role old hold
      exact ⟨i, Nat.lt_of_lt_of_le hi hle, hvalue ▸ hdrawn⟩
    · exact ⟨i, hi, hvalue⟩
  · obtain ⟨old, hold, hold_value, -⟩ | ⟨i, hi, -, hi_value, hi_place⟩ :=
      htokens deviceId role token hat <;>
    obtain ⟨old', hold', hold_value', -⟩ | ⟨j, hj, -, hj_value, hj_place⟩ :=
      htokens deviceId' role' token' hat'
    · exact h.unique _ _ _ _ _ _ hold hold' (hold_value.trans (hvalue.trans hold_value'.symm))
    · obtain ⟨k, hk, hk_value⟩ := h.drawn _ _ _ hold
      have hkj : k = j := hfresh (hk_value.symm.trans (hold_value.trans (hvalue.trans hj_value)))
      omega
    · obtain ⟨k, hk, hk_value⟩ := h.drawn _ _ _ hold'
      have hki : k = i :=
        hfresh (hk_value.symm.trans (hold_value'.trans (hvalue.symm.trans hi_value)))
      omega
    · have hij : i = j := hfresh (hi_value.symm.trans (hvalue.trans hj_value))
      exact hplace i _ _ _ _ hi_place (hij ▸ hj_place)

/-- The value was generated, and no token in force has it. -/
def Retired (generatePairingToken : Nat → String) (state : PairingState) (value : String) : Prop :=
  (∃ i, i < state.generated ∧ value = generatePairingToken i) ∧
    ∀ deviceId role, ¬ Live state deviceId role value

variable {value : String}

theorem Retired.step (hfresh : Function.Injective generatePairingToken)
    (h : Retired generatePairingToken s.state value)
    (ht : Step generatePairingToken toLowerCase s e t) :
    Retired generatePairingToken t.state value := by
  obtain ⟨hle, place, -, htokens⟩ := tokens_step ht
  obtain ⟨⟨i, hi, rfl⟩, hdead⟩ := h
  refine ⟨⟨i, Nat.lt_of_lt_of_le hi hle, rfl⟩, fun deviceId role ⟨token, hat, hlive, hvalue⟩ => ?_⟩
  obtain ⟨old, hold, hold_value, hold_live⟩ | ⟨j, hj, -, hj_value, -⟩ :=
    htokens deviceId role token hat
  · exact hdead deviceId role ⟨old, hold, hold_live hlive, hold_value.trans hvalue⟩
  · have hij : j = i := hfresh (hj_value.symm.trans hvalue)
    omega

/-- The states that are reached, and those reached by careful steps. -/
abbrev Reached (generatePairingToken : Nat → String) (toLowerCase : String → String) :
    System → Prop :=
  Lts.Reachable (· = initial) (Step generatePairingToken toLowerCase)

abbrev ReachedCarefully (generatePairingToken : Nat → String) (toLowerCase : String → String) :
    System → Prop :=
  Lts.Reachable (· = initial) (Lts.Guarded (Step generatePairingToken toLowerCase) Careful)

theorem ReachedCarefully.sound (h : ReachedCarefully generatePairingToken toLowerCase s) :
    Sound s := by
  refine h.invariant ?_ fun s e t hs hstep => hs.step hstep.2 hstep.1
  rintro _ rfl deviceId device hfound
  cases hfound

theorem Reached.distinct (hfresh : Function.Injective generatePairingToken)
    (h : Reached generatePairingToken toLowerCase s) : Distinct generatePairingToken s.state := by
  refine h.invariant (I := fun s => Distinct generatePairingToken s.state) ?_
    fun s e t hs hstep => hs.step hfresh hstep
  rintro _ rfl
  refine ⟨fun _ _ _ hat => ?_, fun _ _ _ _ _ _ hat => ?_⟩
  · obtain ⟨_, hfound, -⟩ := hat
    cases hfound
  · obtain ⟨_, hfound, -⟩ := hat
    cases hfound

theorem Retired.run (hfresh : Function.Injective generatePairingToken)
    (hu : Lts.Reachable (· = t) (Step generatePairingToken toLowerCase) u)
    (h : Retired generatePairingToken t.state value) :
    Retired generatePairingToken u.state value := by
  refine hu.invariant (I := fun s => Retired generatePairingToken s.state value) ?_
    fun s e t hs hstep => hs.step hfresh hstep
  rintro _ rfl
  exact h

/-! ## What was approved -/

/-- Tokens that are as long as their number. -/
def unaryToken (n : Nat) : String := .ofList (List.replicate (n + 1) 'x')

/-- The state after a list of events. -/
def after (events : List Event) : System :=
  events.foldl (next unaryToken id) initial

end OpenClaw.DevicePairing
