import OpenClaw.DevicePairing.ApprovedTokens

/-!
# What an operation does to the paired devices

Every operation leaves the devices alone, puts one device in its place or removes one
(`step_changes`). What holds in every reachable state is proved by cases of `Changes`, not of the
operations.
-/

namespace OpenClaw.DevicePairing

variable {generatePairingToken : Nat → String} {toLowerCase : String → String}

namespace PairingState

variable {state : PairingState} {device : PairedDevice} {deviceId : String}

theorem getPaired_putPaired :
    (state.putPaired device).getPaired deviceId =
      if device.deviceId = deviceId then some device else state.getPaired deviceId :=
  KeyedList.get_put

theorem deviceId_of_getPaired (h : state.getPaired deviceId = some device) :
    device.deviceId = deviceId := KeyedList.key_of_get h

end PairingState

variable {device : PairedDevice} {role : String}

theorem PairedDevice.role_of_getToken {token : DeviceAuthToken}
    (h : device.getToken role = some token) : token.role = role :=
  KeyedList.key_of_get h

/-- The device takes its place among those of the state. -/
def Puts (s t : PairingState) (device : PairedDevice) : Prop :=
  ∀ deviceId, t.getPaired deviceId =
    if device.deviceId = deviceId then some device else s.getPaired deviceId

/-- The device with a token in the place of its role. -/
def PairedDevice.withToken (device : PairedDevice) (token : DeviceAuthToken) : PairedDevice :=
  { device with tokens := KeyedList.put DeviceAuthToken.role token device.tokens }

/-- What a step does, by what becomes of the devices. -/
inductive Changes (generatePairingToken : Nat → String) (s : System) (e : Event) (t : System) : Prop
  | quiet (paired : ∀ deviceId, t.state.getPaired deviceId = s.state.getPaired deviceId)
      (generated : t.state.generated = s.state.generated) (grants : t.grants = s.grants)
  | approved (requestId : String) (callerScopes : Option (List String)) (now : Nat)
      (pending : PendingRequest) (scopesByRole : List (String × List String))
      (event : e = .approve requestId callerScopes now)
      (found : (loadState s.state now).getPending requestId = some pending)
      (ok : pending.requestedRoles.mapM (approveRole pending (s.state.getPaired pending.deviceId)
        (nextBaseline (s.state.getPaired pending.deviceId) pending) callerScopes) =
          .ok scopesByRole)
      (puts : Puts s.state t.state (buildApprovedPairedDevice pending
        (s.state.getPaired pending.deviceId)
        (approvedRoles (s.state.getPaired pending.deviceId) pending)
        (nextBaseline (s.state.getPaired pending.deviceId) pending)
        (issueTokens generatePairingToken now s.state.generated
          (((s.state.getPaired pending.deviceId).map PairedDevice.tokens).getD []) scopesByRole)
        now))
      (generated : t.state.generated = s.state.generated + scopesByRole.length)
      (grants : t.grants = s.grants ++ [⟨pending.deviceId, callerScopes.getD []⟩])
  | bootstrapped (requestId : String) (profile : DeviceBootstrapProfile) (now : Nat)
      (pending : PendingRequest) (allowedRoles granted : List String)
      (event : e = .approveBootstrap requestId profile now)
      (found : (loadState s.state now).getPending requestId = some pending)
      (hgranted : granted = resolveBootstrapProfileScopesForRoles pending.requestedRoles
        (pending.scopes.getD []))
      (ok : resolveMissingRequestedScope OPERATOR_ROLE
        ((normalizeDeviceAuthScopes pending.scopes).filter isOperatorScope)
        (resolveBootstrapProfileScopesForRoles allowedRoles profile.scopes) = none)
      (puts : Puts s.state t.state (buildApprovedPairedDevice pending
        (s.state.getPaired pending.deviceId)
        (approvedRoles (s.state.getPaired pending.deviceId) pending)
        (mergeScopes [some (preservedExistingScopes (s.state.getPaired pending.deviceId)
          pending.requestedRoles), some granted])
        (issueTokens generatePairingToken now s.state.generated
          (((s.state.getPaired pending.deviceId).map PairedDevice.tokens).getD [])
          (pending.requestedRoles.map fun role => (role, if role = OPERATOR_ROLE then
            resolveBootstrapProfileScopesForRole role granted else []))) now))
      (generated : t.state.generated = s.state.generated + pending.requestedRoles.length)
      (grants : t.grants = s.grants ++ [⟨pending.deviceId, profile.scopes⟩])
  | removedDevice (removed : String)
      (paired : ∀ deviceId, t.state.getPaired deviceId =
        if deviceId = removed then none else s.state.getPaired deviceId)
      (generated : t.state.generated = s.state.generated) (grants : t.grants = s.grants)
  | removedRole (deviceId role : String) (now : Nat) (device : PairedDevice)
      (event : e = .removeRole deviceId role now)
      (found : s.state.getPaired (JsString.trim deviceId) = some device)
      (remaining : (listApprovedPairedDeviceRoles device).filter (· ≠ JsString.trim role) ≠ [])
      (puts : Puts s.state t.state (deviceWithoutRole device (JsString.trim role)
        ((listApprovedPairedDeviceRoles device).filter (· ≠ JsString.trim role))))
      (generated : t.state.generated = s.state.generated) (grants : t.grants = s.grants)
  | issued (deviceId : String) (device : PairedDevice) (token : DeviceAuthToken)
      (found : s.state.getPaired deviceId = some device)
      (role : token.role ∈ listApprovedPairedDeviceRoles device)
      (allowed : ∀ scope ∈ uniqueTrimmed token.scopes, RoleAllows token.role device.baseline scope)
      (value : token.token = generatePairingToken s.state.generated)
      (puts : Puts s.state t.state (device.withToken token))
      (generated : t.state.generated = s.state.generated + 1) (grants : t.grants = s.grants)
  | updated (deviceId : String) (device : PairedDevice) (old token : DeviceAuthToken)
      (found : s.state.getPaired deviceId = some device)
      (had : device.getToken token.role = some old)
      (scopes : token.scopes = old.scopes) (value : token.token = old.token)
      (live : token.revokedAtMs = none → old.revokedAtMs = none)
      (puts : Puts s.state t.state (device.withToken token))
      (generated : t.state.generated = s.state.generated) (grants : t.grants = s.grants)

/-! ## Every step is one of these -/

variable {s t : System} {e : Event}

theorem changes_request (req : PairingRequest) (requestId : String) (now : Nat) :
    Changes generatePairingToken s e
      { s with state := (requestDevicePairing s.state req requestId now).1 } := by
  have hstate : (∀ deviceId, (requestDevicePairing s.state req requestId now).1.getPaired deviceId =
      s.state.getPaired deviceId) ∧
      (requestDevicePairing s.state req requestId now).1.generated = s.state.generated := by
    unfold requestDevicePairing
    dsimp only
    split
    · exact ⟨fun _ => rfl, rfl⟩
    · split
      · split <;> exact ⟨fun _ => rfl, rfl⟩
      · exact ⟨fun _ => rfl, rfl⟩
  exact .quiet hstate.1 hstate.2 rfl

theorem grantOf_approveRole {pending : PendingRequest} {existing : Option PairedDevice}
    {approvedScopes callerScopes : Option (List String)} {result : ApproveDevicePairingResult}
    (h : approveRole pending existing approvedScopes callerScopes role = .error result)
    (scopes : List String) : grantOf scopes result = [] := by
  unfold approveRole at h
  dsimp only at h
  split at h
  · split at h
    · cases h
      rfl
    · split at h
      · cases h
        rfl
      · cases h
  · cases h

theorem puts_storeApproved (loaded : PairingState) (requestId : String) (device : PairedDevice)
    (issued : Nat) : Puts loaded (storeApproved loaded requestId device issued) device :=
  fun _ => PairingState.getPaired_putPaired

theorem changes_approve (requestId : String) (callerScopes : Option (List String)) (now : Nat)
    (ht : Step generatePairingToken toLowerCase s (.approve requestId callerScopes now) t) :
    Changes generatePairingToken s (.approve requestId callerScopes now) t := by
  subst ht
  unfold next
  unfold approveDevicePairing
  dsimp only
  cases hfound : (loadState s.state now).getPending requestId with
  | none => exact .quiet (fun _ => rfl) rfl (List.append_nil _)
  | some pending =>
    dsimp only
    cases hroles : resolveScopeOutsideRequestedRoles pending.requestedRoles
      (normalizeDeviceAuthScopes pending.scopes) with
    | some scope => exact .quiet (fun _ => rfl) rfl (List.append_nil _)
    | none =>
      cases hok : pending.requestedRoles.mapM (approveRole pending
        ((loadState s.state now).getPaired pending.deviceId)
        (mergeScopes [((loadState s.state now).getPaired pending.deviceId).bind
          PairedDevice.scopeBaseline, pending.scopes]) callerScopes) with
      | error result =>
        obtain ⟨role, -, hrole⟩ := Except.exists_of_mapM_eq_error hok
        refine .quiet (fun _ => rfl) rfl ?_
        show s.grants ++ grantOf _ result = _
        rw [grantOf_approveRole hrole, List.append_nil]
      | ok scopesByRole =>
        exact .approved requestId callerScopes now pending scopesByRole rfl hfound hok
          (puts_storeApproved (loadState s.state now) requestId _ _) rfl rfl

theorem changes_approveBootstrap (requestId : String) (profile : DeviceBootstrapProfile)
    (now : Nat)
    (ht : Step generatePairingToken toLowerCase s (.approveBootstrap requestId profile now) t) :
    Changes generatePairingToken s (.approveBootstrap requestId profile now) t := by
  subst ht
  unfold next
  unfold approveBootstrapDevicePairing
  dsimp only
  cases hfound : (loadState s.state now).getPending requestId with
  | none => exact .quiet (fun _ => rfl) rfl (List.append_nil _)
  | some pending =>
    dsimp only
    split
    · exact .quiet (fun _ => rfl) rfl (List.append_nil _)
    · split
      · exact .quiet (fun _ => rfl) rfl (List.append_nil _)
      · rename_i hmissing
        exact .bootstrapped requestId profile now pending _ _ rfl hfound rfl hmissing
          (puts_storeApproved (loadState s.state now) requestId _ _) rfl rfl

variable {raw : String}

theorem normalizeRole_some (h : normalizeRole (some raw) = some role) :
    role = JsString.trim raw := by
  obtain ⟨hmap, -⟩ := Option.filter_eq_some_iff.1 h
  exact (Option.some.inj hmap).symm

theorem trim_of_normalizeRole (h : normalizeRole (some raw) = some role) :
    JsString.trim role = role := by
  rw [normalizeRole_some h]
  exact JsString.trim_trim raw

theorem getPaired_filter_ne (state : PairingState) (pendingById : List PendingRequest)
    (removed deviceId : String) :
    PairingState.getPaired { state with
      pendingById
      pairedByDeviceId := state.pairedByDeviceId.filter fun device => device.deviceId ≠ removed }
        deviceId = if deviceId = removed then none else state.getPaired deviceId :=
  KeyedList.get_filter_ne removed

theorem changes_removeRole (deviceId role : String) (now : Nat)
    (ht : Step generatePairingToken toLowerCase s (.removeRole deviceId role now) t) :
    Changes generatePairingToken s (.removeRole deviceId role now) t := by
  subst ht
  unfold next
  unfold removePairedDeviceRole
  dsimp only
  split
  · rename_i device normalized hfound hrole
    obtain rfl := normalizeRole_some hrole
    split
    · exact .quiet (fun _ => rfl) rfl rfl
    · split
      · exact .removedDevice _ (getPaired_filter_ne (loadState s.state now) _ _) rfl rfl
      · rename_i hremaining
        exact .removedRole deviceId role now device rfl hfound hremaining
          (fun _ => PairingState.getPaired_putPaired) rfl rfl
  · exact .quiet (fun _ => rfl) rfl rfl

theorem puts_storeToken (state : PairingState) (device : PairedDevice) (token : DeviceAuthToken)
    (issued : Nat) : Puts state (storeToken state device token issued) (device.withToken token) :=
  fun _ => PairingState.getPaired_putPaired

theorem roleAllows_of_within {scopes : List String} (hrole : JsString.trim role = role)
    (h : scopesWithinApprovedDeviceBaseline role scopes (resolveApprovedDeviceScopeBaseline device)
      = true) : ∀ scope ∈ uniqueTrimmed scopes, RoleAllows role device.baseline scope := by
  unfold resolveApprovedDeviceScopeBaseline at h
  intro scope hscope
  cases hbaseline : device.scopeBaseline with
  | none =>
    rw [hbaseline] at h
    cases h
  | some baseline =>
    rw [hbaseline] at h
    have hallows := (roleScopesAllow_iff hrole).1 h scope hscope
    refine hallows.mono fun a ha => ?_
    rw [PairedDevice.baseline, hbaseline]
    exact trimmed_normalize.mem_uniqueTrimmed.1 ha

theorem of_resolveContext {state : PairingState} {deviceId : String} {normalized : String}
    {existing : Option DeviceAuthToken}
    (h : resolveDeviceTokenUpdateContext state deviceId role = some (device, normalized, existing)) :
    state.getPaired (JsString.trim deviceId) = some device ∧ JsString.trim normalized = normalized ∧
      normalized ∈ listApprovedPairedDeviceRoles device ∧ device.getToken normalized = existing := by
  unfold resolveDeviceTokenUpdateContext at h
  split at h
  · rename_i found role' hfound hrole
    split at h
    · rename_i happroved
      cases h
      exact ⟨hfound, trim_of_normalizeRole hrole, List.contains_iff_mem.1 happroved, rfl⟩
    · cases h
  · cases h

theorem changes_verify (params : VerifyDeviceToken) (now : Nat)
    (ht : Step generatePairingToken toLowerCase s (.verify params now) t) :
    Changes generatePairingToken s (.verify params now) t := by
  subst ht
  unfold next
  unfold verifyDeviceToken
  dsimp only
  split
  · exact .quiet (fun _ => rfl) rfl rfl
  · rename_i device hfound
    split
    · exact .quiet (fun _ => rfl) rfl rfl
    · rename_i role hrole
      split
      · exact .quiet (fun _ => rfl) rfl rfl
      · rename_i entry hentry
        have hkey := PairedDevice.role_of_getToken hentry
        repeat (split; exact .quiet (fun _ => rfl) rfl rfl)
        exact .updated _ device entry { entry with lastUsedAtMs := some now } hfound
          (hkey ▸ hentry) rfl rfl id (fun _ => PairingState.getPaired_putPaired) rfl rfl

theorem changes_ensure (deviceId role : String) (scopes : List String) (issuer : Option String)
    (now : Nat)
    (ht : Step generatePairingToken toLowerCase s (.ensure deviceId role scopes issuer now) t) :
    Changes generatePairingToken s (.ensure deviceId role scopes issuer now) t := by
  subst ht
  unfold next
  unfold ensureDeviceToken
  dsimp only
  split
  · exact .quiet (fun _ => rfl) rfl rfl
  · rename_i device normalized existing hcontext
    obtain ⟨hfound, htrim, happroved, -⟩ := of_resolveContext hcontext
    split
    · exact .quiet (fun _ => rfl) rfl rfl
    · rename_i hwithin
      split
      · exact .quiet (fun _ => rfl) rfl rfl
      · rw [Bool.not_eq_true', Bool.not_eq_false] at hwithin
        have hallowed := roleAllows_of_within htrim hwithin
        exact .issued _ device (buildDeviceAuthToken (generatePairingToken s.state.generated)
          normalized (normalizeDeviceAuthScopes (some scopes)) issuer existing now
          (existing.map fun _ => now)) hfound happroved hallowed rfl
          (puts_storeToken s.state device _ 1) rfl rfl

theorem changes_rotate (deviceId role : String) (scopes callerScopes : Option (List String))
    (now : Nat)
    (ht : Step generatePairingToken toLowerCase s (.rotate deviceId role scopes callerScopes now)
      t) : Changes generatePairingToken s (.rotate deviceId role scopes callerScopes now) t := by
  subst ht
  unfold next
  unfold rotateDeviceToken
  dsimp only
  split
  · exact .quiet (fun _ => rfl) rfl rfl
  · rename_i device normalized existing hcontext
    obtain ⟨hfound, htrim, happroved, -⟩ := of_resolveContext hcontext
    split
    · exact .quiet (fun _ => rfl) rfl rfl
    · rename_i approvedScopes hbaseline
      split
      · exact .quiet (fun _ => rfl) rfl rfl
      · rename_i hwithin
        split
        · exact .quiet (fun _ => rfl) rfl rfl
        · rw [Bool.not_eq_true', Bool.not_eq_false, ← hbaseline] at hwithin
          have hallowed := roleAllows_of_within htrim hwithin
          exact .issued _ device (buildDeviceAuthToken (generatePairingToken s.state.generated)
            normalized (normalizeDeviceAuthScopes
              (scopes <|> existing.map DeviceAuthToken.scopes <|> device.scopes))
            (existing.bind DeviceAuthToken.issuer) existing now (some now)) hfound happroved
            hallowed rfl (puts_storeToken s.state device _ 1) rfl rfl

theorem changes_revoke (deviceId role : String) (callerScopes : Option (List String)) (now : Nat)
    (ht : Step generatePairingToken toLowerCase s (.revoke deviceId role callerScopes now) t) :
    Changes generatePairingToken s (.revoke deviceId role callerScopes now) t := by
  subst ht
  unfold next
  dsimp only
  unfold revokeDeviceToken
  split
  · rename_i device normalized existing hcontext
    obtain ⟨hfound, -, -, hexisting⟩ := of_resolveContext hcontext
    have hkey := PairedDevice.role_of_getToken hexisting
    split
    · exact .quiet (fun _ => rfl) rfl rfl
    · exact .updated _ device existing { existing with revokedAtMs := some now } hfound
        (hkey ▸ hexisting) rfl rfl nofun (puts_storeToken s.state device _ 0) rfl rfl
  · exact .quiet (fun _ => rfl) rfl rfl

/-- **Every step** changes the devices in one of seven ways. -/
theorem step_changes (ht : Step generatePairingToken toLowerCase s e t) :
    Changes generatePairingToken s e t := by
  cases e with
  | request req requestId now =>
    subst ht
    exact changes_request req requestId now
  | approve requestId callerScopes now => exact changes_approve requestId callerScopes now ht
  | approveBootstrap requestId profile now => exact changes_approveBootstrap requestId profile now ht
  | removeRole deviceId role now => exact changes_removeRole deviceId role now ht
  | verify params now => exact changes_verify params now ht
  | ensure deviceId role scopes issuer now => exact changes_ensure deviceId role scopes issuer now ht
  | rotate deviceId role scopes callerScopes now =>
    exact changes_rotate deviceId role scopes callerScopes now ht
  | revoke deviceId role callerScopes now => exact changes_revoke deviceId role callerScopes now ht

/-! ## Sound devices stay sound -/

theorem Sound.puts (h : Sound s) {more : List Grant} (hgrants : t.grants = s.grants ++ more)
    (hputs : Puts s.state t.state device)
    (hdevice : DeviceSound (CoveredBy t.grants device.deviceId) device) : Sound t := by
  intro deviceId found hfound
  rw [hputs] at hfound
  by_cases hkey : device.deviceId = deviceId
  · rw [if_pos hkey] at hfound
    cases hfound
    exact hkey ▸ hdevice
  · rw [if_neg hkey] at hfound
    rw [hgrants]
    exact (h deviceId found hfound).mono fun scope => CoveredBy.mono

theorem Sound.step (h : Sound s) (hcareful : Careful s e)
    (ht : Step generatePairingToken toLowerCase s e t) : Sound t := by
  cases step_changes ht with
  | quiet paired _ grants =>
    intro deviceId device hfound
    rw [grants]
    exact h deviceId device (paired deviceId ▸ hfound)
  | approved requestId callerScopes now pending scopesByRole event found ok puts _ grants =>
    subst event
    refine h.puts grants puts ?_
    rw [grants]
    exact DeviceSound.approve generatePairingToken (fun device => h pending.deviceId device)
      (hcareful pending found) ok
  | bootstrapped requestId profile now pending allowedRoles granted event found hgranted ok puts _
      grants =>
    subst event
    refine h.puts grants puts ?_
    rw [grants]
    refine DeviceSound.bootstrap generatePairingToken hgranted (fun device => h pending.deviceId device)
      (fun device hdevice => ?_) ok
    rw [hgranted]
    exact hcareful pending device found hdevice
  | removedDevice removed paired _ grants =>
    intro deviceId device hfound
    rw [paired] at hfound
    split at hfound
    · cases hfound
    · rw [grants]
      exact h deviceId device hfound
  | removedRole deviceId role now device event found remaining puts _ grants =>
    subst event
    refine h.puts (grants.trans (List.append_nil _).symm) puts ?_
    have hkey := PairingState.deviceId_of_getPaired found
    have hdevice := h _ device found
    rw [grants]
    exact hkey.symm ▸ hdevice.removeRole rfl remaining (hcareful device found)
  | issued deviceId device token found role allowed _ puts _ grants =>
    refine h.puts (grants.trans (List.append_nil _).symm) puts ?_
    have hkey := PairingState.deviceId_of_getPaired found
    have hdevice := h _ device found
    rw [grants]
    exact hkey.symm ▸ hdevice.putToken role
      (fun scope => roleAllows_resolveRoleScoped (some token.scopes) fun a ha _ => allowed a ha)
      fun _ => allowed
  | updated deviceId device old token found had scopes _ live puts _ grants =>
    refine h.puts (grants.trans (List.append_nil _).symm) puts ?_
    have hkey := PairingState.deviceId_of_getPaired found
    have hdevice := h _ device found
    rw [grants]
    refine hkey.symm ▸ hdevice.putToken (hdevice.role _ old had) ?_ fun hlive => ?_
    · rw [scopes]
      exact hdevice.carried _ old had
    · rw [scopes]
      exact hdevice.live _ old had (live hlive)

end OpenClaw.DevicePairing
