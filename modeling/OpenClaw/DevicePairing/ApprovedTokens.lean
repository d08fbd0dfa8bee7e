import OpenClaw.DevicePairing.DevicePairing
import OpenClaw.DevicePairing.ScopeLaws
import OpenClaw.Lib.Except
import OpenClaw.Lib.Forall2
import OpenClaw.Lib.Lts

/-!
# Tokens and what was approved

The operations as steps of a system, with the approvals that were given. A device is sound
(`DeviceSound`) if its tokens have approved roles and scopes its baseline allows, and its baseline
has no operator scope that no approval covers. Every operation keeps the devices sound but for three
steps, which `Careful` rules out: an approval that gives a role scopes of other roles, an approval
of an operator scope for no operator, and one that takes away scopes a token keeps.
-/

namespace OpenClaw.DevicePairing

/-! ## The system -/

inductive Event
  | request (req : PairingRequest) (requestId : String) (now : Nat)
  | approve (requestId : String) (callerScopes : Option (List String)) (now : Nat)
  | approveBootstrap (requestId : String) (profile : DeviceBootstrapProfile) (now : Nat)
  | removeRole (deviceId role : String) (now : Nat)
  | verify (params : VerifyDeviceToken) (now : Nat)
  | ensure (deviceId role : String) (scopes : List String) (issuer : Option String) (now : Nat)
  | rotate (deviceId role : String) (scopes callerScopes : Option (List String)) (now : Nat)
  | revoke (deviceId role : String) (callerScopes : Option (List String)) (now : Nat)

/-- An approval: of a device, by a caller or a bootstrap profile with scopes. -/
structure Grant where
  deviceId : String
  scopes : List String

structure System where
  state : PairingState
  grants : List Grant

def initial : System := ⟨emptyState, []⟩

def grantOf (scopes : List String) : ApproveDevicePairingResult → List Grant
  | .approved _ device => [⟨device.deviceId, scopes⟩]
  | _ => []

variable (generatePairingToken : Nat → String) (toLowerCase : String → String)

def next (s : System) : Event → System
  | .request req requestId now => { s with state := (requestDevicePairing s.state req requestId now).1 }
  | .approve requestId callerScopes now =>
    let (state, result) := approveDevicePairing generatePairingToken s.state requestId callerScopes now
    ⟨state, s.grants ++ grantOf (callerScopes.getD []) result⟩
  | .approveBootstrap requestId profile now =>
    let (state, result) :=
      approveBootstrapDevicePairing generatePairingToken s.state requestId profile now
    ⟨state, s.grants ++ grantOf profile.scopes result⟩
  | .removeRole deviceId role now =>
    { s with state := (removePairedDeviceRole s.state deviceId role now).1 }
  | .verify params now => { s with state := (verifyDeviceToken toLowerCase s.state params now).1 }
  | .ensure deviceId role scopes issuer now =>
    { s with state := (ensureDeviceToken generatePairingToken s.state deviceId role scopes issuer now).1 }
  | .rotate deviceId role scopes callerScopes now =>
    { s with
      state := (rotateDeviceToken generatePairingToken s.state deviceId role scopes callerScopes now).1 }
  | .revoke deviceId role callerScopes now =>
    { s with state := (revokeDeviceToken s.state deviceId role callerScopes now).1 }

def Step (s : System) (e : Event) (t : System) : Prop :=
  next generatePairingToken toLowerCase s e = t

/-! ## Sound devices -/

/-- The scopes a device is approved for, normalized. -/
def PairedDevice.baseline (device : PairedDevice) : List String :=
  normalizeDeviceAuthScopes device.scopeBaseline

structure DeviceSound (covered : String → Prop) (device : PairedDevice) : Prop where
  role : ∀ role token, device.getToken role = some token →
    role ∈ listApprovedPairedDeviceRoles device
  carried : ∀ role token, device.getToken role = some token →
    ∀ scope ∈ resolveRoleScopedDeviceTokenScopes role (some token.scopes),
      RoleAllows role device.baseline scope
  live : ∀ role token, device.getToken role = some token → token.revokedAtMs = none →
    ∀ scope ∈ uniqueTrimmed token.scopes, RoleAllows role device.baseline scope
  covered : ∀ scope ∈ device.baseline, isOperatorScope scope = true → covered scope

/-- An approval of the device covers the scope. -/
def CoveredBy (grants : List Grant) (deviceId scope : String) : Prop :=
  ∃ grant ∈ grants, grant.deviceId = deviceId ∧ Covers grant.scopes scope

def Sound (s : System) : Prop :=
  ∀ deviceId device, s.state.getPaired deviceId = some device →
    DeviceSound (CoveredBy s.grants deviceId) device

/-! ## Steps that go wrong -/

/-- The approval of a request keeps to the roles it is for. -/
structure CarefulApproval (existing : Option PairedDevice) (pending : PendingRequest) : Prop where
  /-- Operator scopes are requested for an operator. -/
  operator : (∃ scope ∈ normalizeDeviceAuthScopes pending.scopes, isOperatorScope scope = true) →
    OPERATOR_ROLE ∈ pending.requestedRoles
  /-- The scopes a role gets from the request, but for those the device has, are its own. -/
  requested : ∀ role ∈ pending.requestedRoles, role ≠ OPERATOR_ROLE →
    ∀ scope ∈ resolveRoleScopedDeviceTokenScopes role pending.scopes,
      JsString.startsWith scope (role ++ ".") = true ∨
        ((existing.bind fun device => device.getToken role).isSome = true ∧
          scope ∈ resolveRoleScopedDeviceTokenScopes role (existing.bind PairedDevice.scopeBaseline))
  /-- The scopes a new role gets from the device are its own. -/
  inherited : ∀ role ∈ pending.requestedRoles, role ≠ OPERATOR_ROLE →
    (existing.bind fun device => device.getToken role) = none →
    resolveRoleScopedDeviceTokenScopes role pending.scopes = [] →
    ∀ scope ∈ resolveRoleScopedDeviceTokenScopes role (existing.bind PairedDevice.scopeBaseline),
      JsString.startsWith scope (role ++ ".") = true

/-- The tokens of the kept roles have no operator scope that goes: an operator stays, or the scope
is granted. -/
def KeepsOperatorScopes (device : PairedDevice) (kept granted : List String) : Prop :=
  ∀ role ∈ kept, ∀ token, device.getToken role = some token → token.revokedAtMs = none →
    role ≠ OPERATOR_ROLE → ∀ scope ∈ uniqueTrimmed token.scopes, isOperatorScope scope = true →
      OPERATOR_ROLE ∈ kept ∨ scope ∈ granted

def Careful (s : System) : Event → Prop
  | .approve requestId _ now => ∀ pending,
    (loadState s.state now).getPending requestId = some pending →
      CarefulApproval (s.state.getPaired pending.deviceId) pending
  | .approveBootstrap requestId _ now => ∀ pending device,
    (loadState s.state now).getPending requestId = some pending →
    s.state.getPaired pending.deviceId = some device →
      KeepsOperatorScopes device
        ((listApprovedPairedDeviceRoles device).filter fun role => !pending.requestedRoles.contains role)
        (resolveBootstrapProfileScopesForRoles pending.requestedRoles (pending.scopes.getD []))
  | .removeRole deviceId role _ => ∀ device, s.state.getPaired (JsString.trim deviceId) = some device →
    KeepsOperatorScopes device
      ((listApprovedPairedDeviceRoles device).filter fun entry => entry ≠ JsString.trim role) []
  | _ => True

/-! ## Approval -/

section Approval

variable {covered : String → Prop} {existing : Option PairedDevice} {pending : PendingRequest}
  {role scope : String}

/-- The scopes a device is approved for once the request is. -/
def nextBaseline (existing : Option PairedDevice) (pending : PendingRequest) :
    Option (List String) :=
  mergeScopes [existing.bind PairedDevice.scopeBaseline, pending.scopes]

theorem mem_nextBaseline :
    scope ∈ uniqueTrimmed ((nextBaseline existing pending).getD []) ↔
      scope ∈ uniqueTrimmed ((existing.bind PairedDevice.scopeBaseline).getD []) ∨
        scope ∈ uniqueTrimmed (pending.scopes.getD []) := mem_mergeScopes_pair

theorem mem_normalize_nextBaseline_of_existing
    (h : scope ∈ normalizeDeviceAuthScopes (existing.bind PairedDevice.scopeBaseline)) :
    scope ∈ normalizeDeviceAuthScopes (nextBaseline existing pending) :=
  normalize_mono (fun _ ha => mem_nextBaseline.2 (.inl ha)) h

variable (existing) in
theorem mem_normalize_nextBaseline_of_pending
    (h : scope ∈ normalizeDeviceAuthScopes pending.scopes) :
    scope ∈ normalizeDeviceAuthScopes (nextBaseline existing pending) :=
  normalize_mono (fun _ ha => mem_nextBaseline.2 (.inr ha)) h

variable (hsound : ∀ device, existing = some device → DeviceSound covered device)
  (hcareful : CarefulApproval existing pending)

theorem requestedScopeDelta_eq {pendingScopes approvedBaseline : List String} :
    (if approvedBaseline ≠ [] then pendingScopes.filter fun scope => !approvedBaseline.contains scope
      else pendingScopes) = pendingScopes.filter fun scope => !approvedBaseline.contains scope := by
  split
  · rfl
  · rename_i hempty
    simp [not_not.1 hempty]

include hsound in
theorem allowed_of_token {token : DeviceAuthToken}
    (htoken : (existing.bind fun device => device.getToken role) = some token)
    (hmem : scope ∈ uniqueTrimmed token.scopes) (hcarries : roleCarries role scope = true) :
    RoleAllows role (normalizeDeviceAuthScopes (nextBaseline existing pending)) scope := by
  obtain ⟨device, rfl, htoken⟩ := Option.bind_eq_some_iff.1 htoken
  refine ((hsound device rfl).carried role token htoken scope ?_).mono fun a ha =>
    mem_normalize_nextBaseline_of_existing ha
  exact mem_resolveRoleScoped_of_mem hmem hcarries

include hcareful in
theorem allowed_of_pending (hrole : role ∈ pending.requestedRoles)
    (hmem : scope ∈ resolveRoleScopedDeviceTokenScopes role pending.scopes)
    (hnew : ¬((existing.bind fun device => device.getToken role).isSome = true ∧
      scope ∈ resolveRoleScopedDeviceTokenScopes role (existing.bind PairedDevice.scopeBaseline))) :
    RoleAllows role (normalizeDeviceAuthScopes (nextBaseline existing pending)) scope := by
  obtain ⟨hnormal, hcarries⟩ := mem_resolveRoleScoped.1 hmem
  have happroved := mem_normalize_nextBaseline_of_pending existing hnormal
  by_cases hoperator : role = OPERATOR_ROLE
  · subst hoperator
    exact roleAllows_operator.2 ⟨hcarries, scope, happroved, .refl scope⟩
  · have hown := (hcareful.requested role hrole hoperator scope hmem).resolve_right hnew
    exact (roleAllows_of_ne hoperator).2 ⟨hown, happroved⟩

include hcareful in
theorem allowed_of_inherited (hrole : role ∈ pending.requestedRoles)
    (htoken : (existing.bind fun device => device.getToken role) = none)
    (hpending : resolveRoleScopedDeviceTokenScopes role pending.scopes = [])
    (hmem : scope ∈ uniqueTrimmed ((nextBaseline existing pending).getD []))
    (hcarries : roleCarries role scope = true) :
    RoleAllows role (normalizeDeviceAuthScopes (nextBaseline existing pending)) scope := by
  have happroved := mem_normalize_of_mem hmem
  by_cases hoperator : role = OPERATOR_ROLE
  · subst hoperator
    exact roleAllows_operator.2 ⟨hcarries, scope, happroved, .refl scope⟩
  · refine (roleAllows_of_ne hoperator).2 ⟨?_, happroved⟩
    obtain hmem | hmem := mem_nextBaseline.1 hmem
    · exact hcareful.inherited role hrole hoperator htoken hpending scope
        (mem_resolveRoleScoped_of_mem hmem hcarries)
    · have hnone := mem_resolveRoleScoped_of_mem hmem hcarries
      rw [hpending] at hnone
      cases hnone

include hsound hcareful in
theorem allowed_of_approved (hrole : role ∈ pending.requestedRoles)
    (hmem : scope ∈ resolveApprovedTokenScopes role pending
      (existing.bind fun device => device.getToken role) (nextBaseline existing pending) existing) :
    RoleAllows role (normalizeDeviceAuthScopes (nextBaseline existing pending)) scope := by
  unfold resolveApprovedTokenScopes at hmem
  by_cases hpending : resolveRoleScopedDeviceTokenScopes role pending.scopes = []
  · rw [if_neg (not_not_intro hpending)] at hmem
    cases htoken : existing.bind fun device => device.getToken role with
    | some token =>
      rw [htoken] at hmem
      exact roleAllows_resolveRoleScoped (some token.scopes)
        (fun a => allowed_of_token hsound htoken) hmem
    | none =>
      rw [htoken] at hmem
      have hbaseline : (nextBaseline existing pending <|> existing.bind PairedDevice.scopeBaseline)
          = nextBaseline existing pending := by
        cases hnext : nextBaseline existing pending with
        | some scopes => rfl
        | none => exact mergeScopes_eq_none hnext _ List.mem_cons_self
      refine roleAllows_resolveRoleScoped (nextBaseline existing pending)
        (fun a => allowed_of_inherited hcareful hrole htoken hpending) ?_
      rw [← hbaseline]
      exact hmem
  · rw [if_pos hpending] at hmem
    cases htoken : existing.bind fun device => device.getToken role with
    | none =>
      rw [htoken] at hmem
      refine roleAllows_resolveRoleScoped _ (fun a ha _ => ?_) hmem
      have hrequested : a ∈ resolveRoleScopedDeviceTokenScopes role pending.scopes :=
        (mem_mergeScopes_pair.1 ha).elim (fun hnone => absurd hnone List.not_mem_nil)
          trimmed_resolveRoleScoped.mem_uniqueTrimmed.1
      exact allowed_of_pending hcareful hrole hrequested (by simp [htoken])
    | some token =>
      rw [htoken] at hmem
      dsimp only at hmem
      rw [requestedScopeDelta_eq] at hmem
      split at hmem
      · exact roleAllows_resolveRoleScoped (some token.scopes)
          (fun a => allowed_of_token hsound htoken) hmem
      · refine roleAllows_resolveRoleScoped _ (fun a ha hcarries => ?_) hmem
        obtain ha | ha := mem_mergeScopes_pair.1 ha
        · exact allowed_of_token hsound htoken ha hcarries
        · obtain ⟨hrequested, hnew⟩ := List.mem_filter.1
            ((trimmed_resolveRoleScoped.filter _).mem_uniqueTrimmed.1 ha)
          exact allowed_of_pending hcareful hrole hrequested fun h => by simp [h.2] at hnew

theorem covers_of_missing_none {requested callerScopes : List String}
    (h : resolveMissingRequestedScope OPERATOR_ROLE requested callerScopes = none)
    (hmem : scope ∈ requested) : Covers callerScopes scope := by
  have hallow : roleScopesAllow OPERATOR_ROLE [scope] callerScopes = true := by
    simpa using List.find?_eq_none.1 h scope hmem
  exact hallow

variable {callerScopes : Option (List String)} {result : String × List String}

theorem approveRole_ok {approvedScopes : Option (List String)}
    (h : approveRole pending existing approvedScopes callerScopes role = .ok result) :
    result = (role, resolveApprovedTokenScopes role pending
      (existing.bind fun device => device.getToken role) approvedScopes existing) ∧
    (role = OPERATOR_ROLE → result.2 ≠ [] →
      ∀ scope ∈ resolveRoleScopedDeviceTokenScopes role pending.scopes,
        Covers (callerScopes.getD []) scope) := by
  unfold approveRole at h
  dsimp only at h
  split at h
  · rename_i hoperator
    cases callerScopes with
    | none => cases h
    | some callerScopes =>
      dsimp only at h
      cases hmissing : resolveMissingRequestedScope OPERATOR_ROLE
        ((mergeScopes [some (resolveRoleScopedDeviceTokenScopes role pending.scopes),
          some (resolveApprovedTokenScopes role pending
            (existing.bind fun device => device.getToken role) approvedScopes existing)]).getD
          (resolveApprovedTokenScopes role pending
            (existing.bind fun device => device.getToken role) approvedScopes existing))
        callerScopes with
      | some missing =>
        rw [hmissing] at h
        cases h
      | none =>
        rw [hmissing] at h
        cases h
        refine ⟨rfl, fun _ _ scope hscope => covers_of_missing_none hmissing ?_⟩
        rw [mergeScopes_some_some, Option.getD_some]
        obtain ⟨hne, htrim⟩ := trimmed_resolveRoleScoped scope hscope
        exact mem_uniqueTrimmed.2 ⟨hne, scope, List.mem_append_left _ hscope, htrim⟩
  · rename_i hnot
    cases h
    exact ⟨rfl, fun hrole hne => absurd ⟨hrole, hne⟩ hnot⟩

theorem mem_approved_of_pending
    (hmem : scope ∈ resolveRoleScopedDeviceTokenScopes role pending.scopes)
    (approvedScopes : Option (List String)) :
    scope ∈ resolveApprovedTokenScopes role pending
        (existing.bind fun device => device.getToken role) approvedScopes existing ∨
      scope ∈ resolveRoleScopedDeviceTokenScopes role (existing.bind PairedDevice.scopeBaseline) := by
  have hcarries := (mem_resolveRoleScoped.1 hmem).2
  unfold resolveApprovedTokenScopes
  dsimp only
  rw [if_pos (List.ne_nil_of_mem hmem), requestedScopeDelta_eq]
  cases existing.bind fun device => device.getToken role with
  | none =>
    refine .inl (mem_resolveRoleScoped_of_mem (mem_mergeScopes_pair.2 (.inr ?_)) hcarries)
    exact trimmed_resolveRoleScoped.mem_uniqueTrimmed.2 hmem
  | some token =>
    by_cases hold : scope ∈
        resolveRoleScopedDeviceTokenScopes role (existing.bind PairedDevice.scopeBaseline)
    · exact .inr hold
    · have hdelta : scope ∈ (resolveRoleScopedDeviceTokenScopes role pending.scopes).filter
          fun scope => !(resolveRoleScopedDeviceTokenScopes role
            (existing.bind PairedDevice.scopeBaseline)).contains scope := by
        simpa [hold] using hmem
      refine .inl ?_
      dsimp only
      rw [if_neg (List.ne_nil_of_mem hdelta)]
      refine mem_resolveRoleScoped_of_mem (mem_mergeScopes_pair.2 (.inr ?_)) hcarries
      exact (trimmed_resolveRoleScoped.filter _).mem_uniqueTrimmed.2 hdelta

theorem covered_of_pending
    (hok : approveRole pending existing (nextBaseline existing pending) callerScopes OPERATOR_ROLE =
      .ok result) (hmem : scope ∈ resolveRoleScopedDeviceTokenScopes OPERATOR_ROLE pending.scopes) :
    scope ∈ normalizeDeviceAuthScopes (existing.bind PairedDevice.scopeBaseline) ∨
      Covers (callerScopes.getD []) scope := by
  obtain ⟨rfl, hcovers⟩ := approveRole_ok hok
  obtain hnext | hold := mem_approved_of_pending hmem (nextBaseline existing pending)
  · exact .inr (hcovers rfl (List.ne_nil_of_mem hnext) scope hmem)
  · exact .inl (mem_resolveRoleScoped.1 hold).1

theorem trimmed_resolveApprovedTokenScopes {existingToken : Option DeviceAuthToken}
    {approvedScopes : Option (List String)} :
    Trimmed (resolveApprovedTokenScopes role pending existingToken approvedScopes existing) := by
  unfold resolveApprovedTokenScopes
  dsimp only
  split
  · split
    · exact trimmed_resolveRoleScoped
    · rw [requestedScopeDelta_eq]
      split <;> exact trimmed_resolveRoleScoped
  · exact trimmed_resolveRoleScoped

/-! ### The device -/

variable {now generated : Nat} {tokens : List DeviceAuthToken} {approvedScopes : Option (List String)}
  {scopesByRole : List (String × List String)} {token : DeviceAuthToken}

variable {generatePairingToken} in
theorem get_issueTokens
    (h : KeyedList.get DeviceAuthToken.role role
      (issueTokens generatePairingToken now generated tokens scopesByRole) = some token) :
    (∃ i, scopesByRole[i]? = some (role, token.scopes) ∧
      token.token = generatePairingToken (generated + i) ∧ token.revokedAtMs = none) ∨
    (role ∉ scopesByRole.map Prod.fst ∧
      KeyedList.get DeviceAuthToken.role role tokens = some token) := by
  induction scopesByRole generalizing generated tokens with
  | nil => exact .inr ⟨List.not_mem_nil, h⟩
  | cons entry rest ih =>
    obtain ⟨first, scopes⟩ := entry
    obtain ⟨i, hi, htoken, hlive⟩ | ⟨hrest, hold⟩ := ih h
    · refine .inl ⟨i + 1, hi, ?_, hlive⟩
      rw [htoken, Nat.add_assoc, Nat.add_comm 1 i]
    · rw [KeyedList.get_put] at hold
      change (if first = role then _ else _) = _ at hold
      by_cases hrole : first = role
      · subst hrole
        rw [if_pos rfl] at hold
        cases hold
        exact .inl ⟨0, rfl, rfl, rfl⟩
      · refine .inr ⟨?_, (if_neg hrole).symm.trans hold⟩
        rw [List.map_cons, List.mem_cons, not_or]
        exact ⟨fun heq => hrole heq.symm, hrest⟩

theorem baseline_buildApproved {roles : Option (List String)} :
    (buildApprovedPairedDevice pending existing roles approvedScopes tokens now).baseline =
      normalizeDeviceAuthScopes approvedScopes := by
  show normalizeDeviceAuthScopes (approvedScopes <|> approvedScopes) = _
  cases approvedScopes <;> rfl

theorem mem_listApproved_buildApproved
    (h : role ∈ pending.requestedRoles ∨
      ∃ device, existing = some device ∧ role ∈ listApprovedPairedDeviceRoles device) :
    role ∈ listApprovedPairedDeviceRoles (buildApprovedPairedDevice pending existing
      (approvedRoles existing pending) approvedScopes tokens now) := by
  have hmerged : role ∈ (approvedRoles existing pending).getD [] := by
    rw [approvedRoles, mem_mergeRoles]
    obtain h | ⟨device, rfl, h⟩ := h
    · obtain ⟨item, hitem, hmem⟩ := mem_mergeRoles.1 h
      refine ⟨item, ?_, hmem⟩
      simp only [List.mem_cons, List.not_mem_nil, or_false] at hitem ⊢
      exact .inr (.inr hitem)
    · obtain ⟨item, hitem, hmem⟩ := mem_mergeRoles.1 h
      refine ⟨item, ?_, hmem⟩
      simp only [List.mem_cons, List.not_mem_nil, or_false, Option.bind_some] at hitem ⊢
      exact hitem.elim .inl fun h => .inr (.inl h)
  rw [listApprovedPairedDeviceRoles, mem_mergeRoles]
  exact ⟨_, List.mem_cons_self, trimmed_mergeRoles.mem_uniqueTrimmed.2 hmerged⟩

end Approval

variable {grants : List Grant} {deviceId : String}

theorem CoveredBy.mono {more : List Grant} {scope : String} (h : CoveredBy grants deviceId scope) :
    CoveredBy (grants ++ more) deviceId scope :=
  have ⟨grant, hmem, hgrant⟩ := h
  ⟨grant, List.mem_append_left _ hmem, hgrant⟩

theorem CoveredBy.of_implies {a b : String} (hne : a ≠ "") (htrim : JsString.trim a = a)
    (h : CoveredBy grants deviceId a) (hab : Implies a b) (hneb : b ≠ "")
    (htrimb : JsString.trim b = b) (hb : isOperatorScope b = true) : CoveredBy grants deviceId b :=
  have ⟨grant, hmem, hdevice, hcovers⟩ := h
  ⟨grant, hmem, hdevice, hcovers.of_implies hne htrim hab hneb htrimb hb⟩

theorem DeviceSound.mono {covered more : String → Prop} {device : PairedDevice}
    (h : DeviceSound covered device) (hsub : ∀ scope, covered scope → more scope) :
    DeviceSound more device :=
  ⟨h.role, h.carried, h.live, fun scope hmem hscope => hsub scope (h.covered scope hmem hscope)⟩

section Devices

variable {grants : List Grant} {existing : Option PairedDevice} {pending : PendingRequest}
  {callerScopes : Option (List String)} {scopesByRole : List (String × List String)}
  {now generated : Nat}

/-- **Approval** keeps a device sound. -/
theorem DeviceSound.approve
    (hsound : ∀ device, existing = some device →
      DeviceSound (CoveredBy grants pending.deviceId) device)
    (hcareful : CarefulApproval existing pending)
    (hok : pending.requestedRoles.mapM
      (approveRole pending existing (nextBaseline existing pending) callerScopes) =
        .ok scopesByRole) :
    DeviceSound
      (CoveredBy (grants ++ [⟨pending.deviceId, callerScopes.getD []⟩]) pending.deviceId)
      (buildApprovedPairedDevice pending existing (approvedRoles existing pending)
        (nextBaseline existing pending) (issueTokens generatePairingToken now generated
          ((existing.map PairedDevice.tokens).getD []) scopesByRole) now) := by
  have hforall := Except.mapM_eq_ok.1 hok
  have hnew : ∀ {i : Nat} {role scopes}, scopesByRole[i]? = some (role, scopes) →
      role ∈ pending.requestedRoles ∧ ∀ scope ∈ uniqueTrimmed scopes,
        RoleAllows role (normalizeDeviceAuthScopes (nextBaseline existing pending)) scope := by
    intro i role scopes hi
    obtain ⟨requested, hrequested, happrove⟩ := hforall.exists_left (List.mem_of_getElem? hi)
    obtain ⟨heq, -⟩ := approveRole_ok happrove
    obtain ⟨rfl, rfl⟩ := Prod.mk.inj heq
    refine ⟨hrequested, fun scope hscope => allowed_of_approved hsound hcareful hrequested ?_⟩
    exact (trimmed_resolveApprovedTokenScopes).mem_uniqueTrimmed.1 hscope
  have hold : ∀ {role token}, KeyedList.get DeviceAuthToken.role role
      ((existing.map PairedDevice.tokens).getD []) = some token →
      ∃ device, existing = some device ∧ device.getToken role = some token := by
    intro role token htoken
    cases existing with
    | none => cases htoken
    | some device => exact ⟨device, rfl, htoken⟩
  have hmono : ∀ {role device scope}, existing = some device →
      RoleAllows role device.baseline scope →
      RoleAllows role (normalizeDeviceAuthScopes (nextBaseline existing pending)) scope := by
    rintro role device scope rfl hallows
    exact hallows.mono fun a ha => mem_normalize_nextBaseline_of_existing ha
  refine ⟨fun role token htoken => ?_, fun role token htoken scope hscope => ?_,
    fun role token htoken hlive scope hscope => ?_, fun scope hscope hoperator => ?_⟩
  · refine mem_listApproved_buildApproved ?_
    obtain ⟨i, hi, -⟩ | ⟨-, htoken⟩ := get_issueTokens htoken
    · exact .inl (hnew hi).1
    · obtain ⟨device, hdevice, htoken⟩ := hold htoken
      exact .inr ⟨device, hdevice, (hsound device hdevice).role role token htoken⟩
  · rw [baseline_buildApproved]
    obtain ⟨i, hi, -⟩ | ⟨-, htoken⟩ := get_issueTokens htoken
    · exact roleAllows_resolveRoleScoped (some token.scopes) (fun a ha _ => (hnew hi).2 a ha) hscope
    · obtain ⟨device, hdevice, htoken⟩ := hold htoken
      exact hmono hdevice ((hsound device hdevice).carried role token htoken scope hscope)
  · rw [baseline_buildApproved]
    obtain ⟨i, hi, -⟩ | ⟨-, htoken⟩ := get_issueTokens htoken
    · exact (hnew hi).2 scope hscope
    · obtain ⟨device, hdevice, htoken⟩ := hold htoken
      exact hmono hdevice ((hsound device hdevice).live role token htoken hlive scope hscope)
  · rw [baseline_buildApproved] at hscope
    obtain ⟨a, ha, himplies⟩ := exists_implies_of_mem_normalize hscope
    have haoperator := himplies.isOperatorScope hoperator
    have hbefore : a ∈ normalizeDeviceAuthScopes (existing.bind PairedDevice.scopeBaseline) →
        CoveredBy grants pending.deviceId a := by
      intro hbaseline
      cases existing with
      | none => simp [mem_normalizeDeviceAuthScopes, uniqueTrimmed, impliedScopes] at hbaseline
      | some device => exact (hsound device rfl).covered a hbaseline haoperator
    have hcovered : CoveredBy (grants ++ [⟨pending.deviceId, callerScopes.getD []⟩])
        pending.deviceId a := by
      obtain ha | ha := mem_nextBaseline.1 ha
      · exact (hbefore (mem_normalize_of_mem ha)).mono
      · have hrequested := hcareful.operator ⟨a, mem_normalize_of_mem ha, haoperator⟩
        obtain ⟨result, -, happrove⟩ := hforall.flip.exists_left hrequested
        obtain hold | hcaller := covered_of_pending happrove
          (mem_resolveRoleScoped_of_mem ha (roleCarries_operator.trans haoperator))
        · exact (hbefore hold).mono
        · exact ⟨_, List.mem_append_right _ (List.mem_singleton_self _), rfl, hcaller⟩
    obtain ⟨hne, htrim⟩ := trimmed_uniqueTrimmed a ha
    obtain ⟨hne', htrim'⟩ := trimmed_normalize scope hscope
    exact hcovered.of_implies hne htrim himplies hne' htrim' hoperator

variable {device : PairedDevice} {covered : String → Prop} {role scope : String}

variable {granted : List String} {token : DeviceAuthToken}

theorem roleAllows_of_kept {kept next : List String} (h : DeviceSound covered device)
    (hkeeps : KeepsOperatorScopes device kept granted)
    (htoken : device.getToken role = some token) (hkept : role ∈ kept)
    (hnext : ∀ role ∈ kept, ∀ a ∈ device.baseline, roleCarries role a = true → a ∈ next)
    (hgranted : ∀ a ∈ granted, a ∈ next) (hlive : token.revokedAtMs = none)
    (hscope : scope ∈ uniqueTrimmed token.scopes) : RoleAllows role next scope := by
  have hallows := h.live role token htoken hlive scope hscope
  by_cases hcarries : roleCarries role scope = true
  · exact hallows.keep hcarries (hnext role hkept)
  · by_cases hrole : role = OPERATOR_ROLE
    · subst hrole
      exact absurd (roleAllows_operator.1 hallows).1 (roleCarries_operator ▸ hcarries)
    · have hoperator : isOperatorScope scope = true := by
        simpa [roleCarries_of_ne hrole] using hcarries
      obtain ⟨hown, hbaseline⟩ := (roleAllows_of_ne hrole).1 hallows
      refine (roleAllows_of_ne hrole).2 ⟨hown, ?_⟩
      obtain hkept | hmem := hkeeps role hkept token htoken hlive hrole scope hscope hoperator
      · exact hnext OPERATOR_ROLE hkept scope hbaseline (roleCarries_operator.trans hoperator)
      · exact hgranted scope hmem

variable {scopes : Option (List String)}

theorem mem_preserveRoleScoped : scope ∈ preserveRoleScopedApprovalScopes role scopes ↔
      scope ∈ uniqueTrimmed (scopes.getD []) ∧ roleCarries role scope = true := List.mem_filter

theorem trimmed_preserveRoleScoped :
    Trimmed (preserveRoleScopedApprovalScopes role scopes) := trimmed_uniqueTrimmed.filter _

/-- **Bootstrap approval** keeps a device sound. -/
theorem DeviceSound.bootstrap {profile : DeviceBootstrapProfile} {allowedRoles : List String}
    (hgranted : granted = resolveBootstrapProfileScopesForRoles pending.requestedRoles
      (pending.scopes.getD [])) (hsound : ∀ device, existing = some device →
      DeviceSound (CoveredBy grants pending.deviceId) device)
    (hkeeps : ∀ device, existing = some device → KeepsOperatorScopes device
      ((listApprovedPairedDeviceRoles device).filter fun role =>
        !pending.requestedRoles.contains role) granted)
    (hmissing : resolveMissingRequestedScope OPERATOR_ROLE
      ((normalizeDeviceAuthScopes pending.scopes).filter isOperatorScope)
      (resolveBootstrapProfileScopesForRoles allowedRoles profile.scopes) = none) :
    DeviceSound (CoveredBy (grants ++ [⟨pending.deviceId, profile.scopes⟩]) pending.deviceId)
      (buildApprovedPairedDevice pending existing (approvedRoles existing pending)
        (mergeScopes [some (preservedExistingScopes existing pending.requestedRoles), some granted])
        (issueTokens generatePairingToken now generated
          ((existing.map PairedDevice.tokens).getD []) (pending.requestedRoles.map fun role =>
            (role, if role = OPERATOR_ROLE then
              resolveBootstrapProfileScopesForRole role granted else []))) now) := by
  have hmerged : ∀ {a}, a ∈ uniqueTrimmed ((mergeScopes [
      some (preservedExistingScopes existing pending.requestedRoles), some granted]).getD []) ↔
      a ∈ uniqueTrimmed (preservedExistingScopes existing pending.requestedRoles) ∨
        a ∈ uniqueTrimmed granted := mem_mergeScopes_pair
  have htrimmed : Trimmed granted := hgranted ▸ trimmed_normalize
  have hnextGranted : ∀ a ∈ granted, a ∈ normalizeDeviceAuthScopes (mergeScopes [
      some (preservedExistingScopes existing pending.requestedRoles), some granted]) :=
    fun a ha => mem_normalize_of_mem (hmerged.2 (.inr (htrimmed.mem_uniqueTrimmed.2 ha)))
  have hnew : ∀ {i : Nat} {role scopes}, (pending.requestedRoles.map fun role =>
      (role, if role = OPERATOR_ROLE then
        resolveBootstrapProfileScopesForRole role granted else []))[i]? = some (role, scopes) →
      role ∈ pending.requestedRoles ∧ ∀ scope ∈ uniqueTrimmed scopes, RoleAllows role
        (normalizeDeviceAuthScopes (mergeScopes [
          some (preservedExistingScopes existing pending.requestedRoles), some granted])) scope := by
    intro i role scopes hi
    obtain ⟨requested, hrequested, heq⟩ := List.mem_map.1 (List.mem_of_getElem? hi)
    obtain ⟨rfl, rfl⟩ := Prod.mk.inj heq
    refine ⟨hrequested, fun scope hscope => ?_⟩
    by_cases hoperator : requested = OPERATOR_ROLE
    · subst hoperator
      rw [if_pos rfl] at hscope
      obtain ⟨-, b, hb, htrim⟩ := mem_uniqueTrimmed.1 hscope
      obtain ⟨hmem, hscopeOperator⟩ := mem_bootstrapForRole hb
      obtain rfl : b = scope := (trimmed_normalize b hmem).2.symm.trans htrim
      obtain ⟨a, ha, himplies⟩ := exists_implies_of_mem_normalize hmem
      have hgrantedMem := htrimmed.mem_uniqueTrimmed.1 ha
      exact roleAllows_operator.2 ⟨hscopeOperator, a, hnextGranted a hgrantedMem, himplies⟩
    · rw [if_neg hoperator] at hscope
      cases hscope
  have hold : ∀ {role token}, role ∉ (pending.requestedRoles.map fun role =>
      (role, if role = OPERATOR_ROLE then
        resolveBootstrapProfileScopesForRole role granted else [])).map Prod.fst →
      KeyedList.get DeviceAuthToken.role role ((existing.map PairedDevice.tokens).getD []) =
        some token →
      ∃ device, existing = some device ∧ device.getToken role = some token ∧
        role ∈ (listApprovedPairedDeviceRoles device).filter fun role =>
          !pending.requestedRoles.contains role := by
    intro role token hother htoken
    have hnot : role ∉ pending.requestedRoles := by simpa using hother
    cases existing with
    | none => cases htoken
    | some device =>
      refine ⟨device, rfl, htoken, List.mem_filter.2 ⟨(hsound device rfl).role role token htoken, ?_⟩⟩
      simpa using hnot
  have hnext : ∀ device, existing = some device →
      ∀ role ∈ (listApprovedPairedDeviceRoles device).filter (fun role =>
        !pending.requestedRoles.contains role), ∀ a ∈ device.baseline,
      roleCarries role a = true → a ∈ normalizeDeviceAuthScopes (mergeScopes [
        some (preservedExistingScopes existing pending.requestedRoles), some granted]) := by
    rintro device rfl role hrole a ha hcarries
    obtain ⟨happroved, hnot⟩ := List.mem_filter.1 hrole
    refine normalize_carries (fun b hb hcarriesb => hmerged.2 (.inl ?_)) ha hcarries
    refine mem_uniqueTrimmed.2 ⟨ne_empty_of_mem_uniqueTrimmed hb, b, ?_,
      trim_of_mem_uniqueTrimmed hb⟩
    refine List.mem_flatMap.2 ⟨role, happroved, ?_⟩
    rw [if_neg (by simpa using hnot)]
    exact mem_preserveRoleScoped.2 ⟨hb, hcarriesb⟩
  refine ⟨fun role token htoken => ?_, fun role token htoken scope hscope => ?_,
    fun role token htoken hlive scope hscope => ?_, fun scope hscope hoperator => ?_⟩
  · refine mem_listApproved_buildApproved ?_
    obtain ⟨i, hi, -⟩ | ⟨hother, htoken⟩ := get_issueTokens htoken
    · exact .inl (hnew hi).1
    · obtain ⟨device, hdevice, -, hkept⟩ := hold hother htoken
      exact .inr ⟨device, hdevice, List.mem_of_mem_filter hkept⟩
  · rw [baseline_buildApproved]
    obtain ⟨i, hi, -⟩ | ⟨hother, htoken⟩ := get_issueTokens htoken
    · exact roleAllows_resolveRoleScoped (some token.scopes) (fun a ha _ => (hnew hi).2 a ha) hscope
    · obtain ⟨device, hdevice, htoken, hkept⟩ := hold hother htoken
      have hallows := (hsound device hdevice).carried role token htoken scope hscope
      exact hallows.keep (mem_resolveRoleScoped.1 hscope).2 (hnext device hdevice role hkept)
  · rw [baseline_buildApproved]
    obtain ⟨i, hi, -⟩ | ⟨hother, htoken⟩ := get_issueTokens htoken
    · exact (hnew hi).2 scope hscope
    · obtain ⟨device, hdevice, htoken, hkept⟩ := hold hother htoken
      exact roleAllows_of_kept (hsound device hdevice) (hkeeps device hdevice) htoken hkept
        (hnext device hdevice) hnextGranted hlive hscope
  · rw [baseline_buildApproved] at hscope
    obtain ⟨a, ha, himplies⟩ := exists_implies_of_mem_normalize hscope
    have haoperator := himplies.isOperatorScope hoperator
    obtain ⟨hne, htrim⟩ := trimmed_uniqueTrimmed a ha
    obtain ⟨hne', htrim'⟩ := trimmed_normalize scope hscope
    refine CoveredBy.of_implies hne htrim ?_ himplies hne' htrim' hoperator
    obtain ha | ha := hmerged.1 ha
    · obtain ⟨-, b, hb, htrimb⟩ := mem_uniqueTrimmed.1 ha
      obtain ⟨role, hrole, hb⟩ := List.mem_flatMap.1 hb
      split at hb
      · cases hb
      · obtain ⟨hmem, -⟩ := mem_preserveRoleScoped.1 hb
        obtain rfl : b = a := (trim_of_mem_uniqueTrimmed hmem).symm.trans htrimb
        cases existing with
        | none => cases hrole
        | some device =>
          exact ((hsound device rfl).covered b (mem_normalize_of_mem hmem) haoperator).mono
    · refine ⟨_, List.mem_append_right _ (List.mem_singleton_self _), rfl, ?_⟩
      have hmem := htrimmed.mem_uniqueTrimmed.1 ha
      rw [hgranted] at hmem
      obtain ⟨b, hb, hboperator, hba⟩ := exists_of_mem_bootstrapForRoles hmem
      obtain ⟨hneb, htrimb⟩ := trimmed_normalize b hb
      have hbpending : b ∈ normalizeDeviceAuthScopes pending.scopes := by
        cases hscopes : pending.scopes with
        | some scopes => rwa [hscopes] at hb
        | none => rwa [hscopes] at hb
      have hcovers := covers_of_missing_none hmissing
        (List.mem_filter.2 ⟨hbpending, hboperator⟩)
      exact (covers_of_bootstrap hcovers hneb htrimb).of_implies hneb htrimb hba hne htrim
        haoperator

/-! ## Removal -/

variable {remaining : List String}

theorem mem_baseline_deviceWithoutRole (hne : remaining ≠ []) :
    scope ∈ uniqueTrimmed ((deviceWithoutRole device role remaining).scopeBaseline.getD []) ↔
      scope ∈ uniqueTrimmed (device.scopeBaseline.getD []) ∧
        ∃ entry ∈ remaining, roleCarries entry scope = true := by
  cases hbaseline : device.scopeBaseline with
  | none =>
    have hnone : (deviceWithoutRole device role remaining).scopeBaseline = none := by
      obtain ⟨happroved, hscopes⟩ : device.approvedScopes = none ∧ device.scopes = none := by
        simpa [PairedDevice.scopeBaseline] using hbaseline
      simp [deviceWithoutRole, PairedDevice.scopeBaseline, happroved, hscopes]
    rw [hnone]
    simp [uniqueTrimmed]
  | some scopes =>
    have hsome : (deviceWithoutRole device role remaining).scopeBaseline =
        mergeScopes (remaining.map fun entry =>
          some (preserveRoleScopedApprovalScopes entry (some scopes))) := by
      have hpreserved : mergeScopes (remaining.map fun entry =>
          some (preserveRoleScopedApprovalScopes entry (some scopes))) ≠ none := by
        intro hnone
        obtain ⟨entry, hentry⟩ := List.exists_mem_of_ne_nil _ hne
        cases mergeScopes_eq_none hnone _ (List.mem_map_of_mem hentry)
      obtain ⟨preserved, hpreserved⟩ := Option.ne_none_iff_exists'.1 hpreserved
      unfold deviceWithoutRole PairedDevice.scopeBaseline
      unfold PairedDevice.scopeBaseline at hbaseline
      simp [hbaseline, hpreserved]
    rw [hsome, mem_mergeScopes]
    constructor
    · rintro ⟨item, hitem, hmem⟩
      obtain ⟨entry, hentry, rfl⟩ := List.mem_map.1 hitem
      rw [Option.getD_some, trimmed_preserveRoleScoped.mem_uniqueTrimmed,
        mem_preserveRoleScoped] at hmem
      exact ⟨hmem.1, entry, hentry, hmem.2⟩
    · rintro ⟨hmem, entry, hentry, hcarries⟩
      refine ⟨_, List.mem_map_of_mem hentry, ?_⟩
      exact trimmed_preserveRoleScoped.mem_uniqueTrimmed.2
        (mem_preserveRoleScoped.2 ⟨hmem, hcarries⟩)

theorem DeviceSound.removeRole (h : DeviceSound covered device)
    (hremaining : remaining = (listApprovedPairedDeviceRoles device).filter (· ≠ role))
    (hne : remaining ≠ []) (hkeeps : KeepsOperatorScopes device remaining []) :
    DeviceSound covered (deviceWithoutRole device role remaining) := by
  have htoken : ∀ {entry token}, (deviceWithoutRole device role remaining).getToken entry =
      some token → entry ∈ remaining ∧ device.getToken entry = some token := by
    intro entry token htoken
    have hfilter := htoken
    rw [PairedDevice.getToken, deviceWithoutRole] at hfilter
    rw [KeyedList.get_filter_ne] at hfilter
    split at hfilter
    · cases hfilter
    · rename_i hentry
      refine ⟨?_, hfilter⟩
      rw [hremaining, List.mem_filter]
      exact ⟨h.role entry token hfilter, by simpa using hentry⟩
  have hbaseline : (∀ entry ∈ remaining, ∀ a ∈ device.baseline, roleCarries entry a = true →
      a ∈ (deviceWithoutRole device role remaining).baseline) ∧
      ∀ a ∈ (deviceWithoutRole device role remaining).baseline, a ∈ device.baseline := by
    refine ⟨fun entry hentry a ha hcarries => normalize_carries (fun b hb hcarriesb => ?_) ha
      hcarries, fun a ha => normalize_mono (fun b hb => ?_) ha⟩
    · exact (mem_baseline_deviceWithoutRole hne).2 ⟨hb, entry, hentry, hcarriesb⟩
    · exact ((mem_baseline_deviceWithoutRole hne).1 hb).1
  refine ⟨fun entry token hget => ?_, fun entry token hget scope hscope => ?_,
    fun entry token hget hlive scope hscope => ?_, fun scope hscope hoperator => ?_⟩
  · obtain ⟨hmem, -⟩ := htoken hget
    rw [listApprovedPairedDeviceRoles, mem_mergeRoles]
    refine ⟨remaining, List.mem_cons_self, ?_⟩
    have htrimmed : Trimmed remaining := hremaining ▸ trimmed_mergeRoles.filter _
    exact htrimmed.mem_uniqueTrimmed.2 hmem
  · obtain ⟨hmem, hget⟩ := htoken hget
    exact (h.carried entry token hget scope hscope).keep (mem_resolveRoleScoped.1 hscope).2
      (hbaseline.1 entry hmem)
  · obtain ⟨hmem, hget⟩ := htoken hget
    exact roleAllows_of_kept h hkeeps hget hmem hbaseline.1 nofun hlive hscope
  · exact h.covered scope (hbaseline.2 scope hscope) hoperator

/-! ## Tokens -/

theorem DeviceSound.putToken (h : DeviceSound covered device)
    (hrole : token.role ∈ listApprovedPairedDeviceRoles device)
    (hcarried : ∀ scope ∈ resolveRoleScopedDeviceTokenScopes token.role (some token.scopes),
      RoleAllows token.role device.baseline scope)
    (hlive : token.revokedAtMs = none → ∀ scope ∈ uniqueTrimmed token.scopes,
      RoleAllows token.role device.baseline scope) : DeviceSound covered
      { device with tokens := KeyedList.put DeviceAuthToken.role token device.tokens } := by
  have hget : ∀ role found,
      KeyedList.get DeviceAuthToken.role role
        (KeyedList.put DeviceAuthToken.role token device.tokens) = some found →
      (token.role = role ∧ token = found) ∨ device.getToken role = some found := by
    intro role found hfound
    rw [KeyedList.get_put] at hfound
    by_cases heq : token.role = role
    · rw [if_pos heq] at hfound
      exact .inl ⟨heq, Option.some.inj hfound⟩
    · rw [if_neg heq] at hfound
      exact .inr hfound
  refine ⟨fun role found hfound => ?_, fun role found hfound => ?_, fun role found hfound => ?_,
    h.covered⟩
  · obtain ⟨rfl, rfl⟩ | hfound := hget role found hfound
    · exact hrole
    · exact h.role role found hfound
  · obtain ⟨rfl, rfl⟩ | hfound := hget role found hfound
    · exact hcarried
    · exact h.carried role found hfound
  · obtain ⟨rfl, rfl⟩ | hfound := hget role found hfound
    · exact hlive
    · exact h.live role found hfound

end Devices

end OpenClaw.DevicePairing
