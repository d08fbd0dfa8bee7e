import OpenClaw.DevicePairing.Scopes
import OpenClaw.Lib.KeyedList

/-!
# `infra/device-pairing.ts`

Requests to pair a device, their approval, and the tokens of the roles of a device. The operations
run one at a time on what the files hold, so each is a function of the state. A record keeps its
entries under a key that the entry carries too. `generatePairingToken` is a parameter: its answer to
the call of a number. A time is never zero, so a token with a time of revocation is revoked. Names,
addresses and last uses that only a list shows are left out.
-/

namespace OpenClaw.DevicePairing

/-! ## Records -/

structure PendingRequest where
  requestId : String
  deviceId : String
  publicKey : String
  clientId : Option String
  clientMode : Option String
  role : Option String
  roles : Option (List String)
  scopes : Option (List String)
  silent : Bool
  isRepair : Bool
  ts : Nat
  refreshedAtMs : Option Nat
  deriving DecidableEq

structure DeviceAuthToken where
  token : String
  role : String
  scopes : List String
  /-- The generation of the shared gateway session that issued the token. -/
  issuer : Option String
  createdAtMs : Nat
  rotatedAtMs : Option Nat
  revokedAtMs : Option Nat
  lastUsedAtMs : Option Nat
  deriving DecidableEq

structure PairedDevice where
  deviceId : String
  publicKey : String
  clientId : Option String
  clientMode : Option String
  role : Option String
  roles : Option (List String)
  scopes : Option (List String)
  approvedScopes : Option (List String)
  /-- By role. -/
  tokens : List DeviceAuthToken
  createdAtMs : Nat
  approvedAtMs : Nat
  deriving DecidableEq

structure PairingState where
  pendingById : List PendingRequest
  pairedByDeviceId : List PairedDevice
  /-- How many tokens were generated. -/
  generated : Nat
  deriving DecidableEq

def emptyState : PairingState := ⟨[], [], 0⟩

namespace PairingState

def getPending (state : PairingState) (requestId : String) : Option PendingRequest :=
  KeyedList.get PendingRequest.requestId requestId state.pendingById

def getPaired (state : PairingState) (deviceId : String) : Option PairedDevice :=
  KeyedList.get PairedDevice.deviceId deviceId state.pairedByDeviceId

def putPaired (state : PairingState) (device : PairedDevice) : PairingState :=
  { state with pairedByDeviceId := KeyedList.put PairedDevice.deviceId device state.pairedByDeviceId }

end PairingState

def PairedDevice.getToken (device : PairedDevice) (role : String) : Option DeviceAuthToken :=
  KeyedList.get DeviceAuthToken.role role device.tokens

def PENDING_TTL_MS : Nat := 5 * 60 * 1000

/-- The state an operation sees. -/
def loadState (state : PairingState) (now : Nat) : PairingState :=
  { state with pendingById := state.pendingById.filter fun pending =>
      ¬ PENDING_TTL_MS < now - pending.refreshedAtMs.getD pending.ts }

/-! ## Roles and scopes of records -/

def listApprovedPairedDeviceRoles (device : PairedDevice) : List String :=
  (mergeRoles [device.roles.getD [], device.role.toList]).getD []

def resolveRequestedRoles (role : Option String) (roles : Option (List String)) : List String :=
  (mergeRoles [roles.getD [], role.toList]).getD []

def PendingRequest.requestedRoles (pending : PendingRequest) : List String :=
  resolveRequestedRoles pending.role pending.roles

/-- `device.approvedScopes ?? device.scopes`. -/
def PairedDevice.scopeBaseline (device : PairedDevice) : Option (List String) :=
  device.approvedScopes <|> device.scopes

def resolveApprovedDeviceScopeBaseline (device : PairedDevice) : Option (List String) :=
  device.scopeBaseline.map fun baseline => normalizeDeviceAuthScopes (some baseline)

def scopesWithinApprovedDeviceBaseline (role : String) (scopes : List String)
    (approvedScopes : Option (List String)) : Bool :=
  match approvedScopes with
  | none => false
  | some approvedScopes => roleScopesAllow role scopes approvedScopes

/-! ## Requests -/

/-- What a device asks for. -/
structure PairingRequest where
  deviceId : String
  publicKey : String
  clientId : Option String
  clientMode : Option String
  role : Option String
  roles : Option (List String)
  scopes : Option (List String)
  silent : Bool
  deriving DecidableEq

def sameStringSet (left right : List String) : Bool :=
  left.length == right.length && left.all right.contains

def samePendingApprovalSnapshot (existing : PendingRequest) (incoming : PairingRequest) : Bool :=
  existing.publicKey == incoming.publicKey &&
    normalizeRole existing.role == normalizeRole incoming.role &&
    sameStringSet existing.requestedRoles (resolveRequestedRoles incoming.role incoming.roles) &&
    sameStringSet (normalizeDeviceAuthScopes existing.scopes)
      (normalizeDeviceAuthScopes incoming.scopes)

def incomingApprovalCoveredByExisting (existing : PendingRequest) (incoming : PairingRequest) :
    Bool :=
  let incomingRoles := resolveRequestedRoles incoming.role incoming.roles
  existing.publicKey == incoming.publicKey &&
    normalizeRole existing.role == normalizeRole incoming.role &&
    incomingRoles.all existing.requestedRoles.contains &&
    (normalizeDeviceAuthScopes incoming.scopes).all fun scope => incomingRoles.any fun role =>
      roleScopesAllow role [scope] (normalizeDeviceAuthScopes existing.scopes)

def refreshPendingDevicePairingRequest (existing : PendingRequest) (incoming : PairingRequest)
    (isRepair : Bool) (now : Nat) : PendingRequest :=
  { existing with
    publicKey := incoming.publicKey
    clientId := incoming.clientId <|> existing.clientId
    clientMode := incoming.clientMode <|> existing.clientMode
    silent := existing.silent && incoming.silent
    isRepair := existing.isRepair || isRepair
    refreshedAtMs := some now }

def buildPendingDevicePairingRequest (requestId deviceId : String) (isRepair : Bool)
    (req : PairingRequest) (now : Nat) : PendingRequest :=
  let role := normalizeRole req.role
  { requestId
    deviceId
    publicKey := req.publicKey
    clientId := req.clientId
    clientMode := req.clientMode
    role
    roles := mergeRoles [req.roles.getD [], role.toList]
    scopes := mergeScopes [req.scopes]
    silent := req.silent
    isRepair
    ts := now
    refreshedAtMs := none }

/-- `requestDevicePairing`; `requestId` is the id a new request gets. -/
def requestDevicePairing (state : PairingState) (req : PairingRequest) (requestId : String)
    (now : Nat) : PairingState × Except String PendingRequest :=
  let loaded := loadState state now
  let deviceId := JsString.trim req.deviceId
  let isRepair := (loaded.getPaired deviceId).isSome
  let existing := (loaded.pendingById.filter fun pending =>
    pending.deviceId = deviceId).insertionSort fun left right => right.ts ≤ left.ts
  if deviceId = "" then (state, .error "deviceId required")
  else
    let replaced :=
      let kept := loaded.pendingById.filter fun pending => pending.deviceId ≠ deviceId
      let request := buildPendingDevicePairingRequest requestId deviceId isRepair
        { req with
          role := normalizeRole req.role <|> existing.head?.bind PendingRequest.role
          roles := mergeRoles ((existing.flatMap fun pending =>
            [pending.roles.getD [], pending.role.toList]) ++ [req.roles.getD [], req.role.toList])
          scopes := mergeScopes (existing.map PendingRequest.scopes ++ [req.scopes])
          silent := req.silent && existing.all PendingRequest.silent } now
      ({ loaded with pendingById := KeyedList.put PendingRequest.requestId request kept },
        Except.ok request)
    match existing with
    | [single] =>
      if samePendingApprovalSnapshot single req || incomingApprovalCoveredByExisting single req then
        let refreshed := refreshPendingDevicePairingRequest single req isRepair now
        ({ loaded with
          pendingById := KeyedList.put PendingRequest.requestId refreshed loaded.pendingById },
          .ok refreshed)
      else replaced
    | _ => replaced

/-! ## Approval -/

variable (generatePairingToken : Nat → String)

def buildDeviceAuthToken (token role : String) (scopes : List String) (issuer : Option String)
    (existing : Option DeviceAuthToken) (now : Nat) (rotatedAtMs : Option Nat) : DeviceAuthToken where
  token
  role
  scopes
  issuer
  createdAtMs := (existing.map DeviceAuthToken.createdAtMs).getD now
  rotatedAtMs
  revokedAtMs := none
  lastUsedAtMs := existing.bind DeviceAuthToken.lastUsedAtMs

/-- Tokens for roles, in their order; a role that has one gets another. -/
def issueTokens (now : Nat) : Nat → List DeviceAuthToken → List (String × List String) →
    List DeviceAuthToken
  | _, tokens, [] => tokens
  | generated, tokens, (role, scopes) :: rest =>
    let existing := KeyedList.get DeviceAuthToken.role role tokens
    issueTokens now (generated + 1) (KeyedList.put DeviceAuthToken.role
      (buildDeviceAuthToken (generatePairingToken generated) role scopes none existing now
        (existing.map fun _ => now)) tokens) rest

inductive DevicePairingForbiddenReason
  | callerScopesRequired
  | callerMissingScope
  | scopeOutsideRequestedRoles
  | bootstrapRoleNotAllowed
  | bootstrapScopeNotAllowed
  deriving DecidableEq

inductive ApproveDevicePairingResult
  | approved (requestId : String) (device : PairedDevice)
  | forbidden (reason : DevicePairingForbiddenReason) (scope role : Option String)
  | notFound
  deriving DecidableEq

def buildApprovedPairedDevice (pending : PendingRequest) (existing : Option PairedDevice)
    (roles approvedScopes : Option (List String)) (tokens : List DeviceAuthToken) (now : Nat) :
    PairedDevice where
  deviceId := pending.deviceId
  publicKey := pending.publicKey
  clientId := pending.clientId
  clientMode := pending.clientMode
  role := pending.role
  roles
  scopes := approvedScopes
  approvedScopes
  tokens
  createdAtMs := (existing.map PairedDevice.createdAtMs).getD now
  approvedAtMs := now

def approvedRoles (existing : Option PairedDevice) (pending : PendingRequest) :
    Option (List String) :=
  mergeRoles [(existing.bind PairedDevice.roles).getD [], (existing.bind PairedDevice.role).toList,
    pending.roles.getD [], pending.role.toList]

def resolveApprovedTokenScopes (role : String) (pending : PendingRequest)
    (existingToken : Option DeviceAuthToken) (approvedScopes : Option (List String))
    (existing : Option PairedDevice) : List String :=
  let baseline := existing.bind PairedDevice.scopeBaseline
  let pendingScopes := resolveRoleScopedDeviceTokenScopes role pending.scopes
  if pendingScopes ≠ [] then
    let approvedBaseline := resolveRoleScopedDeviceTokenScopes role baseline
    match existingToken with
    | none => resolveRoleScopedDeviceTokenScopes role (mergeScopes [none, some pendingScopes])
    | some existingToken =>
      let requestedScopeDelta :=
        if approvedBaseline ≠ [] then
          pendingScopes.filter fun scope => !approvedBaseline.contains scope
        else pendingScopes
      if requestedScopeDelta = [] then
        resolveRoleScopedDeviceTokenScopes role (some existingToken.scopes)
      else
        resolveRoleScopedDeviceTokenScopes role
          (mergeScopes [some existingToken.scopes, some requestedScopeDelta])
  else
    resolveRoleScopedDeviceTokenScopes role
      (existingToken.map DeviceAuthToken.scopes <|> approvedScopes <|> baseline)

/-- The scopes of the token of a requested role, if the caller may approve them. -/
def approveRole (pending : PendingRequest) (existing : Option PairedDevice)
    (approvedScopes callerScopes : Option (List String)) (role : String) :
    Except ApproveDevicePairingResult (String × List String) :=
  let nextScopes := resolveApprovedTokenScopes role pending
    (existing.bind fun device => device.getToken role) approvedScopes existing
  if role = OPERATOR_ROLE ∧ nextScopes ≠ [] then
    let pendingScopes := resolveRoleScopedDeviceTokenScopes role pending.scopes
    let callerRequiredScopes := (mergeScopes [some pendingScopes, some nextScopes]).getD nextScopes
    match callerScopes with
    | none => .error (.forbidden .callerScopesRequired callerRequiredScopes.head? none)
    | some callerScopes =>
      match resolveMissingRequestedScope OPERATOR_ROLE callerRequiredScopes callerScopes with
      | some missingScope => .error (.forbidden .callerMissingScope (some missingScope) none)
      | none => .ok (role, nextScopes)
  else .ok (role, nextScopes)

/-- The device takes the place of the request. -/
def storeApproved (loaded : PairingState) (requestId : String) (device : PairedDevice)
    (issued : Nat) : PairingState :=
  { loaded with
    pendingById := loaded.pendingById.filter fun pending => pending.requestId ≠ requestId
    generated := loaded.generated + issued }.putPaired device

def approveDevicePairing (state : PairingState) (requestId : String)
    (callerScopes : Option (List String)) (now : Nat) :
    PairingState × ApproveDevicePairingResult :=
  let loaded := loadState state now
  match loaded.getPending requestId with
  | none => (state, .notFound)
  | some pending =>
    match resolveScopeOutsideRequestedRoles pending.requestedRoles
      (normalizeDeviceAuthScopes pending.scopes) with
    | some scope => (state, .forbidden .scopeOutsideRequestedRoles (some scope) none)
    | none =>
      let existing := loaded.getPaired pending.deviceId
      let approvedScopes := mergeScopes [existing.bind PairedDevice.scopeBaseline, pending.scopes]
      match pending.requestedRoles.mapM
        (approveRole pending existing approvedScopes callerScopes) with
      | .error result => (state, result)
      | .ok scopesByRole =>
        let tokens := issueTokens generatePairingToken now loaded.generated
          ((existing.map PairedDevice.tokens).getD []) scopesByRole
        let device := buildApprovedPairedDevice pending existing (approvedRoles existing pending)
          approvedScopes tokens now
        (storeApproved loaded requestId device scopesByRole.length, .approved requestId device)

/-- The scopes that the roles a bootstrap does not grant keep. -/
def preservedExistingScopes (existing : Option PairedDevice) (grantedRoles : List String) :
    List String :=
  ((existing.map listApprovedPairedDeviceRoles).getD []).flatMap fun existingRole =>
    if grantedRoles.contains existingRole then []
    else preserveRoleScopedApprovalScopes existingRole (existing.bind PairedDevice.scopeBaseline)

def approveBootstrapDevicePairing (state : PairingState) (requestId : String)
    (bootstrapProfile : DeviceBootstrapProfile) (now : Nat) :
    PairingState × ApproveDevicePairingResult :=
  let allowedRoles := (mergeRoles [bootstrapProfile.roles]).getD []
  let allowedScopes := resolveBootstrapProfileScopesForRoles allowedRoles bootstrapProfile.scopes
  let loaded := loadState state now
  match loaded.getPending requestId with
  | none => (state, .notFound)
  | some pending =>
    let grantedRoles := pending.requestedRoles
    match grantedRoles.find? fun role => !allowedRoles.contains role with
    | some missingRole => (state, .forbidden .bootstrapRoleNotAllowed none (some missingRole))
    | none =>
      match resolveMissingRequestedScope OPERATOR_ROLE
        ((normalizeDeviceAuthScopes pending.scopes).filter isOperatorScope) allowedScopes with
      | some missingScope => (state, .forbidden .bootstrapScopeNotAllowed (some missingScope) none)
      | none =>
        let existing := loaded.getPaired pending.deviceId
        let grantedScopes := resolveBootstrapProfileScopesForRoles grantedRoles
          (pending.scopes.getD [])
        let nextApprovedScopes := mergeScopes [
          some (preservedExistingScopes existing grantedRoles), some grantedScopes]
        let tokens := issueTokens generatePairingToken now loaded.generated
          ((existing.map PairedDevice.tokens).getD [])
          (grantedRoles.map fun role => (role, if role = OPERATOR_ROLE then
            resolveBootstrapProfileScopesForRole role grantedScopes else []))
        let device := buildApprovedPairedDevice pending existing (approvedRoles existing pending)
          nextApprovedScopes tokens now
        (storeApproved loaded requestId device grantedRoles.length, .approved requestId device)

/-! ## Removal of a role -/

/-- A request for a device that loses a role: without the role, or gone. -/
def withoutRole (role : String) (pending : PendingRequest) : Option PendingRequest :=
  let nextPendingRoles := pending.requestedRoles.filter (· ≠ role)
  if !pending.requestedRoles.contains role then some pending
  else if nextPendingRoles = [] then none
  else some { pending with
    role := nextPendingRoles.head?
    roles := some nextPendingRoles
    scopes := pending.scopes.bind fun scopes => mergeScopes (nextPendingRoles.map fun entry =>
      some (preserveRoleScopedApprovalScopes entry (some scopes))) }

/-- The device with the roles that remain, and their tokens and scopes. -/
def deviceWithoutRole (device : PairedDevice) (role : String) (remainingRoles : List String) :
    PairedDevice :=
  let preservedScopes := device.scopeBaseline.bind fun scopeBaseline =>
    mergeScopes (remainingRoles.map fun entry =>
      some (preserveRoleScopedApprovalScopes entry (some scopeBaseline)))
  { device with
    role := remainingRoles.head?
    roles := some remainingRoles
    scopes := preservedScopes <|> device.scopes
    approvedScopes := preservedScopes <|> device.approvedScopes
    tokens := device.tokens.filter fun token => token.role ≠ role }

structure RemovedRole where
  deviceId : String
  role : String
  removedDevice : Bool
  deriving DecidableEq

def removePairedDeviceRole (state : PairingState) (deviceId role : String) (now : Nat) :
    PairingState × Option RemovedRole :=
  let loaded := loadState state now
  let normalizedDeviceId := JsString.trim deviceId
  match loaded.getPaired normalizedDeviceId, normalizeRole (some role) with
  | some device, some role =>
    let roles := listApprovedPairedDeviceRoles device
    if !roles.contains role then (state, none)
    else
      let remainingRoles := roles.filter (· ≠ role)
      if remainingRoles = [] then
        ({ loaded with
          pendingById := loaded.pendingById.filter fun pending =>
            pending.deviceId ≠ normalizedDeviceId
          pairedByDeviceId := loaded.pairedByDeviceId.filter fun device =>
            device.deviceId ≠ normalizedDeviceId }, some ⟨normalizedDeviceId, role, true⟩)
      else
        let kept := loaded.pendingById.filterMap fun pending =>
          if pending.deviceId = normalizedDeviceId then withoutRole role pending else some pending
        ({ loaded with pendingById := kept }.putPaired
          (deviceWithoutRole device role remainingRoles), some ⟨normalizedDeviceId, role, false⟩)
  | _, _ => (state, none)

/-! ## Tokens -/

def BROWSER_DEVICE_CLIENT_IDS : List String := ["openclaw-control-ui", "webchat-ui"]

def BROWSER_DEVICE_CLIENT_MODE : String := "webchat"

/-- `String.prototype.toLowerCase`. -/
def isBrowserRelatedPairedDevice (toLowerCase : String → String) (device : PairedDevice) : Bool :=
  let clientMode := device.clientMode.map fun mode => toLowerCase (JsString.trim mode)
  let clientId := device.clientId.map fun id => toLowerCase (JsString.trim id)
  clientMode == some BROWSER_DEVICE_CLIENT_MODE ||
    (clientId.any fun id => id ≠ "" && BROWSER_DEVICE_CLIENT_IDS.contains id)

def verifyPairingToken (provided expected : String) : Bool :=
  if JsString.trim provided = "" ∨ JsString.trim expected = "" then false
  else provided == expected

inductive VerifyFailure
  | deviceNotPaired
  | roleMissing
  | tokenMissing
  | tokenRevoked
  | tokenMismatch
  | issuerGenerationStale
  | legacyBrowserToken
  | scopeMismatch
  deriving DecidableEq

structure VerifyDeviceToken where
  deviceId : String
  token : String
  role : String
  scopes : List String
  requiredSharedGatewaySessionGeneration : Option String

/-- `verifyDeviceToken`; a success has the issuer of the token. -/
def verifyDeviceToken (toLowerCase : String → String) (state : PairingState)
    (params : VerifyDeviceToken) (now : Nat) :
    PairingState × Except VerifyFailure (Option String) :=
  match state.getPaired (JsString.trim params.deviceId) with
  | none => (state, .error .deviceNotPaired)
  | some device =>
    match normalizeRole (some params.role) with
    | none => (state, .error .roleMissing)
    | some role =>
      match device.getToken role with
      | none => (state, .error .tokenMissing)
      | some entry =>
        if entry.revokedAtMs.isSome then (state, .error .tokenRevoked)
        else if !verifyPairingToken params.token entry.token then (state, .error .tokenMismatch)
        else if entry.issuer.isSome ∧
            entry.issuer ≠ params.requiredSharedGatewaySessionGeneration then
          (state, .error .issuerGenerationStale)
        else if entry.issuer.isNone ∧ params.requiredSharedGatewaySessionGeneration.isSome ∧
            isBrowserRelatedPairedDevice toLowerCase device then
          (state, .error .legacyBrowserToken)
        else if !scopesWithinApprovedDeviceBaseline role entry.scopes
            (resolveApprovedDeviceScopeBaseline device) then
          (state, .error .scopeMismatch)
        else if !roleScopesAllow role (normalizeDeviceAuthScopes (some params.scopes))
            entry.scopes then
          (state, .error .scopeMismatch)
        else
          let used := { entry with lastUsedAtMs := some now }
          (state.putPaired { device with
            tokens := KeyedList.put DeviceAuthToken.role used device.tokens }, .ok entry.issuer)

def resolveDeviceTokenUpdateContext (state : PairingState) (deviceId role : String) :
    Option (PairedDevice × String × Option DeviceAuthToken) :=
  match state.getPaired (JsString.trim deviceId), normalizeRole (some role) with
  | some device, some role =>
    if (listApprovedPairedDeviceRoles device).contains role then
      some (device, role, device.getToken role)
    else none
  | _, _ => none

/-- The token takes its place among those of the device. -/
def storeToken (state : PairingState) (device : PairedDevice) (token : DeviceAuthToken)
    (issued : Nat) : PairingState :=
  { state with generated := state.generated + issued }.putPaired
    { device with tokens := KeyedList.put DeviceAuthToken.role token device.tokens }

def ensureDeviceToken (state : PairingState) (deviceId role : String) (scopes : List String)
    (issuer : Option String) (now : Nat) : PairingState × Option DeviceAuthToken :=
  let requestedScopes := normalizeDeviceAuthScopes (some scopes)
  match resolveDeviceTokenUpdateContext state deviceId role with
  | none => (state, none)
  | some (device, role, existing) =>
    let approvedScopes := resolveApprovedDeviceScopeBaseline device
    let reusable := existing.filter fun entry => entry.revokedAtMs.isNone &&
      scopesWithinApprovedDeviceBaseline role entry.scopes approvedScopes &&
      entry.issuer == issuer && roleScopesAllow role requestedScopes entry.scopes
    if !scopesWithinApprovedDeviceBaseline role requestedScopes approvedScopes then (state, none)
    else
      match reusable with
      | some entry => (state, some entry)
      | none =>
        let next := buildDeviceAuthToken (generatePairingToken state.generated) role
          requestedScopes issuer existing now (existing.map fun _ => now)
        (storeToken state device next 1, some next)

inductive TokenDenyReason
  | unknownDeviceOrRole
  | missingApprovedScopeBaseline
  | scopeOutsideApprovedBaseline
  | callerMissingScope (scope : String)
  deriving DecidableEq

/-- The scope that a caller with scopes lacks. -/
def callerMissingScope (role : String) (requestedScopes : List String)
    (callerScopes : Option (List String)) : Option String :=
  callerScopes.bind fun callerScopes =>
    resolveMissingRequestedScope role requestedScopes callerScopes

def rotateDeviceToken (state : PairingState) (deviceId role : String)
    (scopes callerScopes : Option (List String)) (now : Nat) :
    PairingState × Except TokenDenyReason DeviceAuthToken :=
  match resolveDeviceTokenUpdateContext state deviceId role with
  | none => (state, .error .unknownDeviceOrRole)
  | some (device, role, existing) =>
    let requestedScopes := normalizeDeviceAuthScopes
      (scopes <|> existing.map DeviceAuthToken.scopes <|> device.scopes)
    match resolveApprovedDeviceScopeBaseline device with
    | none => (state, .error .missingApprovedScopeBaseline)
    | some approvedScopes =>
      if !scopesWithinApprovedDeviceBaseline role requestedScopes (some approvedScopes) then
        (state, .error .scopeOutsideApprovedBaseline)
      else
        match callerMissingScope role requestedScopes callerScopes with
        | some missingScope => (state, .error (.callerMissingScope missingScope))
        | none =>
          let next := buildDeviceAuthToken (generatePairingToken state.generated) role
            requestedScopes (existing.bind DeviceAuthToken.issuer) existing now (some now)
          (storeToken state device next 1, .ok next)

def revokeDeviceToken (state : PairingState) (deviceId role : String)
    (callerScopes : Option (List String)) (now : Nat) :
    PairingState × Except TokenDenyReason DeviceAuthToken :=
  match resolveDeviceTokenUpdateContext state deviceId role with
  | some (device, role, some existing) =>
    match callerMissingScope role (normalizeDeviceAuthScopes (some existing.scopes))
      callerScopes with
    | some missingScope => (state, .error (.callerMissingScope missingScope))
    | none =>
      let entry := { existing with revokedAtMs := some now }
      (storeToken state device entry 0, .ok entry)
  | _ => (state, .error .unknownDeviceOrRole)

end OpenClaw.DevicePairing
