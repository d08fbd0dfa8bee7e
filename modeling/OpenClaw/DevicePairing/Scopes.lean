import OpenClaw.Lib.JsString
import Mathlib.Data.List.Sort

/-!
# Roles and scopes

`shared/operator-scope-compat.ts`, `shared/device-auth.ts` and `shared/device-bootstrap-profile.ts`:
lists of scopes, which of them a role may carry, and which a grant satisfies.
-/

namespace OpenClaw.DevicePairing

def OPERATOR_ROLE : String := "operator"

def OPERATOR_ADMIN_SCOPE : String := "operator.admin"

def OPERATOR_READ_SCOPE : String := "operator.read"

def OPERATOR_WRITE_SCOPE : String := "operator.write"

def OPERATOR_SCOPE_PREFIX : String := "operator."

/-- The scope belongs to operators. -/
def isOperatorScope (scope : String) : Bool := JsString.startsWith scope OPERATOR_SCOPE_PREFIX

/-- `normalizeUniqueSingleOrTrimmedStringList` of a list: trimmed, nonempty, each once. -/
def uniqueTrimmed (values : List String) : List String :=
  ((values.map JsString.trim).filter (· ≠ "")).eraseDups

/-- `Array.prototype.toSorted`, by code units. -/
def sortScopes (scopes : List String) : List String :=
  scopes.insertionSort fun a b => JsString.codeUnits a ≤ JsString.codeUnits b

/-- The scopes that the broadest operator scope of a list brings with it. -/
def impliedScopes (scopes : List String) : List String :=
  if scopes.contains OPERATOR_ADMIN_SCOPE then [OPERATOR_READ_SCOPE, OPERATOR_WRITE_SCOPE]
  else if scopes.contains OPERATOR_WRITE_SCOPE then [OPERATOR_READ_SCOPE]
  else []

def normalizeDeviceAuthScopes (scopes : Option (List String)) : List String :=
  let out := uniqueTrimmed (scopes.getD [])
  sortScopes (out ++ impliedScopes out).eraseDups

/-! ## `operator-scope-compat.ts` -/

def operatorScopeSatisfied (requestedScope : String) (granted : List String) : Bool :=
  if !isOperatorScope requestedScope then false
  else if granted.contains OPERATOR_ADMIN_SCOPE then true
  else if requestedScope = OPERATOR_READ_SCOPE then
    granted.contains OPERATOR_READ_SCOPE || granted.contains OPERATOR_WRITE_SCOPE
  else if requestedScope = OPERATOR_WRITE_SCOPE then granted.contains OPERATOR_WRITE_SCOPE
  else granted.contains requestedScope

def roleScopesAllow (role : String) (requestedScopes allowedScopes : List String) : Bool :=
  let requested := uniqueTrimmed requestedScopes
  let allowed := uniqueTrimmed allowedScopes
  if requested = [] then true
  else if allowed = [] then false
  else if JsString.trim role ≠ OPERATOR_ROLE then
    requested.all fun scope =>
      JsString.startsWith scope (JsString.trim role ++ ".") && allowed.contains scope
  else requested.all fun scope => operatorScopeSatisfied scope allowed

def resolveMissingRequestedScope (role : String) (requestedScopes allowedScopes : List String) :
    Option String :=
  requestedScopes.find? fun scope => !roleScopesAllow role [scope] allowedScopes

def resolveScopeOutsideRequestedRoles (requestedRoles requestedScopes : List String) :
    Option String :=
  requestedScopes.find? fun scope =>
    !requestedRoles.any fun role => roleScopesAllow role [scope] [scope]

/-! ## `device-bootstrap-profile.ts` -/

structure DeviceBootstrapProfile where
  roles : List String
  scopes : List String

def BOOTSTRAP_HANDOFF_OPERATOR_SCOPES : List String :=
  ["operator.approvals", "operator.read", "operator.talk.secrets", "operator.write"]

def resolveBootstrapProfileScopesForRole (role : String) (scopes : List String) : List String :=
  if JsString.trim role = OPERATOR_ROLE then
    (normalizeDeviceAuthScopes (some scopes)).filter fun scope =>
      BOOTSTRAP_HANDOFF_OPERATOR_SCOPES.contains scope
  else []

def resolveBootstrapProfileScopesForRoles (roles scopes : List String) : List String :=
  normalizeDeviceAuthScopes
    (some (roles.flatMap fun role => resolveBootstrapProfileScopesForRole role scopes))

/-! ## Lists of `device-pairing.ts` -/

def normalizeRole (role : Option String) : Option String :=
  (role.map JsString.trim).filter (· ≠ "")

/-- Lists of roles put together; a single role is a list of one. -/
def mergeRoles (items : List (List String)) : Option (List String) :=
  let roles := uniqueTrimmed items.flatten
  if roles = [] then none else some roles

/-- Lists of scopes put together; nothing if no item was a list. -/
def mergeScopes (items : List (Option (List String))) : Option (List String) :=
  let scopes := uniqueTrimmed (items.filterMap id).flatten
  if scopes = [] then if items.any Option.isSome then some [] else none
  else some scopes

/-- The role may carry the scope: operators their own scopes, other roles the rest. -/
def roleCarries (role scope : String) : Bool :=
  if role = OPERATOR_ROLE then isOperatorScope scope else !isOperatorScope scope

def resolveRoleScopedDeviceTokenScopes (role : String) (scopes : Option (List String)) :
    List String :=
  (normalizeDeviceAuthScopes scopes).filter (roleCarries role)

def preserveRoleScopedApprovalScopes (role : String) (scopes : Option (List String)) :
    List String :=
  (uniqueTrimmed (scopes.getD [])).filter (roleCarries role)

end OpenClaw.DevicePairing
