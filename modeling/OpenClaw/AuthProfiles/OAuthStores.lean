import OpenClaw.AuthProfiles.OAuthManager
import OpenClaw.Lib.Parallel

/-!
# The stores under many calls of `resolveOAuthAccess`

The profile's store of each path, the refresh lock and the clock, with the commands of
`oauth-manager.ts` as they act on them (`store.ts`). Any number of calls run at once, each of its own
agent; all of them write through here, and `rotated` records the refresh tokens that were submitted
with what was stored for them. The adapter, the external credentials and the cached main store of
`ensureAuthProfileStoreWithoutExternalProfiles` are arbitrary. A store write succeeds, the lock
excludes, and a refresh that succeeds gives a new credential that can be used.
-/

namespace OpenClaw.AuthProfiles

/-! ## Stores -/

/-- Where the store of a directory is, and the identity that all the stores have of the profile. -/
structure Deployment where
  resolveAuthStorePath : Option String → String
  toLowerCase : String → String
  provider : String
  account : Option String
  mail : Option String

variable {ε ι : Type}

structure Stores (ι : Type) where
  profile : String → Option StoredProfile
  lockedBy : Option ι
  clock : Int
  /-- A submitted refresh token, with the credential that was stored for it. -/
  rotated : List (String × OAuthCredential)

namespace Stores

variable (host : Deployment) (s : Stores ι)

def main : Option StoredProfile := s.profile (host.resolveAuthStorePath none)

/-- The store of a directory, over the main one. -/
def loadAuthProfileStoreWithoutExternalProfiles : Option String → Option StoredProfile
  | none => s.main host
  | some dir => (s.profile (host.resolveAuthStorePath (some dir))).or (s.main host)

def shouldUseMainOwnerForLocalOAuthCredential (toLowerCase : String → String) :
    StoredProfile → Option StoredProfile → Bool
  | .oauth localCred, some (.oauth mainCred) =>
    if !isSafeToAdoptMainStoreOAuthIdentity toLowerCase localCred mainCred then false
    else if areOAuthCredentialsEquivalent localCred mainCred then true
    else
      match mainCred.expiresAt, localCred.expiresAt with
      | none, _ => false
      | some _, none => true
      | some mainExpires, some localExpires => decide (localExpires ≤ mainExpires)
  | _, _ => false

def resolvePersistedAuthProfileOwnerAgentDir : Option String → Option String
  | none => none
  | some dir =>
    if host.resolveAuthStorePath (some dir) = host.resolveAuthStorePath none then none
    else
      match s.profile (host.resolveAuthStorePath (some dir)) with
      | some requestedProfile =>
        if shouldUseMainOwnerForLocalOAuthCredential host.toLowerCase requestedProfile (s.main host)
        then none else some dir
      | none => if (s.main host).isSome then none else some dir

/-- The store of a directory is written. -/
def written (site : WriteSite) (agentDir : Option String) (credential : OAuthCredential) :
    Stores ι :=
  { s with
    profile := Function.update s.profile (host.resolveAuthStorePath agentDir)
      (some (.oauth credential))
    rotated :=
      match site with
      | .refreshed submitted => (submitted, credential) :: s.rotated
      | _ => s.rotated }

def updated (site : WriteSite) (agentDir : Option String)
    (updater : Option StoredProfile → Option OAuthCredential) : Stores ι :=
  match updater (s.profile (host.resolveAuthStorePath agentDir)) with
  | none => s
  | some credential => s.written host site agentDir credential

end Stores

/-! ## Answers -/

/-- The credential has the identity of the profile. -/
structure Alike (host : Deployment) (credential : OAuthCredential) : Prop where
  provider : credential.provider = host.provider
  account : credential.account = host.account
  mail : credential.mail host.toLowerCase = host.mail

def Stores.Alike (host : Deployment) (s : Stores ι) : Prop :=
  ∀ path credential, s.profile path = some (.oauth credential) →
    AuthProfiles.Alike host credential

/-- A command of a call, its answer, and the stores after it. -/
def Stores.Serves (host : Deployment) (agentDir : Option String) (s : Stores ι) (i : ι) :
    (c : Command) → Answer ε c → Stores ι → Prop
  | .now, now, t => now = s.clock ∧ t = s
  | .loadStoredOAuthRefreshStore _ dir, stored, t =>
    (∀ profile, stored = .ok profile →
      profile = s.loadAuthProfileStoreWithoutExternalProfiles host dir) ∧ t = s
  | .refreshCredential credential, refreshed, t =>
    (∀ r, refreshed = .ok (some r) → credential.refreshedWith r ≠ credential ∧
      hasUsableOAuthCredential (credential.refreshedWith r) s.clock = true) ∧ t = s
  | .resolvePersistedAuthProfileOwnerAgentDir, owner, t =>
    owner = s.resolvePersistedAuthProfileOwnerAgentDir host agentDir ∧ t = s
  | .updateAuthProfileStore site dir updater, existing, t =>
    existing = some (s.profile (host.resolveAuthStorePath dir)) ∧ t = s.updated host site dir updater
  | .acquireRefreshLock, .ok (), t => s.lockedBy = none ∧ t = { s with lockedBy := some i }
  | .releaseRefreshLock, _, t => t = { s with lockedBy := none }
  | _, _, t => t = s

/-- The calls, the stores they share, and the time that passes. -/
def OAuthEnvironment (host : Deployment) (params : ι → ResolveParams ε) :
    Parallel.Environment Command (Answer ε) ι (Stores ι) where
  serves s i c a t := s.Serves host (params i).agentDir i c a t ∧ t.Alike host
  moves s t := ∃ now, s.clock ≤ now ∧ t = { s with clock := now }

abbrev OAuthSystem (ε ι : Type) :=
  Parallel.State Command (Answer ε) ε (Option ResolvedOAuthAccess) ι (Stores ι)

/-- Any number of calls, none of which forces a refresh, over any stores of the identity. -/
structure OAuthStart (host : Deployment) (params : ι → ResolveParams ε) (s : OAuthSystem ε ι) :
    Prop where
  runs : ∀ i, s.runs i = resolveOAuthAccess (params i)
  unforced : ∀ i, (params i).forceRefresh = false
  lower : ∀ i, (params i).toLowerCase = host.toLowerCase
  alike : s.shared.Alike host
  unlocked : s.shared.lockedBy = none
  unrotated : s.shared.rotated = []

/-- A call is about to submit a refresh token that was rotated before, while the credential stored
for it can be used and is in the store of the call's agent or in the main one. -/
def SubmitsRotatedToken (host : Deployment) (params : ι → ResolveParams ε) (s : OAuthSystem ε ι) :
    Prop :=
  ∃ i credential f, s.runs i = .ask (.refreshCredential credential) f ∧
    ∃ rotated, (credential.refresh, rotated) ∈ s.shared.rotated ∧
      hasUsableOAuthCredential rotated s.shared.clock = true ∧
      (s.shared.profile (host.resolveAuthStorePath (params i).agentDir) = some (.oauth rotated) ∨
        s.shared.main host = some (.oauth rotated))

end OpenClaw.AuthProfiles
