import OpenClaw.AuthProfiles.Usage
import OpenClaw.Lib.Interact

/-!
# `auth-profiles/oauth-manager.ts`

`resolveOAuthAccess` for one profile, as a program over the stores, the clock, the adapter and the
refresh lock. A store is what it holds for the profile; other writers may change it between any two
commands, and inside none. The refresh queue of a process is left out, since the lock holds off the
other processes as well. A command that is asked at several places of the source names the place.
-/

namespace OpenClaw.AuthProfiles

/-! ## Credentials -/

structure OAuthCredential where
  provider : String
  access : String
  refresh : String
  expires : Int
  email : Option String
  enterpriseUrl : Option String
  projectId : Option String
  accountId : Option String
  idToken : Option String
  deriving DecidableEq

/-- What a store holds for the profile: an OAuth credential or one of another type. -/
inductive StoredProfile
  | oauth (credential : OAuthCredential)
  | other
  deriving DecidableEq

def StoredProfile.oauth? : Option StoredProfile → Option OAuthCredential
  | some (oauth credential) => some credential
  | _ => none

variable {stored : Option StoredProfile} {c : OAuthCredential}

theorem StoredProfile.oauth?_eq_some (h : StoredProfile.oauth? stored = some c) :
    stored = some (.oauth c) := by
  unfold StoredProfile.oauth? at h
  split at h
  · cases h
    rfl
  · cases h

/-- The adapter's answer to a refresh. A field it does not give is kept. -/
structure OAuthCredentials where
  access : String
  refresh : String
  expires : Int
  provider : Option String
  email : Option String
  enterpriseUrl : Option String
  projectId : Option String
  accountId : Option String
  idToken : Option String

def OAuthCredential.refreshedWith (credential : OAuthCredential) (refreshed : OAuthCredentials) :
    OAuthCredential where
  provider := refreshed.provider.getD credential.provider
  access := refreshed.access
  refresh := refreshed.refresh
  expires := refreshed.expires
  email := refreshed.email.orElse fun _ => credential.email
  enterpriseUrl := refreshed.enterpriseUrl.orElse fun _ => credential.enterpriseUrl
  projectId := refreshed.projectId.orElse fun _ => credential.projectId
  accountId := refreshed.accountId.orElse fun _ => credential.accountId
  idToken := refreshed.idToken.orElse fun _ => credential.idToken

def DEFAULT_OAUTH_REFRESH_MARGIN_MS : Int := 5 * 60 * 1000

def hasUsableOAuthCredential (credential : OAuthCredential) (now : Int) : Bool :=
  JsString.trim credential.access != "" && decide (0 < credential.expires) &&
    decide (credential.expires ≤ MAX_DATE_TIMESTAMP_MS) &&
    decide (DEFAULT_OAUTH_REFRESH_MARGIN_MS < credential.expires - now)

/-- The expiry, if it is a date. -/
def OAuthCredential.expiresAt (credential : OAuthCredential) : Option Int :=
  asDateTimestampMs (some credential.expires)

/-! ## Identities -/

section Identity

variable (toLowerCase : String → String)

def normalizeAuthIdentityToken (value : Option String) : Option String :=
  (value.map JsString.trim).filter (· != "")

def normalizeAuthEmailToken (value : Option String) : Option String :=
  (normalizeAuthIdentityToken value).map toLowerCase

def OAuthCredential.account (credential : OAuthCredential) : Option String :=
  normalizeAuthIdentityToken credential.accountId

def OAuthCredential.mail (credential : OAuthCredential) : Option String :=
  normalizeAuthEmailToken toLowerCase credential.email

def hasOAuthIdentity (credential : OAuthCredential) : Bool :=
  credential.account.isSome || (credential.mail toLowerCase).isSome

def isSafeToCopyOAuthIdentity (existing incoming : OAuthCredential) : Bool :=
  match existing.account, incoming.account with
  | some a, some b => a == b
  | _, _ =>
    match existing.mail toLowerCase, incoming.mail toLowerCase with
    | some a, some b => a == b
    | _, _ => !hasOAuthIdentity toLowerCase existing

/-- Every field of a credential is compared. -/
def areOAuthCredentialsEquivalent (a b : OAuthCredential) : Bool := a == b

def hasMatchingOAuthIdentity (existing incoming : OAuthCredential) : Bool :=
  hasOAuthIdentity toLowerCase existing && isSafeToCopyOAuthIdentity toLowerCase existing incoming

/-- The transition from an OAuth credential. A policy differs from the others in what it says of an
existing credential without an identity, and of one that is missing. -/
def isSafeOAuthIdentityTransition (existing incoming : OAuthCredential)
    (whenExistingIdentityMissing : Bool) : Bool :=
  if existing.provider ≠ incoming.provider then false
  else if areOAuthCredentialsEquivalent existing incoming then true
  else if !hasOAuthIdentity toLowerCase existing then whenExistingIdentityMissing
  else hasMatchingOAuthIdentity toLowerCase existing incoming

def isSafeToAdoptBootstrapOAuthIdentity (existing incoming : OAuthCredential) : Bool :=
  isSafeOAuthIdentityTransition toLowerCase existing incoming true

def isSafeToAdoptMainStoreOAuthIdentity (existing incoming : OAuthCredential) : Bool :=
  isSafeOAuthIdentityTransition toLowerCase existing incoming true

end Identity

/-! ## Replacement -/

def hasNewerStoredOAuthCredential (existing incoming : OAuthCredential) : Bool :=
  existing.provider == incoming.provider &&
    match existing.expiresAt, incoming.expiresAt with
    | some existingExpires, some incomingExpires => decide (incomingExpires < existingExpires)
    | some _, none => true
    | none, _ => false

def shouldReplaceStoredOAuthCredential (existing incoming : OAuthCredential) : Bool :=
  !areOAuthCredentialsEquivalent existing incoming &&
    !hasNewerStoredOAuthCredential existing incoming

def shouldMirrorRefreshedOAuthCredential (toLowerCase : String → String)
    (existing : Option StoredProfile) (refreshed : OAuthCredential) : Bool :=
  match existing with
  | none => true
  | some .other => false
  | some (.oauth existing) =>
    existing.provider == refreshed.provider &&
      isSafeToCopyOAuthIdentity toLowerCase existing refreshed &&
      match refreshed.expiresAt, existing.expiresAt with
      | none, _ => false
      | some refreshedExpires, some existingExpires => decide (existingExpires < refreshedExpires)
      | some _, none => true

def shouldBootstrapFromExternalCliCredential (existing imported : OAuthCredential) (now : Int) :
    Bool :=
  !hasUsableOAuthCredential existing now && hasUsableOAuthCredential imported now

def hasOAuthCredentialChanged (previous current : OAuthCredential) : Bool :=
  previous.access != current.access || previous.refresh != current.refresh ||
    previous.expires != current.expires

def canReuseOAuthCredentialAfterRefreshFailure (forceRefresh : Bool)
    (attempted candidate : OAuthCredential) : Bool :=
  !forceRefresh || hasOAuthCredentialChanged attempted candidate

/-! ## Commands -/

inductive LoadSite
  | underLock
  | mainUnderLock
  | afterFailure
  | recovery
  deriving DecidableEq

inductive KeySite
  | effective
  | underLock
  | mainUnderLock
  | bootstrap
  | refreshed
  | afterFailure
  | recovery
  | inherited
  deriving DecidableEq

/-- Why a store is written. A refresh keeps the token it submitted. -/
inductive WriteSite
  | bootstrap
  | refreshed (submitted : String)
  | mirror
  deriving DecidableEq

inductive Command
  | now
  /-- `ensureAuthProfileStoreWithoutExternalProfiles(undefined)`. -/
  | ensureMainStore
  /-- `loadStoredOAuthRefreshStore`; without a directory it is the main store. -/
  | loadStoredOAuthRefreshStore (site : LoadSite) (agentDir : Option String)
  | readBootstrapCredential (credential : OAuthCredential)
  | buildApiKey (site : KeySite) (provider : String) (credential : OAuthCredential)
  | refreshCredential (credential : OAuthCredential)
  | resolvePersistedAuthProfileOwnerAgentDir
  /-- `updateAuthProfileStoreWithLock`; the updater gives the credential to write, if any. -/
  | updateAuthProfileStore (site : WriteSite) (agentDir : Option String)
      (updater : Option StoredProfile → Option OAuthCredential)
  | acquireRefreshLock
  | releaseRefreshLock

def Answer (ε : Type) : Command → Type
  | .now => Int
  | .ensureMainStore => Except ε (Option StoredProfile)
  | .loadStoredOAuthRefreshStore _ _ => Except ε (Option StoredProfile)
  | .readBootstrapCredential _ => Except ε (Option OAuthCredential)
  | .buildApiKey _ _ _ => Except ε String
  | .refreshCredential _ => Except ε (Option OAuthCredentials)
  | .resolvePersistedAuthProfileOwnerAgentDir => Option String
  /- What the updater read, or nothing where the update failed. -/
  | .updateAuthProfileStore _ _ _ => Option (Option StoredProfile)
  | .acquireRefreshLock => Except ε Unit
  | .releaseRefreshLock => Unit

abbrev OAuthProgram (ε : Type) := Interact Command (Answer ε) ε

structure ResolvedOAuthAccess where
  apiKey : String
  credential : OAuthCredential
  deriving DecidableEq

structure RefreshErrors (ε : Type) where
  isRefreshTokenReusedError : ε → Bool
  /-- A lock timeout becomes a contention error; any other error is kept. -/
  refreshContention : ε → ε
  failedToPersist : ε
  oauthManagerRefreshError : ε → ε

structure ResolveParams (ε : Type) where
  credential : OAuthCredential
  agentDir : Option String
  forceRefresh : Bool
  toLowerCase : String → String
  errors : RefreshErrors ε

variable {ε : Type}

/-! Each command as a program of its own. An answer that is an error is thrown, but for the lock's,
which `doRefreshOAuthTokenWithLock` looks at. -/

def now : OAuthProgram ε Int := .ask .now .ret

def ensureMainStore : OAuthProgram ε (Option StoredProfile) :=
  .ask .ensureMainStore Interact.ofExcept

def loadStoredOAuthRefreshStore (site : LoadSite) (agentDir : Option String) :
    OAuthProgram ε (Option StoredProfile) :=
  .ask (.loadStoredOAuthRefreshStore site agentDir) Interact.ofExcept

def readBootstrapCredential (credential : OAuthCredential) :
    OAuthProgram ε (Option OAuthCredential) :=
  .ask (.readBootstrapCredential credential) Interact.ofExcept

def buildApiKey (site : KeySite) (provider : String) (credential : OAuthCredential) :
    OAuthProgram ε String :=
  .ask (.buildApiKey site provider credential) Interact.ofExcept

def refreshCredential (credential : OAuthCredential) : OAuthProgram ε (Option OAuthCredentials) :=
  .ask (.refreshCredential credential) Interact.ofExcept

def resolvePersistedAuthProfileOwnerAgentDir : OAuthProgram ε (Option String) :=
  .ask .resolvePersistedAuthProfileOwnerAgentDir .ret

def updateAuthProfileStoreWithLock (site : WriteSite) (agentDir : Option String)
    (updater : Option StoredProfile → Option OAuthCredential) :
    OAuthProgram ε (Option (Option StoredProfile)) :=
  .ask (.updateAuthProfileStore site agentDir updater) .ret

def acquireRefreshLock : OAuthProgram ε (Except ε Unit) := .ask .acquireRefreshLock .ret

def releaseRefreshLock : OAuthProgram ε Unit := .ask .releaseRefreshLock .ret

def isUsable (credential : OAuthCredential) : OAuthProgram ε Bool := do
  return hasUsableOAuthCredential credential (← now)

def access (site : KeySite) (provider : String) (credential : OAuthCredential) :
    OAuthProgram ε (Option ResolvedOAuthAccess) := do
  let apiKey ← buildApiKey site provider credential
  return some ⟨apiKey, credential⟩

/-! ## Writes -/

def saveUpdater (toLowerCase : String → String) (expected : List OAuthCredential)
    (credential : OAuthCredential) (existing : Option StoredProfile) : Option OAuthCredential :=
  match existing with
  | some (.oauth existing) =>
    if !expected.any (areOAuthCredentialsEquivalent existing) then none
    else if !isSafeToAdoptBootstrapOAuthIdentity toLowerCase existing credential ||
        !shouldReplaceStoredOAuthCredential existing credential then none
    else some credential
  | _ => none

theorem saveUpdater_eq_some {toLowerCase : String → String} {expected : List OAuthCredential}
    {incoming : OAuthCredential} (h : saveUpdater toLowerCase expected incoming stored = some c) :
    c = incoming ∧ ∃ existing ∈ expected, stored = some (.oauth existing) ∧
      isSafeToAdoptBootstrapOAuthIdentity toLowerCase existing incoming = true ∧
      shouldReplaceStoredOAuthCredential existing incoming = true := by
  unfold saveUpdater at h
  split at h
  · next existing =>
    split at h
    · cases h
    · next hexpected =>
      split at h
      · cases h
      · next hsafe =>
        simp only [Bool.not_eq_true', Bool.not_eq_false, List.any_eq_true,
          areOAuthCredentialsEquivalent, beq_iff_eq] at hexpected
        simp only [Bool.or_eq_true, Bool.not_eq_true', not_or, Bool.not_eq_false] at hsafe
        obtain ⟨e, he, heq⟩ := hexpected
        subst heq
        exact ⟨(Option.some.inj h).symm, existing, he, rfl, hsafe⟩
  · cases h

def saveOAuthCredentialWithStoreLock (p : ResolveParams ε) (site : WriteSite)
    (agentDir : Option String) (expected : List OAuthCredential) (credential : OAuthCredential) :
    OAuthProgram ε Bool := do
  let updater := saveUpdater p.toLowerCase expected credential
  match ← updateAuthProfileStoreWithLock site agentDir updater with
  | some existing => return (updater existing).isSome
  | none => return false

def mirrorUpdater (toLowerCase : String → String) (refreshed : OAuthCredential)
    (existing : Option StoredProfile) : Option OAuthCredential :=
  if shouldMirrorRefreshedOAuthCredential toLowerCase existing refreshed then some refreshed
  else none

def mirrorRefreshedCredentialIntoMainStore (p : ResolveParams ε) (refreshed : OAuthCredential) :
    OAuthProgram ε Unit := do
  let _ ← updateAuthProfileStoreWithLock .mirror none (mirrorUpdater p.toLowerCase refreshed)
  return ()

/-! ## Under the refresh lock -/

/-- The main store's credential, where it can be used in the place of an agent's. An error of the
store or of the adapter is caught. -/
def adoptMainUnderLock (p : ResolveParams ε) (credential : OAuthCredential) :
    OAuthProgram ε (Option ResolvedOAuthAccess) :=
  if p.agentDir.isNone then return none
  else
    Interact.tryCatch (do
      match StoredProfile.oauth? (← loadStoredOAuthRefreshStore .mainUnderLock none) with
      | none => return none
      | some mainCred =>
        let usable ← isUsable mainCred
        if mainCred.provider = credential.provider ∧ usable = true ∧ p.forceRefresh = false ∧
            isSafeToAdoptMainStoreOAuthIdentity p.toLowerCase credential mainCred = true then
          access .mainUnderLock mainCred.provider mainCred
        else return none) fun _ => return none

/-- An external credential that is safe takes the place of the stored one. -/
def externallyManaged? (p : ResolveParams ε) (credential : OAuthCredential) :
    OAuthProgram ε (Option OAuthCredential) := do
  match ← readBootstrapCredential credential with
  | none => return none
  | some externallyManaged =>
    if externallyManaged.provider ≠ credential.provider then return none
    else if !isSafeToAdoptBootstrapOAuthIdentity p.toLowerCase credential externallyManaged then
      return none
    else return some externallyManaged

/-- An agent's refresh is mirrored into the main store. -/
def mirrorFromOwner (p : ResolveParams ε) (owner : Option String) (refreshed : OAuthCredential) :
    OAuthProgram ε Unit :=
  if owner.isSome then mirrorRefreshedCredentialIntoMainStore p refreshed else return ()

def refreshCredentialUnderLock (p : ResolveParams ε) (owner : Option String)
    (credential credentialToRefresh : OAuthCredential) :
    OAuthProgram ε (Option ResolvedOAuthAccess) := do
  if JsString.trim credentialToRefresh.refresh = "" then return none
  else
    match ← refreshCredential credentialToRefresh with
    | none => return none
    | some refreshed =>
      let refreshedCredentials := credentialToRefresh.refreshedWith refreshed
      let expected :=
        if areOAuthCredentialsEquivalent credentialToRefresh credential then [credentialToRefresh]
        else [credentialToRefresh, credential]
      let persisted ← saveOAuthCredentialWithStoreLock p (.refreshed credentialToRefresh.refresh)
        owner expected refreshedCredentials
      if !persisted then Interact.fail p.errors.failedToPersist
      else
        mirrorFromOwner p owner refreshedCredentials
        access .refreshed credential.provider refreshedCredentials

def saveExternallyManaged (p : ResolveParams ε) (owner : Option String)
    (credential externallyManaged : OAuthCredential) : OAuthProgram ε Bool :=
  if shouldReplaceStoredOAuthCredential credential externallyManaged then
    saveOAuthCredentialWithStoreLock p .bootstrap owner [credential] externallyManaged
  else return false

/-- What is done with the stored credential once the main store's is not adopted. -/
def refreshStored (p : ResolveParams ε) (owner : Option String) (credential : OAuthCredential) :
    OAuthProgram ε (Option ResolvedOAuthAccess) := do
  match ← externallyManaged? p credential with
  | none => refreshCredentialUnderLock p owner credential credential
  | some externallyManaged =>
    let _ ← saveExternallyManaged p owner credential externallyManaged
    let usable ← isUsable externallyManaged
    if !p.forceRefresh && usable then
      access .bootstrap externallyManaged.provider externallyManaged
    else refreshCredentialUnderLock p owner credential externallyManaged

def refreshUnderLock (p : ResolveParams ε) (owner : Option String) :
    OAuthProgram ε (Option ResolvedOAuthAccess) := do
  match StoredProfile.oauth? (← loadStoredOAuthRefreshStore .underLock owner) with
  | none => return none
  | some credential =>
    let usable ← isUsable credential
    if !p.forceRefresh && usable then access .underLock credential.provider credential
    else
      match ← adoptMainUnderLock p credential with
      | some adopted => return some adopted
      | none => refreshStored p owner credential

def doRefreshOAuthTokenWithLock (p : ResolveParams ε) :
    OAuthProgram ε (Option ResolvedOAuthAccess) := do
  let owner ← resolvePersistedAuthProfileOwnerAgentDir
  match ← acquireRefreshLock with
  | .error err => Interact.fail (p.errors.refreshContention err)
  | .ok () =>
    let result ← (refreshUnderLock p owner).attempt
    releaseRefreshLock
    match result with
    | .ok access => return access
    | .error err => Interact.fail (p.errors.refreshContention err)

/-! ## Access -/

def expiresLater (mainCred credential : OAuthCredential) : Bool :=
  match mainCred.expiresAt, credential.expiresAt with
  | none, _ => false
  | some _, none => true
  | some mainExpires, some localExpires => decide (localExpires < mainExpires)

/-- The credential of the main store where it is newer, or the one requested. -/
def adoptNewerMainOAuthCredential (p : ResolveParams ε) : OAuthProgram ε OAuthCredential := do
  if p.agentDir.isNone then return p.credential
  else
    Interact.tryCatch (do
      match StoredProfile.oauth? (← ensureMainStore) with
      | none => return p.credential
      | some mainCred =>
        let usable ← isUsable mainCred
        if mainCred.provider = p.credential.provider ∧ usable = true ∧
            expiresLater mainCred p.credential = true ∧
            isSafeToAdoptMainStoreOAuthIdentity p.toLowerCase p.credential mainCred = true then
          return mainCred
        else return p.credential) fun _ => return p.credential

def resolveEffectiveOAuthCredential (p : ResolveParams ε) (credential : OAuthCredential) :
    OAuthProgram ε OAuthCredential := do
  match ← readBootstrapCredential credential with
  | none => return credential
  | some imported =>
    if ← isUsable credential then return credential
    else if !isSafeToAdoptBootstrapOAuthIdentity p.toLowerCase credential imported then
      return credential
    else if shouldBootstrapFromExternalCliCredential credential imported (← now) then
      return imported
    else return credential

def loadFreshStoredOAuthCredential (p : ResolveParams ε) (previous : OAuthCredential) :
    OAuthProgram ε (Option OAuthCredential) := do
  match StoredProfile.oauth? (← loadStoredOAuthRefreshStore .recovery p.agentDir) with
  | none => return none
  | some reloaded =>
    let usable ← isUsable reloaded
    if reloaded.provider = p.credential.provider ∧ usable = true ∧
        hasOAuthCredentialChanged previous reloaded = true then return some reloaded
    else return none

/-- After a reused token another writer may have stored its successor; else the refresh is tried
once more. -/
def recoverReusedToken (p : ResolveParams ε) (effective : OAuthCredential) :
    OAuthProgram ε (Option ResolvedOAuthAccess) := do
  match ← loadFreshStoredOAuthCredential p effective with
  | some recovered => access .recovery recovered.provider recovered
  | none => Interact.tryCatch (doRefreshOAuthTokenWithLock p) fun _ => return none

def inheritFromMain (p : ResolveParams ε) (effective : OAuthCredential) :
    OAuthProgram ε (Option ResolvedOAuthAccess) :=
  if p.agentDir.isNone then return none
  else
    Interact.tryCatch (do
      match StoredProfile.oauth? (← ensureMainStore) with
      | none => return none
      | some mainCred =>
        let usable ← isUsable mainCred
        if mainCred.provider = p.credential.provider ∧ usable = true ∧
            canReuseOAuthCredentialAfterRefreshFailure p.forceRefresh effective mainCred = true ∧
            isSafeToAdoptMainStoreOAuthIdentity p.toLowerCase p.credential mainCred = true then
          access .inherited mainCred.provider mainCred
        else return none) fun _ => return none

/-- The credential of the store that is read again after a failure, where it can be used. Its provider
and its identity are not looked at. -/
def reusableAfterFailure (p : ResolveParams ε) (effective : OAuthCredential) :
    Option OAuthCredential → OAuthProgram ε (Option OAuthCredential)
  | none => return none
  | some refreshed => do
    let usable ← isUsable refreshed
    if usable = true ∧
        canReuseOAuthCredentialAfterRefreshFailure p.forceRefresh effective refreshed = true then
      return some refreshed
    else return none

def recoverFrom (p : ResolveParams ε) (effective : OAuthCredential)
    (refreshed : Option OAuthCredential) (err : ε) :
    OAuthProgram ε (Option ResolvedOAuthAccess) :=
  if p.errors.isRefreshTokenReusedError err && refreshed.any fun refreshed =>
      refreshed.provider == p.credential.provider &&
        hasOAuthCredentialChanged p.credential refreshed then
    recoverReusedToken p effective
  else return none

def afterRefreshFailure (p : ResolveParams ε) (effective : OAuthCredential) (err : ε) :
    OAuthProgram ε (Option ResolvedOAuthAccess) := do
  let refreshed := StoredProfile.oauth? (← loadStoredOAuthRefreshStore .afterFailure p.agentDir)
  match ← reusableAfterFailure p effective refreshed with
  | some refreshed => access .afterFailure refreshed.provider refreshed
  | none =>
    match ← recoverFrom p effective refreshed err with
    | some recovered => return some recovered
    | none =>
      match ← inheritFromMain p effective with
      | some inherited => return some inherited
      | none => Interact.fail (p.errors.oauthManagerRefreshError err)

def resolveOAuthAccess (p : ResolveParams ε) : OAuthProgram ε (Option ResolvedOAuthAccess) := do
  let adopted ← adoptNewerMainOAuthCredential p
  let effective ← resolveEffectiveOAuthCredential p adopted
  let usable ← isUsable effective
  if !p.forceRefresh && usable then access .effective effective.provider effective
  else
    Interact.tryCatch (doRefreshOAuthTokenWithLock p) fun err =>
      afterRefreshFailure p effective err

end OpenClaw.AuthProfiles
