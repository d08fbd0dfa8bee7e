import OpenClaw.AuthProfiles.OAuthStores

/-!
# What one call knows under the refresh lock

`Refreshing` is the protocol of one call of `resolveOAuthAccess` without a forced refresh. Its ghost
state is what the call knows: its owner, whether it holds the lock, what it read of the two stores
since it took it, and a lower bound of the time. A call submits a refresh token only after it saw,
under the lock, that neither its owner's store nor, for an agent's own store, the main one holds a
credential that can be used.
-/

namespace OpenClaw.AuthProfiles

open Interact

variable {ε ι : Type} {host : Deployment} {c d e : OAuthCredential} {t u : Int}

/-! ## Usable credentials -/

def OAuthCredential.Nonblank (credential : OAuthCredential) : Prop :=
  JsString.trim credential.access ≠ ""

/-- A credential that expires no earlier, with an access token. -/
def Outlasts (incoming existing : OAuthCredential) : Prop :=
  ∀ x, existing.expiresAt = some x → ∃ y, incoming.expiresAt = some y ∧ x ≤ y

theorem Outlasts.refl (c : OAuthCredential) : Outlasts c c := fun x hx => ⟨x, hx, le_refl x⟩

theorem Outlasts.trans (h : Outlasts d c) (h' : Outlasts e d) : Outlasts e c := by
  intro x hx
  obtain ⟨y, hy, hxy⟩ := h x hx
  obtain ⟨z, hz, hyz⟩ := h' y hy
  exact ⟨z, hz, hxy.trans hyz⟩

theorem expiresAt_eq_some {x : Int} : c.expiresAt = some x ↔
    c.expires = x ∧ -MAX_DATE_TIMESTAMP_MS ≤ x ∧ x ≤ MAX_DATE_TIMESTAMP_MS := by
  simp only [OAuthCredential.expiresAt, asDateTimestampMs, Option.filter_eq_some_iff,
    Option.some.injEq, decide_eq_true_eq]

theorem usable_iff : hasUsableOAuthCredential c t = true ↔
    c.Nonblank ∧ 0 < c.expires ∧ c.expires ≤ MAX_DATE_TIMESTAMP_MS ∧
      DEFAULT_OAUTH_REFRESH_MARGIN_MS < c.expires - t := by
  simp [hasUsableOAuthCredential, OAuthCredential.Nonblank, and_assoc]

theorem usable_of_le (h : hasUsableOAuthCredential c u = true) (hle : t ≤ u) :
    hasUsableOAuthCredential c t = true := by
  rw [usable_iff] at h ⊢
  obtain ⟨hnonblank, hpos, hmax, hmargin⟩ := h
  exact ⟨hnonblank, hpos, hmax, by omega⟩

theorem unusable_of_le (h : hasUsableOAuthCredential c t = false) (hle : t ≤ u) :
    hasUsableOAuthCredential c u = false := by
  by_contra hne
  rw [Bool.not_eq_false] at hne
  rw [usable_of_le hne hle] at h
  cases h

theorem expiresAt_of_usable (h : hasUsableOAuthCredential c t = true) :
    c.expiresAt = some c.expires := by
  rw [usable_iff] at h
  exact expiresAt_eq_some.2 ⟨rfl, by omega, h.2.2.1⟩

theorem usable_of_outlasts (h : hasUsableOAuthCredential c t = true) (hd : d.Nonblank)
    (houtlasts : Outlasts d c) : hasUsableOAuthCredential d t = true := by
  obtain ⟨y, hy, hle⟩ := houtlasts _ (expiresAt_of_usable h)
  obtain ⟨rfl, _, hmax⟩ := expiresAt_eq_some.1 hy
  rw [usable_iff] at h ⊢
  exact ⟨hd, by omega, hmax, by omega⟩

/-! ## Credentials of one identity -/

section Alike

theorem copy_of_alike (hc : Alike host c) (hd : Alike host d) :
    isSafeToCopyOAuthIdentity host.toLowerCase c d = true := by
  unfold isSafeToCopyOAuthIdentity hasOAuthIdentity
  rw [hc.account, hd.account, hc.mail, hd.mail]
  cases host.account <;> cases host.mail <;> simp

theorem transition_of_alike (hc : Alike host c) (hd : Alike host d) :
    isSafeOAuthIdentityTransition host.toLowerCase c d true = true := by
  unfold isSafeOAuthIdentityTransition
  rw [if_neg (by rw [hc.provider, hd.provider]; simp)]
  split
  · rfl
  · split
    · rfl
    · next hidentity =>
      simp only [Bool.not_eq_true', Bool.not_eq_false] at hidentity
      simp [hasMatchingOAuthIdentity, hidentity, copy_of_alike hc hd]

end Alike

/-- What is written over a stored credential has an access token and outlasts it. -/
def Replaces (updater : Option StoredProfile → Option OAuthCredential) : Prop :=
  ∀ stored c, updater stored = some c → c.Nonblank ∧ ∃ e, stored = some (.oauth e) ∧ Outlasts c e

theorem replaces_save (toLowerCase : String → String) (hc : c.Nonblank)
    (expected : List OAuthCredential) : Replaces (saveUpdater toLowerCase expected c) := by
  intro stored w h
  obtain ⟨rfl, existing, _, rfl, hsafe, hreplace⟩ := saveUpdater_eq_some h
  have hprovider : existing.provider = w.provider := by
    simp only [isSafeToAdoptBootstrapOAuthIdentity, isSafeOAuthIdentityTransition] at hsafe
    by_contra hne
    rw [if_pos hne] at hsafe
    cases hsafe
  refine ⟨hc, existing, rfl, fun x hx => ?_⟩
  simp only [shouldReplaceStoredOAuthCredential, hasNewerStoredOAuthCredential, hprovider, BEq.rfl,
    Bool.true_and, hx, Bool.and_eq_true, Bool.not_eq_true'] at hreplace
  cases hy : w.expiresAt with
  | none =>
    rw [hy] at hreplace
    cases hreplace.2
  | some y =>
    rw [hy] at hreplace
    exact ⟨y, rfl, by simpa using hreplace.2⟩

/-! ## Knowledge -/

/-- What a call knows. What it read counts while the lock is held. -/
structure Knows where
  nowAt : Int
  owner : Option (Option String)
  held : Bool
  ownerView : Option OAuthCredential
  mainView : Option (Option StoredProfile)
  /-- An agent's refreshed credential that the main store has not been offered yet. -/
  pending : Option OAuthCredential

/-- No credential that can be used. -/
def Stale (now : Int) (stored : Option StoredProfile) : Prop :=
  ∀ c, stored = some (.oauth c) → hasUsableOAuthCredential c now = false

theorem Stale.mono {stored : Option StoredProfile} (h : Stale t stored) (hle : t ≤ u) :
    Stale u stored := fun c hc => unusable_of_le (h c hc) hle

namespace Knows

variable (k : Knows)

def OwnerStale : Prop := ∃ v, k.ownerView = some v ∧ hasUsableOAuthCredential v k.nowAt = false

def MainStale : Prop := ∃ stored, k.mainView = some stored ∧ Stale k.nowAt stored

/-- The lock is held, and nothing is left to be mirrored. -/
structure Holding (dir : Option String) : Prop where
  held : k.held = true
  owner : k.owner = some dir
  pending : k.pending = none

/-- What is known before a refresh token is submitted. -/
structure Ready (dir : Option String) : Prop extends k.Holding dir where
  ownerStale : k.OwnerStale
  mainStale : dir.isSome = true → k.MainStale

/-- After a store was written. -/
def wrote (site : WriteSite) (dir : Option String) (credential : OAuthCredential) : Knows :=
  { k with
    ownerView := some credential
    mainView := dir.bind fun _ => k.mainView
    pending :=
      match site, dir with
      | .refreshed _, some _ => some credential
      | _, _ => k.pending }

end Knows

/-! ## The protocol -/

section Protocol

variable (host : Deployment) (p : ResolveParams ε)

def RefreshAllowed (k : Knows) : Command → Prop
  | .loadStoredOAuthRefreshStore .underLock dir => k.Holding dir
  | .loadStoredOAuthRefreshStore .mainUnderLock dir => k.held = true ∧ dir = none
  | .refreshCredential _ => ∃ owner, k.Ready owner
  | .updateAuthProfileStore .mirror dir updater => k.held = true ∧ dir = none ∧
      ∃ c, k.pending = some c ∧ updater = mirrorUpdater host.toLowerCase c
  | .updateAuthProfileStore _ dir updater => k.Holding dir ∧ k.OwnerStale ∧ Replaces updater
  | .resolvePersistedAuthProfileOwnerAgentDir | .acquireRefreshLock => k.held = false
  | .releaseRefreshLock => ∃ owner, k.Holding owner
  | _ => True

def RefreshNext (k : Knows) : (c : Command) → Answer ε c → Knows → Prop
  | .now, now, k' => k.nowAt ≤ now ∧ k' = { k with nowAt := now }
  | .loadStoredOAuthRefreshStore .underLock _, stored, k' =>
    (∀ c, stored = .ok (some (.oauth c)) → Alike host c ∧ k' = { k with ownerView := some c }) ∧
      ((∀ c, stored ≠ .ok (some (.oauth c))) → k' = k)
  | .loadStoredOAuthRefreshStore .mainUnderLock _, stored, k' => ∃ profile, stored = .ok profile ∧
      (∀ c, profile = some (.oauth c) → Alike host c) ∧ k' = { k with mainView := some profile }
  | .readBootstrapCredential _, imported, k' =>
    (k.held = true → ∀ c, imported = .ok (some c) → c.Nonblank) ∧ k' = k
  | .buildApiKey .mainUnderLock _ _, apiKey, k' => (∃ key, apiKey = .ok key) ∧ k' = k
  | .refreshCredential c, refreshed, k' =>
    (∀ r, refreshed = .ok (some r) → (c.refreshedWith r).Nonblank) ∧ k' = k
  | .resolvePersistedAuthProfileOwnerAgentDir, owner, k' =>
    (owner.isSome = true → p.agentDir.isSome = true) ∧ k' = { k with owner := some owner }
  | .updateAuthProfileStore .mirror _ _, _, k' =>
    k' = { k with ownerView := none, mainView := none, pending := none }
  | .updateAuthProfileStore site dir updater, existing, k' => ∃ stored, existing = some stored ∧
      (∀ c, updater stored = some c → k' = k.wrote site dir c) ∧ (updater stored = none → k' = k)
  | .acquireRefreshLock, acquired, k' =>
    (acquired = .ok () → k' =
      { k with held := true, ownerView := none, mainView := none, pending := none }) ∧
      ((∀ u, acquired ≠ .ok u) → k' = k)
  | .releaseRefreshLock, _, k' => k' = { k with held := false }
  | _, _, k' => k' = k

/-- The protocol of a call of an agent. -/
def Refreshing : Protocol Command (Answer ε) Knows where
  allowed := RefreshAllowed host
  next := RefreshNext host p

end Protocol

/-! ## The parts of a call -/

section Parts

variable {p : ResolveParams ε} {k k' : Knows} {α : Type} {owner : Option String}

/-- What was known is still known, at a later time. -/
structure Later (k k' : Knows) : Prop where
  nowAt : k.nowAt ≤ k'.nowAt
  owner : k'.owner = k.owner
  held : k'.held = k.held
  ownerView : k'.ownerView = k.ownerView
  pending : k'.pending = k.pending

theorem Later.refl (k : Knows) : Later k k := ⟨le_refl _, rfl, rfl, rfl, rfl⟩

theorem Knows.Holding.later (h : k.Holding owner) (hl : Later k k') : k'.Holding owner :=
  ⟨hl.held.trans h.held, hl.owner.trans h.owner, hl.pending.trans h.pending⟩

theorem Knows.OwnerStale.later (h : k.OwnerStale) (hl : Later k k') : k'.OwnerStale := by
  obtain ⟨v, hv, hstale⟩ := h
  exact ⟨v, hl.ownerView.trans hv, unusable_of_le hstale hl.nowAt⟩

variable {now : Int}

theorem Knows.Ready.after (h : k.Ready owner) (hle : k.nowAt ≤ now) :
    Knows.Ready { k with nowAt := now } owner where
  held := h.held
  owner := h.owner
  pending := h.pending
  ownerStale := by
    obtain ⟨v, hv, hstale⟩ := h.ownerStale
    exact ⟨v, hv, unusable_of_le hstale hle⟩
  mainStale hsome := by
    obtain ⟨stored, hstored, hstale⟩ := h.mainStale hsome
    exact ⟨stored, hstored, hstale.mono hle⟩

theorem Knows.Ready.bootstrapped (h : k.Ready owner) (hle : k.nowAt ≤ now)
    (hc : hasUsableOAuthCredential c now = false) :
    Knows.Ready { k.wrote .bootstrap owner c with nowAt := now } owner where
  held := h.held
  owner := h.owner
  pending := h.pending
  ownerStale := ⟨c, rfl, hc⟩
  mainStale hsome := by
    obtain ⟨dir, rfl⟩ := Option.isSome_iff_exists.1 hsome
    obtain ⟨stored, hstored, hstale⟩ := h.mainStale hsome
    exact ⟨stored, hstored, hstale.mono hle⟩

variable {f : Bool → OAuthProgram ε α}

theorem isUsable_known {Q : Except ε α → Knows → Prop} (h : ∀ now, k.nowAt ≤ now →
      Wp (Refreshing host p) (f (hasUsableOAuthCredential c now)) { k with nowAt := now } Q) :
    Wp (Refreshing host p) (isUsable c >>= f) k Q := by
  refine ⟨trivial, fun now k' hnext => ?_⟩
  obtain ⟨hle, rfl⟩ := hnext
  exact h now hle

variable {site : KeySite} {provider : String}

theorem access_known : Wp (Refreshing host p) (access site provider c) k fun _ k' => k' = k := by
  refine ⟨by cases site <;> trivial, fun apiKey k' hnext => ?_⟩
  have heq : k' = k := by
    cases site with
    | mainUnderLock => exact hnext.2
    | _ => exact hnext
  cases apiKey with
  | error e => exact heq
  | ok key => exact heq

theorem mainUnderLock_known (hk : k.Holding owner) :
    Wp (Refreshing host p) (loadStoredOAuthRefreshStore .mainUnderLock none) k fun r k' =>
      ∃ profile, r = .ok profile ∧ (∀ c, profile = some (.oauth c) → Alike host c) ∧
        k' = { k with mainView := some profile } :=
  ⟨⟨hk.held, rfl⟩, fun _ _ hnext => wp_ofExcept.2 hnext⟩

theorem underLock_known (hk : k.Holding owner) :
    Wp (Refreshing host p) (loadStoredOAuthRefreshStore .underLock owner) k fun r k' =>
      (∀ c, r = .ok (some (.oauth c)) → Alike host c ∧ k' = { k with ownerView := some c }) ∧
        ((∀ c, r ≠ .ok (some (.oauth c))) → k' = k) :=
  ⟨hk, fun _ _ hnext => wp_ofExcept.2 hnext⟩

theorem readBootstrapCredential_known (hk : k.Holding owner) :
    Wp (Refreshing host p) (readBootstrapCredential c) k fun r k' =>
      k' = k ∧ ∀ d, r = .ok (some d) → d.Nonblank :=
  ⟨trivial, fun _ _ hnext => wp_ofExcept.2 ⟨hnext.2, hnext.1 hk.held⟩⟩

theorem adoptMainUnderLock_known (hforce : p.forceRefresh = false)
    (hlower : p.toLowerCase = host.toLowerCase) (hc : Alike host c) (hk : k.Holding owner) :
    Wp (Refreshing host p) (adoptMainUnderLock p c) k fun r k' => Later k k' ∧
      ∃ adopted, r = .ok adopted ∧ (adopted = none → p.agentDir.isSome = true → k'.MainStale) := by
  unfold adoptMainUnderLock
  split
  · next hdir =>
    refine ⟨.refl k, none, rfl, fun _ hsome => ?_⟩
    rw [Option.isNone_iff_eq_none] at hdir
    rw [hdir] at hsome
    cases hsome
  · rw [wp_tryCatch]
    refine (mainUnderLock_known hk).bind (fun _ _ ⟨_, h, _⟩ => by cases h) fun profile k' hread => ?_
    obtain ⟨_, ⟨⟩, halike, rfl⟩ := hread
    have hlater : Later k { k with mainView := some profile } := ⟨le_refl _, rfl, rfl, rfl, rfl⟩
    split
    · next hnone =>
      refine ⟨hlater, none, rfl, fun _ _ => ⟨profile, rfl, fun c hc => ?_⟩⟩
      rw [hc] at hnone
      cases hnone
    · next mainCred hmain =>
      have hprofile := StoredProfile.oauth?_eq_some hmain
      have hmainAlike := halike mainCred hprofile
      refine isUsable_known fun now hle => ?_
      have hlater' : Later k { k with mainView := some profile, nowAt := now } :=
        ⟨hle, rfl, rfl, rfl, rfl⟩
      split
      · refine ⟨trivial, fun apiKey k' hnext => ?_⟩
        obtain ⟨⟨key, rfl⟩, rfl⟩ := hnext
        exact ⟨hlater', some ⟨key, mainCred⟩, rfl, fun h => by cases h⟩
      · next hadopt =>
        have hstale : hasUsableOAuthCredential mainCred now = false := by
          by_contra husable
          rw [Bool.not_eq_false] at husable
          refine hadopt ⟨hmainAlike.provider.trans hc.provider.symm, husable, hforce, ?_⟩
          rw [hlower]
          exact transition_of_alike hc hmainAlike
        refine ⟨hlater', none, rfl, fun _ _ => ⟨profile, rfl, fun c hc => ?_⟩⟩
        rw [hprofile] at hc
        cases hc
        exact hstale

theorem externallyManaged?_known (hk : k.Holding owner) :
    Wp (Refreshing host p) (externallyManaged? p c) k fun r k' =>
      k' = k ∧ ∀ d, r = .ok (some d) → d.Nonblank := by
  refine (readBootstrapCredential_known hk).bind (fun _ _ h => ⟨h.1, fun _ h => by cases h⟩)
    fun imported k' hread => ?_
  obtain ⟨rfl, himported⟩ := hread
  split
  · exact ⟨rfl, fun _ h => by cases h⟩
  · next externallyManaged =>
    split
    · exact ⟨rfl, fun _ h => by cases h⟩
    · split
      · exact ⟨rfl, fun _ h => by cases h⟩
      · refine ⟨rfl, fun d h => ?_⟩
        cases h
        exact himported externallyManaged rfl

theorem saveOAuthCredentialWithStoreLock_known {site : WriteSite} (hsite : site ≠ .mirror)
    (hk : k.Holding owner) (hstale : k.OwnerStale) (hc : c.Nonblank)
    (expected : List OAuthCredential) :
    Wp (Refreshing host p) (saveOAuthCredentialWithStoreLock p site owner expected c) k
      fun r k' => (r = .ok true ∧ k' = k.wrote site owner c) ∨ (r = .ok false ∧ k' = k) := by
  unfold saveOAuthCredentialWithStoreLock
  have hreplaces := replaces_save p.toLowerCase hc expected
  refine ⟨by cases site <;> first | exact ⟨hk, hstale, hreplaces⟩ | exact absurd rfl hsite,
    fun existing k' hnext => ?_⟩
  have hresult : ∃ stored, existing = some stored ∧
      (∀ w, saveUpdater p.toLowerCase expected c stored = some w → k' = k.wrote site owner w) ∧
      (saveUpdater p.toLowerCase expected c stored = none → k' = k) := by
    cases site with
    | mirror => exact absurd rfl hsite
    | _ => exact hnext
  obtain ⟨stored, rfl, hwrote, hkept⟩ := hresult
  cases hupdater : saveUpdater p.toLowerCase expected c stored with
  | none =>
    refine .inr ⟨?_, hkept hupdater⟩
    show Except.ok (saveUpdater p.toLowerCase expected c stored).isSome = _
    rw [hupdater]
    rfl
  | some w =>
    rw [(saveUpdater_eq_some hupdater).1] at hupdater
    refine .inl ⟨?_, hwrote c hupdater⟩
    show Except.ok (saveUpdater p.toLowerCase expected c stored).isSome = _
    rw [hupdater]
    rfl

theorem refreshCredential_known (hk : k.Ready owner) :
    Wp (Refreshing host p) (refreshCredential c) k fun r k' =>
      k' = k ∧ ∀ refreshed, r = .ok (some refreshed) → (c.refreshedWith refreshed).Nonblank :=
  ⟨⟨owner, hk⟩, fun _ _ hnext => wp_ofExcept.2 ⟨hnext.2, hnext.1⟩⟩

theorem mirrorFromOwner_known (hlower : p.toLowerCase = host.toLowerCase) {submitted : String}
    (hk : k.Holding owner) :
    Wp (Refreshing host p) (mirrorFromOwner p owner c) (k.wrote (.refreshed submitted) owner c)
      fun r k' => r = .ok () ∧ k'.Holding owner := by
  unfold mirrorFromOwner
  split
  · next hsome =>
    obtain ⟨dir, rfl⟩ := Option.isSome_iff_exists.1 hsome
    refine ⟨⟨hk.held, rfl, c, rfl, by rw [hlower]⟩, fun _ k' hnext => ?_⟩
    cases hnext
    exact ⟨rfl, hk.held, hk.owner, rfl⟩
  · next hnone =>
    have hdir : owner = none := by simpa using hnone
    subst hdir
    exact ⟨rfl, hk.held, hk.owner, hk.pending⟩

theorem refreshCredentialUnderLock_known (hlower : p.toLowerCase = host.toLowerCase)
    (hk : k.Ready owner) :
    Wp (Refreshing host p) (refreshCredentialUnderLock p owner c d) k
      fun _ k' => k'.Holding owner := by
  have hholding := hk.toHolding
  unfold refreshCredentialUnderLock
  split
  · exact hholding
  · refine (refreshCredential_known hk).bind (fun _ _ h => ?_) fun refreshed k' h => ?_
    · rw [h.1]
      exact hholding
    · obtain ⟨rfl, hnonblank⟩ := h
      split
      · exact hholding
      · next refreshed =>
        refine (saveOAuthCredentialWithStoreLock_known (by simp) hholding hk.ownerStale
          (hnonblank refreshed rfl) _).bind (fun _ _ h => ?_) fun persisted k' h => ?_
        · obtain ⟨h, _⟩ | ⟨h, _⟩ := h <;> cases h
        · obtain ⟨⟨⟩, rfl⟩ | ⟨⟨⟩, rfl⟩ := h
          · refine Wp.bind (m := mirrorFromOwner p owner (d.refreshedWith refreshed))
              (mirrorFromOwner_known hlower hholding) (fun _ _ h => h.2) fun _ k' h => ?_
            exact access_known.mono fun _ _ heq => heq ▸ h.2
          · exact hholding

theorem refreshStored_known (hforce : p.forceRefresh = false)
    (hlower : p.toLowerCase = host.toLowerCase) (hk : k.Ready owner) :
    Wp (Refreshing host p) (refreshStored p owner c) k fun _ k' => k'.Holding owner := by
  have hholding := hk.toHolding
  refine (externallyManaged?_known hholding).bind (fun _ _ h => ?_) fun imported k' h => ?_
  · rw [h.1]
    exact hholding
  · obtain ⟨rfl, hnonblank⟩ := h
    split
    · exact refreshCredentialUnderLock_known hlower hk
    · next externallyManaged =>
      have hd := hnonblank externallyManaged rfl
      have hsaved : Wp (Refreshing host p) (saveExternallyManaged p owner c externallyManaged) k'
          fun r k'' => (∃ b, r = .ok b) ∧
            (k'' = k' ∨ k'' = k'.wrote .bootstrap owner externallyManaged) := by
        unfold saveExternallyManaged
        split
        · refine (saveOAuthCredentialWithStoreLock_known (by simp) hholding hk.ownerStale hd _).mono
            fun r k'' h => ?_
          obtain ⟨rfl, rfl⟩ | ⟨rfl, rfl⟩ := h
          · exact ⟨⟨true, rfl⟩, .inr rfl⟩
          · exact ⟨⟨false, rfl⟩, .inl rfl⟩
        · exact ⟨⟨false, rfl⟩, .inl rfl⟩
      refine hsaved.bind (fun _ _ ⟨⟨_, h⟩, _⟩ => by cases h) fun saved k'' h => ?_
      obtain ⟨_, hk''⟩ := h
      refine isUsable_known fun now hle => ?_
      split
      · refine access_known.mono fun _ _ heq => ?_
        obtain rfl | rfl := hk''
        · exact heq ▸ ⟨hholding.held, hholding.owner, hholding.pending⟩
        · exact heq ▸ ⟨hholding.held, hholding.owner, hholding.pending⟩
      · next husable =>
        have hd : hasUsableOAuthCredential externallyManaged now = false := by
          simpa [hforce] using husable
        obtain rfl | rfl := hk''
        · exact refreshCredentialUnderLock_known hlower (hk.after hle)
        · exact refreshCredentialUnderLock_known hlower (hk.bootstrapped hle hd)

theorem refreshUnderLock_known (hforce : p.forceRefresh = false)
    (hlower : p.toLowerCase = host.toLowerCase) (hdir : owner.isSome = true → p.agentDir.isSome = true)
    (hk : k.Holding owner) :
    Wp (Refreshing host p) (refreshUnderLock p owner) k fun _ k' => k'.Holding owner := by
  refine (underLock_known hk).bind (fun _ _ h => ?_) fun stored k' h => ?_
  · rw [h.2 (fun _ h => by cases h)]
    exact hk
  · split
    · next hnone =>
      have heq : k' = k := h.2 fun c hc => by
        cases hc
        cases hnone
      exact heq ▸ hk
    · next credential hcredential =>
      have hstored := StoredProfile.oauth?_eq_some hcredential
      obtain ⟨halike, rfl⟩ := h.1 credential (by rw [hstored])
      refine isUsable_known fun now hle => ?_
      have hholding : Knows.Holding { k with ownerView := some credential, nowAt := now } owner :=
        ⟨hk.held, hk.owner, hk.pending⟩
      split
      · exact access_known.mono fun _ _ heq => heq ▸ hholding
      · next husable =>
        have hstale : hasUsableOAuthCredential credential now = false := by
          simpa [hforce] using husable
        refine (adoptMainUnderLock_known hforce hlower halike hholding).bind (fun _ _ h => ?_)
          fun adopted k' h => ?_
        · exact hholding.later h.1
        · obtain ⟨hlater, _, ⟨⟩, hmain⟩ := h
          split
          · exact hholding.later hlater
          · refine refreshStored_known hforce hlower ⟨hholding.later hlater, ?_, fun hsome => ?_⟩
            · exact Knows.OwnerStale.later ⟨credential, rfl, hstale⟩ hlater
            · exact hmain rfl (hdir hsome)

theorem doRefreshOAuthTokenWithLock_known (hforce : p.forceRefresh = false)
    (hlower : p.toLowerCase = host.toLowerCase) (hk : k.held = false) :
    Wp (Refreshing host p) (doRefreshOAuthTokenWithLock p) k fun _ k' => k'.held = false := by
  refine ⟨hk, fun owner k' hnext => ?_⟩
  obtain ⟨hdir, rfl⟩ := hnext
  refine ⟨hk, fun acquired k' hnext => ?_⟩
  cases acquired with
  | error e =>
    rw [hnext.2 (fun _ h => by cases h)]
    exact hk
  | ok _ =>
    rw [hnext.1 rfl]
    show Wp (Refreshing host p) (Interact.attempt (refreshUnderLock p owner) >>= _) _ _
    rw [wp_bind, wp_attempt]
    refine (refreshUnderLock_known hforce hlower hdir ⟨rfl, rfl, rfl⟩).mono fun result k' hholding => ?_
    refine ⟨⟨owner, hholding⟩, fun _ k'' hnext => ?_⟩
    cases hnext
    cases result with
    | error e => exact rfl
    | ok access => exact rfl

/-! ## Outside the lock -/

/-- The lock is not held. -/
def Unlocked {α : Type} (_ : Except ε α) (k : Knows) : Prop := k.held = false

theorem access_unlocked (hk : k.held = false) :
    Wp (Refreshing host p) (access site provider c) k Unlocked :=
  access_known.mono fun _ _ heq => by rw [heq]; exact hk

theorem isUsable_unlocked (hk : k.held = false)
    (h : ∀ usable k', k'.held = false → Wp (Refreshing host p) (f usable) k' Unlocked) :
    Wp (Refreshing host p) (isUsable c >>= f) k Unlocked :=
  isUsable_known fun _ _ => h _ _ hk

theorem ensureMainStore_unlocked (hk : k.held = false) :
    Wp (Refreshing host p) (ensureMainStore : OAuthProgram ε (Option StoredProfile)) k Unlocked := by
  refine ⟨trivial, fun _ k' hnext => wp_ofExcept.2 ?_⟩
  cases hnext
  exact hk

theorem load_unlocked {site : LoadSite} {agentDir : Option String}
    (hsite : site = .afterFailure ∨ site = .recovery) (hk : k.held = false) :
    Wp (Refreshing host p) (loadStoredOAuthRefreshStore site agentDir) k Unlocked := by
  obtain rfl | rfl := hsite <;> refine ⟨trivial, fun _ k' hnext => wp_ofExcept.2 ?_⟩ <;>
    · cases hnext
      exact hk

theorem adoptNewerMainOAuthCredential_unlocked (hk : k.held = false) :
    Wp (Refreshing host p) (adoptNewerMainOAuthCredential p) k Unlocked := by
  unfold adoptNewerMainOAuthCredential
  split
  · exact hk
  · refine Wp.tryCatch (R := Unlocked) ?_ (fun _ _ h => h) fun _ _ h => h
    refine (ensureMainStore_unlocked hk).bind (fun _ _ h => h) fun stored k hk => ?_
    split
    · exact hk
    · refine isUsable_unlocked hk fun usable k hk => ?_
      split
      · exact hk
      · exact hk

theorem resolveEffectiveOAuthCredential_unlocked (hk : k.held = false) :
    Wp (Refreshing host p) (resolveEffectiveOAuthCredential p c) k Unlocked := by
  have hread : Wp (Refreshing host p) (readBootstrapCredential c) k Unlocked :=
    ⟨trivial, fun _ k' hnext => wp_ofExcept.2 (by rw [hnext.2]; exact hk)⟩
  refine hread.bind (fun _ _ h => h) fun imported k hk => ?_
  split
  · exact hk
  · refine isUsable_unlocked hk fun usable k hk => ?_
    split
    · exact hk
    · split
      · exact hk
      · refine ⟨trivial, fun now k' hnext => ?_⟩
        rw [hnext.2]
        show Wp (Refreshing host p) (ite _ _ _) _ _
        split
        · exact hk
        · exact hk

theorem recoverFrom_unlocked (hforce : p.forceRefresh = false)
    (hlower : p.toLowerCase = host.toLowerCase) (hk : k.held = false)
    (refreshed : Option OAuthCredential) (e : ε) :
    Wp (Refreshing host p) (recoverFrom p c refreshed e) k Unlocked := by
  have hfresh : Wp (Refreshing host p) (loadFreshStoredOAuthCredential p c) k Unlocked := by
    refine (load_unlocked (.inr rfl) hk).bind (fun _ _ h => h) fun stored k hk => ?_
    split
    · exact hk
    · refine isUsable_unlocked hk fun usable k hk => ?_
      split
      · exact hk
      · exact hk
  unfold recoverFrom
  split
  · refine hfresh.bind (fun _ _ h => h) fun recovered k hk => ?_
    split
    · exact access_unlocked hk
    · exact (doRefreshOAuthTokenWithLock_known hforce hlower hk).tryCatch (fun _ _ h => h)
        fun _ _ h => h
  · exact hk

theorem inheritFromMain_unlocked (hk : k.held = false) :
    Wp (Refreshing host p) (inheritFromMain p c) k Unlocked := by
  unfold inheritFromMain
  split
  · exact hk
  · refine Wp.tryCatch (R := Unlocked) ?_ (fun _ _ h => h) fun _ _ h => h
    refine (ensureMainStore_unlocked hk).bind (fun _ _ h => h) fun stored k hk => ?_
    split
    · exact hk
    · refine isUsable_unlocked hk fun usable k hk => ?_
      split
      · exact access_unlocked hk
      · exact hk

theorem afterRefreshFailure_unlocked (hforce : p.forceRefresh = false)
    (hlower : p.toLowerCase = host.toLowerCase) (hk : k.held = false) (e : ε) :
    Wp (Refreshing host p) (afterRefreshFailure p c e) k Unlocked := by
  refine (load_unlocked (.inl rfl) hk).bind (fun _ _ h => h) fun stored k hk => ?_
  have hreusable : Wp (Refreshing host p)
      (reusableAfterFailure p c (StoredProfile.oauth? stored)) k Unlocked := by
    unfold reusableAfterFailure
    split
    · exact hk
    · refine isUsable_unlocked hk fun usable k hk => ?_
      split
      · exact hk
      · exact hk
  refine hreusable.bind (fun _ _ h => h) fun reusable k hk => ?_
  split
  · exact access_unlocked hk
  · refine (recoverFrom_unlocked hforce hlower hk _ _).bind (fun _ _ h => h) fun recovered k hk => ?_
    split
    · exact hk
    · refine (inheritFromMain_unlocked hk).bind (fun _ _ h => h) fun inherited k hk => ?_
      split
      · exact hk
      · exact hk

/-- **A call keeps to the protocol.** -/
theorem resolveOAuthAccess_known (hforce : p.forceRefresh = false)
    (hlower : p.toLowerCase = host.toLowerCase) (hk : k.held = false) :
    Wp (Refreshing host p) (resolveOAuthAccess p) k Unlocked := by
  refine (adoptNewerMainOAuthCredential_unlocked hk).bind (fun _ _ h => h) fun adopted k hk => ?_
  refine (resolveEffectiveOAuthCredential_unlocked hk).bind (fun _ _ h => h) fun effective k hk => ?_
  refine isUsable_unlocked hk fun usable k hk => ?_
  split
  · exact access_unlocked hk
  · exact (doRefreshOAuthTokenWithLock_known hforce hlower hk).tryCatch
      (fun e _ hk => afterRefreshFailure_unlocked hforce hlower hk e) fun _ _ h => h

end Parts

end OpenClaw.AuthProfiles
