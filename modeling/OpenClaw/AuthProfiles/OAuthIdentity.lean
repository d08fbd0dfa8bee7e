import OpenClaw.AuthProfiles.OAuthManager
import OpenClaw.Lib.TwoKeys

/-!
# A profile's account in a run of `resolveOAuthAccess`

The stores, the external credentials and the adapter's answers are arbitrary, and so is what other
writers do between two commands: a run is a list of answered commands. The credential a run goes on
with is `Kept`: it is one of those seen in the run, of the requested provider, and linked to the
requested credential by the identity checks made on the way. A credential read under the lock, after
a failed refresh or in the recovery is not compared with the requested one; `Meets` says that it
would have passed.
-/

namespace OpenClaw.AuthProfiles

open Interact TwoKeys

variable {ε : Type} {toLowerCase : String → String} {existing incoming c d : OAuthCredential}

/-! ## What the identity checks say -/

theorem hasOAuthIdentity_iff :
    hasOAuthIdentity toLowerCase c = true ↔
      (∃ a, c.account = some a) ∨ ∃ m, c.mail toLowerCase = some m := by
  simp [hasOAuthIdentity, Option.isSome_iff_exists]

/-- The credentials have an account id or an e-mail in common. -/
abbrev OverlapIn (toLowerCase : String → String) : OAuthCredential → OAuthCredential → Prop :=
  Overlap OAuthCredential.account (OAuthCredential.mail toLowerCase)

theorem OverlapIn.identity (h : OverlapIn toLowerCase c d) :
    hasOAuthIdentity toLowerCase d = true := by
  rw [hasOAuthIdentity_iff]
  obtain ⟨x, _, hd⟩ | ⟨x, _, hd⟩ := h
  · exact .inl ⟨x, hd⟩
  · exact .inr ⟨x, hd⟩

theorem overlap_of_copy (hsafe : isSafeToCopyOAuthIdentity toLowerCase existing incoming = true)
    (hidentity : hasOAuthIdentity toLowerCase existing = true) :
    OverlapIn toLowerCase existing incoming := by
  unfold isSafeToCopyOAuthIdentity at hsafe
  split at hsafe
  · next a b ha hb =>
    rw [beq_iff_eq.1 hsafe] at ha
    exact .inl ⟨b, ha, hb⟩
  · split at hsafe
    · next a b ha hb =>
      rw [beq_iff_eq.1 hsafe] at ha
      exact .inr ⟨b, ha, hb⟩
    · rw [hidentity] at hsafe
      cases hsafe

/-- What a transition that is safe keeps. -/
structure SafeFrom (toLowerCase : String → String) (existing incoming : OAuthCredential) : Prop where
  provider : incoming.provider = existing.provider
  identity : hasOAuthIdentity toLowerCase existing = true →
    incoming = existing ∨ OverlapIn toLowerCase existing incoming

theorem SafeFrom.of_transition {whenMissing : Bool}
    (h : isSafeOAuthIdentityTransition toLowerCase existing incoming whenMissing = true) :
    SafeFrom toLowerCase existing incoming := by
  unfold isSafeOAuthIdentityTransition at h
  split at h
  · cases h
  · next hprovider =>
    refine ⟨(not_not.1 hprovider).symm, fun hidentity => ?_⟩
    split at h
    · next hequal => exact .inl (beq_iff_eq.1 hequal).symm
    · rw [hidentity] at h
      exact .inr (overlap_of_copy ((Bool.and_eq_true_iff.1 h).2) hidentity)

theorem SafeFrom.of_mirror
    (h : shouldMirrorRefreshedOAuthCredential toLowerCase (some (.oauth existing)) incoming = true) :
    SafeFrom toLowerCase existing incoming := by
  simp only [shouldMirrorRefreshedOAuthCredential, Bool.and_eq_true, beq_iff_eq] at h
  exact ⟨h.1.1.symm, fun hidentity => .inr (overlap_of_copy h.1.2 hidentity)⟩

/-! ## One identity -/

/-- The provider is the same, and neither the account id nor the e-mail differs. -/
structure SameIdentity (toLowerCase : String → String) (existing incoming : OAuthCredential) :
    Prop where
  provider : incoming.provider = existing.provider
  account : Agrees existing.account incoming.account
  mail : Agrees (existing.mail toLowerCase) (incoming.mail toLowerCase)

/-- The account ids and the e-mails of the credentials correspond one to one. -/
abbrev OneAccountEach (toLowerCase : String → String) (S : Set OAuthCredential) : Prop :=
  OneToOne OAuthCredential.account (OAuthCredential.mail toLowerCase) S

theorem SafeFrom.sameIdentity {S : Set OAuthCredential} (hS : OneAccountEach toLowerCase S)
    (hexisting : existing ∈ S) (hincoming : incoming ∈ S)
    (h : SafeFrom toLowerCase existing incoming) : SameIdentity toLowerCase existing incoming := by
  by_cases hidentity : hasOAuthIdentity toLowerCase existing = true
  · have hlinked : Linked OAuthCredential.account (OAuthCredential.mail toLowerCase) S existing
        incoming := by
      obtain heq | hoverlap := h.identity hidentity
      · rw [heq]
        exact .refl
      · exact .single ⟨hincoming, hoverlap⟩
    obtain ⟨haccount, hmail⟩ := hlinked.agrees hS hexisting
    exact ⟨h.provider, haccount, hmail⟩
  · have hnone : existing.account = none ∧ existing.mail toLowerCase = none := by
      simpa [hasOAuthIdentity] using hidentity
    refine ⟨h.provider, ?_, ?_⟩
    · rw [hnone.1]
      exact agrees_none_left _
    · rw [hnone.2]
      exact agrees_none_left _

/-! ## The run's credentials -/

/-- The credential is one of the run's, and stands for the requested one. -/
structure Kept (p : ResolveParams ε) (S : Set OAuthCredential) (c : OAuthCredential) : Prop where
  mem : c ∈ S
  provider : c.provider = p.credential.provider
  linked : hasOAuthIdentity p.toLowerCase p.credential = true →
    hasOAuthIdentity p.toLowerCase c = true ∧
      Linked OAuthCredential.account (OAuthCredential.mail p.toLowerCase) S p.credential c

variable {p : ResolveParams ε} {S : Set OAuthCredential}

theorem Kept.requested (h : p.credential ∈ S) : Kept p S p.credential :=
  ⟨h, rfl, fun hidentity => ⟨hidentity, .refl⟩⟩

theorem Kept.next (h : Kept p S c) (hd : d ∈ S) (hsafe : SafeFrom p.toLowerCase c d) :
    Kept p S d := by
  refine ⟨hd, hsafe.provider.trans h.provider, fun hidentity => ?_⟩
  obtain ⟨hc, hlinked⟩ := h.linked hidentity
  obtain heq | hoverlap := hsafe.identity hc
  · rw [heq]
    exact ⟨hc, hlinked⟩
  · exact ⟨hoverlap.identity, hlinked.step hd hoverlap⟩

theorem Kept.sameIdentity (hS : OneAccountEach p.toLowerCase S) (hrequested : p.credential ∈ S)
    (hidentity : hasOAuthIdentity p.toLowerCase p.credential = true) (h : Kept p S c) :
    SameIdentity p.toLowerCase p.credential c := by
  obtain ⟨haccount, hmail⟩ := (h.linked hidentity).2.agrees hS hrequested
  exact ⟨h.provider, haccount, hmail⟩

/-! ## Answers and writes -/

/-- The credentials of an answer are the run's. One that is read under the lock, after a failed
refresh or in the recovery would be adopted in the place of the requested credential. -/
def Meets (p : ResolveParams ε) (S : Set OAuthCredential) : (c : Command) → Answer ε c → Prop
  | .ensureMainStore, stored => ∀ c, stored = .ok (some (.oauth c)) → c ∈ S
  | .loadStoredOAuthRefreshStore site _, stored => ∀ c, stored = .ok (some (.oauth c)) → c ∈ S ∧
      (site ≠ .mainUnderLock →
        isSafeToAdoptMainStoreOAuthIdentity p.toLowerCase p.credential c = true)
  | .readBootstrapCredential _, imported => ∀ c, imported = .ok (some c) → c ∈ S
  | .refreshCredential credential, refreshed =>
    ∀ r, refreshed = .ok (some r) → credential.refreshedWith r ∈ S
  | .updateAuthProfileStore _ _ _, existing => ∀ c, existing = some (some (.oauth c)) → c ∈ S
  | _, _ => True

/-- Over a stored profile only a credential of its identity is written, and none over a profile of
another type. -/
def OverwritesOwn (toLowerCase : String → String) (S : Set OAuthCredential)
    (updater : Option StoredProfile → Option OAuthCredential) : Prop :=
  updater (some .other) = none ∧
    ∀ existing ∈ S, ∀ c, updater (some (.oauth existing)) = some c →
      SameIdentity toLowerCase existing c

def WritesOwn (toLowerCase : String → String) (S : Set OAuthCredential) : Command → Prop
  | .updateAuthProfileStore _ _ updater => OverwritesOwn toLowerCase S updater
  | _ => True

abbrev Run (p : ResolveParams ε) (S : Set OAuthCredential) : Protocol Command (Answer ε) Unit :=
  stateless (WritesOwn p.toLowerCase S) (Meets p S)

theorem overwritesOwn_save (hS : OneAccountEach toLowerCase S) (hincoming : incoming ∈ S)
    (expected : List OAuthCredential) :
    OverwritesOwn toLowerCase S (saveUpdater toLowerCase expected incoming) := by
  refine ⟨rfl, fun existing hexisting c h => ?_⟩
  obtain ⟨rfl, e, _, he, hsafe, _⟩ := saveUpdater_eq_some h
  cases he
  exact (SafeFrom.of_transition hsafe).sameIdentity hS hexisting hincoming

theorem overwritesOwn_mirror (hS : OneAccountEach toLowerCase S) (hincoming : incoming ∈ S) :
    OverwritesOwn toLowerCase S (mirrorUpdater toLowerCase incoming) := by
  refine ⟨rfl, fun existing hexisting c h => ?_⟩
  unfold mirrorUpdater at h
  split at h
  · next hmirror =>
    cases h
    exact (SafeFrom.of_mirror hmirror).sameIdentity hS hexisting hincoming
  · cases h

/-! ## The parts of a run -/

/-- The access a run gives, if any, is for a credential that is kept. -/
def Gives (p : ResolveParams ε) (S : Set OAuthCredential)
    (r : Except ε (Option ResolvedOAuthAccess)) (_ : Unit) : Prop :=
  ∀ access, r = .ok (some access) → Kept p S access.credential

/-- The credential a run goes on with, if any, is kept. -/
def GoesOnWith (p : ResolveParams ε) (S : Set OAuthCredential)
    (r : Except ε (Option OAuthCredential)) (_ : Unit) : Prop :=
  ∀ c, r = .ok (some c) → Kept p S c

@[simp] theorem gives_error {e : ε} : Gives p S (.error e) () := fun _ h => by cases h

@[simp] theorem gives_none : Gives p S (.ok none) () := fun _ h => by cases h

@[simp] theorem goesOnWith_error {e : ε} : GoesOnWith p S (.error e) () := fun _ h => by cases h

@[simp] theorem goesOnWith_none : GoesOnWith p S (.ok none) () := fun _ h => by cases h

theorem goesOnWith_some (h : Kept p S c) : GoesOnWith p S (.ok (some c)) () := fun _ heq => by
  cases heq
  exact h

theorem isUsable_bind {α : Type} {f : Bool → OAuthProgram ε α} {Q : Except ε α → Unit → Prop}
    (h : ∀ usable, Wp (Run p S) (f usable) () Q) : Wp (Run p S) (isUsable c >>= f) () Q :=
  ⟨trivial, fun now _ _ => h (hasUsableOAuthCredential c now)⟩

theorem access_spec {site : KeySite} {provider : String} (h : Kept p S c) :
    Wp (Run p S) (access site provider c) () (Gives p S) := by
  refine ⟨trivial, fun apiKey _ _ => ?_⟩
  cases apiKey with
  | error e => exact gives_error
  | ok key =>
    intro given heq
    cases heq
    exact h

/-- What a store holds for the profile is one of the run's credentials, if it is one. -/
def Reads (S : Set OAuthCredential) (r : Except ε (Option StoredProfile)) (_ : Unit) : Prop :=
  ∀ c, r = .ok (some (.oauth c)) → c ∈ S

theorem ensureMainStore_spec :
    Wp (Run p S) (ensureMainStore : OAuthProgram ε (Option StoredProfile)) () (Reads S) := by
  refine ⟨trivial, fun stored _ hmeets => ?_⟩
  exact wp_ofExcept.2 hmeets

theorem load_spec {site : LoadSite} {agentDir : Option String} :
    Wp (Run p S) (loadStoredOAuthRefreshStore site agentDir) ()
      fun r _ => ∀ c, r = .ok (some (.oauth c)) → c ∈ S ∧ (site ≠ .mainUnderLock →
        isSafeToAdoptMainStoreOAuthIdentity p.toLowerCase p.credential c = true) := by
  refine ⟨trivial, fun stored _ hmeets => ?_⟩
  exact wp_ofExcept.2 hmeets

theorem readBootstrapCredential_spec :
    Wp (Run p S) (readBootstrapCredential c) ()
      fun r _ => ∀ imported, r = .ok (some imported) → imported ∈ S := by
  refine ⟨trivial, fun imported _ hmeets => ?_⟩
  exact wp_ofExcept.2 hmeets

theorem refreshCredential_spec :
    Wp (Run p S) (refreshCredential c) ()
      fun r _ => ∀ refreshed, r = .ok (some refreshed) → c.refreshedWith refreshed ∈ S := by
  refine ⟨trivial, fun refreshed _ hmeets => ?_⟩
  exact wp_ofExcept.2 hmeets

/-! ## Under the refresh lock -/

theorem saveOAuthCredentialWithStoreLock_spec (hS : OneAccountEach p.toLowerCase S)
    (hincoming : incoming ∈ S) (site : WriteSite) (agentDir : Option String)
    (expected : List OAuthCredential) :
    Wp (Run p S) (saveOAuthCredentialWithStoreLock p site agentDir expected incoming) ()
      fun r _ => r = .ok true → ∃ existing ∈ expected, SafeFrom p.toLowerCase existing incoming := by
  refine ⟨overwritesOwn_save hS hincoming expected, fun result _ _ => ?_⟩
  cases result with
  | none => exact fun h => by cases h
  | some stored =>
    intro hsaved
    obtain ⟨c, hc⟩ := Option.isSome_iff_exists.1 (Except.ok.inj hsaved)
    obtain ⟨_, existing, hexisting, _, hsafe, _⟩ := saveUpdater_eq_some hc
    exact ⟨existing, hexisting, .of_transition hsafe⟩

theorem mirrorFromOwner_spec (hS : OneAccountEach p.toLowerCase S) (hincoming : incoming ∈ S)
    (owner : Option String) :
    Wp (Run p S) (mirrorFromOwner p owner incoming) () fun _ _ => True := by
  unfold mirrorFromOwner
  split
  · exact ⟨overwritesOwn_mirror hS hincoming, fun _ _ _ => trivial⟩
  · trivial

theorem adoptMainUnderLock_spec (hc : Kept p S c) :
    Wp (Run p S) (adoptMainUnderLock p c) () (Gives p S) := by
  unfold adoptMainUnderLock
  split
  · exact gives_none
  · refine Wp.tryCatch (R := Gives p S) ?_ (fun _ _ _ => gives_none) fun _ _ h => h
    refine load_spec.bind (fun _ _ _ => gives_error) fun stored _ hstored => ?_
    split
    · exact gives_none
    · next mainCred hmain =>
      refine isUsable_bind fun usable => ?_
      split
      · next hadopt =>
        have hmem := (hstored mainCred (by rw [StoredProfile.oauth?_eq_some hmain])).1
        exact access_spec (hc.next hmem (.of_transition hadopt.2.2.2))
      · exact gives_none

theorem externallyManaged?_spec (hc : Kept p S c) :
    Wp (Run p S) (externallyManaged? p c) () (GoesOnWith p S) := by
  refine readBootstrapCredential_spec.bind (fun _ _ _ => goesOnWith_error) fun imported _ h => ?_
  split
  · exact goesOnWith_none
  · next externallyManaged =>
    split
    · exact goesOnWith_none
    · split
      · exact goesOnWith_none
      · next hsafe =>
        simp only [Bool.not_eq_true', Bool.not_eq_false] at hsafe
        exact goesOnWith_some (hc.next (h externallyManaged rfl) (.of_transition hsafe))

section

variable (hS : OneAccountEach p.toLowerCase S)
include hS

theorem refreshCredentialUnderLock_spec (owner : Option String) (hc : Kept p S c)
    (hd : Kept p S d) : Wp (Run p S) (refreshCredentialUnderLock p owner c d) () (Gives p S) := by
  unfold refreshCredentialUnderLock
  split
  · exact gives_none
  · refine refreshCredential_spec.bind (fun _ _ _ => gives_error) fun refreshed _ hmem => ?_
    split
    · exact gives_none
    · next refreshed =>
      have hrefreshed := hmem refreshed rfl
      refine (saveOAuthCredentialWithStoreLock_spec hS hrefreshed _ _ _).bind
        (fun _ _ _ => gives_error) fun persisted _ hpersisted => ?_
      cases persisted with
      | false => exact gives_error
      | true =>
        obtain ⟨existing, hexisting, hsafe⟩ := hpersisted rfl
        have hkept : Kept p S (d.refreshedWith refreshed) := by
          have hfrom : existing = c ∨ existing = d := by
            split at hexisting <;> simp at hexisting <;> tauto
          obtain rfl | rfl := hfrom
          · exact hc.next hrefreshed hsafe
          · exact hd.next hrefreshed hsafe
        exact (mirrorFromOwner_spec hS hrefreshed owner).bind (fun _ _ _ => gives_error)
          fun _ _ _ => access_spec hkept

theorem refreshStored_spec (owner : Option String) (hc : Kept p S c) :
    Wp (Run p S) (refreshStored p owner c) () (Gives p S) := by
  refine (externallyManaged?_spec hc).bind (fun _ _ _ => gives_error) fun imported _ h => ?_
  split
  · exact refreshCredentialUnderLock_spec hS owner hc hc
  · next externallyManaged =>
    have hkept := h externallyManaged rfl
    have hsaved : Wp (Run p S) (saveExternallyManaged p owner c externallyManaged) ()
        fun _ _ => True := by
      unfold saveExternallyManaged
      split
      · exact (saveOAuthCredentialWithStoreLock_spec hS hkept.mem _ _ _).mono fun _ _ _ => trivial
      · trivial
    refine hsaved.bind (fun _ _ _ => gives_error) fun _ _ _ => ?_
    refine isUsable_bind fun usable => ?_
    split
    · exact access_spec hkept
    · exact refreshCredentialUnderLock_spec hS owner hc hkept

theorem refreshUnderLock_spec (hrequested : p.credential ∈ S) (owner : Option String) :
    Wp (Run p S) (refreshUnderLock p owner) () (Gives p S) := by
  refine load_spec.bind (fun _ _ _ => gives_error) fun stored _ hstored => ?_
  split
  · exact gives_none
  · next credential hcredential =>
    obtain ⟨hmem, hsafe⟩ := hstored credential (by rw [StoredProfile.oauth?_eq_some hcredential])
    have hkept : Kept p S credential :=
      (Kept.requested hrequested).next hmem (.of_transition (hsafe (by decide)))
    refine isUsable_bind fun usable => ?_
    split
    · exact access_spec hkept
    · refine (adoptMainUnderLock_spec hkept).bind (fun _ _ _ => gives_error) fun adopted _ h => ?_
      split
      · next access => exact fun _ heq => h _ heq
      · exact refreshStored_spec hS owner hkept

theorem doRefreshOAuthTokenWithLock_spec (hrequested : p.credential ∈ S) :
    Wp (Run p S) (doRefreshOAuthTokenWithLock p) () (Gives p S) := by
  refine ⟨trivial, fun owner _ _ => ⟨trivial, fun acquired _ _ => ?_⟩⟩
  cases acquired with
  | error e => exact gives_error
  | ok _ =>
    show Wp (Run p S) (Interact.attempt (refreshUnderLock p owner) >>= _) () _
    rw [wp_bind, wp_attempt]
    refine (refreshUnderLock_spec hS hrequested owner).mono fun result _ hresult => ?_
    refine ⟨trivial, fun _ _ _ => ?_⟩
    cases result with
    | error e => exact gives_error
    | ok given => exact hresult

end

/-! ## Access -/

theorem adoptNewerMainOAuthCredential_spec (hrequested : p.credential ∈ S) :
    Wp (Run p S) (adoptNewerMainOAuthCredential p) () fun r _ => ∀ c, r = .ok c → Kept p S c := by
  have hkept := Kept.requested hrequested
  have hown : ∀ c, (.ok p.credential : Except ε OAuthCredential) = .ok c → Kept p S c := by
    rintro _ ⟨⟩
    exact hkept
  unfold adoptNewerMainOAuthCredential
  split
  · exact hown
  · refine Wp.tryCatch (R := fun r _ => ∀ c, r = .ok c → Kept p S c) ?_ (fun _ _ _ => hown)
      fun _ _ h => h
    refine ensureMainStore_spec.bind (fun _ _ _ _ h => by cases h) fun stored _ hstored => ?_
    split
    · exact hown
    · next mainCred hmain =>
      refine isUsable_bind fun usable => ?_
      split
      · next hadopt =>
        have hmem := hstored mainCred (by rw [StoredProfile.oauth?_eq_some hmain])
        rintro _ ⟨⟩
        exact hkept.next hmem (.of_transition hadopt.2.2.2)
      · exact hown

theorem resolveEffectiveOAuthCredential_spec (hc : Kept p S c) :
    Wp (Run p S) (resolveEffectiveOAuthCredential p c) () fun r _ => ∀ d, r = .ok d → Kept p S d := by
  have hown : ∀ d, (.ok c : Except ε OAuthCredential) = .ok d → Kept p S d := by
    rintro _ ⟨⟩
    exact hc
  refine readBootstrapCredential_spec.bind (fun _ _ _ _ h => by cases h) fun imported _ h => ?_
  split
  · exact hown
  · next imported =>
    refine isUsable_bind fun usable => ?_
    split
    · exact hown
    · split
      · exact hown
      · next hsafe =>
        simp only [Bool.not_eq_true', Bool.not_eq_false] at hsafe
        refine ⟨trivial, fun now _ _ => ?_⟩
        show Wp (Run p S) (ite _ _ _) () _
        split
        · rintro _ ⟨⟩
          exact hc.next (h imported rfl) (.of_transition hsafe)
        · exact hown

theorem loadFreshStoredOAuthCredential_spec (hrequested : p.credential ∈ S) :
    Wp (Run p S) (loadFreshStoredOAuthCredential p c) () (GoesOnWith p S) := by
  refine load_spec.bind (fun _ _ _ => goesOnWith_error) fun stored _ hstored => ?_
  split
  · exact goesOnWith_none
  · next reloaded hreloaded =>
    obtain ⟨hmem, hsafe⟩ := hstored reloaded (by rw [StoredProfile.oauth?_eq_some hreloaded])
    refine isUsable_bind fun usable => ?_
    split
    · exact goesOnWith_some
        ((Kept.requested hrequested).next hmem (.of_transition (hsafe (by decide))))
    · exact goesOnWith_none

theorem recoverFrom_spec (hS : OneAccountEach p.toLowerCase S) (hrequested : p.credential ∈ S)
    (refreshed : Option OAuthCredential) (e : ε) :
    Wp (Run p S) (recoverFrom p c refreshed e) () (Gives p S) := by
  unfold recoverFrom
  split
  · refine (loadFreshStoredOAuthCredential_spec hrequested).bind (fun _ _ _ => gives_error)
      fun recovered _ h => ?_
    split
    · next recovered => exact access_spec (h recovered rfl)
    · exact (doRefreshOAuthTokenWithLock_spec hS hrequested).tryCatch (fun _ _ _ => gives_none)
        fun _ _ h => h
  · exact gives_none

theorem inheritFromMain_spec (hrequested : p.credential ∈ S) :
    Wp (Run p S) (inheritFromMain p c) () (Gives p S) := by
  unfold inheritFromMain
  split
  · exact gives_none
  · refine Wp.tryCatch (R := Gives p S) ?_ (fun _ _ _ => gives_none) fun _ _ h => h
    refine ensureMainStore_spec.bind (fun _ _ _ => gives_error) fun stored _ hstored => ?_
    split
    · exact gives_none
    · next mainCred hmain =>
      refine isUsable_bind fun usable => ?_
      split
      · next hadopt =>
        have hmem := hstored mainCred (by rw [StoredProfile.oauth?_eq_some hmain])
        exact access_spec ((Kept.requested hrequested).next hmem (.of_transition hadopt.2.2.2))
      · exact gives_none

theorem reusableAfterFailure_spec {refreshed : Option OAuthCredential}
    (h : ∀ d, refreshed = some d → Kept p S d) :
    Wp (Run p S) (reusableAfterFailure p c refreshed) () (GoesOnWith p S) := by
  cases refreshed with
  | none => exact goesOnWith_none
  | some refreshed =>
    refine isUsable_bind fun usable => ?_
    split
    · exact goesOnWith_some (h refreshed rfl)
    · exact goesOnWith_none

theorem afterRefreshFailure_spec (hS : OneAccountEach p.toLowerCase S)
    (hrequested : p.credential ∈ S) (e : ε) :
    Wp (Run p S) (afterRefreshFailure p c e) () (Gives p S) := by
  refine load_spec.bind (fun _ _ _ => gives_error) fun stored _ hstored => ?_
  have hread : ∀ d, StoredProfile.oauth? stored = some d → Kept p S d := fun d hd => by
    obtain ⟨hmem, hsafe⟩ := hstored d (by rw [StoredProfile.oauth?_eq_some hd])
    exact (Kept.requested hrequested).next hmem (.of_transition (hsafe (by decide)))
  refine (reusableAfterFailure_spec hread).bind (fun _ _ _ => gives_error) fun reusable _ h => ?_
  split
  · next refreshed => exact access_spec (h refreshed rfl)
  · refine (recoverFrom_spec hS hrequested _ _).bind (fun _ _ _ => gives_error) fun recovered _ h => ?_
    split
    · exact fun _ heq => h _ heq
    · refine (inheritFromMain_spec hrequested).bind (fun _ _ _ => gives_error)
        fun inherited _ h => ?_
      split
      · exact fun _ heq => h _ heq
      · exact gives_error

/-- **A run goes on with kept credentials, and writes over a stored one only its own.** -/
theorem resolveOAuthAccess_spec (hS : OneAccountEach p.toLowerCase S)
    (hrequested : p.credential ∈ S) :
    Wp (Run p S) (resolveOAuthAccess p) () (Gives p S) := by
  refine (adoptNewerMainOAuthCredential_spec hrequested).bind (fun _ _ _ => gives_error)
    fun adopted _ hadopted => ?_
  refine (resolveEffectiveOAuthCredential_spec (hadopted adopted rfl)).bind
    (fun _ _ _ => gives_error) fun effective _ heffective => ?_
  refine isUsable_bind fun usable => ?_
  split
  · exact access_spec (heffective effective rfl)
  · exact (doRefreshOAuthTokenWithLock_spec hS hrequested).tryCatch
      (fun e _ _ => afterRefreshFailure_spec hS hrequested e) fun _ _ h => h

/-! ## Whole runs -/

/-- A command that wrote over a stored profile wrote a credential of its identity. -/
def OverwroteOwn (toLowerCase : String → String) : Answered Command (Answer ε) → Prop
  | ⟨.updateAuthProfileStore _ _ updater, answer⟩ => ∀ stored c, answer = some (some stored) →
      updater (some stored) = some c →
      ∃ existing, stored = .oauth existing ∧ SameIdentity toLowerCase existing c
  | _ => True

structure StaysWithIdentity (p : ResolveParams ε) (trace : List (Answered Command (Answer ε)))
    (result : OAuthProgram ε (Option ResolvedOAuthAccess)) : Prop where
  returned : ∀ access, result = .ret (some access) →
    hasOAuthIdentity p.toLowerCase p.credential = true →
    SameIdentity p.toLowerCase p.credential access.credential
  overwrote : ∀ x ∈ trace, OverwroteOwn p.toLowerCase x

theorem OverwritesOwn.overwrote {updater : Option StoredProfile → Option OAuthCredential}
    (h : OverwritesOwn toLowerCase S updater) {stored : StoredProfile}
    (hmem : ∀ c, stored = .oauth c → c ∈ S) (hwrite : updater (some stored) = some c) :
    ∃ existing, stored = .oauth existing ∧ SameIdentity toLowerCase existing c := by
  cases stored with
  | other => cases h.1.symm.trans hwrite
  | oauth existing => exact ⟨existing, rfl, h.2 existing (hmem existing rfl) c hwrite⟩

/-- **A run stays with the requested account**, where account ids and e-mails correspond one to one
and no other account's credential is read at the three places. -/
theorem resolveOAuthAccess_staysWithIdentity (p : ResolveParams ε) (S : Set OAuthCredential)
    (trace : List (Answered Command (Answer ε)))
    (result : OAuthProgram ε (Option ResolvedOAuthAccess))
    (hS : OneAccountEach p.toLowerCase S) (hrequested : p.credential ∈ S)
    (hsteps : Steps (resolveOAuthAccess p) trace result)
    (hmeets : ∀ x ∈ trace, Meets p S x.1 x.2) : StaysWithIdentity p trace result := by
  have hspec := resolveOAuthAccess_spec hS hrequested
  constructor
  · intro access hresult hidentity
    have hgives := hspec.steps hsteps (follows_stateless hmeets)
    rw [hresult] at hgives
    exact (hgives access rfl).sameIdentity hS hrequested hidentity
  · intro x hx
    have hwrites := hspec.allowed_of_mem hsteps hmeets x hx
    have hmeet := hmeets x hx
    obtain ⟨command, answer⟩ := x
    cases command with
    | updateAuthProfileStore site agentDir updater =>
      intro stored c hanswer hwrite
      exact OverwritesOwn.overwrote hwrites (fun c hc => hmeet c (by rw [hanswer, hc])) hwrite
    | _ => trivial

section Runs

/-- An account's credential, with an access token and an expiry. -/
private def accountCredential (account access : String) (expires : Int) : OAuthCredential where
  provider := "openai"
  access := access
  refresh := "r"
  expires := expires
  email := none
  enterpriseUrl := none
  projectId := none
  accountId := some account
  idToken := none

private def staleRequest : ResolveParams String where
  credential := accountCredential "a" "old" 1
  agentDir := none
  forceRefresh := false
  toLowerCase := id
  errors := ⟨fun _ => false, id, "not persisted", id⟩

/-- The refresh fails, and the store that is read again holds a credential. -/
private def refreshFails (stored : OAuthCredential) : (c : Command) → Answer String c
  | .now => (0 : Int)
  | .ensureMainStore => .ok none
  | .loadStoredOAuthRefreshStore .afterFailure _ => .ok (some (.oauth stored))
  | .loadStoredOAuthRefreshStore _ _ => .ok (some (.oauth staleRequest.credential))
  | .readBootstrapCredential _ => .ok none
  | .buildApiKey _ _ credential => .ok credential.access
  | .refreshCredential _ => .error "timeout"
  | .resolvePersistedAuthProfileOwnerAgentDir => none
  | .updateAuthProfileStore _ _ _ => some (some (.oauth staleRequest.credential))
  | .acquireRefreshLock => .ok ()
  | .releaseRefreshLock => ()

/-- A writer stores a credential of the same account while the refresh fails. -/
theorem resolveOAuthAccess_staysWithIdentity_same_account :
    StaysWithIdentity staleRequest
      ((resolveOAuthAccess staleRequest).transcript
        (List.replicate 20 (refreshFails (accountCredential "a" "new" 1000000000))))
      (.ret (some ⟨"new", accountCredential "a" "new" 1000000000⟩)) := by
  refine resolveOAuthAccess_staysWithIdentity staleRequest {c | c.accountId = some "a" ∧ c.email = none}
    _ _ ⟨?_, ?_⟩ ⟨rfl, rfl⟩ (steps_of_feed _ (by decide +kernel)) (forall_transcript ?_ _)
  · rintro c ⟨_, hc⟩ d _ _ x hx
    simp [OAuthCredential.mail, normalizeAuthEmailToken, normalizeAuthIdentityToken, hc] at hx
  · rintro c ⟨_, hc⟩ d _ ⟨y, hy, _⟩
    simp [OAuthCredential.mail, normalizeAuthEmailToken, normalizeAuthIdentityToken, hc] at hy
  · intro answer hanswer command
    rw [List.eq_of_mem_replicate hanswer]
    cases command with
    | loadStoredOAuthRefreshStore site agentDir =>
      cases site <;> rintro c ⟨⟩ <;> exact ⟨⟨rfl, rfl⟩, fun _ => by decide +kernel⟩
    | updateAuthProfileStore site agentDir updater =>
      rintro c ⟨⟩
      exact ⟨rfl, rfl⟩
    | ensureMainStore => rintro c ⟨⟩
    | readBootstrapCredential credential => rintro c ⟨⟩
    | refreshCredential credential => rintro c ⟨⟩
    | _ => trivial

/-- A writer stores a credential of another account while the refresh fails, and it is returned. -/
theorem resolveOAuthAccess_other_account :
    ∃ (p : ResolveParams String) (trace : List (Answered Command (Answer String)))
      (access : ResolvedOAuthAccess),
      Steps (resolveOAuthAccess p) trace (.ret (some access)) ∧
        hasOAuthIdentity p.toLowerCase p.credential = true ∧
        p.credential.accountId = some "a" ∧ access.credential.accountId = some "b" ∧
        ¬ StaysWithIdentity p trace (.ret (some access)) := by
  refine ⟨staleRequest, _, ⟨"new", accountCredential "b" "new" 1000000000⟩,
    steps_of_feed (List.replicate 20 (refreshFails (accountCredential "b" "new" 1000000000)))
      (by decide +kernel),
    by decide +kernel, rfl, rfl, fun h => ?_⟩
  have hsame := (h.returned _ rfl (by decide +kernel)).account "a" (by decide +kernel) "b"
    (by decide +kernel)
  exact absurd hsame (by decide)

end Runs

end OpenClaw.AuthProfiles
