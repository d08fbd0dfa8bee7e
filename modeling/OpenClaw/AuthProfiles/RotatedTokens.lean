import OpenClaw.AuthProfiles.RefreshProtocol

/-!
# A rotated refresh token is not submitted again

`Consistent` relates what the calls know with the stores. The main store covers every token that was
rotated, as soon as the agent's refresh has been offered to it: it holds a credential that can be
used as long as the rotated one can. So a call whose owner is the main store finds no usable
credential there only if none is left in its agent's store either, and a call whose owner is its
agent looks at both stores itself.

Two things defeat this. The main store's credential is adopted under the lock inside a `catch`, which
takes an error of the store or of `buildApiKey` for a reason to refresh the agent's own, rotated
credential. And an external credential with a blank access token can hide, by its later expiry, what
an agent has refreshed.
-/

namespace OpenClaw.AuthProfiles

open Interact

variable {ε ι : Type} {host : Deployment} {c d : OAuthCredential} {s : Stores ι}
  {agentDir : Option String} {dir : String}

/-! ## The invariant -/

/-- A blank credential of the main store expires before that of the agent's. -/
def BlankBelow (host : Deployment) (s : Stores ι) (dir : String) : Prop :=
  ∀ m x l, s.main host = some (.oauth m) → ¬ m.Nonblank → m.expiresAt = some x →
    s.profile (host.resolveAuthStorePath (some dir)) = some (.oauth l) →
    ∃ y, l.expiresAt = some y ∧ x < y

/-- The main store can be used as long as the credential. -/
def Covers (host : Deployment) (s : Stores ι) (c : OAuthCredential) : Prop :=
  ∃ profile, s.main host = some profile ∧ ∀ m, profile = .oauth m →
    hasUsableOAuthCredential c s.clock = true → m.Nonblank ∧ Outlasts m c

/-- The owner that a call resolved is its agent's store. -/
structure OwnsApart (host : Deployment) (agentDir : Option String) (s : Stores ι) (dir : String) :
    Prop where
  agentDir : agentDir = some dir
  apart : host.resolveAuthStorePath (some dir) ≠ host.resolveAuthStorePath none
  blank : BlankBelow host s dir

/-- What a call knows is so. -/
structure KnowsRight (host : Deployment) (agentDir : Option String) (s : Stores ι) (i : ι)
    (k : Knows) : Prop where
  nowAt : k.nowAt ≤ s.clock
  lock : k.held = true → s.lockedBy = some i
  owner : ∀ dir, k.owner = some (some dir) → OwnsApart host agentDir s dir
  ownerView : k.held = true → ∀ owner v, k.owner = some owner → k.ownerView = some v →
    s.loadAuthProfileStoreWithoutExternalProfiles host owner = some (.oauth v)
  mainView : k.held = true → ∀ profile, k.mainView = some profile → s.main host = profile
  pending : k.held = true → ∀ c, k.pending = some c → c.Nonblank ∧ ∃ dir,
    k.owner = some (some dir) ∧
      s.profile (host.resolveAuthStorePath (some dir)) = some (.oauth c)

structure Consistent (host : Deployment) (agentDirs : ι → Option String) (s : Stores ι)
    (k : ι → Knows) : Prop where
  known : ∀ i, KnowsRight host (agentDirs i) s i (k i)
  alike : s.Alike host
  covered : ∀ r c, (r, c) ∈ s.rotated →
    Covers host s c ∨ ∃ i, (k i).held = true ∧ (k i).pending = some c

/-! ## Stores -/

variable {owner : Option String}

theorem load_of_profile {profile : StoredProfile}
    (h : s.profile (host.resolveAuthStorePath owner) = some profile) :
    s.loadAuthProfileStoreWithoutExternalProfiles host owner = some profile := by
  cases owner with
  | none => exact h
  | some dir =>
    show (s.profile _).or _ = _
    rw [h]
    rfl

theorem Stores.Alike.load (h : s.Alike host)
    (hload : s.loadAuthProfileStoreWithoutExternalProfiles host owner = some (.oauth c)) :
    AuthProfiles.Alike host c := by
  cases owner with
  | none => exact h _ _ hload
  | some dir =>
    obtain hlocal | ⟨_, hmain⟩ := Option.or_eq_some_iff.1 hload
    · exact h _ _ hlocal
    · exact h _ _ hmain

theorem ownsApart_of_resolve (halike : s.Alike host)
    (h : s.resolvePersistedAuthProfileOwnerAgentDir host agentDir = some dir) :
    OwnsApart host agentDir s dir := by
  cases agentDir with
  | none => cases h
  | some dir' =>
    simp only [Stores.resolvePersistedAuthProfileOwnerAgentDir] at h
    split at h
    · cases h
    · next hapart =>
      split at h
      · next requestedProfile hlocal =>
        split at h
        · cases h
        · next huse =>
          cases h
          refine ⟨rfl, hapart, fun m x l hmain hblank hx hl => ?_⟩
          rw [hlocal] at hl
          cases hl
          rw [hmain] at huse
          have hsafe := transition_of_alike (halike _ _ hlocal) (halike _ _ hmain)
          simp only [Stores.shouldUseMainOwnerForLocalOAuthCredential,
            isSafeToAdoptMainStoreOAuthIdentity, hsafe, hx] at huse
          cases hy : l.expiresAt with
          | none => simp [hy] at huse
          | some y =>
            refine ⟨y, rfl, ?_⟩
            simp [hy] at huse
            exact huse.2
      · next hlocal =>
        split at h
        · cases h
        · cases h
          refine ⟨rfl, hapart, fun m x l _ _ _ hl => ?_⟩
          rw [hlocal] at hl
          cases hl

/-! ## Steps that only a call learns from -/

section Learn

variable {agentDirs : ι → Option String} {k : ι → Knows} {i : ι} {k' : Knows}

theorem Consistent.learn [DecidableEq ι] (h : Consistent host agentDirs s k)
    (hknows : KnowsRight host (agentDirs i) s i k') (hheld : k'.held = (k i).held)
    (hpending : k'.pending = (k i).pending) :
    Consistent host agentDirs s (Function.update k i k') := by
  refine ⟨fun j => ?_, h.alike, fun r c hr => ?_⟩
  · by_cases hj : j = i
    · subst hj
      simpa using hknows
    · simpa [hj] using h.known j
  · obtain hcovers | ⟨j, hj⟩ := h.covered r c hr
    · exact .inl hcovers
    · refine .inr ⟨j, ?_⟩
      by_cases hji : j = i
      · subst hji
        simpa [hheld, hpending] using hj
      · simpa [hji] using hj

variable {j : ι}

theorem Consistent.alone (h : Consistent host agentDirs s k) (hi : (k i).held = true)
    (hj : (k j).held = true) : j = i := by
  have hlock := ((h.known i).lock hi).symm.trans ((h.known j).lock hj)
  exact (Option.some.inj hlock).symm

theorem Consistent.covers (h : Consistent host agentDirs s k) (hi : (k i).held = true)
    (hpending : (k i).pending = none) {r : String} (hr : (r, c) ∈ s.rotated) : Covers host s c := by
  obtain hcovers | ⟨j, hj, hjc⟩ := h.covered r c hr
  · exact hcovers
  · rw [h.alone hi hj, hpending] at hjc
    cases hjc

variable {t : Stores ι}

variable {kj : Knows}

theorem KnowsRight.unheld (hheld : kj.held = false) (hnow : kj.nowAt ≤ t.clock)
    (howner : ∀ dir, kj.owner = some (some dir) → OwnsApart host agentDir t dir) :
    KnowsRight host agentDir t j kj where
  nowAt := hnow
  lock h := absurd h (by rw [hheld]; decide)
  owner := howner
  ownerView h := absurd h (by rw [hheld]; decide)
  mainView h := absurd h (by rw [hheld]; decide)
  pending h := absurd h (by rw [hheld]; decide)

theorem OwnsApart.of_profile (h : OwnsApart host agentDir s dir)
    (hprofile : t.profile = s.profile) : OwnsApart host agentDir t dir := by
  refine ⟨h.agentDir, h.apart, ?_⟩
  unfold BlankBelow Stores.main
  rw [hprofile]
  exact h.blank

theorem KnowsRight.forgot (hownerView : kj.ownerView = none) (hmainView : kj.mainView = none)
    (hpending : kj.pending = none) (hnow : kj.nowAt ≤ t.clock)
    (hlock : kj.held = true → t.lockedBy = some j)
    (howner : ∀ dir, kj.owner = some (some dir) → OwnsApart host agentDir t dir) :
    KnowsRight host agentDir t j kj where
  nowAt := hnow
  lock := hlock
  owner := howner
  ownerView _ _ _ _ hv := by
    rw [hownerView] at hv
    cases hv
  mainView _ _ hv := by
    rw [hmainView] at hv
    cases hv
  pending _ _ hv := by
    rw [hpending] at hv
    cases hv

end Learn

/-! ## Writes -/

section Writes

variable {agentDirs : ι → Option String} {k : ι → Knows} {i : ι} {owner : Option String}
  {site : WriteSite}

theorem main_written_main : (s.written host site none c).main host = some (.oauth c) := by
  simp [Stores.main, Stores.written]

theorem main_written_apart
    (hapart : host.resolveAuthStorePath (some dir) ≠ host.resolveAuthStorePath none) :
    (s.written host site (some dir) c).main host = s.main host := by
  simp [Stores.main, Stores.written, Ne.symm hapart]

theorem load_written :
    (s.written host site owner c).loadAuthProfileStoreWithoutExternalProfiles host owner =
      some (.oauth c) :=
  load_of_profile (by simp [Stores.written])

variable {existing : OAuthCredential}

theorem BlankBelow.written (h : BlankBelow host s dir)
    (hstored : s.profile (host.resolveAuthStorePath owner) = some (.oauth existing))
    (hc : c.Nonblank) (houtlasts : Outlasts c existing) :
    BlankBelow host (s.written host site owner c) dir := by
  intro m x l hmain hblank hx hl
  by_cases hpath : host.resolveAuthStorePath none = host.resolveAuthStorePath owner
  · have hmc : m = c := by
      simp [Stores.main, Stores.written, hpath] at hmain
      exact hmain.symm
    subst hmc
    exact absurd hc hblank
  · have hmain' : s.main host = some (.oauth m) := by
      simpa [Stores.main, Stores.written, hpath] using hmain
    by_cases hdir : host.resolveAuthStorePath (some dir) = host.resolveAuthStorePath owner
    · have hlc : l = c := by
        simp [Stores.written, hdir] at hl
        exact hl.symm
      subst hlc
      rw [← hdir] at hstored
      obtain ⟨y, hy, hlt⟩ := h m x existing hmain' hblank hx hstored
      obtain ⟨z, hz, hle⟩ := houtlasts y hy
      exact ⟨z, hz, lt_of_lt_of_le hlt hle⟩
    · refine h m x l hmain' hblank hx ?_
      simpa [Stores.written, hdir] using hl

theorem OwnsApart.written (h : OwnsApart host agentDir s dir)
    (hstored : s.profile (host.resolveAuthStorePath owner) = some (.oauth existing))
    (hc : c.Nonblank) (houtlasts : Outlasts c existing) :
    OwnsApart host agentDir (s.written host site owner c) dir :=
  ⟨h.agentDir, h.apart, h.blank.written hstored hc houtlasts⟩

theorem not_usable_of_covers {rotated : OAuthCredential} {now : Int}
    (hmain : s.main host = some (.oauth c)) (hstale : hasUsableOAuthCredential c now = false)
    (hnow : now ≤ s.clock) (hcovers : Covers host s rotated) :
    hasUsableOAuthCredential rotated s.clock = false := by
  by_contra husable
  rw [Bool.not_eq_false] at husable
  obtain ⟨profile, hprofile, hlasts⟩ := hcovers
  rw [hmain] at hprofile
  cases hprofile
  obtain ⟨hnonblank, houtlasts⟩ := hlasts c rfl husable
  have hunusable := unusable_of_le hstale hnow
  rw [usable_of_outlasts husable hnonblank houtlasts] at hunusable
  cases hunusable

theorem Consistent.write [DecidableEq ι] (h : Consistent host agentDirs s k)
    (hk : (k i).Holding owner) (hstale : (k i).OwnerStale) (hsite : site ≠ .mirror)
    (hstored : s.profile (host.resolveAuthStorePath owner) = some (.oauth existing))
    (hc : c.Nonblank) (houtlasts : Outlasts c existing)
    (halike : (s.written host site owner c).Alike host) :
    Consistent host agentDirs (s.written host site owner c)
      (Function.update k i ((k i).wrote site owner c)) := by
  have hknows := h.known i
  have hpending : ∀ w, ((k i).wrote site owner c).pending = some w →
      w = c ∧ ∃ dir, owner = some dir := by
    intro w hw
    cases site <;> cases owner <;> simp [Knows.wrote, hk.pending] at hw
    exact ⟨hw.symm, _, rfl⟩
  refine ⟨fun j => ?_, halike, fun r rotated hr => ?_⟩
  · by_cases hj : j = i
    · subst hj
      rw [Function.update_self]
      refine ⟨hknows.nowAt, hknows.lock, fun dir hdir => ?_, fun _ o v ho hv => ?_,
        fun hheld profile hview => ?_, fun _ w hw => ?_⟩
      · exact (hknows.owner dir hdir).written hstored hc houtlasts
      · cases hk.owner.symm.trans ho
        cases hv
        exact load_written
      · cases owner with
        | none => cases hview
        | some dir =>
          rw [main_written_apart (hknows.owner dir hk.owner).apart]
          exact hknows.mainView hheld profile hview
      · obtain ⟨rfl, dir, rfl⟩ := hpending w hw
        exact ⟨hc, dir, hk.owner, by simp [Stores.written]⟩
    · rw [Function.update_of_ne hj]
      have hheld : (k j).held = false := by
        by_contra hheld
        exact hj (h.alone hk.held (by simpa using hheld))
      refine KnowsRight.unheld hheld (h.known j).nowAt fun dir hdir => ?_
      exact ((h.known j).owner dir hdir).written hstored hc houtlasts
  · have hnew : (r, rotated) ∈ s.rotated ∨ (∃ submitted, site = .refreshed submitted ∧ rotated = c) := by
      cases site with
      | refreshed submitted =>
        obtain heq | hr := List.mem_cons.1 hr
        · cases heq
          exact .inr ⟨_, rfl, rfl⟩
        · exact .inl hr
      | _ => exact .inl hr
    cases owner with
    | none =>
      -- The main store is written: what was covered before cannot be used any more.
      left
      refine ⟨.oauth c, main_written_main, fun m hm husable => ?_⟩
      cases hm
      refine ⟨hc, ?_⟩
      obtain hold | ⟨_, _, rfl⟩ := hnew
      · obtain ⟨v, hv, hvstale⟩ := hstale
        have hmain := hknows.ownerView hk.held none v hk.owner hv
        have hfalse := not_usable_of_covers hmain hvstale hknows.nowAt
          (h.covers hk.held hk.pending hold)
        exact absurd husable (by show ¬ hasUsableOAuthCredential rotated s.clock = true; simp [hfalse])
      · exact Outlasts.refl _
    | some dir =>
      obtain hold | ⟨submitted, rfl, rfl⟩ := hnew
      · left
        obtain ⟨profile, hprofile, hlasts⟩ := h.covers hk.held hk.pending hold
        exact ⟨profile, (main_written_apart (hknows.owner dir hk.owner).apart).trans hprofile, hlasts⟩
      · right
        exact ⟨i, by simpa [Knows.wrote] using hk.held, by simp [Knows.wrote]⟩

theorem mirror_covers (halike : s.Alike host)
    (hlocal : s.profile (host.resolveAuthStorePath (some dir)) = some (.oauth c))
    (hblank : BlankBelow host s dir) :
    (shouldMirrorRefreshedOAuthCredential host.toLowerCase (s.main host) c = false →
      Covers host s c) ∧
    (shouldMirrorRefreshedOAuthCredential host.toLowerCase (s.main host) c = true →
      ∀ m, s.main host = some (.oauth m) → Outlasts c m) := by
  cases hmain : s.main host with
  | none => exact ⟨fun h => (by cases h), fun _ m hm => by cases hm⟩
  | some profile =>
    cases profile with
    | other =>
      exact ⟨fun _ => ⟨.other, hmain, fun m hm => by cases hm⟩, fun h => by cases h⟩
    | oauth m =>
      have hm : Alike host m := halike _ _ hmain
      have hc' : Alike host c := halike _ _ hlocal
      have hcompare : shouldMirrorRefreshedOAuthCredential host.toLowerCase (some (.oauth m)) c =
          c.expiresAt.elim false fun refreshedExpires =>
            m.expiresAt.elim true fun existingExpires => existingExpires < refreshedExpires := by
        have hprovider : m.provider = c.provider := hm.provider.trans hc'.provider.symm
        cases hx : c.expiresAt <;> cases hy : m.expiresAt <;>
          simp [shouldMirrorRefreshedOAuthCredential, copy_of_alike hm hc', hprovider, hx, hy]
      rw [hcompare]
      constructor
      · intro hrefused
        refine ⟨.oauth m, hmain, fun m' hm' husable => ?_⟩
        cases hm'
        have hx := expiresAt_of_usable husable
        cases hy : m.expiresAt with
        | none => simp [hx, hy] at hrefused
        | some y =>
          have hle : c.expires ≤ y := by simpa [hx, hy] using hrefused
          refine ⟨?_, fun x hx' => ⟨y, hy, ?_⟩⟩
          · by_contra hmblank
            obtain ⟨z, hz, hlt⟩ := hblank m y c hmain hmblank hy hlocal
            rw [hx] at hz
            cases hz
            omega
          · rw [hx] at hx'
            cases hx'
            exact hle
      · rintro htaken m' ⟨⟩ y hy
        cases hx : c.expiresAt with
        | none => simp [hx] at htaken
        | some x =>
          have hlt : y < x := by simpa [hx, hy] using htaken
          exact ⟨x, rfl, hlt.le⟩

theorem Consistent.mirror [DecidableEq ι] (h : Consistent host agentDirs s k) (hheld : (k i).held = true)
    (hpending : (k i).pending = some c)
    (halike : (s.updated host .mirror none (mirrorUpdater host.toLowerCase c)).Alike host) :
    Consistent host agentDirs (s.updated host .mirror none (mirrorUpdater host.toLowerCase c))
      (Function.update k i
        { k i with ownerView := none, mainView := none, pending := none }) := by
  have hknows := h.known i
  obtain ⟨hc, dir, howner, hlocal⟩ := hknows.pending hheld c hpending
  obtain ⟨hrefused, htaken⟩ := mirror_covers h.alike hlocal (hknows.owner dir howner).blank
  have hothers : ∀ j, j ≠ i → (k j).held = false := fun j hj => by
    by_contra hheldj
    exact hj (h.alone hheld (by simpa using hheldj))
  have hcovered : ∀ r rotated, (r, rotated) ∈ s.rotated → Covers host s rotated ∨ rotated = c := by
    intro r rotated hr
    obtain hcovers | ⟨j, hj, hjc⟩ := h.covered r rotated hr
    · exact .inl hcovers
    · rw [h.alone hheld hj, hpending] at hjc
      exact .inr (Option.some.inj hjc).symm
  unfold Stores.updated mirrorUpdater at halike ⊢
  cases hmirror : shouldMirrorRefreshedOAuthCredential host.toLowerCase (s.main host) c with
  | false =>
    have hkept : (if shouldMirrorRefreshedOAuthCredential host.toLowerCase
        (s.profile (host.resolveAuthStorePath none)) c = true then some c else none) = none :=
      if_neg (by rw [show s.profile (host.resolveAuthStorePath none) = s.main host from rfl, hmirror]
                 decide)
    rw [hkept] at halike ⊢
    refine ⟨fun j => ?_, halike, fun r rotated hr => .inl ?_⟩
    · by_cases hj : j = i
      · subst hj
        rw [Function.update_self]
        exact .forgot rfl rfl rfl hknows.nowAt hknows.lock hknows.owner
      · rw [Function.update_of_ne hj]
        exact h.known j
    · obtain hcovers | rfl := hcovered r rotated hr
      · exact hcovers
      · exact hrefused hmirror
  | true =>
    have hwritten : (if shouldMirrorRefreshedOAuthCredential host.toLowerCase
        (s.profile (host.resolveAuthStorePath none)) c = true then some c else none) = some c :=
      if_pos hmirror
    rw [hwritten] at halike ⊢
    have hnoBlank : ∀ dir, BlankBelow host (s.written host .mirror none c) dir := by
      intro dir m x l hmain hblank
      rw [main_written_main] at hmain
      cases hmain
      exact absurd hc hblank
    have hown : ∀ j dir, (k j).owner = some (some dir) →
        OwnsApart host (agentDirs j) (s.written host .mirror none c) dir := fun j dir hdir =>
      ⟨((h.known j).owner dir hdir).agentDir, ((h.known j).owner dir hdir).apart, hnoBlank dir⟩
    refine ⟨fun j => ?_, halike, fun r rotated hr => .inl ?_⟩
    · by_cases hj : j = i
      · subst hj
        rw [Function.update_self]
        exact .forgot rfl rfl rfl hknows.nowAt hknows.lock (hown j)
      · rw [Function.update_of_ne hj]
        exact KnowsRight.unheld (hothers j hj) (h.known j).nowAt (hown j)
    · refine ⟨.oauth c, main_written_main, fun m hm husable => ?_⟩
      cases hm
      refine ⟨hc, ?_⟩
      obtain ⟨profile, hprofile, hlasts⟩ | rfl := hcovered r rotated hr
      · cases profile with
        | other =>
          rw [hprofile] at hmirror
          cases hmirror
        | oauth m => exact (hlasts m rfl husable).2.trans (htaken hmirror m hprofile)
      · exact Outlasts.refl _

end Writes

/-! ## The lock -/

section Lock

variable {agentDirs : ι → Option String} {k : ι → Knows} {i : ι}

section

variable (h : Consistent host agentDirs s k)
include h

theorem Consistent.acquire [DecidableEq ι] (hfree : s.lockedBy = none) :
    Consistent host agentDirs { s with lockedBy := some i } (Function.update k i
      { k i with held := true, ownerView := none, mainView := none, pending := none }) := by
  have hnone : ∀ j, (k j).held = false := fun j => by
    by_contra hheld
    have hlock := (h.known j).lock (by simpa using hheld)
    rw [hfree] at hlock
    cases hlock
  refine ⟨fun j => ?_, h.alike, fun r c hr => .inl ?_⟩
  · by_cases hj : j = i
    · subst hj
      rw [Function.update_self]
      exact .forgot rfl rfl rfl (h.known j).nowAt (fun _ => rfl)
        fun dir hdir => ((h.known j).owner dir hdir).of_profile rfl
    · rw [Function.update_of_ne hj]
      exact .unheld (hnone j) (h.known j).nowAt
        fun dir hdir => ((h.known j).owner dir hdir).of_profile rfl
  · obtain hcovers | ⟨j, hj, _⟩ := h.covered r c hr
    · exact hcovers
    · rw [hnone j] at hj
      cases hj

theorem Consistent.release [DecidableEq ι] {owner : Option String} (hk : (k i).Holding owner) :
    Consistent host agentDirs { s with lockedBy := none }
      (Function.update k i { k i with held := false }) := by
  refine ⟨fun j => ?_, h.alike, fun r c hr => .inl (h.covers hk.held hk.pending hr)⟩
  by_cases hj : j = i
  · subst hj
    rw [Function.update_self]
    exact .unheld rfl (h.known j).nowAt
      fun dir hdir => ((h.known j).owner dir hdir).of_profile rfl
  · rw [Function.update_of_ne hj]
    have hheld : (k j).held = false := by
      by_contra hheld
      exact hj (h.alone hk.held (by simpa using hheld))
    exact .unheld hheld (h.known j).nowAt
      fun dir hdir => ((h.known j).owner dir hdir).of_profile rfl

theorem Consistent.tick {now : Int} (hle : s.clock ≤ now) :
    Consistent host agentDirs { s with clock := now } k := by
  refine ⟨fun j => ?_, h.alike, fun r c hr => ?_⟩
  · have hj := h.known j
    exact ⟨hj.nowAt.trans hle, hj.lock, fun dir hdir => (hj.owner dir hdir).of_profile rfl,
      hj.ownerView, hj.mainView, hj.pending⟩
  · obtain ⟨profile, hprofile, hlasts⟩ | hpending := h.covered r c hr
    · exact .inl ⟨profile, hprofile, fun m hm husable => hlasts m hm (usable_of_le husable hle)⟩
    · exact .inr hpending

end

end Lock

/-! ## Every run -/

/-- Adopting the main store's credential under the lock does not throw, and no external credential
that is read under the lock has a blank access token. -/
def AdoptsUnderLock (s : OAuthSystem ε ι) : Parallel.Event Command (Answer ε) ι → Prop
  | .answer _ (.loadStoredOAuthRefreshStore .mainUnderLock _) stored =>
    ∃ profile, stored = .ok profile
  | .answer _ (.buildApiKey .mainUnderLock _ _) apiKey => ∃ key, apiKey = .ok key
  | .answer i (.readBootstrapCredential _) imported =>
    s.shared.lockedBy = some i → ∀ c, imported = .ok (some c) → c.Nonblank
  | _ => True

section Runs

variable [DecidableEq ι] {params : ι → ResolveParams ε} {k : ι → Knows} {i : ι}

variable {kn : Knows} {site : WriteSite} {updater : Option StoredProfile → Option OAuthCredential}

theorem RefreshAllowed.of_ne_mirror {dir : Option String} (hsite : site ≠ .mirror)
    (h : RefreshAllowed host kn (.updateAuthProfileStore site dir updater)) :
    kn.Holding dir ∧ kn.OwnerStale ∧ Replaces updater := by
  cases site with
  | mirror => exact absurd rfl hsite
  | _ => exact h

theorem RefreshNext.of_ne_mirror {p : ResolveParams ε} {k' : Knows} {dir : Option String}
    {existing : Option (Option StoredProfile)} (hsite : site ≠ .mirror)
    (h : ∃ stored, existing = some stored ∧ (∀ c, updater stored = some c → k' = kn.wrote site dir c) ∧
      (updater stored = none → k' = kn)) :
    RefreshNext host p kn (.updateAuthProfileStore site dir updater) existing k' := by
  cases site with
  | mirror => exact absurd rfl hsite
  | _ => exact h

variable {agentDirs : ι → Option String}

theorem Consistent.same (h : Consistent host agentDirs s k) :
    Consistent host agentDirs s (Function.update k i (k i)) := by
  rw [Function.update_eq_self]
  exact h

variable {sys : OAuthSystem ε ι}

/-- **One answer.** What the call learns from it is allowed by the protocol, and is so. -/
theorem Consistent.serves {t : Stores ι}
    (h : Consistent host (fun i => (params i).agentDir) sys.shared k) {command : Command}
    (hallowed : RefreshAllowed host (k i) command) {answer : Answer ε command}
    (hserves : (OAuthEnvironment host params).serves sys.shared i command answer t)
    (hcond : AdoptsUnderLock sys (.answer i command answer)) :
    ∃ k', RefreshNext host (params i) (k i) command answer k' ∧
      Consistent host (fun i => (params i).agentDir) t (Function.update k i k') := by
  obtain ⟨hserves, halike⟩ := hserves
  have hknows := h.known i
  cases command with
  | now =>
    obtain ⟨rfl, rfl⟩ := hserves
    refine ⟨_, ⟨hknows.nowAt, rfl⟩, h.learn ?_ rfl rfl⟩
    exact ⟨le_refl _, hknows.lock, hknows.owner, hknows.ownerView, hknows.mainView, hknows.pending⟩
  | ensureMainStore =>
    cases hserves
    exact ⟨k i, rfl, h.same⟩
  | loadStoredOAuthRefreshStore site dir =>
    obtain ⟨hstored, rfl⟩ := hserves
    cases site with
    | underLock =>
      by_cases hoauth : ∃ c, answer = .ok (some (.oauth c))
      · obtain ⟨c, rfl⟩ := hoauth
        have hload := (hstored _ rfl).symm
        refine ⟨{ k i with ownerView := some c }, ⟨fun c' hc' => ?_, fun hne => absurd rfl (hne c)⟩,
          h.learn ?_ rfl rfl⟩
        · cases hc'
          exact ⟨halike.load hload, rfl⟩
        · refine ⟨hknows.nowAt, hknows.lock, hknows.owner, fun _ owner v ho hv => ?_,
            hknows.mainView, hknows.pending⟩
          cases hallowed.owner.symm.trans ho
          cases hv
          exact hload
      · have hne : ∀ c, answer ≠ .ok (some (.oauth c)) := fun c hc => hoauth ⟨c, hc⟩
        exact ⟨k i, ⟨fun c hc => absurd hc (hne c), fun _ => rfl⟩, h.same⟩
    | mainUnderLock =>
      obtain ⟨profile, rfl⟩ := hcond
      obtain ⟨_, rfl⟩ := hallowed
      have hload := (hstored _ rfl).symm
      refine ⟨{ k i with mainView := some profile }, ⟨profile, rfl, fun c hc => ?_, rfl⟩,
        h.learn ?_ rfl rfl⟩
      · rw [hc] at hload
        exact halike.load hload
      · refine ⟨hknows.nowAt, hknows.lock, hknows.owner, hknows.ownerView, fun _ profile' hv => ?_,
          hknows.pending⟩
        cases hv
        exact hload
    | afterFailure => exact ⟨k i, rfl, h.same⟩
    | recovery => exact ⟨k i, rfl, h.same⟩
  | readBootstrapCredential credential =>
    cases hserves
    exact ⟨k i, ⟨fun hheld => hcond (hknows.lock hheld), rfl⟩, h.same⟩
  | buildApiKey site provider credential =>
    cases hserves
    cases site with
    | mainUnderLock => exact ⟨k i, ⟨hcond, rfl⟩, h.same⟩
    | _ => exact ⟨k i, rfl, h.same⟩
  | refreshCredential credential =>
    obtain ⟨hrefreshed, rfl⟩ := hserves
    exact ⟨k i, ⟨fun r hr => (usable_iff.1 (hrefreshed r hr).2).1, rfl⟩, h.same⟩
  | resolvePersistedAuthProfileOwnerAgentDir =>
    obtain ⟨rfl, rfl⟩ := hserves
    refine ⟨_, ⟨fun hsome => ?_, rfl⟩, h.learn ?_ rfl rfl⟩
    · obtain ⟨dir, hdir⟩ := Option.isSome_iff_exists.1 hsome
      exact Option.isSome_iff_exists.2 ⟨dir, (ownsApart_of_resolve halike hdir).agentDir⟩
    · refine .unheld hallowed hknows.nowAt fun dir hdir => ?_
      exact ownsApart_of_resolve halike (Option.some.inj hdir)
  | updateAuthProfileStore site dir updater =>
    obtain ⟨rfl, rfl⟩ := hserves
    by_cases hsite : site = .mirror
    · subst hsite
      obtain ⟨hheld, rfl, c, hpending, rfl⟩ := hallowed
      exact ⟨_, rfl, h.mirror hheld hpending halike⟩
    · obtain ⟨hholding, hstale, hreplaces⟩ := RefreshAllowed.of_ne_mirror hsite hallowed
      unfold Stores.updated at halike ⊢
      cases hupdater : updater (sys.shared.profile (host.resolveAuthStorePath dir)) with
      | none =>
        refine ⟨k i, .of_ne_mirror hsite ⟨_, rfl, fun c hc => ?_, fun _ => rfl⟩, h.same⟩
        rw [hupdater] at hc
        cases hc
      | some c =>
        rw [hupdater] at halike
        obtain ⟨hc, existing, hexisting, houtlasts⟩ := hreplaces _ c hupdater
        refine ⟨_, .of_ne_mirror hsite ⟨_, rfl, fun c' hc' => ?_, fun hnone => ?_⟩,
          h.write hholding hstale hsite hexisting hc houtlasts halike⟩
        · rw [hupdater] at hc'
          cases hc'
          rfl
        · rw [hupdater] at hnone
          cases hnone
  | acquireRefreshLock =>
    cases answer with
    | error e =>
      cases hserves
      exact ⟨k i, ⟨fun hok => (by cases hok), fun _ => rfl⟩, h.same⟩
    | ok u =>
      obtain ⟨hfree, rfl⟩ := hserves
      exact ⟨_, ⟨fun _ => rfl, fun hne => absurd rfl (hne u)⟩, h.acquire hfree⟩
  | releaseRefreshLock =>
    cases hserves
    obtain ⟨owner, hholding⟩ := hallowed
    exact ⟨_, rfl, h.release hholding⟩

/-- What is known at the start: nothing. -/
def Knows.start (now : Int) : Knows := ⟨now, none, false, none, none, none⟩

theorem OAuthStart.known (h : OAuthStart host params sys) :
    ∃ k, Consistent host (fun i => (params i).agentDir) sys.shared k ∧
      Parallel.Keeping (fun i => Refreshing host (params i)) sys.runs k := by
  refine ⟨fun _ => .start sys.shared.clock, ⟨fun i => ?_, h.alike, fun r c hr => ?_⟩, fun i => ?_⟩
  · exact .unheld rfl (le_refl _) fun dir hdir => by cases hdir
  · rw [h.unrotated] at hr
    cases hr
  · rw [h.runs i]
    exact (resolveOAuthAccess_known (h.unforced i) (h.lower i) rfl).mono fun _ _ _ => trivial

theorem Consistent.stale (h : Consistent host agentDirs s k) {owner : Option String}
    (hready : (k i).Ready owner) {r : String} {rotated : OAuthCredential}
    (hrotated : (r, rotated) ∈ s.rotated)
    (hheldIn : s.profile (host.resolveAuthStorePath (agentDirs i)) = some (.oauth rotated) ∨
      s.main host = some (.oauth rotated)) : hasUsableOAuthCredential rotated s.clock = false := by
  have hknows := h.known i
  obtain ⟨v, hv, hvstale⟩ := hready.ownerStale
  have hview := hknows.ownerView hready.held owner v hready.owner hv
  have hunusable := unusable_of_le hvstale hknows.nowAt
  cases owner with
  | none =>
    -- The main store is the owner: it covers what the agent's store may hold.
    exact not_usable_of_covers hview hvstale hknows.nowAt
      (h.covers hready.held hready.pending hrotated)
  | some dir =>
    have hapart := hknows.owner dir hready.owner
    obtain hown | hmain := hheldIn
    · have hload := load_of_profile hown
      rw [hapart.agentDir, hview] at hload
      cases hload
      exact hunusable
    · obtain ⟨stored, hstored, hstale⟩ := hready.mainStale rfl
      have hread := hknows.mainView hready.held stored hstored
      rw [hread] at hmain
      exact unusable_of_le (hstale rotated hmain) hknows.nowAt

/-- **No call submits a rotated token while the credential stored for it can be used**, in any run
whose adoptions under the lock do not throw and meet no blank access token. -/
theorem not_submitsRotatedToken (host : Deployment) (params : ι → ResolveParams ε)
    (sys : OAuthSystem ε ι)
    (hreach : Lts.Reachable (OAuthStart host params)
      (Lts.Guarded (Parallel.Step (OAuthEnvironment host params)) AdoptsUnderLock) sys) :
    ¬ SubmitsRotatedToken host params sys := by
  obtain ⟨k, hconsistent, hkeeping⟩ := Parallel.reachable_known (fun _ h => h.known)
    (fun s t k h hmove => by
      obtain ⟨now, hle, rfl⟩ := hmove
      exact h.tick hle)
    (fun _ _ _ _ _ _ _ h _ hallowed hserves hcond => h.serves hallowed hserves hcond) hreach
  rintro ⟨i, credential, f, hask, rotated, hrotated, husable, hheldIn⟩
  obtain ⟨owner, hready⟩ := hkeeping.allowed hask
  rw [hconsistent.stale hready hrotated hheldIn] at husable
  cases husable

end Runs

/-! ## Two agents with copies of one profile -/

section TwoAgents

private def copyHost : Deployment where
  resolveAuthStorePath dir := dir.getD "main"
  toLowerCase := id
  provider := "openai"
  account := none
  mail := none

private def copyCredential (access refresh : String) (expires : Int) : OAuthCredential where
  provider := "openai"
  access := access
  refresh := refresh
  expires := expires
  email := none
  enterpriseUrl := none
  projectId := none
  accountId := none
  idToken := none

private theorem copyCredential_alike (access refresh : String) (expires : Int) :
    Alike copyHost (copyCredential access refresh expires) := ⟨rfl, rfl, rfl⟩

/-- Agent `a` makes the call `false`, agent `b` the call `true`. -/
private def copyCall (i : Bool) : ResolveParams String where
  credential := copyCredential "old" "r" 1
  agentDir := some (if i then "b" else "a")
  forceRefresh := false
  toLowerCase := id
  errors := ⟨fun _ => false, id, "not persisted", id⟩

private def copyStart : OAuthSystem String Bool where
  shared :=
    { profile := fun path =>
        if path = "main" then none else some (.oauth (copyCredential "old" "r" 1))
      lockedBy := none
      clock := 0
      rotated := [] }
  runs i := resolveOAuthAccess (copyCall i)

private def copyServe (mainKey : Except String String) (s : Stores Bool) (i : Bool) :
    (c : Command) → Option (Answer String c × Stores Bool)
  | .now => some (s.clock, s)
  | .ensureMainStore => some (.ok none, s)
  | .loadStoredOAuthRefreshStore _ dir =>
    some (.ok (s.loadAuthProfileStoreWithoutExternalProfiles copyHost dir), s)
  | .readBootstrapCredential _ => some (.ok none, s)
  | .buildApiKey .mainUnderLock _ _ => some (mainKey, s)
  | .buildApiKey _ _ credential => some (.ok credential.access, s)
  | .refreshCredential credential =>
    let refreshed := OAuthCredentials.mk "new" "r2" 1000000000 none none none none none none
    if credential.refreshedWith refreshed ≠ credential ∧
        hasUsableOAuthCredential (credential.refreshedWith refreshed) s.clock = true then
      some (.ok (some refreshed), s)
    else none
  | .resolvePersistedAuthProfileOwnerAgentDir =>
    some (s.resolvePersistedAuthProfileOwnerAgentDir copyHost (copyCall i).agentDir, s)
  | .updateAuthProfileStore site dir updater =>
    match updater (s.profile (copyHost.resolveAuthStorePath dir)) with
    | none => some (some (s.profile (copyHost.resolveAuthStorePath dir)), s)
    | some credential =>
      if credential.provider = "openai" ∧ credential.accountId = none ∧ credential.email = none then
        some (some (s.profile (copyHost.resolveAuthStorePath dir)),
          s.written copyHost site dir credential)
      else none
  | .acquireRefreshLock =>
    if s.lockedBy = none then some (.ok (), { s with lockedBy := some i }) else none
  | .releaseRefreshLock => some ((), { s with lockedBy := none })

variable {t : Stores Bool} {i : Bool} {command : Command}

private theorem copyServe_serves {mainKey : Except String String} {s : Stores Bool}
    {answer : Answer String command} (hs : s.Alike copyHost)
    (h : copyServe mainKey s i command = some (answer, t)) :
    (OAuthEnvironment copyHost copyCall).serves s i command answer t := by
  cases command with
  | now | resolvePersistedAuthProfileOwnerAgentDir =>
    cases h
    exact ⟨⟨rfl, rfl⟩, hs⟩
  | ensureMainStore | readBootstrapCredential | releaseRefreshLock =>
    cases h
    exact ⟨rfl, hs⟩
  | loadStoredOAuthRefreshStore site dir =>
    cases h
    exact ⟨⟨fun profile hp => (Except.ok.inj hp).symm, rfl⟩, hs⟩
  | buildApiKey site provider credential =>
    cases site <;> cases h <;> exact ⟨rfl, hs⟩
  | refreshCredential credential =>
    unfold copyServe at h
    dsimp only at h
    split at h
    · next hrefreshed =>
      cases h
      refine ⟨⟨fun r hr => ?_, rfl⟩, hs⟩
      cases hr
      exact hrefreshed
    · cases h
  | updateAuthProfileStore site dir updater =>
    unfold copyServe at h
    dsimp only at h
    split at h
    · next hupdater =>
      cases h
      refine ⟨⟨rfl, ?_⟩, hs⟩
      rw [Stores.updated, hupdater]
    · next credential hupdater =>
      split at h
      · next hidentity =>
        cases h
        refine ⟨⟨rfl, ?_⟩, fun path c hc => ?_⟩
        · rw [Stores.updated, hupdater]
        · by_cases hpath : path = copyHost.resolveAuthStorePath dir
          · subst hpath
            have hcc : credential = c := by simpa [Stores.written] using hc
            subst hcc
            obtain ⟨hprovider, haccount, hmail⟩ := hidentity
            refine ⟨hprovider, ?_, ?_⟩
            · rw [OAuthCredential.account, haccount]
              rfl
            · rw [OAuthCredential.mail, hmail]
              rfl
          · exact hs path c (by simpa [Stores.written, hpath] using hc)
      · cases h
  | acquireRefreshLock =>
    unfold copyServe at h
    dsimp only at h
    split at h
    · next hfree =>
      cases h
      exact ⟨⟨hfree, rfl⟩, hs⟩
    · cases h

private theorem copyServe_adopts {key : String} {sys : OAuthSystem String Bool}
    {answer : Answer String command}
    (h : copyServe (.ok key) sys.shared i command = some (answer, t)) :
    AdoptsUnderLock sys (.answer i command answer) := by
  cases command with
  | loadStoredOAuthRefreshStore site dir =>
    cases h
    cases site <;> first | exact ⟨_, rfl⟩ | trivial
  | buildApiKey site provider credential =>
    cases site <;> cases h <;> first | exact ⟨_, rfl⟩ | trivial
  | readBootstrapCredential credential =>
    cases h
    exact fun _ c hc => by cases hc
  | _ => trivial

private theorem copyStart_start : OAuthStart copyHost copyCall copyStart where
  runs _ := rfl
  unforced _ := rfl
  lower _ := rfl
  alike path c hc := by
    by_cases hpath : path = "main" <;> simp [copyStart, hpath] at hc
    subst hc
    exact copyCredential_alike "old" "r" 1
  unlocked := rfl
  unrotated := rfl

/-- Agent `b` resolves its owner, then `a` refreshes, then `b` takes the lock. -/
private def copySchedule : List Bool :=
  List.replicate 4 true ++ List.replicate 14 false ++ List.replicate 7 true

private def refreshing? : OAuthProgram String (Option ResolvedOAuthAccess) → Option OAuthCredential
  | .ask (.refreshCredential credential) _ => some credential
  | _ => none

private theorem refreshing?_eq_some {m : OAuthProgram String (Option ResolvedOAuthAccess)}
    (h : refreshing? m = some c) : ∃ f, m = .ask (.refreshCredential c) f := by
  unfold refreshing? at h
  split at h
  · cases h
    exact ⟨_, rfl⟩
  · cases h

/-- The main store's credential is adopted, and `b` is done without a refresh. -/
theorem not_submitsRotatedToken_two_agents :
    ∃ sys : OAuthSystem String Bool,
      Parallel.play (copyServe (.ok "new")) copyStart copySchedule = some sys ∧
        sys.shared.rotated = [("r", copyCredential "new" "r2" 1000000000)] ∧
        ¬ SubmitsRotatedToken copyHost copyCall sys := by
  have hrotated : (Parallel.play (copyServe (.ok "new")) copyStart copySchedule).map
      (fun sys => sys.shared.rotated) = some [("r", copyCredential "new" "r2" 1000000000)] := by
    decide +kernel
  obtain ⟨sys, hplay, hsys⟩ := Option.map_eq_some_iff.1 hrotated
  refine ⟨sys, hplay, hsys, not_submitsRotatedToken copyHost copyCall sys ?_⟩
  exact Parallel.reachable_play _ (fun _ _ _ _ _ halike h =>
      ⟨copyServe_serves halike h, copyServe_adopts h, (copyServe_serves halike h).2⟩)
    (.start copyStart_start) copyStart_start.alike hplay

/-- `buildApiKey` throws for the main store's credential, and `b` submits `a`'s token again. -/
theorem submitsRotatedToken_two_agents :
    ∃ (host : Deployment) (params : Bool → ResolveParams String) (sys : OAuthSystem String Bool),
      Lts.Reachable (OAuthStart host params) (Parallel.Step (OAuthEnvironment host params)) sys ∧
        SubmitsRotatedToken host params sys := by
  have hrun : (Parallel.play (copyServe (.error "no key")) copyStart copySchedule).map
      (fun sys => (refreshing? (sys.runs true), sys.shared.rotated, sys.shared.profile "main",
        sys.shared.clock)) =
      some (some (copyCredential "old" "r" 1), [("r", copyCredential "new" "r2" 1000000000)],
        some (.oauth (copyCredential "new" "r2" 1000000000)), 0) := by
    decide +kernel
  obtain ⟨sys, hplay, hsys⟩ := Option.map_eq_some_iff.1 hrun
  simp only [Prod.mk.injEq] at hsys
  obtain ⟨hrefreshing, hrotated, hmain, hclock⟩ := hsys
  obtain ⟨f, hask⟩ := refreshing?_eq_some hrefreshing
  have hreach := Parallel.reachable_play (fun _ _ => True)
    (fun _ _ _ _ _ halike h =>
      ⟨copyServe_serves halike h, trivial, (copyServe_serves halike h).2⟩)
    (.start copyStart_start) copyStart_start.alike hplay
  refine ⟨copyHost, copyCall, sys, hreach.restrict, true, _, f, hask,
    copyCredential "new" "r2" 1000000000, ?_, ?_, .inr hmain⟩
  · rw [hrotated]
    exact List.mem_singleton.2 rfl
  · rw [hclock]
    decide +kernel

end TwoAgents

end OpenClaw.AuthProfiles
