import OpenClaw.Lib.Buckets
import OpenClaw.Routing.ResolveRoute

/-!
# The index of the bindings

The lists of `buildEvaluatedBindingsIndex` and of `buildEvaluatedBindingsByChannel`, each as the
bindings that one test lets through, in the order of the configuration.
-/

namespace OpenClaw.Routing

open Buckets

/-! ## Tests -/

namespace EvaluatedBinding

def hasPeerKey (key : String) (binding : EvaluatedBinding) : Bool :=
  match binding.constraint.peer with
  | .valid kind id => (peerLookupKeys kind id).contains key
  | _ => false

/-- The peers neither file the binding nor keep it out of the lists of the other tiers. -/
def restricted (binding : EvaluatedBinding) : Bool :=
  binding.constraint.peer.isValid || binding.constraint.peer.isWildcardKind

def inGuildWithRoles (guildId : String) (binding : EvaluatedBinding) : Bool :=
  !binding.restricted && binding.constraint.guildId == some guildId &&
    binding.constraint.roles.isSome

def inGuild (guildId : String) (binding : EvaluatedBinding) : Bool :=
  !binding.restricted && binding.constraint.guildId == some guildId &&
    !binding.constraint.roles.isSome

def inTeam (teamId : String) (binding : EvaluatedBinding) : Bool :=
  !binding.restricted && binding.constraint.guildId.isNone &&
    binding.constraint.teamId == some teamId

/-- No id places the binding. -/
def unplaced (binding : EvaluatedBinding) : Bool :=
  !binding.restricted && binding.constraint.guildId.isNone && binding.constraint.teamId.isNone

def inAccount (binding : EvaluatedBinding) : Bool :=
  binding.unplaced && binding.constraint.accountPattern != "*"

def inChannel (binding : EvaluatedBinding) : Bool :=
  binding.unplaced && binding.constraint.accountPattern == "*"

end EvaluatedBinding

/-! ## One step of the loop -/

variable {map : AList fun _ : String => List EvaluatedBinding} {key k : String}
  {index : EvaluatedBindingsIndex} {binding : EvaluatedBinding}

theorem entries_pushToIndexMap (hk : k ≠ "") :
    entries (pushToIndexMap map key binding) k =
      entries map k ++ if k = key then [binding] else [] := by
  by_cases hkey : key = ""
  · have hne : k ≠ key := fun heq => hk (heq.trans hkey)
    rw [pushToIndexMap, if_pos hkey, if_neg hne, List.append_nil]
  · rw [pushToIndexMap, if_neg hkey]
    exact entries_insert

theorem entries_pushToPeers (hk : k ≠ "") {keys : List String} (hkeys : keys.Nodup) :
    entries (pushToPeers map keys binding) k =
      entries map k ++ if keys.contains k then [binding] else [] := by
  induction keys generalizing map with
  | nil => simp [pushToPeers]
  | cons key keys ih =>
    obtain ⟨hkey, hkeys⟩ := List.nodup_cons.1 hkeys
    show entries (pushToPeers (pushToIndexMap map key binding) keys binding) k = _
    rw [ih hkeys, entries_pushToIndexMap hk]
    by_cases hhead : k = key
    · subst hhead
      simp [hkey]
    · simp [hhead]

theorem peerLookupKeys_nodup (kind : ChatType) (id : String) : (peerLookupKeys kind id).Nodup := by
  have hne : "group:" ++ id ≠ "channel:" ++ id := by
    intro heq
    have hlists := congrArg String.toList heq
    simp at hlists
  cases kind <;> simp [peerLookupKeys, hne, hne.symm]

theorem addToIndex_cases (index : EvaluatedBindingsIndex) (binding : EvaluatedBinding) :
    (∃ kind id, binding.constraint.peer = .valid kind id ∧ addToIndex index binding =
      { index with byPeer := pushToPeers index.byPeer (peerLookupKeys kind id) binding }) ∨
    (∃ kind, binding.constraint.peer = .wildcardKind kind ∧ addToIndex index binding =
      { index with byPeerWildcard := index.byPeerWildcard ++ [binding] }) ∨
    (binding.restricted = false ∧ ∃ guildId, binding.constraint.guildId = some guildId ∧
      binding.constraint.roles.isSome = true ∧ addToIndex index binding =
        { index with
          byGuildWithRoles := pushToIndexMap index.byGuildWithRoles guildId binding }) ∨
    (binding.restricted = false ∧ ∃ guildId, binding.constraint.guildId = some guildId ∧
      binding.constraint.roles.isSome = false ∧ addToIndex index binding =
        { index with byGuild := pushToIndexMap index.byGuild guildId binding }) ∨
    (binding.restricted = false ∧ binding.constraint.guildId = none ∧
      ∃ teamId, binding.constraint.teamId = some teamId ∧ addToIndex index binding =
        { index with byTeam := pushToIndexMap index.byTeam teamId binding }) ∨
    (binding.unplaced = true ∧ binding.constraint.accountPattern ≠ "*" ∧
      addToIndex index binding = { index with byAccount := index.byAccount ++ [binding] }) ∨
    (binding.unplaced = true ∧ binding.constraint.accountPattern = "*" ∧
      addToIndex index binding = { index with byChannel := index.byChannel ++ [binding] }) := by
  obtain ⟨agentId, dmScope, ⟨pattern, peer, guildId, teamId, roles⟩, order⟩ := binding
  cases peer with
  | valid kind id => exact .inl ⟨kind, id, rfl, rfl⟩
  | wildcardKind kind => exact .inr (.inl ⟨kind, rfl, rfl⟩)
  | none | invalid =>
    refine .inr (.inr ?_)
    cases guildId with
    | some guildId =>
      cases roles with
      | some roles => exact .inl ⟨rfl, guildId, rfl, rfl, rfl⟩
      | none => exact .inr (.inl ⟨rfl, guildId, rfl, rfl, rfl⟩)
    | none =>
      cases teamId with
      | some teamId => exact .inr (.inr (.inl ⟨rfl, rfl, teamId, rfl, rfl⟩))
      | none =>
        by_cases hpattern : pattern = "*"
        · exact .inr (.inr (.inr (.inr ⟨rfl, hpattern, if_neg (not_not_intro hpattern)⟩)))
        · exact .inr (.inr (.inr (.inl ⟨rfl, hpattern, if_pos hpattern⟩)))

/-! ## The whole loop -/

/-- Every list of the index is the bindings of one test, in their order. -/
structure IndexOf (index : EvaluatedBindingsIndex) (bindings : List EvaluatedBinding) : Prop where
  byPeer : ∀ k, k ≠ "" → entries index.byPeer k = bindings.filter (·.hasPeerKey k)
  byPeerWildcard : index.byPeerWildcard = bindings.filter (·.constraint.peer.isWildcardKind)
  byGuildWithRoles : ∀ k, k ≠ "" →
    entries index.byGuildWithRoles k = bindings.filter (·.inGuildWithRoles k)
  byGuild : ∀ k, k ≠ "" → entries index.byGuild k = bindings.filter (·.inGuild k)
  byTeam : ∀ k, k ≠ "" → entries index.byTeam k = bindings.filter (·.inTeam k)
  byAccount : index.byAccount = bindings.filter (·.inAccount)
  byChannel : index.byChannel = bindings.filter (·.inChannel)

section

variable {p : EvaluatedBinding → Bool} {bindings filed : List EvaluatedBinding}

theorem filter_skip (hp : p binding = false) (h : filed = bindings.filter p) :
    filed = (bindings ++ [binding]).filter p := by
  rw [List.filter_append, List.filter_cons_of_neg (by simp [hp]), List.filter_nil, List.append_nil]
  exact h

theorem filter_take (hp : p binding = true) (h : filed = bindings.filter p) :
    filed ++ [binding] = (bindings ++ [binding]).filter p := by
  rw [List.filter_append, List.filter_cons_of_pos hp, List.filter_nil, h]

theorem filter_push (hk : k ≠ "") (hp : p binding = (key == k))
    (h : entries map k = bindings.filter p) :
    entries (pushToIndexMap map key binding) k = (bindings ++ [binding]).filter p := by
  rw [entries_pushToIndexMap hk]
  by_cases hkey : k = key
  · rw [if_pos hkey]
    exact filter_take (by rw [hp, hkey, beq_self_eq_true]) h
  · rw [if_neg hkey, List.append_nil]
    exact filter_skip (by rw [hp, beq_eq_false_iff_ne]; exact Ne.symm hkey) h

end

namespace EvaluatedBinding

variable (h : binding.restricted = true)

include h

theorem inGuildWithRoles_of_restricted : binding.inGuildWithRoles k = false := by
  simp [inGuildWithRoles, h]

theorem inGuild_of_restricted : binding.inGuild k = false := by simp [inGuild, h]

theorem inTeam_of_restricted : binding.inTeam k = false := by simp [inTeam, h]

theorem unplaced_of_restricted : binding.unplaced = false := by simp [unplaced, h]

omit h

theorem isValid_of_restricted (h : binding.restricted = false) :
    binding.constraint.peer.isValid = false := (Bool.or_eq_false_iff.1 h).1

theorem isWildcardKind_of_restricted (h : binding.restricted = false) :
    binding.constraint.peer.isWildcardKind = false := (Bool.or_eq_false_iff.1 h).2

theorem hasPeerKey_of_restricted (h : binding.restricted = false) :
    binding.hasPeerKey k = false := by
  have hvalid := isValid_of_restricted h
  unfold hasPeerKey
  split
  case h_1 kind id hpeer => rw [hpeer] at hvalid; cases hvalid
  case h_2 => rfl

end EvaluatedBinding

open EvaluatedBinding

variable {bindings : List EvaluatedBinding}

theorem IndexOf.step (h : IndexOf index bindings) (binding : EvaluatedBinding) :
    IndexOf (addToIndex index binding) (bindings ++ [binding]) := by
  obtain ⟨hpeer, hwildcard, hroles, hguild, hteam, haccount, hchannel⟩ := h
  obtain ⟨kind, id, hcase, heq⟩ | ⟨kind, hcase, heq⟩ | ⟨hcase, g, hid, hrole, heq⟩ |
    ⟨hcase, g, hid, hrole, heq⟩ | ⟨hcase, hid, t, hteamId, heq⟩ | ⟨hcase, hpattern, heq⟩ |
    ⟨hcase, hpattern, heq⟩ := addToIndex_cases index binding
  · have hrestricted : binding.restricted = true := by
      simp [restricted, hcase, NormalizedPeerConstraint.isValid]
    have hunplaced := unplaced_of_restricted hrestricted
    rw [heq]
    refine ⟨fun k hk => ?_, filter_skip (by rw [hcase]; rfl) hwildcard,
      fun k hk => filter_skip (inGuildWithRoles_of_restricted hrestricted) (hroles k hk),
      fun k hk => filter_skip (inGuild_of_restricted hrestricted) (hguild k hk),
      fun k hk => filter_skip (inTeam_of_restricted hrestricted) (hteam k hk),
      filter_skip (by simp [inAccount, hunplaced]) haccount,
      filter_skip (by simp [inChannel, hunplaced]) hchannel⟩
    have hkey : binding.hasPeerKey k = (peerLookupKeys kind id).contains k := by
      simp only [hasPeerKey, hcase]
    show entries (pushToPeers index.byPeer (peerLookupKeys kind id) binding) k = _
    rw [entries_pushToPeers hk (peerLookupKeys_nodup kind id), ← hkey]
    by_cases hhas : binding.hasPeerKey k = true
    · rw [if_pos hhas]
      exact filter_take hhas (hpeer k hk)
    · rw [if_neg hhas, List.append_nil]
      exact filter_skip (Bool.eq_false_iff.2 hhas) (hpeer k hk)
  · have hrestricted : binding.restricted = true := by
      simp [restricted, hcase, NormalizedPeerConstraint.isWildcardKind]
    have hunplaced := unplaced_of_restricted hrestricted
    rw [heq]
    exact ⟨fun k hk => filter_skip (by simp [hasPeerKey, hcase]) (hpeer k hk),
      filter_take (by rw [hcase]; rfl) hwildcard,
      fun k hk => filter_skip (inGuildWithRoles_of_restricted hrestricted) (hroles k hk),
      fun k hk => filter_skip (inGuild_of_restricted hrestricted) (hguild k hk),
      fun k hk => filter_skip (inTeam_of_restricted hrestricted) (hteam k hk),
      filter_skip (by simp [inAccount, hunplaced]) haccount,
      filter_skip (by simp [inChannel, hunplaced]) hchannel⟩
  · have hunplaced : binding.unplaced = false := by simp [unplaced, hid]
    rw [heq]
    exact ⟨fun k hk => filter_skip (hasPeerKey_of_restricted hcase) (hpeer k hk),
      filter_skip (isWildcardKind_of_restricted hcase) hwildcard,
      fun k hk => filter_push hk
        (by simp [inGuildWithRoles, hcase, hid, hrole]) (hroles k hk),
      fun k hk => filter_skip (by simp [inGuild, hrole]) (hguild k hk),
      fun k hk => filter_skip (by simp [inTeam, hid]) (hteam k hk),
      filter_skip (by simp [inAccount, hunplaced]) haccount,
      filter_skip (by simp [inChannel, hunplaced]) hchannel⟩
  · have hunplaced : binding.unplaced = false := by simp [unplaced, hid]
    rw [heq]
    exact ⟨fun k hk => filter_skip (hasPeerKey_of_restricted hcase) (hpeer k hk),
      filter_skip (isWildcardKind_of_restricted hcase) hwildcard,
      fun k hk => filter_skip (by simp [inGuildWithRoles, hrole]) (hroles k hk),
      fun k hk => filter_push hk (by simp [inGuild, hcase, hid, hrole]) (hguild k hk),
      fun k hk => filter_skip (by simp [inTeam, hid]) (hteam k hk),
      filter_skip (by simp [inAccount, hunplaced]) haccount,
      filter_skip (by simp [inChannel, hunplaced]) hchannel⟩
  · have hunplaced : binding.unplaced = false := by simp [unplaced, hteamId]
    rw [heq]
    exact ⟨fun k hk => filter_skip (hasPeerKey_of_restricted hcase) (hpeer k hk),
      filter_skip (isWildcardKind_of_restricted hcase) hwildcard,
      fun k hk => filter_skip (by simp [inGuildWithRoles, hid]) (hroles k hk),
      fun k hk => filter_skip (by simp [inGuild, hid]) (hguild k hk),
      fun k hk => filter_push hk (by simp [inTeam, hcase, hid, hteamId]) (hteam k hk),
      filter_skip (by simp [inAccount, hunplaced]) haccount,
      filter_skip (by simp [inChannel, hunplaced]) hchannel⟩
  · obtain ⟨⟨hrestricted, hid⟩, hteamId⟩ : (binding.restricted = false ∧
        binding.constraint.guildId = none) ∧ binding.constraint.teamId = none := by
      simpa [unplaced] using hcase
    rw [heq]
    exact ⟨fun k hk => filter_skip (hasPeerKey_of_restricted hrestricted) (hpeer k hk),
      filter_skip (isWildcardKind_of_restricted hrestricted) hwildcard,
      fun k hk => filter_skip (by simp [inGuildWithRoles, hid]) (hroles k hk),
      fun k hk => filter_skip (by simp [inGuild, hid]) (hguild k hk),
      fun k hk => filter_skip (by simp [inTeam, hteamId]) (hteam k hk),
      filter_take (by simp [inAccount, hcase, hpattern]) haccount,
      filter_skip (by simp [inChannel, hpattern]) hchannel⟩
  · obtain ⟨⟨hrestricted, hid⟩, hteamId⟩ : (binding.restricted = false ∧
        binding.constraint.guildId = none) ∧ binding.constraint.teamId = none := by
      simpa [unplaced] using hcase
    rw [heq]
    exact ⟨fun k hk => filter_skip (hasPeerKey_of_restricted hrestricted) (hpeer k hk),
      filter_skip (isWildcardKind_of_restricted hrestricted) hwildcard,
      fun k hk => filter_skip (by simp [inGuildWithRoles, hid]) (hroles k hk),
      fun k hk => filter_skip (by simp [inGuild, hid]) (hguild k hk),
      fun k hk => filter_skip (by simp [inTeam, hteamId]) (hteam k hk),
      filter_skip (by simp [inAccount, hpattern]) haccount,
      filter_take (by simp [inChannel, hcase, hpattern]) hchannel⟩

theorem indexOf_empty : IndexOf emptyIndex [] :=
  ⟨fun _ _ => entries_empty, rfl, fun _ _ => entries_empty, fun _ _ => entries_empty,
    fun _ _ => entries_empty, rfl, rfl⟩

theorem IndexOf.run (h : IndexOf index bindings) (more : List EvaluatedBinding) :
    IndexOf (more.foldl addToIndex index) (bindings ++ more) := by
  induction more generalizing index bindings with
  | nil => simpa using h
  | cons binding more ih => simpa using ih (h.step binding)

theorem indexOf_build (bindings : List EvaluatedBinding) :
    IndexOf (buildEvaluatedBindingsIndex bindings) bindings := indexOf_empty.run bindings

/-! ## The bindings of a peer -/

namespace EvaluatedBinding

/-- The binding names the peer. -/
def hasPeer (peer : RoutePeer) (binding : EvaluatedBinding) : Bool :=
  match binding.constraint.peer with
  | .valid kind id => peerKindMatches kind peer.kind && id == peer.id
  | _ => false

end EvaluatedBinding

theorem peerLookupKeys_ne_empty {kind : ChatType} {id : String} (h : key ∈ peerLookupKeys kind id) :
    key ≠ "" := by
  intro hkey
  subst hkey
  have hlists := List.mem_map_of_mem (f := String.toList) h
  cases kind <;> simp [peerLookupKeys] at hlists

theorem hasPeerKey_eq_hasPeer {peer : RoutePeer} (hkey : key ∈ peerLookupKeys peer.kind peer.id)
    (binding : EvaluatedBinding) : binding.hasPeerKey key = binding.hasPeer peer := by
  obtain ⟨kind, id⟩ := peer
  unfold hasPeerKey hasPeer
  cases hpeer : binding.constraint.peer with
  | valid kind' id' =>
    have hid : (id' == id) = decide (id.toList = id'.toList) := by
      rw [Bool.beq_eq_decide_eq, decide_eq_decide, String.toList_inj]
      exact eq_comm
    show (peerLookupKeys kind' id').contains key = (peerKindMatches kind' kind && id' == id)
    rw [hid]
    cases kind with
    | direct =>
      obtain rfl : key = "direct:" ++ id := by simpa [peerLookupKeys] using hkey
      cases kind' <;> simp [peerLookupKeys, ← String.toList_inj, peerKindMatches]
    | group | channel =>
      obtain rfl | rfl : key = "channel:" ++ id ∨ key = "group:" ++ id := by
        simpa [peerLookupKeys, or_comm] using hkey
      all_goals cases kind' <;> simp [peerLookupKeys, ← String.toList_inj, peerKindMatches]
  | none | invalid | wildcardKind _ => rfl

theorem collectPeerIndexedBindings_build (horders : (bindings.map (·.order)).Nodup)
    (peer : RoutePeer) :
    collectPeerIndexedBindings (buildEvaluatedBindingsIndex bindings) (some peer) =
      bindings.filter (·.hasPeer peer) := by
  have hfound : ∀ key ∈ peerLookupKeys peer.kind peer.id,
      ((buildEvaluatedBindingsIndex bindings).byPeer.lookup key).getD [] =
        bindings.filter (·.hasPeer peer) := by
    intro key hkey
    refine ((indexOf_build bindings).byPeer key (peerLookupKeys_ne_empty hkey)).trans ?_
    exact List.filter_congr fun binding _ => hasPeerKey_eq_hasPeer hkey binding
  have hnodup : ((bindings.filter (·.hasPeer peer)).map (·.order)).Nodup :=
    horders.sublist (List.filter_sublist.map _)
  show ((peerLookupKeys peer.kind peer.id).flatMap fun key =>
      ((buildEvaluatedBindingsIndex bindings).byPeer.lookup key).getD []).foldl
    (keepNew (·.order)) [] = _
  rw [List.flatMap_congr hfound]
  cases peer.kind with
  | direct =>
    simp only [peerLookupKeys, List.flatMap_cons, List.flatMap_nil, List.append_nil]
    exact foldl_keepNew_of_nodup hnodup
  | group | channel =>
    simp only [peerLookupKeys, List.flatMap_cons, List.flatMap_nil, List.append_nil]
    exact foldl_keepNew_append_self hnodup

/-! ## The bindings of a channel and an account -/

variable {lang : Lowercasing} {cfg : RouteConfig} {channel accountId : String}

/-- The bindings of a channel, in the order of the configuration. -/
def channelBindings (lang : Lowercasing) (cfg : RouteConfig) (channel : String) :
    List EvaluatedBinding :=
  (evaluateBindings lang cfg).filterMap fun entry =>
    if entry.1 = channel then some entry.2 else none

theorem orders_evaluateBindings :
    (evaluateBindings lang cfg).Pairwise fun a b => a.2.order < b.2.order := by
  rw [evaluateBindings, List.pairwise_iff_getElem]
  intro i j hi hj hij
  simpa using hij

theorem orders_channelBindings :
    (channelBindings lang cfg channel).Pairwise fun a b => a.order < b.order := by
  refine List.Pairwise.filterMap _ (fun a a' hlt b hb b' hb' => ?_) orders_evaluateBindings
  simp only [Option.ite_none_right_eq_some, Option.some.injEq] at hb hb'
  rw [← hb.2, ← hb'.2]
  exact hlt

namespace EvaluatedBinding

def namesAccount (lang : Lowercasing) (accountId : String) (binding : EvaluatedBinding) : Bool :=
  binding.constraint.accountPattern != "*" &&
    resolveAccountPatternKey lang binding.constraint.accountPattern == accountId

def anyAccount (binding : EvaluatedBinding) : Bool := binding.constraint.accountPattern == "*"

/-- The normalized account constraint. -/
def accountMatches (lang : Lowercasing) (accountId : String) (binding : EvaluatedBinding) : Bool :=
  binding.namesAccount lang accountId || binding.anyAccount

end EvaluatedBinding

theorem bucketOf_insert {byChannel : AList fun _ : String => EvaluatedBindingsByChannel}
    {bucket : EvaluatedBindingsByChannel} :
    bucketOf (byChannel.insert key bucket) channel =
      if channel = key then bucket else bucketOf byChannel channel := by
  by_cases hkey : channel = key
  · subst hkey
    simp [bucketOf]
  · rw [if_neg hkey, bucketOf, AList.lookup_insert_ne hkey]
    rfl

theorem byAccount_addToChannel (byChannel : AList fun _ : String => EvaluatedBindingsByChannel)
    (entry : String × EvaluatedBinding) :
    entries (bucketOf (addToChannel lang byChannel entry) channel).byAccount accountId =
      entries (bucketOf byChannel channel).byAccount accountId ++
        (if entry.1 = channel ∧ entry.2.namesAccount lang accountId then some entry.2
          else none).toList := by
  unfold addToChannel
  rw [bucketOf_insert]
  by_cases hchannel : channel = entry.1
  · subst hchannel
    by_cases hany : entry.2.constraint.accountPattern = "*"
    · simp [hany, namesAccount]
    · simp only [if_true, hany, if_false]
      rw [getD_lookup, entries_insert]
      by_cases hkey : accountId = resolveAccountPatternKey lang entry.2.constraint.accountPattern
      · simp [hkey, namesAccount, hany]
      · simp [hkey, namesAccount, Ne.symm hkey]
  · rw [if_neg hchannel, if_neg fun h => hchannel h.1.symm]
    simp

variable (lang) in
theorem byAnyAccount_addToChannel (byChannel : AList fun _ : String => EvaluatedBindingsByChannel)
    (entry : String × EvaluatedBinding) :
    (bucketOf (addToChannel lang byChannel entry) channel).byAnyAccount =
      (bucketOf byChannel channel).byAnyAccount ++
        (if entry.1 = channel ∧ entry.2.anyAccount then some entry.2 else none).toList := by
  unfold addToChannel
  rw [bucketOf_insert]
  by_cases hchannel : channel = entry.1
  · subst hchannel
    by_cases hany : entry.2.constraint.accountPattern = "*"
    · simp [hany, anyAccount]
    · simp [hany, anyAccount]
  · rw [if_neg hchannel, if_neg fun h => hchannel h.1.symm]
    simp

theorem filterMap_evaluateBindings (p : EvaluatedBinding → Bool) :
    ((evaluateBindings lang cfg).filterMap fun entry =>
      if entry.1 = channel ∧ p entry.2 then some entry.2 else none) =
        (channelBindings lang cfg channel).filter p := by
  rw [channelBindings, List.filter_filterMap]
  refine List.filterMap_congr fun entry _ => ?_
  by_cases hchannel : entry.1 = channel
  · simp [hchannel, Option.filter]
  · simp [hchannel]

theorem bindingsOf_build :
    bindingsOf (buildEvaluatedBindingsByChannel lang cfg) channel accountId =
      (channelBindings lang cfg channel).filter (·.accountMatches lang accountId) := by
  have haccount : entries
      (bucketOf (buildEvaluatedBindingsByChannel lang cfg) channel).byAccount accountId =
        (channelBindings lang cfg channel).filter (·.namesAccount lang accountId) := by
    refine (foldl_filterMap (fun byChannel => entries (bucketOf byChannel channel).byAccount
      accountId) _ byAccount_addToChannel _ ∅).trans ?_
    rw [filterMap_evaluateBindings]
    rfl
  have hany : (bucketOf (buildEvaluatedBindingsByChannel lang cfg) channel).byAnyAccount =
      (channelBindings lang cfg channel).filter (·.anyAccount) := by
    refine (foldl_filterMap (fun byChannel => (bucketOf byChannel channel).byAnyAccount) _
      (byAnyAccount_addToChannel lang) _ ∅).trans ?_
    rw [filterMap_evaluateBindings]
    rfl
  show mergeEvaluatedBindingsInSourceOrder (entries _ accountId) _ = _
  rw [haccount, hany]
  refine merge_filter orders_channelBindings fun binding _ hnames => ?_
  have hne := (Bool.and_eq_true_iff.1 hnames).1
  simpa [anyAccount] using hne

end OpenClaw.Routing
