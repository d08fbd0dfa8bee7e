import OpenClaw.Routing.RouteReference
import OpenClaw.Routing.SessionIsolation

/-!
# What the tables of routing hold

The tables of bindings and agents hold what they are filled with, however often they are emptied
(`TablesHold.step`). The table of routes is keyed by one text, which two calls may share; the route
of a call is that of the reference as long as no call shares its text with a call that asks for
something else (`resolveAgentRoutes_eq`).
-/

namespace OpenClaw.Routing

open Buckets

/-! ## Tables by channel and account -/

section

variable {α : Type*} {value : String → String → α} {map : AList fun _ : String => α}
  {channel accountId : String} {found : α}

/-- Every entry is the value of a channel and an account. -/
def Filed (value : String → String → α) (map : AList fun _ : String => α) : Prop :=
  ∀ key found, map.lookup key = some found → ∃ channel accountId, '\t' ∉ accountId.toList ∧
    key = channelAccountKey channel accountId ∧ found = value channel accountId

theorem filed_empty : Filed value ∅ := fun _ _ h => by cases h

theorem Filed.insert (h : Filed value map) (haccount : '\t' ∉ accountId.toList) :
    Filed value (map.insert (channelAccountKey channel accountId) (value channel accountId)) := by
  intro key found hfound
  by_cases hkey : key = channelAccountKey channel accountId
  · subst hkey
    rw [AList.lookup_insert] at hfound
    exact ⟨channel, accountId, haccount, rfl, (Option.some.inj hfound).symm⟩
  · rw [AList.lookup_insert_ne hkey] at hfound
    exact h key found hfound

theorem Filed.singleton (haccount : '\t' ∉ accountId.toList) :
    Filed value
      (AList.singleton (channelAccountKey channel accountId) (value channel accountId)) :=
  filed_empty.insert haccount

theorem channelAccountKey_inj {channel' accountId' : String} (h : '\t' ∉ accountId.toList)
    (h' : '\t' ∉ accountId'.toList)
    (heq : channelAccountKey channel accountId = channelAccountKey channel' accountId') :
    channel = channel' ∧ accountId = accountId' := by
  have hlists : accountId.toList.reverse ++ '\t' :: channel.toList.reverse =
      accountId'.toList.reverse ++ '\t' :: channel'.toList.reverse := by
    simpa [channelAccountKey] using congrArg (fun key : String => key.toList.reverse) heq
  obtain ⟨haccount, hchannel⟩ := Fields.cut_inj (by simpa using h) (by simpa using h') hlists
  exact ⟨String.toList_inj.1 (List.reverse_injective hchannel),
    String.toList_inj.1 (List.reverse_injective haccount)⟩

theorem Filed.lookup (h : Filed value map) (haccount : '\t' ∉ accountId.toList)
    (hfound : map.lookup (channelAccountKey channel accountId) = some found) :
    found = value channel accountId := by
  obtain ⟨channel', accountId', haccount', hkey, rfl⟩ := h _ _ hfound
  obtain ⟨rfl, rfl⟩ := channelAccountKey_inj haccount haccount' hkey
  rfl

end

/-! ## The tables of the bindings -/

variable {lang : Lowercasing} {cfg : RouteConfig} {tables : RouteTables}
  {cache : EvaluatedBindingsCache} {channel accountId : String} {input : ResolveAgentRouteInput}

def computedBindings (lang : Lowercasing) (cfg : RouteConfig) (channel accountId : String) :
    List EvaluatedBinding :=
  bindingsOf (buildEvaluatedBindingsByChannel lang cfg) channel accountId

def computedIndex (lang : Lowercasing) (cfg : RouteConfig) (channel accountId : String) :
    EvaluatedBindingsIndex :=
  buildEvaluatedBindingsIndex (computedBindings lang cfg channel accountId)

structure CacheHolds (lang : Lowercasing) (cfg : RouteConfig) (cache : EvaluatedBindingsCache) :
    Prop where
  byChannel : cache.byChannel = buildEvaluatedBindingsByChannel lang cfg
  bindings : Filed (computedBindings lang cfg) cache.byChannelAccount
  index : Filed (computedIndex lang cfg) cache.byChannelAccountIndex

theorem cacheHolds_new :
    CacheHolds lang cfg ⟨buildEvaluatedBindingsByChannel lang cfg, ∅, ∅⟩ :=
  ⟨rfl, filed_empty, filed_empty⟩

theorem getEvaluatedBindings_spec (channel : String) (haccount : '\t' ∉ accountId.toList)
    (h : ∀ cache, tables.evaluated = some cache → CacheHolds lang cfg cache) :
    CacheHolds lang cfg (getEvaluatedBindings lang cfg tables channel accountId).1 ∧
      (getEvaluatedBindings lang cfg tables channel accountId).2 =
        computedBindings lang cfg channel accountId := by
  have hcache : CacheHolds lang cfg (tables.evaluated.getD
      ⟨buildEvaluatedBindingsByChannel lang cfg, ∅, ∅⟩) := by
    cases hevaluated : tables.evaluated with
    | none => exact cacheHolds_new
    | some cache => exact h cache hevaluated
  unfold getEvaluatedBindings
  dsimp only
  generalize tables.evaluated.getD _ = cache at hcache ⊢
  cases hhit : cache.byChannelAccount.lookup (channelAccountKey channel accountId) with
  | some hit => exact ⟨hcache, hcache.bindings.lookup haccount hhit⟩
  | none =>
    have hvalue : bindingsOf cache.byChannel channel accountId =
        computedBindings lang cfg channel accountId := by rw [hcache.byChannel]; rfl
    simp only [hvalue]
    split
    · exact ⟨⟨hcache.byChannel, Filed.singleton haccount, Filed.singleton haccount⟩, rfl⟩
    · exact ⟨⟨hcache.byChannel, hcache.bindings.insert haccount, hcache.index.insert haccount⟩, rfl⟩

theorem getEvaluatedBindingIndex_spec (channel : String) (haccount : '\t' ∉ accountId.toList)
    (h : CacheHolds lang cfg cache) :
    CacheHolds lang cfg (getEvaluatedBindingIndex cache
        (computedBindings lang cfg channel accountId) channel accountId).1 ∧
      (getEvaluatedBindingIndex cache (computedBindings lang cfg channel accountId) channel
        accountId).2 = computedIndex lang cfg channel accountId := by
  unfold getEvaluatedBindingIndex
  dsimp only
  cases hhit : cache.byChannelAccountIndex.lookup (channelAccountKey channel accountId) with
  | some hit => exact ⟨h, h.index.lookup haccount hhit⟩
  | none => exact ⟨⟨h.byChannel, h.bindings, h.index.insert haccount⟩, rfl⟩

/-! ## Calls that ask for the same -/

/-- The scopes differ in nothing a route depends on. -/
structure SameScope (s t : RouteScope) : Prop where
  channel : s.channel = t.channel
  accountId : s.accountId = t.accountId
  peer : s.peer = t.peer
  parent : s.parent = t.parent
  guildId : s.guildId = t.guildId
  teamId : s.teamId = t.teamId
  memberRoleIds : ∀ role, role ∈ s.memberRoleIds ↔ role ∈ t.memberRoleIds

section

variable {s t : RouteScope} (h : SameScope s t)

include h

theorem matchesBindingScope_congr (constraint : NormalizedBindingMatch) (peer : Option RoutePeer) :
    matchesBindingScope constraint peer s = matchesBindingScope constraint peer t := by
  have hroles : ∀ role, s.memberRoleIds.contains role = t.memberRoleIds.contains role := by
    intro role
    rw [Bool.eq_iff_iff, List.contains_iff_mem, List.contains_iff_mem]
    exact h.memberRoleIds role
  simp only [matchesBindingScope, routeBindingScopeMatches, h.guildId, h.teamId, hroles]

theorem inTier_congr (binding : EvaluatedBinding) (tier : MatchedBy) :
    inTier s binding tier = inTier t binding tier := by
  cases tier <;> simp only [inTier, matchesBindingScope_congr h, h.peer, h.parent]

theorem scopeBindings_congr : scopeBindings lang cfg s = scopeBindings lang cfg t := by
  rw [scopeBindings, h.channel, h.accountId]
  rfl

theorem routeOf_congr (lookup : AgentLookupCache)
    (matched : Option (MatchedBy × EvaluatedBinding)) :
    routeOf lang cfg lookup s matched = routeOf lang cfg lookup t matched := by
  have hchoose : chooseRoute lang cfg lookup s = chooseRoute lang cfg lookup t := by
    funext agentId matchedBy override
    simp only [chooseRoute, buildAgentSessionKey, h.channel, h.accountId, h.peer]
  simp only [routeOf, hchoose]

end

variable {a b : ResolveAgentRouteInput}

theorem referenceRoute_congr (h : SameScope (routeScope lang a) (routeScope lang b)) :
    referenceRoute lang cfg a = referenceRoute lang cfg b := by
  show routeOf lang cfg _ _ _ = routeOf lang cfg _ _ _
  simp only [referenceMatch, routeOf_congr h, scopeBindings_congr h, inTier_congr h]

/-! ## Runs -/

/-- What the tables hold after the calls of a list. -/
structure TablesHold (lang : Lowercasing) (cfg : RouteConfig)
    (earlier : List ResolveAgentRouteInput) (tables : RouteTables) : Prop where
  evaluated : ∀ cache, tables.evaluated = some cache → CacheHolds lang cfg cache
  agents : ∀ lookup, tables.agents = some lookup → lookup = buildAgentLookup lang cfg
  byKey : ∀ key route, tables.byKey.lookup key = some route → ∃ input ∈ earlier,
    usesRouteCache cfg input = true ∧ routeCacheKey lang cfg input = key ∧
      route = referenceRoute lang cfg input

theorem tablesHold_empty : TablesHold lang cfg [] emptyTables :=
  ⟨nofun, nofun, fun _ _ h => by cases h⟩

/-- Two calls look for their route at one place. -/
def ShareKey (lang : Lowercasing) (cfg : RouteConfig) (a b : ResolveAgentRouteInput) : Prop :=
  usesRouteCache cfg a = true ∧ usesRouteCache cfg b = true ∧
    routeCacheKey lang cfg a = routeCacheKey lang cfg b

theorem lookup_keepRoute {byKey : AList fun _ : String => ResolvedAgentRoute} {key k : String}
    {route found : ResolvedAgentRoute} (h : (keepRoute byKey key route).lookup k = some found) :
    (k = key ∧ found = route) ∨ byKey.lookup k = some found := by
  unfold keepRoute at h
  dsimp only at h
  by_cases hk : k = key
  · subst hk
    refine .inl ⟨rfl, ?_⟩
    split at h
    · exact (Option.some.inj ((AList.lookup_insert ∅).symm.trans h)).symm
    · exact (Option.some.inj ((AList.lookup_insert byKey).symm.trans h)).symm
  · split at h
    · cases (AList.lookup_insert_ne (s := ∅) hk).symm.trans h
    · rw [AList.lookup_insert_ne hk] at h
      exact .inr h

variable {earlier : List ResolveAgentRouteInput}

theorem TablesHold.step (h : TablesHold lang cfg earlier tables)
    (hkey : ∀ a ∈ earlier, ShareKey lang cfg a input →
      SameScope (routeScope lang a) (routeScope lang input)) :
    TablesHold lang cfg (input :: earlier) (resolveAgentRoute lang cfg tables input).1 ∧
      (resolveAgentRoute lang cfg tables input).2 = referenceRoute lang cfg input := by
  have hgrow : ∀ key route, tables.byKey.lookup key = some route → ∃ a ∈ input :: earlier,
      usesRouteCache cfg a = true ∧ routeCacheKey lang cfg a = key ∧
        route = referenceRoute lang cfg a := fun key route hfound =>
    have ⟨a, hmem, ha⟩ := h.byKey key route hfound
    ⟨a, List.mem_cons_of_mem input hmem, ha⟩
  unfold resolveAgentRoute
  dsimp only
  cases hhit : if usesRouteCache cfg input then
      tables.byKey.lookup (routeCacheKey lang cfg input) else none with
  | some cachedRoute =>
    obtain ⟨huse, hfound⟩ : usesRouteCache cfg input = true ∧
        tables.byKey.lookup (routeCacheKey lang cfg input) = some cachedRoute := by
      simpa using hhit
    obtain ⟨a, hmem, ha, hshared, rfl⟩ := h.byKey _ _ hfound
    exact ⟨⟨h.evaluated, h.agents, hgrow⟩, referenceRoute_congr (hkey a hmem ⟨ha, huse, hshared⟩)⟩
  | none =>
    have haccount : '\t' ∉ (routeScope lang input).accountId.toList :=
      not_mem_normalizeAccountId separator_tab (by decide) _
    have ⟨hcache, hbindings⟩ :=
      getEvaluatedBindings_spec (routeScope lang input).channel haccount h.evaluated
    have ⟨hfilled, hindex⟩ :=
      getEvaluatedBindingIndex_spec (routeScope lang input).channel haccount hcache
    have hlookup : tables.agents.getD (buildAgentLookup lang cfg) = buildAgentLookup lang cfg := by
      cases hagents : tables.agents with
      | none => rfl
      | some lookup => exact h.agents lookup hagents
    have hroute := referenceRoute_eq lang cfg input
    rw [hbindings, hindex, hlookup]
    refine ⟨⟨fun cache hsome => ?_, fun lookup hsome => ?_, ?_⟩, hroute⟩
    · exact Option.some.inj hsome ▸ hfilled
    · exact (Option.some.inj hsome).symm
    · intro key route hfound
      by_cases huse : usesRouteCache cfg input = true
      · dsimp only at hfound
        rw [if_pos huse] at hfound
        obtain ⟨rfl, rfl⟩ | hfound := lookup_keepRoute hfound
        · exact ⟨input, List.mem_cons_self, huse, rfl, hroute⟩
        · exact hgrow key route hfound
      · dsimp only at hfound
        rw [if_neg huse] at hfound
        exact hgrow key route hfound

theorem TablesHold.run {calls : List ResolveAgentRouteInput}
    (h : TablesHold lang cfg earlier tables)
    (hkey : ∀ a ∈ earlier ++ calls, ∀ b ∈ calls, ShareKey lang cfg a b →
      SameScope (routeScope lang a) (routeScope lang b)) :
    resolveAgentRoutes lang cfg tables calls = calls.map (referenceRoute lang cfg) := by
  induction calls generalizing tables earlier with
  | nil => rfl
  | cons input calls ih =>
    have ⟨htables, hroute⟩ := h.step fun a ha =>
      hkey a (List.mem_append_left _ ha) input List.mem_cons_self
    show (resolveAgentRoute lang cfg tables input).2 ::
      resolveAgentRoutes lang cfg (resolveAgentRoute lang cfg tables input).1 calls = _
    rw [List.map_cons, hroute]
    refine congrArg _ (ih htables fun a ha b hb => hkey a ?_ b (List.mem_cons_of_mem input hb))
    simp only [List.mem_append, List.mem_cons] at ha ⊢
    tauto

/-- Of the calls that look their route up, those with one key ask for the same. -/
def Unambiguous (lang : Lowercasing) (cfg : RouteConfig) (calls : List ResolveAgentRouteInput) :
    Prop :=
  ∀ a ∈ calls, ∀ b ∈ calls, ShareKey lang cfg a b →
    SameScope (routeScope lang a) (routeScope lang b)

theorem resolveAgentRoutes_eq (lang : Lowercasing) (cfg : RouteConfig)
    (calls : List ResolveAgentRouteInput) (h : Unambiguous lang cfg calls) :
    resolveAgentRoutes lang cfg emptyTables calls = calls.map (referenceRoute lang cfg) :=
  tablesHold_empty.run h

/-! ## Calls with one key -/

theorem lookup_keepRoute_self (byKey : AList fun _ : String => ResolvedAgentRoute) (key : String)
    (route : ResolvedAgentRoute) : (keepRoute byKey key route).lookup key = some route := by
  unfold keepRoute
  dsimp only
  split
  · exact AList.lookup_insert ∅
  · exact AList.lookup_insert byKey

variable (lang tables) in
theorem lookup_resolveAgentRoute (huse : usesRouteCache cfg input = true) :
    (resolveAgentRoute lang cfg tables input).1.byKey.lookup (routeCacheKey lang cfg input) =
      some (resolveAgentRoute lang cfg tables input).2 := by
  unfold resolveAgentRoute
  dsimp only
  rw [if_pos huse]
  cases hfound : tables.byKey.lookup (routeCacheKey lang cfg input) with
  | some cachedRoute => exact hfound
  | none =>
    rw [if_pos huse]
    exact lookup_keepRoute_self _ _ _

theorem resolveAgentRoute_of_shareKey (h : ShareKey lang cfg a b) :
    (resolveAgentRoute lang cfg (resolveAgentRoute lang cfg tables a).1 b).2 =
      (resolveAgentRoute lang cfg tables a).2 := by
  obtain ⟨ha, hb, hkey⟩ := h
  have hfound := lookup_resolveAgentRoute lang tables ha
  rw [hkey] at hfound
  generalize (resolveAgentRoute lang cfg tables a).1 = kept at hfound ⊢
  generalize (resolveAgentRoute lang cfg tables a).2 = route at hfound ⊢
  unfold resolveAgentRoute
  simp only [if_pos hb, hfound]

theorem resolveAgentRoutes_pair (h : ShareKey lang cfg a b) :
    resolveAgentRoutes lang cfg emptyTables [a, b] =
      [referenceRoute lang cfg a, referenceRoute lang cfg a] := by
  have hfirst : (resolveAgentRoute lang cfg emptyTables a).2 = referenceRoute lang cfg a :=
    (tablesHold_empty.step fun _ hmem => absurd hmem List.not_mem_nil).2
  show [(resolveAgentRoute lang cfg emptyTables a).2,
    (resolveAgentRoute lang cfg (resolveAgentRoute lang cfg emptyTables a).1 b).2] = _
  rw [resolveAgentRoute_of_shareKey h, hfirst]

/-! ## Two calls with one text -/

/-- A call on one channel, by a member with the roles. -/
def memberCall (peer : Option RoutePeer) (memberRoleIds : List String) : ResolveAgentRouteInput where
  channel := "discord"
  accountId := none
  peer
  parentPeer := none
  guildId := some "guild"
  teamId := none
  memberRoleIds := some memberRoleIds
  verbose := false

/-- Members of the guild with the role `staff` go to the agent `work`. -/
def staffConfig : RouteConfig where
  bindings := [{
    acp := false
    agentId := "work"
    bindingMatch := ⟨some "discord", none, none, some "guild", none, some ["staff"]⟩
    dmScope := none }]
  agents := []
  dmScope := none
  mainKey := none
  identityLinks := none

theorem resolveAgentRoutes_eq_staff :
    resolveAgentRoutes asciiLowercasing staffConfig emptyTables
      [memberCall none ["staff", "admin"], memberCall none ["admin", "staff"]] =
      [memberCall none ["staff", "admin"], memberCall none ["admin", "staff"]].map
        (referenceRoute asciiLowercasing staffConfig) := by
  refine resolveAgentRoutes_eq asciiLowercasing staffConfig _ fun a ha b hb _ => ?_
  have hsame : ∀ c ∈ [memberCall none ["staff", "admin"], memberCall none ["admin", "staff"]],
      SameScope (routeScope asciiLowercasing c)
        (routeScope asciiLowercasing (memberCall none ["staff", "admin"])) := by
    intro c hc
    obtain rfl | rfl : c = _ ∨ c = _ := by simpa using hc
    · exact ⟨rfl, rfl, rfl, rfl, rfl, rfl, fun _ => Iff.rfl⟩
    · exact ⟨rfl, rfl, rfl, rfl, rfl, rfl, fun _ => by simp [routeScope, memberCall, or_comm]⟩
  have hleft := hsame a ha
  have hright := hsame b hb
  exact ⟨hleft.channel.trans hright.channel.symm, hleft.accountId.trans hright.accountId.symm,
    hleft.peer.trans hright.peer.symm, hleft.parent.trans hright.parent.symm,
    hleft.guildId.trans hright.guildId.symm, hleft.teamId.trans hright.teamId.symm,
    fun role => (hleft.memberRoleIds role).trans (hright.memberRoleIds role).symm⟩

/-- A member whose one role id is `admin,staff` leaves its route to the members with the roles
`admin` and `staff`. -/
theorem resolveAgentRoutes_shared_key :
    ¬ ∀ (lang : Lowercasing) (cfg : RouteConfig) (calls : List ResolveAgentRouteInput),
      resolveAgentRoutes lang cfg emptyTables calls = calls.map (referenceRoute lang cfg) := by
  intro h
  have hroutes := h asciiLowercasing staffConfig
    [memberCall none ["admin,staff"], memberCall none ["admin", "staff"]]
  rw [resolveAgentRoutes_pair ⟨rfl, rfl, by decide +kernel⟩] at hroutes
  revert hroutes
  decide +kernel

end OpenClaw.Routing
