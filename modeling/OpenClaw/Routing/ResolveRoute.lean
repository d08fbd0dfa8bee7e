import OpenClaw.Routing.SessionKey
import Mathlib.Data.List.AList

/-!
# `routing/resolve-route.ts`

`resolveAgentRoute` on one configuration that does not change, with the three tables the module
keeps for it: the bindings by channel and account, the agents by id, and the routes it returned. The
log lines are left out; whether they are written decides if the routes are looked up, so it comes
with every call.
-/

namespace OpenClaw.Routing

/-! ## Configuration and calls -/

structure RoutePeer where
  kind : ChatType
  id : String
  deriving DecidableEq

structure AgentBindingMatch where
  channel : Option String
  accountId : Option String
  /-- The configured kind and id. -/
  peer : Option (Option String × Option String)
  guildId : Option String
  teamId : Option String
  roles : Option (List String)

structure AgentBinding where
  acp : Bool
  agentId : String
  bindingMatch : AgentBindingMatch
  /-- `session.dmScope`. -/
  dmScope : Option DmScope

structure AgentEntry where
  id : Option String
  default : Bool

structure RouteConfig where
  bindings : List AgentBinding
  agents : List AgentEntry
  dmScope : Option DmScope
  mainKey : Option String
  identityLinks : Option (List (String × List String))

structure ResolveAgentRouteInput where
  channel : String
  accountId : Option String
  peer : Option RoutePeer
  parentPeer : Option RoutePeer
  guildId : Option String
  teamId : Option String
  memberRoleIds : Option (List String)
  /-- `shouldLogVerbose()`. -/
  verbose : Bool

inductive MatchedBy
  | bindingPeer
  | bindingPeerParent
  | bindingPeerWildcard
  | bindingGuildRoles
  | bindingGuild
  | bindingTeam
  | bindingAccount
  | bindingChannel
  | default
  deriving DecidableEq

inductive LastRoutePolicy
  | main
  | session
  deriving DecidableEq

structure ResolvedAgentRoute where
  agentId : String
  channel : String
  accountId : String
  dmScope : DmScope
  sessionKey : String
  mainSessionKey : String
  lastRoutePolicy : LastRoutePolicy
  matchedBy : MatchedBy
  deriving DecidableEq

/-! ## Normalized bindings -/

inductive NormalizedPeerConstraint
  | none
  | invalid
  | wildcardKind (kind : ChatType)
  | valid (kind : ChatType) (id : String)
  deriving DecidableEq

structure NormalizedBindingMatch where
  accountPattern : String
  peer : NormalizedPeerConstraint
  guildId : Option String
  teamId : Option String
  roles : Option (List String)
  deriving DecidableEq

/-- The agent of the binding, its scope override, its constraints and its place. -/
structure EvaluatedBinding where
  agentId : String
  dmScope : Option DmScope
  constraint : NormalizedBindingMatch
  order : Nat
  deriving DecidableEq

variable (lang : Lowercasing)

/-- `normalizeRouteBindingId`, of a string or nothing. -/
def normalizeId (value : Option String) : String := (value.map JsString.trim).getD ""

def normalizeRouteBindingRoles (value : Option (List String)) : Option (List String) :=
  value.filter (· ≠ [])

def normalizeChatType (raw : Option String) : Option ChatType :=
  match normalizeLowercaseStringOrEmpty lang raw with
  | "direct" | "dm" => some .direct
  | "group" => some .group
  | "channel" => some .channel
  | _ => none

def normalizePeerConstraint (peer : Option (Option String × Option String)) :
    NormalizedPeerConstraint :=
  match peer with
  | none => .none
  | some (kind, id) =>
    match normalizeChatType lang kind, normalizeId id with
    | none, _ => .invalid
    | some kind, id => if id = "" then .invalid else if id = "*" then .wildcardKind kind
      else .valid kind id

/-- `value || null`. -/
def nonEmpty (value : String) : Option String := if value = "" then none else some value

def normalizeBindingMatch (binding : AgentBindingMatch) : NormalizedBindingMatch where
  accountPattern := JsString.trim (binding.accountId.getD "")
  peer := normalizePeerConstraint lang binding.peer
  guildId := nonEmpty (normalizeId binding.guildId)
  teamId := nonEmpty (normalizeId binding.teamId)
  roles := normalizeRouteBindingRoles binding.roles

def resolveAccountPatternKey (accountPattern : String) : String :=
  if JsString.trim accountPattern = "" then DEFAULT_ACCOUNT_ID
  else normalizeAccountId lang (some accountPattern)

/-- `listRouteBindings`. -/
def listBindings (cfg : RouteConfig) : List AgentBinding := cfg.bindings.filter fun b => !b.acp

/-- The channels of the bindings that have one, and the bindings as `order` numbers them. -/
def evaluateBindings (cfg : RouteConfig) : List (String × EvaluatedBinding) :=
  ((listBindings cfg).filter fun binding =>
    normalizeLowercaseStringOrEmpty lang binding.bindingMatch.channel ≠ "").mapIdx
      fun order binding =>
        (normalizeLowercaseStringOrEmpty lang binding.bindingMatch.channel,
          { agentId := binding.agentId
            dmScope := binding.dmScope
            constraint := normalizeBindingMatch lang binding.bindingMatch
            order })

/-! ## Bindings by channel and account -/

def pushToIndexMap (map : AList fun _ : String => List EvaluatedBinding) (key : String)
    (binding : EvaluatedBinding) : AList fun _ : String => List EvaluatedBinding :=
  if key = "" then map else map.insert key ((map.lookup key).getD [] ++ [binding])

structure EvaluatedBindingsByChannel where
  byAccount : AList fun _ : String => List EvaluatedBinding
  byAnyAccount : List EvaluatedBinding

def bucketOf (byChannel : AList fun _ : String => EvaluatedBindingsByChannel) (channel : String) :
    EvaluatedBindingsByChannel := (byChannel.lookup channel).getD ⟨∅, []⟩

/-- One binding goes into the bucket of its channel. -/
def addToChannel (byChannel : AList fun _ : String => EvaluatedBindingsByChannel)
    (entry : String × EvaluatedBinding) : AList fun _ : String => EvaluatedBindingsByChannel :=
  let bucket := bucketOf byChannel entry.1
  byChannel.insert entry.1 <|
    if entry.2.constraint.accountPattern = "*" then
      { bucket with byAnyAccount := bucket.byAnyAccount ++ [entry.2] }
    else
      let accountKey := resolveAccountPatternKey lang entry.2.constraint.accountPattern
      let existing := (bucket.byAccount.lookup accountKey).getD []
      { bucket with byAccount := bucket.byAccount.insert accountKey (existing ++ [entry.2]) }

def buildEvaluatedBindingsByChannel (cfg : RouteConfig) :
    AList fun _ : String => EvaluatedBindingsByChannel :=
  (evaluateBindings lang cfg).foldl (addToChannel lang) ∅

def mergeEvaluatedBindingsInSourceOrder (accountScoped anyAccount : List EvaluatedBinding) :
    List EvaluatedBinding :=
  accountScoped.merge anyAccount fun a b => a.order ≤ b.order

/-! ## The index of the tiers -/

structure EvaluatedBindingsIndex where
  byPeer : AList fun _ : String => List EvaluatedBinding
  byPeerWildcard : List EvaluatedBinding
  byGuildWithRoles : AList fun _ : String => List EvaluatedBinding
  byGuild : AList fun _ : String => List EvaluatedBinding
  byTeam : AList fun _ : String => List EvaluatedBinding
  byAccount : List EvaluatedBinding
  byChannel : List EvaluatedBinding

def peerLookupKeys (kind : ChatType) (id : String) : List String :=
  match kind with
  | .group => ["group:" ++ id, "channel:" ++ id]
  | .channel => ["channel:" ++ id, "group:" ++ id]
  | .direct => ["direct:" ++ id]

/-- `seen` knows a binding by its place. -/
def collectPeerIndexedBindings (index : EvaluatedBindingsIndex) (peer : Option RoutePeer) :
    List EvaluatedBinding :=
  match peer with
  | none => []
  | some peer =>
    ((peerLookupKeys peer.kind peer.id).flatMap fun key => (index.byPeer.lookup key).getD []).foldl
      (fun out found => if out.any fun seen => seen.order == found.order then out
        else out ++ [found]) []

def pushToPeers (byPeer : AList fun _ : String => List EvaluatedBinding) (keys : List String)
    (binding : EvaluatedBinding) : AList fun _ : String => List EvaluatedBinding :=
  keys.foldl (fun map key => pushToIndexMap map key binding) byPeer

/-- One binding goes into the list of its tier. -/
def addToIndex (index : EvaluatedBindingsIndex) (binding : EvaluatedBinding) :
    EvaluatedBindingsIndex :=
  match binding.constraint.peer, binding.constraint.guildId, binding.constraint.teamId with
  | .valid kind id, _, _ =>
    { index with byPeer := pushToPeers index.byPeer (peerLookupKeys kind id) binding }
  | .wildcardKind _, _, _ => { index with byPeerWildcard := index.byPeerWildcard ++ [binding] }
  | _, some guildId, _ =>
    if binding.constraint.roles.isSome then
      { index with byGuildWithRoles := pushToIndexMap index.byGuildWithRoles guildId binding }
    else { index with byGuild := pushToIndexMap index.byGuild guildId binding }
  | _, none, some teamId => { index with byTeam := pushToIndexMap index.byTeam teamId binding }
  | _, none, none =>
    if binding.constraint.accountPattern ≠ "*" then
      { index with byAccount := index.byAccount ++ [binding] }
    else { index with byChannel := index.byChannel ++ [binding] }

def emptyIndex : EvaluatedBindingsIndex := ⟨∅, [], ∅, ∅, ∅, [], []⟩

def buildEvaluatedBindingsIndex (bindings : List EvaluatedBinding) : EvaluatedBindingsIndex :=
  bindings.foldl addToIndex emptyIndex

/-! ## Scopes -/

/-- What a call asks for, normalized. -/
structure RouteScope where
  channel : String
  accountId : String
  peer : Option RoutePeer
  parentPeer : Option RoutePeer
  guildId : String
  teamId : String
  memberRoleIds : List String

/-- The id of a peer is trimmed; its kind is one of the three already. -/
def normalizeRoutePeer (peer : RoutePeer) : RoutePeer := ⟨peer.kind, normalizeId (some peer.id)⟩

def routeScope (input : ResolveAgentRouteInput) : RouteScope where
  channel := normalizeLowercaseStringOrEmpty lang (some input.channel)
  accountId := normalizeAccountId lang input.accountId
  peer := input.peer.map normalizeRoutePeer
  parentPeer := input.parentPeer.map normalizeRoutePeer
  guildId := normalizeId input.guildId
  teamId := normalizeId input.teamId
  memberRoleIds := input.memberRoleIds.getD []

def peerKindMatches (bindingKind scopeKind : ChatType) : Bool :=
  bindingKind == scopeKind || (bindingKind == .group && scopeKind == .channel) ||
    (bindingKind == .channel && scopeKind == .group)

/-- `scopeIdMatches` without a group space, which a route never has: `exact` is already trimmed. -/
def scopeIdMatches (constraint : Option String) (exact : String) : Bool :=
  match constraint with
  | none => true
  | some id => id == exact || id == ""

def routeBindingScopeMatches (constraint : NormalizedBindingMatch) (scope : RouteScope) : Bool :=
  scopeIdMatches constraint.guildId (normalizeId (some scope.guildId)) &&
    scopeIdMatches constraint.teamId (normalizeId (some scope.teamId)) &&
    match normalizeRouteBindingRoles constraint.roles with
    | none => true
    | some roles => roles.any fun role => scope.memberRoleIds.contains role

/-- `matchesBindingScope`, with the peer of the tier. -/
def matchesBindingScope (constraint : NormalizedBindingMatch) (peer : Option RoutePeer)
    (scope : RouteScope) : Bool :=
  (match constraint.peer, peer with
    | .none, _ => true
    | .invalid, _ => false
    | .valid kind id, some peer => peerKindMatches kind peer.kind && peer.id == id
    | .wildcardKind kind, some peer => peerKindMatches kind peer.kind
    | _, none => false) &&
  routeBindingScopeMatches constraint scope

/-! ## Tiers -/

structure RouteTier where
  matchedBy : MatchedBy
  enabled : Bool
  scopePeer : Option RoutePeer
  candidates : List EvaluatedBinding
  predicate : EvaluatedBinding → Bool

def NormalizedPeerConstraint.isValid : NormalizedPeerConstraint → Bool
  | .valid .. => true
  | _ => false

def NormalizedPeerConstraint.isWildcardKind : NormalizedPeerConstraint → Bool
  | .wildcardKind _ => true
  | _ => false

/-- The bindings of an id in an index map. -/
def byId (map : AList fun _ : String => List EvaluatedBinding) (id : String) :
    List EvaluatedBinding := if id = "" then [] else (map.lookup id).getD []

/-- `tiers`. -/
def routeTiers (index : EvaluatedBindingsIndex) (scope : RouteScope) : List RouteTier :=
  let parent := scope.parentPeer.filter fun peer => peer.id ≠ ""
  [⟨.bindingPeer, scope.peer.isSome, scope.peer, collectPeerIndexedBindings index scope.peer,
      fun b => b.constraint.peer.isValid⟩,
    ⟨.bindingPeerParent, parent.isSome, parent, collectPeerIndexedBindings index scope.parentPeer,
      fun b => b.constraint.peer.isValid⟩,
    ⟨.bindingPeerWildcard, scope.peer.isSome, scope.peer, index.byPeerWildcard,
      fun b => b.constraint.peer.isWildcardKind⟩,
    ⟨.bindingGuildRoles, scope.guildId ≠ "" && 0 < scope.memberRoleIds.length, scope.peer,
      byId index.byGuildWithRoles scope.guildId,
      fun b => b.constraint.guildId.isSome && b.constraint.roles.isSome⟩,
    ⟨.bindingGuild, scope.guildId ≠ "", scope.peer, byId index.byGuild scope.guildId,
      fun b => b.constraint.guildId.isSome && !b.constraint.roles.isSome⟩,
    ⟨.bindingTeam, scope.teamId ≠ "", scope.peer, byId index.byTeam scope.teamId,
      fun b => b.constraint.teamId.isSome⟩,
    ⟨.bindingAccount, true, scope.peer, index.byAccount,
      fun b => b.constraint.accountPattern ≠ "*"⟩,
    ⟨.bindingChannel, true, scope.peer, index.byChannel,
      fun b => b.constraint.accountPattern = "*"⟩]

def firstMatch (scope : RouteScope) : List RouteTier → Option (MatchedBy × EvaluatedBinding)
  | [] => none
  | tier :: tiers =>
    let matched := if tier.enabled then tier.candidates.find? fun candidate =>
        tier.predicate candidate && matchesBindingScope candidate.constraint tier.scopePeer scope
      else none
    match matched with
    | some binding => some (tier.matchedBy, binding)
    | none => firstMatch scope tiers

/-! ## Agents -/

structure AgentLookupCache where
  byNormalizedId : List String
  fallbackDefaultAgentId : String

def resolveDefaultAgentId (cfg : RouteConfig) : String :=
  match cfg.agents with
  | [] => DEFAULT_AGENT_ID
  | first :: _ =>
    let chosen := JsString.trim (((cfg.agents.find? AgentEntry.default).getD first).id.getD "")
    normalizeAgentId lang (some (orElse chosen DEFAULT_AGENT_ID))

/-- The ids under which agents are found; each is its own value. -/
def buildAgentLookup (cfg : RouteConfig) : AgentLookupCache where
  byNormalizedId :=
    (cfg.agents.filterMap fun agent => nonEmpty (JsString.trim (agent.id.getD ""))).map
      fun rawId => normalizeAgentId lang (some rawId)
  fallbackDefaultAgentId := normalizeAgentId lang (some (resolveDefaultAgentId lang cfg))

def pickFirstExistingAgentId (lookup : AgentLookupCache) (agentId : String) : String :=
  let trimmed := JsString.trim agentId
  if trimmed = "" then lookup.fallbackDefaultAgentId
  else
    let normalized := normalizeAgentId lang (some trimmed)
    if lookup.byNormalizedId = [] then normalized
    else if lookup.byNormalizedId.contains normalized then normalized
    else lookup.fallbackDefaultAgentId

/-! ## Routes -/

def buildAgentSessionKey (cfg : RouteConfig) (agentId : String) (scope : RouteScope)
    (dmScope : DmScope) : String :=
  PeerSession.buildAgentPeerSessionKey lang
    { agentId
      mainKey := some (cfg.mainKey.getD DEFAULT_MAIN_KEY)
      channel := orElse (normalizeLowercaseStringOrEmpty lang (some scope.channel)) "unknown"
      accountId := some scope.accountId
      peerKind := some ((scope.peer.map RoutePeer.kind).getD .direct)
      peerId := scope.peer.map fun peer => orElse (normalizeId (some peer.id)) "unknown"
      identityLinks := cfg.identityLinks
      dmScope := some dmScope }

def deriveLastRoutePolicy (sessionKey mainSessionKey : String) : LastRoutePolicy :=
  if sessionKey = mainSessionKey then .main else .session

/-- The route that `choose` makes. -/
def chooseRoute (cfg : RouteConfig) (lookup : AgentLookupCache) (scope : RouteScope)
    (agentId : String) (matchedBy : MatchedBy) (override : Option DmScope) : ResolvedAgentRoute :=
  let resolvedAgentId := pickFirstExistingAgentId lang lookup agentId
  let dmScope := override.getD (cfg.dmScope.getD .main)
  let sessionKey := buildAgentSessionKey lang cfg resolvedAgentId scope dmScope
  let mainSessionKey := normalizeLowercaseStringOrEmpty lang
    (some (buildAgentMainSessionKey lang resolvedAgentId cfg.mainKey))
  { agentId := resolvedAgentId
    channel := scope.channel
    accountId := scope.accountId
    dmScope
    sessionKey
    mainSessionKey
    lastRoutePolicy := deriveLastRoutePolicy sessionKey mainSessionKey
    matchedBy }

def routeOf (cfg : RouteConfig) (lookup : AgentLookupCache) (scope : RouteScope)
    (matched : Option (MatchedBy × EvaluatedBinding)) : ResolvedAgentRoute :=
  match matched with
  | some (matchedBy, binding) =>
    chooseRoute lang cfg lookup scope binding.agentId matchedBy binding.dmScope
  | none => chooseRoute lang cfg lookup scope (resolveDefaultAgentId lang cfg) .default none

/-! ## Tables -/

def formatRouteCachePeer (peer : Option RoutePeer) : String :=
  match peer with
  | none => "-"
  | some peer => if peer.id = "" then "-" else peer.kind.toString ++ ":" ++ peer.id

def formatRoleIdsCacheKey (roleIds : List String) : String :=
  match roleIds with
  | [] => "-"
  | [roleId] => roleId
  | [first, second] =>
    if JsString.codeUnits first ≤ JsString.codeUnits second then first ++ "," ++ second
    else second ++ "," ++ first
  | roleIds => String.intercalate "," (JsString.toSorted roleIds)

def DmScope.toString : DmScope → String
  | .main => "main"
  | .perPeer => "per-peer"
  | .perChannelPeer => "per-channel-peer"
  | .perAccountChannelPeer => "per-account-channel-peer"

def buildResolvedRouteCacheKey (scope : RouteScope) (dmScope : DmScope) : String :=
  String.intercalate "\t" [scope.channel, scope.accountId, formatRouteCachePeer scope.peer,
    formatRouteCachePeer scope.parentPeer, orElse scope.guildId "-", orElse scope.teamId "-",
    formatRoleIdsCacheKey scope.memberRoleIds, dmScope.toString]

structure EvaluatedBindingsCache where
  byChannel : AList fun _ : String => EvaluatedBindingsByChannel
  byChannelAccount : AList fun _ : String => List EvaluatedBinding
  byChannelAccountIndex : AList fun _ : String => EvaluatedBindingsIndex

/-- What the module keeps for the configuration. -/
structure RouteTables where
  evaluated : Option EvaluatedBindingsCache
  agents : Option AgentLookupCache
  byKey : AList fun _ : String => ResolvedAgentRoute

def emptyTables : RouteTables := ⟨none, none, ∅⟩

def MAX_EVALUATED_BINDINGS_CACHE_KEYS : Nat := 2000

def MAX_RESOLVED_ROUTE_CACHE_KEYS : Nat := 4000

def channelAccountKey (channel accountId : String) : String := channel ++ "\t" ++ accountId

/-- The bindings of a channel and account, without a table. -/
def bindingsOf (byChannel : AList fun _ : String => EvaluatedBindingsByChannel)
    (channel accountId : String) : List EvaluatedBinding :=
  let bucket := bucketOf byChannel channel
  mergeEvaluatedBindingsInSourceOrder ((bucket.byAccount.lookup accountId).getD [])
    bucket.byAnyAccount

/-- `getEvaluatedBindingsForChannelAccount`. -/
def getEvaluatedBindings (cfg : RouteConfig) (tables : RouteTables) (channel accountId : String) :
    EvaluatedBindingsCache × List EvaluatedBinding :=
  let cache := tables.evaluated.getD ⟨buildEvaluatedBindingsByChannel lang cfg, ∅, ∅⟩
  let cacheKey := channelAccountKey channel accountId
  match cache.byChannelAccount.lookup cacheKey with
  | some hit => (cache, hit)
  | none =>
    let evaluated := bindingsOf cache.byChannel channel accountId
    let index := buildEvaluatedBindingsIndex evaluated
    let filled := { cache with
      byChannelAccount := cache.byChannelAccount.insert cacheKey evaluated
      byChannelAccountIndex := cache.byChannelAccountIndex.insert cacheKey index }
    if MAX_EVALUATED_BINDINGS_CACHE_KEYS < filled.byChannelAccount.keys.length then
      ({ cache with
        byChannelAccount := AList.singleton cacheKey evaluated
        byChannelAccountIndex := AList.singleton cacheKey index }, evaluated)
    else (filled, evaluated)

/-- `getEvaluatedBindingIndexForChannelAccount`, after the bindings were looked up. -/
def getEvaluatedBindingIndex (cache : EvaluatedBindingsCache) (bindings : List EvaluatedBinding)
    (channel accountId : String) : EvaluatedBindingsCache × EvaluatedBindingsIndex :=
  let cacheKey := channelAccountKey channel accountId
  match cache.byChannelAccountIndex.lookup cacheKey with
  | some indexed => (cache, indexed)
  | none =>
    let built := buildEvaluatedBindingsIndex bindings
    ({ cache with byChannelAccountIndex := cache.byChannelAccountIndex.insert cacheKey built },
      built)

/-- A route is kept; a full table starts again. -/
def keepRoute (byKey : AList fun _ : String => ResolvedAgentRoute) (key : String)
    (route : ResolvedAgentRoute) : AList fun _ : String => ResolvedAgentRoute :=
  let kept := byKey.insert key route
  if MAX_RESOLVED_ROUTE_CACHE_KEYS < kept.keys.length then AList.singleton key route else kept

/-- The routes of this call are looked up and kept. -/
def usesRouteCache (cfg : RouteConfig) (input : ResolveAgentRouteInput) : Bool :=
  !input.verbose && cfg.identityLinks.isNone

/-- The key of a call in the table of routes. -/
def routeCacheKey (cfg : RouteConfig) (input : ResolveAgentRouteInput) : String :=
  buildResolvedRouteCacheKey (routeScope lang input) (cfg.dmScope.getD .main)

def resolveAgentRoute (cfg : RouteConfig) (tables : RouteTables) (input : ResolveAgentRouteInput) :
    RouteTables × ResolvedAgentRoute :=
  let scope := routeScope lang input
  let useCache := usesRouteCache cfg input
  let key := routeCacheKey lang cfg input
  match if useCache then tables.byKey.lookup key else none with
  | some cachedRoute => (tables, cachedRoute)
  | none =>
    let (cache, bindings) := getEvaluatedBindings lang cfg tables scope.channel scope.accountId
    let (cache, index) := getEvaluatedBindingIndex cache bindings scope.channel scope.accountId
    let lookup := tables.agents.getD (buildAgentLookup lang cfg)
    let route := routeOf lang cfg lookup scope (firstMatch scope (routeTiers index scope))
    ({ evaluated := some cache
       agents := some lookup
       byKey := if useCache then keepRoute tables.byKey key route else tables.byKey }, route)

/-- The answers to a list of calls. -/
def resolveAgentRoutes (cfg : RouteConfig) (tables : RouteTables) :
    List ResolveAgentRouteInput → List ResolvedAgentRoute
  | [] => []
  | input :: inputs =>
    let (tables, route) := resolveAgentRoute lang cfg tables input
    route :: resolveAgentRoutes cfg tables inputs

end OpenClaw.Routing
