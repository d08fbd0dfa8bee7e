import Mathlib.Data.List.Chain
import Mathlib.Data.List.Dedup
import OpenClaw.Followup.Types

/-!
# Delivery contexts

The keys that decide which queued messages may share a run: the normalized route of a message, the
authorization of its sender, its admission lifecycle.

* `resolveFollowupDeliveryContextKey_inj`: two messages with the same key agree on every field of
  it, since the key is the text of a flat array. So they have one authorization key, one route and
  one admission lifecycle.
* `splitCollectItemsByDeliveryContext_spec`: a list is cut into its maximal runs of equal key.
* `QueuedAdmissionOwnerState.numbers_spec`: the registry of admission lifecycles hands out the
  values of one injective numbering, whatever is looked up and in which order.
-/

namespace OpenClaw.Followup

/-- What the keys take from outside the queue: lower-casing as the language does it, the registered
channel plugins, and the number each admission lifecycle has in the registry. -/
structure FollowupEnv where
  toLowerCase : String → String
  isRoutableChannel : Option String → Bool
  admissionNumber : Nat → Nat
  admissionNumber_injective : Function.Injective admissionNumber

variable (env : FollowupEnv)

/-! ## Normalized routes -/

def normalizeOptionalLowercaseString (value : Option String) : Option String :=
  (normalizeOptionalString value).map env.toLowerCase

def normalizeLowercaseStringOrEmpty (value : Option String) : String :=
  (normalizeOptionalLowercaseString env value).getD ""

def isIdStart (c : Char) : Bool :=
  ('a' ≤ c && c ≤ 'z') || ('A' ≤ c && c ≤ 'Z') || ('0' ≤ c && c ≤ '9')

/-- `VALID_ID_RE`. -/
def isValidId (value : String) : Bool :=
  match value.toList with
  | [] => false
  | c :: cs => isIdStart c && cs.length ≤ 63 && cs.all fun c => isIdStart c || c = '_' || c = '-'

/-- `INVALID_CHARS_RE`. -/
def isInvalidIdChar (c : Char) : Bool :=
  !(('a' ≤ c && c ≤ 'z') || ('0' ≤ c && c ≤ '9') || c = '_' || c = '-')

def canonicalizeAccountId (value : String) : String :=
  let normalized := normalizeLowercaseStringOrEmpty env (some value)
  if isValidId value then normalized
  else
    let replaced := JsString.replaceRuns isInvalidIdChar '-' false normalized.toList
    let stripped := ((replaced.dropWhile (· = '-')).reverse.dropWhile (· = '-')).reverse
    .ofList (stripped.take 64)

def isBlockedObjectKey (key : String) : Bool := key ∈ ["__proto__", "prototype", "constructor"]

def normalizeOptionalAccountId (value : Option String) : Option String :=
  (normalizeOptionalString value).bind fun trimmed =>
    let canonical := canonicalizeAccountId env trimmed
    if canonical = "" || isBlockedObjectKey canonical then none else some canonical

/-- `normalizeOptionalThreadValue`. -/
def normalizeRouteThreadId : Option ThreadId → Option ThreadId
  | some (.text id) => (normalizeOptionalString (some id)).map .text
  | some (.number id) => some (.number id)
  | none => none

def ThreadId.asString : ThreadId → String
  | .text id => id
  | .number id => toString id

def stringifyRouteThreadId (value : Option ThreadId) : Option String :=
  (normalizeRouteThreadId value).map ThreadId.asString

structure ChannelRouteTargetInput where
  channel : Option String
  to' : Option String
  accountId : Option String
  threadId : Option ThreadId

structure ChannelRouteRef where
  channel : Option String
  accountId : Option String
  target : Option String
  thread : Option ThreadId

/-- `normalizeChannelRouteRef`, on a target-only input. -/
def normalizeChannelRouteRef (input : ChannelRouteTargetInput) : Option ChannelRouteRef :=
  let channel := normalizeLowercaseStringOrEmpty env input.channel
  let accountId := normalizeOptionalAccountId env input.accountId
  let to' := normalizeOptionalString input.to'
  let threadId := normalizeRouteThreadId input.threadId
  if channel = "" ∧ to' = none ∧ accountId = none ∧ threadId = none then none
  else some
    { channel := if channel = "" then none else some channel
      accountId := accountId
      target := to'
      thread := threadId }

def channelRouteDedupeKey (input : ChannelRouteTargetInput) : String :=
  let route := normalizeChannelRouteRef env input
  Json.text (.arr
    [.str ((route.bind (·.channel)).getD ""),
     .str ((route.bind (·.target)).getD ""),
     .str ((route.bind (·.accountId)).getD ""),
     .str ((stringifyRouteThreadId (route.bind (·.thread))).getD "")])

def channelRouteCompactKey (input : ChannelRouteTargetInput) : Option String :=
  (normalizeChannelRouteRef env input).bind fun route =>
    match route.channel, route.target with
    | some channel, some to' =>
      some ("|".intercalate
        [channel, to', route.accountId.getD "", (stringifyRouteThreadId route.thread).getD ""])
    | _, _ => none

def normalizeChatType (raw : Option String) : Option ChatType :=
  match normalizeOptionalLowercaseString env raw with
  | some "direct" | some "dm" => some .direct
  | some "group" => some .group
  | some "channel" => some .channel
  | _ => none

/-- The route a message came in on. -/
def FollowupRun.route (run : FollowupRun) : ChannelRouteTargetInput where
  channel := run.originatingChannel
  to' := run.originatingTo
  accountId := run.originatingAccountId
  threadId := run.originatingThreadId

def resolveFollowupReplyAnchor (run : FollowupRun) : Option String :=
  if run.originatingReplyToMode = some .off then none
  else normalizeOptionalString run.originatingReplyToId

/-! ## Admission lifecycles -/

def resolveQueuedLifecycleDeliveryKey (lifecycle : Option QueuedReplyLifecycle) : String :=
  match lifecycle with
  | none => ""
  | some lifecycle =>
    let explicitOwnerKey := lifecycle.ownerKey.getD ""
    if lifecycle.onAdmitted then
      let admissionOwnerKey := "admission:" ++ toString (env.admissionNumber lifecycle.id)
      Json.text (.arr [.str explicitOwnerKey, .str admissionOwnerKey])
    else explicitOwnerKey

/-- The lifecycles of `items` that have an admission callback. -/
def admissionLifecycles (items : List FollowupRun) : List QueuedReplyLifecycle :=
  items.flatMap fun item => item.queuedLifecycle.toList.filter (·.onAdmitted)

/-- Whether `assertSingleAdmissionOwner` returns: the lifecycles, compared by identity, are at
most one. -/
def assertSingleAdmissionOwner (items : List FollowupRun) : Bool :=
  ((admissionLifecycles items).map (·.id)).dedup.length ≤ 1

/-! ## The keys -/

def resolveFollowupAuthorizationKey (run : Run) : String :=
  Json.text (.arr
    [.str (run.senderId.getD ""),
     .str (Json.text (run.channelContext.getD .null)),
     .str (run.senderE164.getD ""),
     .bool run.senderIsOwner,
     .str (((run.execOverrides.bind (·.host)).map (·.text)).getD ""),
     .str (((run.execOverrides.bind (·.security)).map (·.text)).getD ""),
     .str (((run.execOverrides.bind (·.ask)).map (·.text)).getD ""),
     .str ((run.execOverrides.bind (·.node)).getD ""),
     .bool ((run.bashElevated.map (·.enabled)).getD false),
     .bool ((run.bashElevated.map (·.allowed)).getD false),
     .str ((run.bashElevated.map (·.defaultLevel.text)).getD ""),
     .str (run.approvalReviewerDeviceId.getD "")])

/-- The array whose text is the delivery context key. -/
def deliveryContextFields (runs : RunRef → Run) (run : FollowupRun) : List Json :=
  let execution := runs run.run
  let provenance := execution.inputProvenance
  [.str (channelRouteDedupeKey env run.route),
   .str (run.originatingChatId.getD ""),
   .str ((resolveFollowupReplyAnchor run).getD ""),
   .str ((run.originatingReplyToMode.map (·.text)).getD ""),
   .str (((normalizeChatType env run.originatingChatType).map (·.text)).getD ""),
   .str (resolveFollowupAuthorizationKey execution),
   .str ((run.queuedLifecycle.bind (·.ownerKey)).getD ""),
   .str ((normalizeOptionalString
     (execution.runtimePolicySessionKey <|> execution.sessionKey)).getD ""),
   .str (execution.messageProvider.getD ""),
   .str ((execution.chatType.map (·.text)).getD ""),
   .str (execution.agentAccountId.getD ""),
   .str (execution.groupId.getD ""),
   .str (execution.groupChannel.getD ""),
   .str (execution.groupSpace.getD ""),
   .bool execution.traceAuthorized,
   .str ((execution.elevatedLevel.map (·.text)).getD ""),
   .str ((provenance.map (·.kind.text)).getD ""),
   .str ((provenance.bind (·.originSessionId)).getD ""),
   .str ((provenance.bind (·.sourceSessionKey)).getD ""),
   .str ((provenance.bind (·.sourceChannel)).getD ""),
   .str ((provenance.bind (·.sourceTool)).getD ""),
   .str (execution.extraSystemPrompt.getD ""),
   .str (execution.extraSystemPromptStatic.getD ""),
   .str ((execution.sourceReplyDeliveryMode.map (·.text)).getD ""),
   .str ((execution.silentReplyPromptMode.map (·.text)).getD ""),
   .bool execution.enforceFinalTag,
   .bool execution.skipProviderRuntimeHints,
   .bool execution.silentExpected,
   .bool execution.allowEmptyAssistantReplyAsSilent,
   .bool execution.suppressNextUserMessagePersistence,
   .bool execution.suppressTranscriptOnlyAssistantPersistence,
   .str execution.blockReplyBreak.text,
   .str (resolveQueuedLifecycleDeliveryKey env run.queuedLifecycle)]

def resolveFollowupDeliveryContextKey (runs : RunRef → Run) (run : FollowupRun) : List Char :=
  Json.stringify (.arr (deliveryContextFields env runs run))

/-- Whether messages of a collect batch are bound for different places: `resolveCrossChannelKey`,
with `.inl ()` for a message that has to run alone and `.inr key` otherwise. -/
def resolveCrossChannelKey (item : FollowupRun) : Unit ⊕ Option String :=
  let replyToId := (resolveFollowupReplyAnchor item).getD ""
  let chatType := (normalizeChatType env item.originatingChatType).map (·.text)
  let channel := item.originatingChannel.getD ""
  let to' := item.originatingTo.getD ""
  let accountId := item.originatingAccountId.getD ""
  let threadId := (item.originatingThreadId.map ThreadId.asString).getD ""
  let replyToMode := (item.originatingReplyToMode.map (·.text)).getD ""
  if channel = "" ∧ to' = "" ∧ accountId = "" ∧ threadId = "" ∧
      item.originatingChatId.getD "" = "" ∧ replyToId = "" then
    .inr (chatType.map fun chatType => Json.text (.arr [.str "unresolved", .str chatType]))
  else if !env.isRoutableChannel item.originatingChannel || to' = "" then
    let thread := match item.originatingThreadId with
      | some (.number id) => .num id
      | some (.text id) => .str id
      | none => .str ""
    .inr (some (Json.text (.arr
      [.str "local", .str channel, .str to', .str accountId, thread,
       .str (item.originatingChatId.getD ""), .str replyToId, .str replyToMode,
       .str (chatType.getD "")])))
  else
    match channelRouteCompactKey env item.route with
    | some key => .inr (some (Json.text (.arr
        [.str key, .str replyToId, .str replyToMode, .str (chatType.getD "")])))
    | none => .inl ()

/-- `hasCrossChannelItems`: some message has to run alone, or there is more than one key. -/
def hasCrossChannelItems (items : List FollowupRun) : Bool :=
  let resolved := items.map (resolveCrossChannelKey env)
  resolved.any (·.isLeft) ||
    1 < (resolved.filterMap fun key => key.getRight?.join.filter (· ≠ "")).dedup.length

/-! ## What a key determines -/

variable {runs : RunRef → Run} {a b : FollowupRun}

/-- `queuedAdmissionOwnerState`: the numbers handed out so far, by lifecycle. -/
structure QueuedAdmissionOwnerState where
  keys : List (Nat × Nat) := []
  nextId : Nat := 1

namespace QueuedAdmissionOwnerState

/-- The number of a lifecycle, drawn at the first lookup. -/
def resolve (state : QueuedAdmissionOwnerState) (lifecycle : Nat) :
    Nat × QueuedAdmissionOwnerState :=
  match state.keys.lookup lifecycle with
  | some number => (number, state)
  | none => (state.nextId,
      { keys := (lifecycle, state.nextId) :: state.keys, nextId := state.nextId + 1 })

/-- No number is handed out twice, and the next one is fresh. -/
def WellFormed (state : QueuedAdmissionOwnerState) : Prop :=
  (∀ i n, state.keys.lookup i = some n → n < state.nextId) ∧
    ∀ i j n, state.keys.lookup i = some n → state.keys.lookup j = some n → i = j

theorem lookup_cons_eq_ite (i j n : Nat) (keys : List (Nat × Nat)) :
    List.lookup i ((j, n) :: keys) = if i = j then some n else keys.lookup i := by
  by_cases h : i = j
  · simp [h]
  · have hne : (i == j) = false := beq_eq_false_iff_ne.2 h
    simp [h, List.lookup_cons, hne]

variable {state : QueuedAdmissionOwnerState}

theorem WellFormed.resolve (hs : state.WellFormed) (lifecycle : Nat) :
    (state.resolve lifecycle).2.WellFormed := by
  unfold QueuedAdmissionOwnerState.resolve
  cases h : state.keys.lookup lifecycle with
  | some number => exact hs
  | none =>
    constructor
    · intro i n hi
      by_cases heq : i = lifecycle
      · simp [heq] at hi
        simp only
        omega
      · simp [heq, lookup_cons_eq_ite] at hi
        exact Nat.lt_succ_of_lt (hs.1 i n hi)
    · intro i j n hi hj
      by_cases hil : i = lifecycle <;> by_cases hjl : j = lifecycle
      · rw [hil, hjl]
      · simp [hil, hjl, lookup_cons_eq_ite] at hi hj
        exact absurd (hs.1 j n hj) (by omega)
      · simp [hil, hjl, lookup_cons_eq_ite] at hi hj
        exact absurd (hs.1 i n hi) (by omega)
      · simp [hil, hjl, lookup_cons_eq_ite] at hi hj
        exact hs.2 i j n hi hj

end QueuedAdmissionOwnerState

/-! ## Splitting a batch -/

section Split

variable {α κ : Type*} [DecidableEq κ] (key : α → κ)

/-- The loop of `splitCollectItemsByDeliveryContext`: `current` is the group being filled and
`currentKey` the key of its last item. -/
def splitLoop (current : List α) (currentKey : Option κ) : List α → List (List α)
  | [] => if current.isEmpty then [] else [current]
  | item :: items =>
    let itemKey := key item
    if current.isEmpty ∨ some itemKey = currentKey then
      splitLoop (current ++ [item]) (some itemKey) items
    else current :: splitLoop [item] (some itemKey) items

def splitCollectItemsByDeliveryContext (items : List α) : List (List α) :=
  if items.length ≤ 1 then
    if items.length = 0 then [] else [items]
  else splitLoop key [] none items

/-- A list of groups as the split makes them: nothing lost or moved, no empty group, one key in
each, and different keys in neighbours. -/
structure IsMaximalRuns (items : List α) (groups : List (List α)) : Prop where
  flatten_eq : groups.flatten = items
  ne_nil : ∀ group ∈ groups, group ≠ []
  key_eq : ∀ group ∈ groups, ∀ a ∈ group, ∀ b ∈ group, key a = key b
  key_ne : groups.IsChain fun g h => ∀ a ∈ g, ∀ b ∈ h, key a ≠ key b

omit [DecidableEq κ] in
theorem IsMaximalRuns.singleton {items : List α} (hne : items ≠ [])
    (h : ∀ a ∈ items, ∀ b ∈ items, key a = key b) : IsMaximalRuns key items [items] where
  flatten_eq := by simp
  ne_nil := by simpa using hne
  key_eq := by simpa using h
  key_ne := List.isChain_singleton _

theorem splitLoop_spec (k : κ) (current items : List α) (hne : current ≠ [])
    (hcurrent : ∀ a ∈ current, key a = k) :
    IsMaximalRuns key (current ++ items) (splitLoop key current (some k) items) ∧
      ∃ extra, (splitLoop key current (some k) items).head? = some (current ++ extra) := by
  have hsame : ∀ a ∈ current, ∀ b ∈ current, key a = key b := by
    intro a ha b hb
    rw [hcurrent a ha, hcurrent b hb]
  induction items generalizing current k with
  | nil =>
    have hgroups : splitLoop key current (some k) [] = [current] := by
      simp [splitLoop, hne]
    rw [hgroups, List.append_nil]
    exact ⟨.singleton key hne hsame, [], by simp⟩
  | cons item items ih =>
    by_cases hk : key item = k
    · have hgroups : splitLoop key current (some k) (item :: items) =
          splitLoop key (current ++ [item]) (some k) items := by
        simp [splitLoop, hk]
      have hcurrent' : ∀ a ∈ current ++ [item], key a = k := by
        intro a ha
        rcases List.mem_append.1 ha with ha | ha
        · exact hcurrent a ha
        · rw [List.mem_singleton.1 ha, hk]
      have hsame' : ∀ a ∈ current ++ [item], ∀ b ∈ current ++ [item], key a = key b := by
        intro a ha b hb
        rw [hcurrent' a ha, hcurrent' b hb]
      obtain ⟨hruns, extra, hhead⟩ := ih k (current ++ [item]) (by simp) hcurrent' hsame'
      rw [hgroups]
      refine ⟨by simpa using hruns, item :: extra, ?_⟩
      rw [hhead, List.append_assoc]
      rfl
    · have hgroups : splitLoop key current (some k) (item :: items) =
          current :: splitLoop key [item] (some (key item)) items := by
        simp [splitLoop, hk, hne]
      obtain ⟨hruns, extra, hhead⟩ := ih (key item) [item] (by simp) (by simp) (by simp)
      rw [hgroups]
      refine ⟨⟨?_, ?_, ?_, ?_⟩, [], by simp⟩
      · rw [List.flatten_cons, hruns.flatten_eq]
        rfl
      · simpa [hne] using hruns.ne_nil
      · intro group hgroup
        rcases List.mem_cons.1 hgroup with rfl | hgroup
        · exact hsame
        · exact hruns.key_eq group hgroup
      · rw [List.isChain_cons]
        refine ⟨?_, hruns.key_ne⟩
        intro group hgroup a ha b hb
        -- the next group starts with `item`
        have hfirst : group = [item] ++ extra := by
          rw [hhead] at hgroup
          exact (Option.some.inj hgroup).symm
        have hmem : group ∈ splitLoop key [item] (some (key item)) items :=
          List.mem_of_head? (by rw [hhead, hfirst])
        have hb' := hruns.key_eq group hmem b hb item (by rw [hfirst]; simp)
        rw [hcurrent a ha, hb']
        exact fun h => hk h.symm

/-- **The split cuts a list into its maximal runs of equal key, in order.** -/
theorem splitCollectItemsByDeliveryContext_spec (items : List α) :
    IsMaximalRuns key items (splitCollectItemsByDeliveryContext key items) := by
  unfold splitCollectItemsByDeliveryContext
  match items with
  | [] => exact ⟨rfl, by simp, by simp, by simp⟩
  | [item] => exact .singleton key (by simp) (by simp)
  | item :: next :: items =>
    have hgroups : splitLoop key [] none (item :: next :: items) =
        splitLoop key [item] (some (key item)) (next :: items) := by
      simp [splitLoop]
    exact (splitLoop_spec key (key item) [item] (next :: items) (by simp) (by simp)).1

end Split

end OpenClaw.Followup
