import OpenClaw.Followup.ContextKey
import Mathlib.Data.List.Infix

/-!
# `routing/session-key.ts` and `routing/account-id.ts`

The keys of main sessions and of conversations with a peer. The memo tables of `normalizeAccountId`
are left out: they hold what the function returns. Lower-casing is the language's own.
-/

namespace OpenClaw.Routing

open Followup (isValidId isInvalidIdChar isBlockedObjectKey)

/-- `String.prototype.toLowerCase`: it keeps a text nonempty, and an ASCII character that is no
letter comes from the text itself. -/
structure Lowercasing where
  toLowerCase : String → String
  ne_empty : ∀ s, s ≠ "" → toLowerCase s ≠ ""
  ascii : ∀ s c, c ∈ (toLowerCase s).toList → c.toNat < 0x80 → c.isAlpha = false → c ∈ s.toList

inductive ChatType
  | direct
  | group
  | channel
  deriving DecidableEq

def ChatType.toString : ChatType → String
  | .direct => "direct"
  | .group => "group"
  | .channel => "channel"

inductive DmScope
  | main
  | perPeer
  | perChannelPeer
  | perAccountChannelPeer
  deriving DecidableEq

variable (lang : Lowercasing)

def normalizeLowercaseStringOrEmpty (value : Option String) : String :=
  ((normalizeOptionalString value).map lang.toLowerCase).getD ""

/-- `value || fallback` on a string. -/
def orElse (value fallback : String) : String := if value = "" then fallback else value

def DEFAULT_AGENT_ID : String := "main"

def DEFAULT_MAIN_KEY : String := "main"

def DEFAULT_ACCOUNT_ID : String := "default"

/-- The ids of agents and accounts: as they are but for case, or with the other characters
replaced, dashes at the ends dropped and cut at 64. -/
def canonicalizeId (trimmed : String) : String :=
  let normalized := normalizeLowercaseStringOrEmpty lang (some trimmed)
  if isValidId trimmed then normalized
  else
    let replaced := JsString.replaceRuns isInvalidIdChar '-' false normalized.toList
    let stripped := ((replaced.dropWhile (· = '-')).reverse.dropWhile (· = '-')).reverse
    .ofList (stripped.take 64)

def normalizeAgentId (value : Option String) : String :=
  let trimmed := JsString.trim (value.getD "")
  if trimmed = "" then DEFAULT_AGENT_ID
  else orElse (canonicalizeId lang trimmed) DEFAULT_AGENT_ID

def normalizeCanonicalAccountId (value : String) : Option String :=
  let canonical := canonicalizeId lang value
  if canonical = "" || isBlockedObjectKey canonical then none else some canonical

def normalizeAccountId (value : Option String) : String :=
  let trimmed := JsString.trim (value.getD "")
  if trimmed = "" then DEFAULT_ACCOUNT_ID
  else (normalizeCanonicalAccountId lang trimmed).getD DEFAULT_ACCOUNT_ID

def normalizeMainKey (value : Option String) : String :=
  orElse (normalizeLowercaseStringOrEmpty lang value) DEFAULT_MAIN_KEY

/-- `CASE_PRESERVING_PEERS`, by channel. -/
def casePreservingPeers : List (String × List String) :=
  [("signal", ["group"]), ("matrix", ["channel", "group"])]

def isCasePreservingPeer (channel peerKind : Option String) : Bool :=
  let c := normalizeLowercaseStringOrEmpty lang channel
  let k := normalizeLowercaseStringOrEmpty lang peerKind
  casePreservingPeers.any fun descriptor => descriptor.1 == c && descriptor.2.contains k

def normalizeSessionPeerId (channel peerKind peerId : Option String) : String :=
  let peerId := JsString.trim (peerId.getD "")
  if peerId = "" then ""
  else if isCasePreservingPeer lang channel peerKind then peerId
  else normalizeLowercaseStringOrEmpty lang (some peerId)

def resolveLinkedPeerId (identityLinks : Option (List (String × List String)))
    (channel peerId : String) : Option String :=
  match identityLinks with
  | none => none
  | some links =>
    let peerId := JsString.trim peerId
    let channel := normalizeLowercaseStringOrEmpty lang (some channel)
    let scopedCandidate := normalizeLowercaseStringOrEmpty lang (some (channel ++ ":" ++ peerId))
    let candidates := (normalizeLowercaseStringOrEmpty lang (some peerId) ::
      if channel = "" then [] else [scopedCandidate]).filter (· ≠ "")
    let matchesCandidate (id : String) : Bool :=
      candidates.contains (normalizeLowercaseStringOrEmpty lang (some id))
    if peerId = "" then none
    else
      ((links.filter fun link => JsString.trim link.1 ≠ "").find? fun link =>
        link.2.any matchesCandidate).map fun link => JsString.trim link.1

/-- The fields of a session key after `agent`. -/
def sessionKey (fields : List String) : String := String.intercalate ":" ("agent" :: fields)

def buildAgentMainSessionKey (agentId : String) (mainKey : Option String) : String :=
  sessionKey [normalizeAgentId lang (some agentId), normalizeMainKey lang mainKey]

/-- The parameters of `buildAgentPeerSessionKey`. -/
structure PeerSession where
  agentId : String
  mainKey : Option String
  channel : String
  accountId : Option String
  peerKind : Option ChatType
  peerId : Option String
  identityLinks : Option (List (String × List String))
  dmScope : Option DmScope

namespace PeerSession

def kind (params : PeerSession) : ChatType := params.peerKind.getD .direct

def agent (params : PeerSession) : String := normalizeAgentId lang (some params.agentId)

def normalizedChannel (params : PeerSession) : String :=
  orElse (normalizeLowercaseStringOrEmpty lang (some params.channel)) "unknown"

def account (params : PeerSession) : String := normalizeAccountId lang params.accountId

/-- The peer of a direct message, unless links name another. -/
def directPeerId (params : PeerSession) (dmScope : DmScope) : String :=
  let peerId := JsString.trim (params.peerId.getD "")
  let linkedPeerId := if dmScope = .main then none
    else resolveLinkedPeerId lang params.identityLinks params.channel peerId
  normalizeLowercaseStringOrEmpty lang (some (linkedPeerId.getD peerId))

def groupPeerId (params : PeerSession) : String :=
  orElse (normalizeSessionPeerId lang (some params.channel) (some params.kind.toString)
    params.peerId) "unknown"

def buildAgentPeerSessionKey (params : PeerSession) : String :=
  if params.kind = .direct then
    let dmScope := params.dmScope.getD .main
    let peerId := params.directPeerId lang dmScope
    if dmScope = .perAccountChannelPeer ∧ peerId ≠ "" then
      sessionKey [params.agent lang, params.normalizedChannel lang, params.account lang, "direct",
        peerId]
    else if dmScope = .perChannelPeer ∧ peerId ≠ "" then
      sessionKey [params.agent lang, params.normalizedChannel lang, "direct", peerId]
    else if dmScope = .perPeer ∧ peerId ≠ "" then
      sessionKey [params.agent lang, "direct", peerId]
    else buildAgentMainSessionKey lang params.agentId params.mainKey
  else
    sessionKey [params.agent lang, params.normalizedChannel lang, params.kind.toString,
      params.groupPeerId lang]

end PeerSession

end OpenClaw.Routing
