import Mathlib.Data.Rat.Defs
import OpenClaw.AgentCore.Types

/-!
# `packages/agent-core/src/harness/types.ts` and `messages.ts`: transcript messages and session rows

Messages keep what compaction reads of them, rows of the session tree keep what storage and context
building read. Images are a block type without data. A row of a type that the code does not know
(JSONL transcripts may hold plugin rows) is `plugin`.

A persisted timestamp is read through `parseSessionTimestampMs` and a check for the empty string
only, so it is kept as what these make of it.
-/

namespace OpenClaw.Harness

open AgentCore

/-- A JavaScript number, as far as comparisons see it. -/
inductive JsNumber
  | nan
  | negInfinity
  | finite (q : Rat)
  | infinity

/-- `n >= limit`, for a count `n`. -/
def JsNumber.reachedBy (n : Nat) : JsNumber → Bool
  | nan | infinity => false
  | negInfinity => true
  | finite q => decide (q ≤ n)

/-! ## Timestamps -/

/-- A timestamp string, by what `parseSessionTimestampMs` makes of it. -/
inductive Timestamp
  | empty
  | malformed
  | valid (ms : Int)
  deriving DecidableEq, Repr

def Timestamp.parsed : Timestamp → Option Int
  | empty | malformed => none
  | valid ms => some ms

def parseSessionTimestampMs (value : Timestamp) : Option Int := value.parsed

def requireSessionTimestampMs (value : Timestamp) (label : String) : Except String Int :=
  match parseSessionTimestampMs value with
  | some ms => .ok ms
  | none => .error s!"{label} must be a valid timestamp"

theorem requireSessionTimestampMs_of_valid {value : Timestamp} (h : value.parsed ≠ none)
    (label : String) : ∃ ms, requireSessionTimestampMs value label = .ok ms := by
  obtain ⟨ms, hms⟩ := Option.ne_none_iff_exists'.mp h
  refine ⟨ms, ?_⟩
  rw [requireSessionTimestampMs, parseSessionTimestampMs, hms]

/-! ## Messages -/

/-- A block of a user message, a custom message or a tool result. `content` is kept when it is a
string. -/
structure UserBlock where
  type : String
  text : Option String := none
  content : Option String := none
  deriving DecidableEq, Repr

inductive MessageContent
  | text (text : String)
  | blocks (blocks : List UserBlock)
  deriving DecidableEq, Repr

/-- `Usage["contextUsage"]`. -/
inductive ContextUsage
  | available (totalTokens : Nat)
  | unavailable
  deriving DecidableEq, Repr

structure Usage where
  input : Nat
  output : Nat
  cacheRead : Nat
  cacheWrite : Nat
  totalTokens : Nat
  contextUsage : Option ContextUsage := none
  deriving DecidableEq, Repr

structure ModelRef where
  provider : String
  modelId : String
  deriving DecidableEq, Repr

structure BashExecutionMessage where
  command : String
  output : String
  exitCode : Option Int := none
  cancelled : Bool := false
  truncated : Bool := false
  fullOutputPath : Option String := none
  excludeFromContext : Bool := false
  deriving DecidableEq, Repr

/-- `HarnessMessage`, of which `AgentMessage` has the same roles. -/
inductive HarnessMessage
  | user (content : MessageContent)
  | assistant (message : AssistantMessage) (model : ModelRef) (usage : Option Usage)
  | toolResult (content : List UserBlock)
  | custom (customType : String) (content : MessageContent) (display : Bool)
    (details : Option Json) (timestamp : Int)
  | bashExecution (message : BashExecutionMessage)
  | branchSummary (summary fromId : String) (timestamp : Int)
  | compactionSummary (summary : String) (tokensBefore : Nat) (timestamp : Int)

def createBranchSummaryMessage (summary fromId : String) (timestamp : Timestamp) :
    Except String HarnessMessage := do
  let ms ← requireSessionTimestampMs timestamp "branch summary timestamp"
  pure (.branchSummary summary fromId ms)

def createCompactionSummaryMessage (summary : String) (tokensBefore : Nat)
    (timestamp : Timestamp) : Except String HarnessMessage := do
  let ms ← requireSessionTimestampMs timestamp "compaction summary timestamp"
  pure (.compactionSummary summary tokensBefore ms)

def createCustomMessage (customType : String) (content : MessageContent) (display : Bool)
    (details : Option Json) (timestamp : Timestamp) : Except String HarnessMessage := do
  let ms ← requireSessionTimestampMs timestamp "custom message timestamp"
  pure (.custom customType content display details ms)

/-! ## Rows of the session tree -/

/-- `CompactionDetails`, as read back from a persisted row: each field if it is an array. -/
structure CompactionDetails where
  readFiles : Option (List String)
  modifiedFiles : Option (List String)

/-- What a compaction row stores. -/
structure CompactionFields where
  summary : String
  firstKeptEntryId : String
  tokensBefore : Nat
  details : Option CompactionDetails := none
  fromHook : Bool := false

/-- The variants of `SessionTreeEntry`. An absent `appendParentId` of a leaf row is `none`, a null
one is `some none`. -/
inductive EntryBody
  | message (message : HarnessMessage)
  | thinkingLevelChange (thinkingLevel : String)
  | modelChange (model : ModelRef)
  | compaction (fields : CompactionFields)
  | branchSummary (fromId summary : String)
  | custom (customType : String)
  | customMessage (customType : String) (content : MessageContent) (display : Bool)
    (details : Option Json)
  | label (targetId : String) (label : Option String)
  | sessionInfo (name : Option String)
  | leaf (targetId : Option String) (appendParentId : Option (Option String))
  | plugin (type : String)

/-- `SessionTreeEntry`. `side` is `appendMode === "side"`. -/
structure SessionTreeEntry where
  id : String
  parentId : Option String
  timestamp : Timestamp
  side : Bool := false
  body : EntryBody

/-- `CompactionEntry`: a compaction row, apart from its place in the tree. -/
structure CompactionEntry where
  id : String
  timestamp : Timestamp
  fields : CompactionFields

/-- The row as a compaction row, if it is one. -/
def SessionTreeEntry.compaction? (entry : SessionTreeEntry) : Option CompactionEntry :=
  match entry.body with
  | .compaction fields => some ⟨entry.id, entry.timestamp, fields⟩
  | _ => none

/-- The row is one that context building turns into a message. -/
def SessionTreeEntry.carriesMessage (entry : SessionTreeEntry) : Bool :=
  match entry.body with
  | .message _ | .customMessage .. | .branchSummary .. => true
  | _ => false

end OpenClaw.Harness
