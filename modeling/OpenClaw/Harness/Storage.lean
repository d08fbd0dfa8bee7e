import Mathlib.Logic.Function.Basic
import OpenClaw.Harness.Types
import OpenClaw.Harness.Uuid

/-!
# `session/storage-base.ts` and `session/jsonl-storage.ts`: the session tree and its file

A storage keeps its rows and what it derives from them: an index by id, the labels, the logical
parents, the visible leaf and the parent of the next append. A `Map` is a function to an option. The
file of a JSONL storage is the list of its entry rows; a row is written and parsed back as it is,
since the fields kept of it are strings, nulls and absent fields.

`getPathToRoot` follows parents until it finds none, an unknown one or one it has seen. Each turn of
the loop sees a new row, so `entries.length + 1` turns are enough (`walkToRoot_fuel`).
-/

namespace OpenClaw.Harness

structure SessionError where
  code : String
  message : String
  deriving DecidableEq, Repr

/-! ## Rows -/

/-- `leafIdUpdateAfterEntry`, with `none` for undefined. -/
def leafIdUpdateAfterEntry (entry : SessionTreeEntry) : Option (Option String) :=
  match entry.body with
  | .leaf targetId _ => some targetId
  | .plugin _ => none
  | _ => if entry.side then none else some (some entry.id)

def appendParentIdAfterEntry (entry : SessionTreeEntry) : Option String :=
  match entry.body with
  | .leaf targetId none => targetId
  | .leaf _ (some appendParentId) => appendParentId
  | _ => some entry.id

def SessionTreeEntry.isLeaf (entry : SessionTreeEntry) : Bool :=
  match entry.body with
  | .leaf .. => true
  | _ => false

/-! ## The folds of the constructor -/

def updateLabelCache (labelsById : String → Option String) (entry : SessionTreeEntry) :
    String → Option String :=
  match entry.body with
  | .label targetId label =>
    let label := (label.map JsString.trim).filter fun text => text ≠ ""
    Function.update labelsById targetId label
  | _ => labelsById

def buildLabelsById (entries : List SessionTreeEntry) : String → Option String :=
  entries.foldl updateLabelCache fun _ => none

def resolveLeafId (entries : List SessionTreeEntry) : Option String :=
  entries.foldl (fun leafId entry => (leafIdUpdateAfterEntry entry).getD leafId) none

def resolveAppendParentId (entries : List SessionTreeEntry) : Option String :=
  entries.foldl (fun _ entry => appendParentIdAfterEntry entry) none

/-- The row is on the raw append cursor, which is not the visible leaf, and becomes the leaf. -/
def overridesParent (leafId appendParentId : Option String) (entry : SessionTreeEntry) : Bool :=
  decide (leafIdUpdateAfterEntry entry = some (some entry.id)) && !entry.side &&
    decide (entry.parentId = appendParentId) && decide (leafId ≠ appendParentId)

/-- The variables of the loop of `buildLogicalParentsById`. -/
structure LogicalParents where
  logicalParentsById : String → Option (Option String) := fun _ => none
  leafId : Option String := none
  appendParentId : Option String := none

def LogicalParents.step (s : LogicalParents) (entry : SessionTreeEntry) : LogicalParents where
  logicalParentsById :=
    if overridesParent s.leafId s.appendParentId entry then
      Function.update s.logicalParentsById entry.id (some s.leafId)
    else s.logicalParentsById
  leafId := (leafIdUpdateAfterEntry entry).getD s.leafId
  appendParentId := appendParentIdAfterEntry entry

def buildLogicalParentsById (entries : List SessionTreeEntry) : String → Option (Option String) :=
  (entries.foldl LogicalParents.step {}).logicalParentsById

/-- `new Map(entries.map((entry) => [entry.id, entry]))`. -/
def indexById (entries : List SessionTreeEntry) : String → Option SessionTreeEntry :=
  entries.foldl (fun byId entry => Function.update byId entry.id (some entry)) fun _ => none

/-! ## The storage -/

/-- `BaseSessionStorage`. -/
structure SessionStorage where
  entries : List SessionTreeEntry
  byId : String → Option SessionTreeEntry
  labelsById : String → Option String
  logicalParentsById : String → Option (Option String)
  leafId : Option String
  appendParentId : Option String

def SessionStorage.has (s : SessionStorage) (id : String) : Bool := (s.byId id).isSome

/-- The checks that an id, if there is one, is that of a row. -/
def SessionStorage.requireKnown (s : SessionStorage) (code label : String) (id : Option String) :
    Except SessionError Unit :=
  match id.filter fun target => !s.has target with
  | some target => .error ⟨code, s!"{label} {target} not found"⟩
  | none => .ok ()

/-- The fields that the constructor of `BaseSessionStorage` derives from the rows. -/
def SessionStorage.ofRows (entries : List SessionTreeEntry) (leafId appendParentId : Option String) :
    SessionStorage :=
  ⟨entries, indexById entries, buildLabelsById entries, buildLogicalParentsById entries, leafId,
    appendParentId⟩

/-- The constructor of `BaseSessionStorage`. -/
def SessionStorage.construct (entries : List SessionTreeEntry)
    (leafId appendParentId : Option String) : Except SessionError SessionStorage := do
  let s := SessionStorage.ofRows entries leafId appendParentId
  s.requireKnown "invalid_session" "Entry" leafId
  s.requireKnown "invalid_session" "Append parent" appendParentId
  pure s

def SessionStorage.getLeafId (s : SessionStorage) : Except SessionError (Option String) := do
  s.requireKnown "invalid_session" "Entry" s.leafId
  pure s.leafId

def SessionStorage.getAppendParentId (s : SessionStorage) :
    Except SessionError (Option String) := do
  s.requireKnown "invalid_session" "Append parent" s.appendParentId
  pure s.appendParentId

/-- The tries of `generateEntryId` that are left, and then the whole uuid. -/
def generateEntryIdFrom (has : String → Bool) (input : Nat → UuidInput) (i : Nat) :
    Nat → UuidState → String × UuidState
  | 0, state => uuidv7 state (input i)
  | tries + 1, state =>
    let (uuid, state) := uuidv7 state (input i)
    let id := JsString.slice uuid 8
    if has id then generateEntryIdFrom has input (i + 1) tries state else (id, state)

/-- `generateEntryId`. The inputs are those of the calls of `uuidv7`. -/
def generateEntryId (has : String → Bool) (input : Nat → UuidInput) (state : UuidState) :
    String × UuidState :=
  generateEntryIdFrom has input 0 100 state

/-- What one call reads from outside: the clock, the uuid generator and its inputs. -/
structure AppendInput where
  timestamp : Int
  uuid : UuidState
  input : Nat → UuidInput

@[irreducible]
def SessionStorage.createEntryId (s : SessionStorage) (call : AppendInput) : String :=
  (generateEntryId s.has call.input call.uuid).1

def SessionStorage.createLeafEntry (s : SessionStorage) (call : AppendInput)
    (leafId : Option String) : Except SessionError SessionTreeEntry := do
  s.requireKnown "not_found" "Entry" leafId
  pure ⟨s.createEntryId call, s.appendParentId, .valid call.timestamp, false, .leaf leafId none⟩

/-- `validateEntryForAppend`. A row that is not a leaf row moves the cursors to itself at most. -/
def SessionStorage.validateEntryForAppend (s : SessionStorage) (entry : SessionTreeEntry) :
    Except SessionError Unit :=
  if entry.isLeaf then do
    s.requireKnown "not_found" "Entry" ((leafIdUpdateAfterEntry entry).getD none)
    s.requireKnown "not_found" "Append parent" (appendParentIdAfterEntry entry)
  else .ok ()

/-- `recordEntry`, after validation. -/
def SessionStorage.record (s : SessionStorage) (entry : SessionTreeEntry) : SessionStorage where
  entries := s.entries ++ [entry]
  byId := Function.update s.byId entry.id (some entry)
  labelsById := updateLabelCache s.labelsById entry
  logicalParentsById :=
    if overridesParent s.leafId s.appendParentId entry then
      Function.update s.logicalParentsById entry.id (some s.leafId)
    else s.logicalParentsById
  leafId := (leafIdUpdateAfterEntry entry).getD s.leafId
  appendParentId := appendParentIdAfterEntry entry

def SessionStorage.recordEntry (s : SessionStorage) (entry : SessionTreeEntry) :
    Except SessionError SessionStorage := do
  s.validateEntryForAppend entry
  pure (s.record entry)

/-! ## The path to the root -/

/-- The next id `getPathToRoot` looks up. Leaf rows are passed through to their target, and an empty
id ends the path as a null one does. -/
def SessionStorage.parentIdOf (s : SessionStorage) (current : SessionTreeEntry) : Option String :=
  let parentId := match current.body with
    | .leaf targetId _ => targetId
    | _ => (s.logicalParentsById current.id).getD current.parentId
  parentId.filter fun id => id ≠ ""

/-- `path.unshift(current)`, unless the row is a leaf row. -/
def visibleRow (current : SessionTreeEntry) : List SessionTreeEntry :=
  if current.isLeaf then [] else [current]

/-- The loop of `getPathToRoot`. -/
def SessionStorage.walkToRoot (s : SessionStorage) : Nat → List String →
    List SessionTreeEntry → SessionTreeEntry → Except SessionError (List SessionTreeEntry)
  | 0, _, _, current => .error ⟨"out_of_fuel", current.id⟩
  | fuel + 1, seen, path, current =>
    if current.id ∈ seen then
      .error ⟨"invalid_session", s!"Cycle found at entry {current.id}"⟩
    else
      match s.parentIdOf current with
      | none => .ok (visibleRow current ++ path)
      | some parentId =>
        match s.byId parentId with
        | none => .error ⟨"invalid_session", s!"Entry {parentId} not found"⟩
        | some parent =>
          s.walkToRoot fuel (current.id :: seen) (visibleRow current ++ path) parent

def SessionStorage.getPathToRoot (s : SessionStorage) (leafId : Option String) :
    Except SessionError (List SessionTreeEntry) :=
  match leafId with
  | none => .ok []
  | some id =>
    match s.byId id with
    | none => .error ⟨"not_found", s!"Entry {id} not found"⟩
    | some current => s.walkToRoot (s.entries.length + 1) [] [] current

/-! ## The file -/

/-- `parseEntryLine`, on a row with the fields of its type. -/
def parseEntryLine (filePath : String) (lineNumber : Nat) (row : SessionTreeEntry) :
    Except SessionError SessionTreeEntry :=
  let invalidEntry (message : String) : SessionError :=
    ⟨"invalid_entry", s!"Invalid JSONL session file {filePath}: line {lineNumber} {message}"⟩
  if row.id = "" then .error (invalidEntry "is missing entry id")
  else if row.timestamp = .empty then .error (invalidEntry "is missing timestamp")
  else if parseSessionTimestampMs row.timestamp = none then
    .error (invalidEntry "has invalid timestamp")
  else .ok row

/-- The loop of `loadJsonlStorage` over the rows from a line on. -/
def parseRows (filePath : String) (lineNumber : Nat) :
    List SessionTreeEntry → Except SessionError (List SessionTreeEntry)
  | [] => .ok []
  | row :: rest => do
    let entry ← parseEntryLine filePath lineNumber row
    let entries ← parseRows filePath (lineNumber + 1) rest
    pure (entry :: entries)

/-- `JsonlSessionStorage.open`, after the header. -/
def openStorage (filePath : String) (file : List SessionTreeEntry) :
    Except SessionError SessionStorage := do
  let entries ← parseRows filePath 2 file
  SessionStorage.construct entries (resolveLeafId entries) (resolveAppendParentId entries)

/-- A storage and the rows of its file. -/
structure JsonlSessionStorage where
  storage : SessionStorage
  file : List SessionTreeEntry

def JsonlSessionStorage.create : JsonlSessionStorage :=
  ⟨⟨[], fun _ => none, fun _ => none, fun _ => none, none, none⟩, []⟩

/-- `appendEntry`, when the file takes the row. -/
def JsonlSessionStorage.appendEntry (s : JsonlSessionStorage) (entry : SessionTreeEntry) :
    Except SessionError JsonlSessionStorage := do
  s.storage.validateEntryForAppend entry
  let storage ← s.storage.recordEntry entry
  pure ⟨storage, s.file ++ [entry]⟩

/-- `setLeafId`, when the file takes the row. -/
def JsonlSessionStorage.setLeafId (s : JsonlSessionStorage) (call : AppendInput)
    (leafId : Option String) : Except SessionError JsonlSessionStorage := do
  let entry ← s.storage.createLeafEntry call leafId
  let storage ← s.storage.recordEntry entry
  pure ⟨storage, s.file ++ [entry]⟩

end OpenClaw.Harness
