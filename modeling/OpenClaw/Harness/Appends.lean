import OpenClaw.Harness.Session

/-!
# `session/session.ts`: appends that run at the same time

A call of an append method makes an id, reads the append cursor, appends its row to the file and
records it, with an `await` between any two of these. One event here is what a call does from one
`await` to the next, so a run is an interleaving of any number of calls on one session. The file
takes rows in any order.

`opened` holds the ids of the rows that were there at the start.
-/

namespace OpenClaw.Harness

/-- `appendLabel` looks its target up first. -/
def AppendCall.isLabel : AppendCall → Bool
  | .appendLabel .. => true
  | _ => false

/-- The row a call is about to append, and the clock window its id was made in. -/
structure AppendDraft where
  call : AppendCall
  id : String
  window : Option Nat
  parentId : Option String
  timestamp : Int

def AppendDraft.entry (draft : AppendDraft) : SessionTreeEntry :=
  ⟨draft.id, draft.parentId, .valid draft.timestamp, false, draft.call.body⟩

/-- Where a call stands. -/
inductive AppendPhase
  /-- `appendLabel` has found its target. -/
  | checked (call : AppendCall)
  /-- `createEntryId` has returned. -/
  | chosen (call : AppendCall) (id : String) (window : Option Nat)
  /-- `getAppendParentId` has returned. -/
  | placed (call : AppendCall) (id : String) (window : Option Nat) (parentId : Option String)
  /-- The file is being written. -/
  | writing (draft : AppendDraft)
  /-- The file has taken the row. -/
  | written (draft : AppendDraft)
  /-- The row is recorded, and the call has returned its id. -/
  | appended (entry : SessionTreeEntry)
  | failed (error : SessionError)

def AppendPhase.id : AppendPhase → Option String
  | .chosen _ id _ | .placed _ id _ _ => some id
  | .writing draft | .written draft => some draft.id
  | .appended entry => some entry.id
  | .checked _ | .failed _ => none

def AppendPhase.held : AppendPhase → Option (String × Option Nat)
  | .chosen _ id window | .placed _ id window _ => some (id, window)
  | .writing draft | .written draft => some (draft.id, draft.window)
  | .appended _ | .checked _ | .failed _ => none

def AppendPhase.row : AppendPhase → Option SessionTreeEntry
  | .appended entry => some entry
  | _ => none

/-- The last timestamp of a generator in units of 65536 milliseconds. -/
def UuidState.window (state : UuidState) : Option Nat := state.lastTimestamp.map (· / 2 ^ 16)

structure SessionAppends where
  storage : SessionStorage
  file : List SessionTreeEntry
  uuid : UuidState
  phase : Nat → Option AppendPhase
  opened : List String

inductive AppendEvent
  /-- A method is called, and runs up to its first `await`. -/
  | call (c : Nat) (call : AppendCall) (input : Nat → UuidInput)
  | chooseId (c : Nat) (input : Nat → UuidInput)
  | readCursor (c : Nat)
  | write (c : Nat) (timestamp : Int)
  | fileDone (c : Nat) (error : Option SessionError)
  | record (c : Nat)
  /-- Something else uses the uuid generator. -/
  | uuid (input : UuidInput)

namespace SessionAppends

def set (s : SessionAppends) (c : Nat) (phase : AppendPhase) : SessionAppends :=
  { s with phase := Function.update s.phase c (some phase) }

/-- `createEntryId` by one of the calls. -/
def newId (s : SessionAppends) (input : Nat → UuidInput) : String × UuidState :=
  generateEntryId s.storage.has input s.uuid

def choose (s : SessionAppends) (c : Nat) (call : AppendCall) (input : Nat → UuidInput) :
    SessionAppends :=
  { s with
    uuid := (s.newId input).2
    phase := Function.update s.phase c
      (some (.chosen call (s.newId input).1 (s.newId input).2.window)) }

def step (s : SessionAppends) : AppendEvent → Option SessionAppends
  | .call c call input =>
    match s.phase c with
    | some _ => none
    | none =>
      match s.storage.checkTarget call with
      | .error error => some (s.set c (.failed error))
      | .ok () =>
        if call.isLabel then some (s.set c (.checked call)) else some (s.choose c call input)
  | .chooseId c input =>
    match s.phase c with
    | some (.checked call) => some (s.choose c call input)
    | _ => none
  | .readCursor c =>
    match s.phase c with
    | some (.chosen call id window) =>
      match s.storage.getAppendParentId with
      | .error error => some (s.set c (.failed error))
      | .ok parentId => some (s.set c (.placed call id window parentId))
    | _ => none
  | .write c timestamp =>
    match s.phase c with
    | some (.placed call id window parentId) =>
      match s.storage.validateEntryForAppend
          (AppendDraft.entry ⟨call, id, window, parentId, timestamp⟩) with
      | .error error => some (s.set c (.failed error))
      | .ok () => some (s.set c (.writing ⟨call, id, window, parentId, timestamp⟩))
    | _ => none
  | .fileDone c error =>
    match s.phase c with
    | some (.writing draft) =>
      match error with
      | some error => some (s.set c (.failed error))
      | none => some { s.set c (.written draft) with file := s.file ++ [draft.entry] }
    | _ => none
  | .record c =>
    match s.phase c with
    | some (.written draft) =>
      match s.storage.recordEntry draft.entry with
      | .error error => some (s.set c (.failed error))
      | .ok storage => some { s.set c (.appended draft.entry) with storage }
    | _ => none
  | .uuid input => some { s with uuid := (uuidv7 s.uuid input).2 }

def Step (s : SessionAppends) (e : AppendEvent) (t : SessionAppends) : Prop := s.step e = some t

/-- The id of a call that has one, unless the call has failed. -/
def idOf (s : SessionAppends) (c : Nat) : Option String := (s.phase c).bind AppendPhase.id

/-- The id that a call holds and has not recorded, and its clock window. -/
def held (s : SessionAppends) (c : Nat) : Option (String × Option Nat) :=
  (s.phase c).bind AppendPhase.held

/-- The row that a call has recorded. -/
def rowOf (s : SessionAppends) (c : Nat) : Option SessionTreeEntry :=
  (s.phase c).bind AppendPhase.row

end SessionAppends

end OpenClaw.Harness
