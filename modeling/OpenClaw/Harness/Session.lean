import OpenClaw.Harness.Storage

/-!
# `session/session.ts`: the append methods of a session

Each method makes an id, reads the append cursor and appends one row. Here a call runs from start to
end before the next one starts.
-/

namespace OpenClaw.Harness

/-- The append methods, with their arguments. -/
inductive AppendCall
  | appendMessage (message : HarnessMessage)
  | appendThinkingLevelChange (thinkingLevel : String)
  | appendModelChange (provider modelId : String)
  | appendCompaction (fields : CompactionFields)
  | appendCustomEntry (customType : String)
  | appendCustomMessageEntry (customType : String) (content : MessageContent) (display : Bool)
    (details : Option Json)
  | appendLabel (targetId : String) (label : Option String)
  | appendSessionName (name : String)

/-- What the method writes into the row. -/
def AppendCall.body : AppendCall → EntryBody
  | appendMessage message => .message message
  | appendThinkingLevelChange thinkingLevel => .thinkingLevelChange thinkingLevel
  | appendModelChange provider modelId => .modelChange ⟨provider, modelId⟩
  | appendCompaction fields => .compaction fields
  | appendCustomEntry customType => .custom customType
  | appendCustomMessageEntry customType content display details =>
    .customMessage customType content display details
  | appendLabel targetId label => .label targetId label
  | appendSessionName name => .sessionInfo (some (JsString.trim name))

/-- The check that `appendLabel` makes first. -/
def SessionStorage.checkTarget (s : SessionStorage) : AppendCall → Except SessionError Unit
  | .appendLabel targetId _ =>
    if s.has targetId then .ok () else .error ⟨"not_found", s!"Entry {targetId} not found"⟩
  | _ => .ok ()

/-- A row with a new id at the append cursor. -/
def SessionStorage.typedEntry (s : SessionStorage) (input : AppendInput) (body : EntryBody) :
    Except SessionError SessionTreeEntry := do
  let parentId ← s.getAppendParentId
  pure ⟨s.createEntryId input, parentId, .valid input.timestamp, false, body⟩

/-- An append method. It returns the row it appended. -/
def JsonlSessionStorage.append (s : JsonlSessionStorage) (input : AppendInput) (call : AppendCall) :
    Except SessionError (JsonlSessionStorage × SessionTreeEntry) := do
  s.storage.checkTarget call
  let entry ← s.storage.typedEntry input call.body
  let t ← s.appendEntry entry
  pure (t, entry)

end OpenClaw.Harness
