import OpenClaw.Harness.Types

/-!
# `packages/agent-core/src/harness/compaction/utils.ts`

The file operations of a transcript, and the text of a block. A `Set` of paths is the list of its
members in insertion order.
-/

namespace OpenClaw.Harness

open AgentCore

/-! ## File operations -/

structure FileOperations where
  read : List String
  written : List String
  edited : List String

def createFileOps : FileOperations := ⟨[], [], []⟩

/-- `Set.prototype.add`. -/
def addTo (set : List String) (path : String) : List String :=
  if path ∈ set then set else set ++ [path]

/-- `args.path`, if it is a non-empty string. -/
def pathArgument : Json → Option String
  | .obj fields =>
    match fields.find? fun field => field.1 == "path" with
    | some (_, .str path) => if path = "" then none else some path
    | _ => none
  | _ => none

def FileOperations.addCall (fileOps : FileOperations) (call : AgentToolCall) : FileOperations :=
  match pathArgument call.arguments with
  | none => fileOps
  | some path =>
    match call.name with
    | "read" => { fileOps with read := addTo fileOps.read path }
    | "write" => { fileOps with written := addTo fileOps.written path }
    | "edit" => { fileOps with edited := addTo fileOps.edited path }
    | _ => fileOps

def extractFileOpsFromMessage (fileOps : FileOperations) (message : HarnessMessage) :
    FileOperations :=
  match message with
  | .assistant message .. => message.toolCalls.foldl FileOperations.addCall fileOps
  | _ => fileOps

structure FileLists where
  readFiles : List String
  modifiedFiles : List String

def computeFileLists (fileOps : FileOperations) : FileLists :=
  let modified := fileOps.written.foldl addTo fileOps.edited
  ⟨JsString.toSorted (fileOps.read.filter fun f => f ∉ modified), JsString.toSorted modified⟩

def formatFileOperations (lists : FileLists) : String :=
  let sections :=
    (if lists.readFiles = [] then []
      else ["<read-files>\n" ++ "\n".intercalate lists.readFiles ++ "\n</read-files>"]) ++
    (if lists.modifiedFiles = [] then []
      else ["<modified-files>\n" ++ "\n".intercalate lists.modifiedFiles ++
        "\n</modified-files>"])
  if sections = [] then "" else "\n\n" ++ "\n\n".intercalate sections

/-! ## The text of blocks -/

def safeJsonStringify (value : Json) : String := .ofList value.stringify

def getCompactionContentBlockText (block : UserBlock) : String :=
  let text := block.text.getD ""
  if block.type = "text" ∧ text ≠ "" then text
  else if block.type ≠ "toolResult" ∧ block.type ≠ "tool_result" then ""
  else if text ≠ "" then text
  else block.content.getD ""

end OpenClaw.Harness
