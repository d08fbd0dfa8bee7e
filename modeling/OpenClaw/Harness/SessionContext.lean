import OpenClaw.Harness.Types
import OpenClaw.Lib.Except

/-!
# `buildSessionContext`: the model context of a session path

The messages of a path without compaction are those of its rows. With one, they are the summary of
the last compaction, the rows before it from the one it names as first kept, and the rows after it.

* `collect_append` — a loop over a path that collects messages may be cut anywhere.
* `buildSessionContext_plain`, `buildSessionContext_compacted` — the messages in the two cases,
  over the parts of the path.
-/

namespace OpenClaw.Harness

variable {f g : SessionTreeEntry → Except String (Option HarnessMessage)}

/-- The loops of this file and of compaction: the messages of some rows, in order. -/
def collect (f : SessionTreeEntry → Except String (Option HarnessMessage)) :
    List SessionTreeEntry → Except String (List HarnessMessage)
  | [] => pure []
  | entry :: rest => do
    let message ← f entry
    let messages ← collect f rest
    pure (message.toList ++ messages)

@[simp] theorem collect_nil : collect f [] = .ok [] := rfl

variable {messages : List HarnessMessage}

theorem collect_cons (entry : SessionTreeEntry) (rest : List SessionTreeEntry) :
    collect f (entry :: rest) = .ok messages ↔
      ∃ m ms, f entry = .ok m ∧ collect f rest = .ok ms ∧ messages = m.toList ++ ms := by
  simp only [collect, Except.bind_eq_ok, Except.pure_eq_ok]
  constructor
  · rintro ⟨m, hm, ms, hms, rfl⟩
    exact ⟨m, ms, hm, hms, rfl⟩
  · rintro ⟨m, ms, hm, hms, rfl⟩
    exact ⟨m, hm, ms, hms, rfl⟩

theorem collect_append {l₁ l₂ : List SessionTreeEntry} : collect f (l₁ ++ l₂) = .ok messages ↔
      ∃ m₁ m₂, collect f l₁ = .ok m₁ ∧ collect f l₂ = .ok m₂ ∧ messages = m₁ ++ m₂ := by
  induction l₁ generalizing messages with
  | nil =>
    constructor
    · exact fun h => ⟨[], messages, rfl, h, rfl⟩
    · rintro ⟨m₁, m₂, h₁, h₂, rfl⟩
      cases h₁
      exact h₂
  | cons entry l₁ ih =>
    rw [List.cons_append, collect_cons]
    constructor
    · rintro ⟨m, ms, hm, hms, rfl⟩
      obtain ⟨m₁, m₂, h₁, h₂, rfl⟩ := ih.mp hms
      exact ⟨m.toList ++ m₁, m₂, (collect_cons entry l₁).mpr ⟨m, m₁, hm, h₁, rfl⟩, h₂,
        (List.append_assoc ..).symm⟩
    · rintro ⟨m₁, m₂, h₁, h₂, rfl⟩
      obtain ⟨m, ms, hm, hms, rfl⟩ := (collect_cons entry l₁).mp h₁
      exact ⟨m, ms ++ m₂, hm, ih.mpr ⟨ms, m₂, hms, h₂, rfl⟩, List.append_assoc ..⟩

theorem collect_congr {l : List SessionTreeEntry} (h : ∀ e ∈ l, f e = g e) :
    collect f l = collect g l := by
  induction l with
  | nil => rfl
  | cons entry rest ih =>
    rw [collect, collect, h entry List.mem_cons_self,
      ih fun e he => h e (List.mem_cons_of_mem entry he)]

/-! ## The model -/

structure SessionContext where
  messages : List HarnessMessage
  thinkingLevel : String
  model : Option ModelRef

/-- What the first loop of `buildSessionContext` finds. -/
structure PathMarkers where
  thinkingLevel : String := "off"
  model : Option ModelRef := none
  compaction : Option CompactionEntry := none

def PathMarkers.mark (markers : PathMarkers) (entry : SessionTreeEntry) : PathMarkers :=
  match entry.body with
  | .thinkingLevelChange level => { markers with thinkingLevel := level }
  | .modelChange model => { markers with model := some model }
  | .message (.assistant _ model _) => { markers with model := some model }
  | .compaction fields =>
    { markers with compaction := some ⟨entry.id, entry.timestamp, fields⟩ }
  | _ => markers

/-- `appendMessage`: the message it pushes, if any. -/
def appendMessage (entry : SessionTreeEntry) : Except String (Option HarnessMessage) :=
  match entry.body with
  | .message message => pure (some message)
  | .customMessage customType content display details => do
    let message ← createCustomMessage customType content display details entry.timestamp
    pure (some message)
  | .branchSummary fromId summary =>
    if summary = "" then pure none
    else do
      let message ← createBranchSummaryMessage summary fromId entry.timestamp
      pure (some message)
  | _ => pure none

/-- The loop that replays the rows before the compaction, from the first kept one. -/
def replayKept (firstKeptEntryId : String) (foundFirstKept : Bool) :
    List SessionTreeEntry → Except String (List HarnessMessage)
  | [] => pure []
  | entry :: rest =>
    if foundFirstKept || entry.id == firstKeptEntryId then do
      let message ← appendMessage entry
      let messages ← replayKept firstKeptEntryId true rest
      pure (message.toList ++ messages)
    else replayKept firstKeptEntryId false rest

def buildSessionContext (pathEntries : List SessionTreeEntry) : Except String SessionContext := do
  let markers := pathEntries.foldl PathMarkers.mark {}
  let messages ← match markers.compaction with
    | some compaction => do
      let summary ← createCompactionSummaryMessage compaction.fields.summary
        compaction.fields.tokensBefore compaction.timestamp
      let compactionIdx := pathEntries.findIdx fun e =>
        e.compaction?.isSome && e.id == compaction.id
      let kept ← replayKept compaction.fields.firstKeptEntryId false
        (pathEntries.take compactionIdx)
      let newer ← collect appendMessage (pathEntries.drop (compactionIdx + 1))
      pure (summary :: (kept ++ newer))
    | none => collect appendMessage pathEntries
  pure ⟨messages, markers.thinkingLevel, markers.model⟩

/-! ## The last compaction of a path -/

/-- The compaction the first loop of `buildSessionContext` ends with. -/
def lastCompaction (path : List SessionTreeEntry) : Option CompactionEntry :=
  (path.foldl PathMarkers.mark {}).compaction

theorem PathMarkers.mark_compaction (markers : PathMarkers) (entry : SessionTreeEntry) :
    (markers.mark entry).compaction = entry.compaction?.or markers.compaction := by
  rw [PathMarkers.mark, SessionTreeEntry.compaction?]
  split <;> simp_all

section

variable (path : List SessionTreeEntry)

theorem foldl_mark_compaction (markers : PathMarkers) :
    (path.foldl PathMarkers.mark markers).compaction =
      (path.reverse.findSome? SessionTreeEntry.compaction?).or markers.compaction := by
  induction path generalizing markers with
  | nil => rfl
  | cons entry rest ih =>
    have hone : [entry].findSome? SessionTreeEntry.compaction? = entry.compaction? := by
      rw [List.findSome?_cons]
      cases entry.compaction? <;> rfl
    rw [List.foldl_cons, ih, PathMarkers.mark_compaction, List.reverse_cons,
      List.findSome?_append, Option.or_assoc, hone]

theorem lastCompaction_eq :
    lastCompaction path = path.reverse.findSome? SessionTreeEntry.compaction? := by
  rw [lastCompaction, foldl_mark_compaction, Option.or_none]

theorem lastCompaction_concat (entry : SessionTreeEntry) :
    lastCompaction (path ++ [entry]) = entry.compaction?.or (lastCompaction path) := by
  rw [lastCompaction_eq, lastCompaction_eq, List.reverse_append, List.reverse_singleton,
    List.singleton_append, List.findSome?_cons]
  cases entry.compaction? <;> rfl

end

variable {path : List SessionTreeEntry} {c : CompactionEntry}

theorem lastCompaction_eq_some (h : lastCompaction path = some c) :
    ∃ before row after, path = before ++ row :: after ∧ row.compaction? = some c ∧
      ∀ e ∈ after, e.compaction? = none := by
  rw [lastCompaction_eq, List.findSome?_eq_some_iff] at h
  obtain ⟨l₁, row, l₂, hpath, hrow, hnone⟩ := h
  refine ⟨l₂.reverse, row, l₁.reverse, ?_, hrow, ?_⟩
  · have hrev := congrArg List.reverse hpath
    rw [List.reverse_reverse] at hrev
    rw [hrev]
    simp
  · intro e he
    exact hnone e (List.mem_reverse.mp he)

variable {row : SessionTreeEntry}

variable {before after : List SessionTreeEntry}

theorem lastCompaction_append_cons (hrow : row.compaction? = some c)
    (hafter : ∀ e ∈ after, e.compaction? = none) :
    lastCompaction (before ++ row :: after) = some c := by
  rw [lastCompaction_eq, List.reverse_append, List.reverse_cons, List.findSome?_append,
    List.findSome?_append]
  have hnone : after.reverse.findSome? SessionTreeEntry.compaction? = none := by
    simpa using hafter
  rw [hnone]
  simp [hrow]

theorem SessionTreeEntry.compaction?_id (h : row.compaction? = some c) : c.id = row.id := by
  rw [SessionTreeEntry.compaction?] at h
  split at h
  · cases h
    rfl
  · cases h

theorem appendMessage_of_compaction (h : row.compaction? = some c) :
    appendMessage row = .ok none := by
  rw [SessionTreeEntry.compaction?] at h
  split at h
  · rename_i fields heq
    rw [appendMessage, heq]
    rfl
  · cases h

/-! ## The messages of a path -/

theorem replayKept_true (id : String) (path : List SessionTreeEntry) :
    replayKept id true path = collect appendMessage path := by
  induction path with
  | nil => rfl
  | cons entry rest ih => rw [replayKept, collect, Bool.true_or, if_pos rfl, ih]

variable {id : String}

theorem replayKept_not_mem (h : ∀ e ∈ path, e.id ≠ id) : replayKept id false path = .ok [] := by
  induction path with
  | nil => rfl
  | cons entry rest ih =>
    have hne : (entry.id == id) = false := by simpa using h entry List.mem_cons_self
    rw [replayKept, hne, Bool.or_self, if_neg Bool.false_ne_true]
    exact ih fun e he => h e (List.mem_cons_of_mem entry he)

theorem replayKept_of_first {dropped rest : List SessionTreeEntry} {first : SessionTreeEntry}
    (hfirst : first.id = id) (h : ∀ e ∈ dropped, e.id ≠ id) :
    replayKept id false (dropped ++ first :: rest) = collect appendMessage (first :: rest) := by
  induction dropped with
  | nil =>
    have heq : (first.id == id) = true := by simpa using hfirst
    rw [List.nil_append, replayKept, heq, Bool.or_true, if_pos rfl, replayKept_true, collect]
  | cons entry dropped ih =>
    have hne : (entry.id == id) = false := by simpa using h entry List.mem_cons_self
    rw [List.cons_append, replayKept, hne, Bool.or_self, if_neg Bool.false_ne_true]
    exact ih fun e he => h e (List.mem_cons_of_mem entry he)

theorem buildSessionContext_plain (h : lastCompaction path = none) {ctx : SessionContext}
    (hctx : buildSessionContext path = .ok ctx) :
    collect appendMessage path = .ok ctx.messages := by
  have hnone : (path.foldl PathMarkers.mark {}).compaction = none := h
  simp only [buildSessionContext, hnone, Except.bind_eq_ok, Except.pure_eq_ok] at hctx
  obtain ⟨messages, hms, rfl⟩ := hctx
  exact hms

theorem findIdx_compaction (hrow : row.compaction? = some c) (hids : ∀ e ∈ before, e.id ≠ row.id) :
    (before ++ row :: after).findIdx (fun e => e.compaction?.isSome && e.id == c.id) =
      before.length := by
  rw [List.findIdx_append, List.findIdx_eq_length_of_false, if_neg (by simp), List.findIdx_cons,
    hrow, row.compaction?_id hrow]
  · simp
  · intro e he
    rw [row.compaction?_id hrow]
    simp [hids e he]

section

variable {before after : List SessionTreeEntry} {row : SessionTreeEntry} {c : CompactionEntry}
  (hrow : row.compaction? = some c) (hafter : ∀ e ∈ after, e.compaction? = none)
  (hids : ∀ e ∈ before, e.id ≠ row.id)

include hrow hafter hids

theorem buildSessionContext_compacted {ctx : SessionContext}
    (hctx : buildSessionContext (before ++ row :: after) = .ok ctx) :
    ∃ summary kept newer,
      replayKept c.fields.firstKeptEntryId false before = .ok kept ∧
      collect appendMessage after = .ok newer ∧ ctx.messages = summary :: (kept ++ newer) := by
  have hsome : ((before ++ row :: after).foldl PathMarkers.mark {}).compaction = some c :=
    lastCompaction_append_cons hrow hafter
  simp only [buildSessionContext, hsome, findIdx_compaction hrow hids, Except.bind_eq_ok,
    Except.pure_eq_ok] at hctx
  obtain ⟨summary, -, kept, hkept, newer, hnewer, _, rfl, rfl⟩ := hctx
  rw [List.take_left] at hkept
  rw [← List.drop_drop, List.drop_left] at hnewer
  exact ⟨summary, kept, newer, hkept, hnewer, rfl⟩

theorem buildSessionContext_compacted_ok (hts : c.timestamp.parsed ≠ none)
    {kept newer : List HarnessMessage}
    (hkept : replayKept c.fields.firstKeptEntryId false before = .ok kept)
    (hnewer : collect appendMessage after = .ok newer) :
    ∃ ctx summary, buildSessionContext (before ++ row :: after) = .ok ctx ∧
      ctx.messages = summary :: (kept ++ newer) := by
  have hsome : ((before ++ row :: after).foldl PathMarkers.mark {}).compaction = some c :=
    lastCompaction_append_cons hrow hafter
  obtain ⟨ms, hms⟩ := requireSessionTimestampMs_of_valid hts "compaction summary timestamp"
  let markers := (before ++ row :: after).foldl PathMarkers.mark {}
  refine ⟨⟨.compactionSummary c.fields.summary c.fields.tokensBefore ms :: (kept ++ newer),
    markers.thinkingLevel, markers.model⟩, _, ?_, rfl⟩
  simp only [buildSessionContext, hsome, findIdx_compaction hrow hids, Except.bind_eq_ok,
    Except.pure_eq_ok, createCompactionSummaryMessage, hms]
  refine ⟨_, ⟨ms, rfl, rfl⟩, kept, ?_, newer, ?_, _, rfl, rfl⟩
  · rw [List.take_left]
    exact hkept
  · rw [← List.drop_drop, List.drop_left]
    exact hnewer

end

end OpenClaw.Harness
