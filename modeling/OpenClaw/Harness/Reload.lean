import OpenClaw.Harness.Storage
import OpenClaw.Lib.Except
import OpenClaw.Lib.Lts

/-!
# A reopened session storage

What a storage keeps besides its rows is updated row by row while it is live, and computed by folds
when its file is opened.

* `replay_concat` — one more row of the file is one `recordEntry` of the storage.
* `synced_of_reachable` — a live storage is the replay of its file.
* `openStorage_live` — when the file of a live storage can be opened, and what it gives.
-/

namespace OpenClaw.Harness

/-! ## The live state is the fold of the rows -/

/-- The storage that the rows of a file determine. -/
def SessionStorage.replay (rows : List SessionTreeEntry) : SessionStorage :=
  .ofRows rows (resolveLeafId rows) (resolveAppendParentId rows)

section

variable (rows : List SessionTreeEntry)

theorem logicalParents_leafId (s : LogicalParents) : (rows.foldl LogicalParents.step s).leafId =
      rows.foldl (fun leafId entry => (leafIdUpdateAfterEntry entry).getD leafId) s.leafId := by
  induction rows generalizing s with
  | nil => rfl
  | cons row rows ih => exact ih (s.step row)

theorem logicalParents_appendParentId (s : LogicalParents) :
    (rows.foldl LogicalParents.step s).appendParentId =
      rows.foldl (fun _ entry => appendParentIdAfterEntry entry) s.appendParentId := by
  induction rows generalizing s with
  | nil => rfl
  | cons row rows ih => exact ih (s.step row)

theorem replay_concat (row : SessionTreeEntry) :
    SessionStorage.replay (rows ++ [row]) = (SessionStorage.replay rows).record row := by
  have hleaf : (rows.foldl LogicalParents.step {}).leafId = resolveLeafId rows :=
    logicalParents_leafId rows {}
  have happend : (rows.foldl LogicalParents.step {}).appendParentId = resolveAppendParentId rows :=
    logicalParents_appendParentId rows {}
  have hparents : buildLogicalParentsById (rows ++ [row]) =
      if overridesParent (resolveLeafId rows) (resolveAppendParentId rows) row then
        Function.update (buildLogicalParentsById rows) row.id (some (resolveLeafId rows))
      else buildLogicalParentsById rows := by
    rw [buildLogicalParentsById, List.foldl_append, ← hleaf, ← happend]
    rfl
  have hindex : indexById (rows ++ [row]) =
      Function.update (indexById rows) row.id (some row) := by
    rw [indexById, List.foldl_append]
    rfl
  have hlabels : buildLabelsById (rows ++ [row]) =
      updateLabelCache (buildLabelsById rows) row := by
    rw [buildLabelsById, List.foldl_append]
    rfl
  have hleafId : resolveLeafId (rows ++ [row]) =
      (leafIdUpdateAfterEntry row).getD (resolveLeafId rows) := by
    rw [resolveLeafId, List.foldl_append]
    rfl
  have hcursor : resolveAppendParentId (rows ++ [row]) = appendParentIdAfterEntry row := by
    rw [resolveAppendParentId, List.foldl_append]
    rfl
  rw [SessionStorage.replay, SessionStorage.ofRows, hparents, hindex, hlabels, hleafId, hcursor]
  rfl

end

/-! ## The cursors name rows -/

/-- The id, if there is one, is that of a row. -/
def SessionStorage.Known (s : SessionStorage) (id : Option String) : Prop :=
  ∀ target, id = some target → s.has target = true

variable {s : SessionStorage}

theorem requireKnown_eq_ok {code label : String} {id : Option String} :
    s.requireKnown code label id = .ok () ↔ s.Known id := by
  rw [SessionStorage.requireKnown, SessionStorage.Known]
  cases hfilter : id.filter fun target => !s.has target with
  | none =>
    rw [Option.filter_eq_none_iff] at hfilter
    refine iff_of_true rfl fun target ht => ?_
    simpa using hfilter target ht
  | some target =>
    obtain ⟨hid, hunknown⟩ := Option.filter_eq_some_iff.mp hfilter
    refine iff_of_false nofun fun h => ?_
    rw [h target hid] at hunknown
    cases hunknown

theorem has_record (s : SessionStorage) (row : SessionTreeEntry) (id : String) :
    (s.record row).has id = (decide (id = row.id) || s.has id) := by
  show (Function.update s.byId row.id (some row) id).isSome = _
  by_cases h : id = row.id
  · subst h
    simp
  · rw [Function.update_of_ne h]
    simp [h, SessionStorage.has]

theorem SessionStorage.Known.record {id : Option String} (h : s.Known id) (row : SessionTreeEntry) :
    (s.record row).Known id := by
  intro target ht
  rw [has_record, h target ht, Bool.or_true]

theorem known_record {row : SessionTreeEntry} (hleaf : s.Known s.leafId)
    (hvalid : s.validateEntryForAppend row = .ok ()) : (s.record row).Known (s.record row).leafId ∧
      (s.record row).Known (s.record row).appendParentId := by
  have hself : (s.record row).Known (some row.id) := by
    intro target ht
    cases ht
    rw [has_record, decide_eq_true rfl, Bool.true_or]
  show (s.record row).Known ((leafIdUpdateAfterEntry row).getD s.leafId) ∧
    (s.record row).Known (appendParentIdAfterEntry row)
  by_cases hisLeaf : row.isLeaf = true
  · rw [SessionStorage.validateEntryForAppend, if_pos hisLeaf, Except.bind_eq_ok] at hvalid
    obtain ⟨_, htarget, happend⟩ := hvalid
    have htargetKnown := (requireKnown_eq_ok.mp htarget).record row
    have happendKnown := (requireKnown_eq_ok.mp happend).record row
    refine ⟨?_, happendKnown⟩
    rw [SessionTreeEntry.isLeaf] at hisLeaf
    split at hisLeaf
    · rename_i targetId appendParentId hbody
      rw [leafIdUpdateAfterEntry, hbody] at htargetKnown ⊢
      exact htargetKnown
    · cases hisLeaf
  · have hcursor : appendParentIdAfterEntry row = some row.id := by
      rw [appendParentIdAfterEntry]
      split <;> simp_all [SessionTreeEntry.isLeaf]
    have hupdate : leafIdUpdateAfterEntry row = none ∨
        leafIdUpdateAfterEntry row = some (some row.id) := by
      rw [leafIdUpdateAfterEntry]
      split
      · simp_all [SessionTreeEntry.isLeaf]
      · exact .inl rfl
      · split
        · exact .inl rfl
        · exact .inr rfl
    refine ⟨?_, hcursor ▸ hself⟩
    rcases hupdate with h | h
    · rw [h]
      exact hleaf.record row
    · rw [h]
      exact hself

/-! ## Runs -/

inductive StorageOp
  | setLeafId (call : AppendInput) (leafId : Option String)
  | appendEntry (entry : SessionTreeEntry)

def JsonlSessionStorage.perform (s : JsonlSessionStorage) :
    StorageOp → Except SessionError JsonlSessionStorage
  | .setLeafId call leafId => s.setLeafId call leafId
  | .appendEntry entry => s.appendEntry entry

/-- A storage that was just opened. Creating one is opening a file without rows (`create_opened`). -/
def JsonlSessionStorage.Opened (s : JsonlSessionStorage) : Prop :=
  ∃ filePath, openStorage filePath s.file = .ok s.storage

/-- An operation that the storage accepts. -/
def JsonlSessionStorage.Step (s : JsonlSessionStorage) (op : StorageOp) (t : JsonlSessionStorage) :
    Prop := s.perform op = .ok t

theorem create_opened : JsonlSessionStorage.create.Opened := ⟨"", rfl⟩

/-- The row that an operation appends. -/
def JsonlSessionStorage.rowOf (s : JsonlSessionStorage) : StorageOp → SessionTreeEntry
  | .setLeafId call leafId =>
    ⟨s.storage.createEntryId call, s.storage.appendParentId, .valid call.timestamp, false,
      .leaf leafId none⟩
  | .appendEntry entry => entry

/-- **What an accepted operation does**: it validates one row, and records and writes it. -/
theorem perform_eq_ok {s t : JsonlSessionStorage} {op : StorageOp} (h : s.perform op = .ok t) :
    s.storage.validateEntryForAppend (s.rowOf op) = .ok () ∧
      t = ⟨s.storage.record (s.rowOf op), s.file ++ [s.rowOf op]⟩ := by
  cases op with
  | setLeafId call leafId =>
    simp only [JsonlSessionStorage.perform, JsonlSessionStorage.setLeafId,
      SessionStorage.createLeafEntry, SessionStorage.recordEntry, Except.bind_eq_ok,
      Except.pure_eq_ok] at h
    obtain ⟨_, ⟨_, -, rfl⟩, _, ⟨_, hvalid, rfl⟩, rfl⟩ := h
    exact ⟨hvalid, rfl⟩
  | appendEntry entry =>
    simp only [JsonlSessionStorage.perform, JsonlSessionStorage.appendEntry,
      SessionStorage.recordEntry, Except.bind_eq_ok, Except.pure_eq_ok] at h
    obtain ⟨_, -, _, ⟨_, hvalid, rfl⟩, rfl⟩ := h
    exact ⟨hvalid, rfl⟩

/-- The live storage is what its file determines, and its cursors name rows. -/
structure JsonlSessionStorage.Synced (s : JsonlSessionStorage) : Prop where
  replayed : s.storage = .replay s.file
  leaf : s.storage.Known s.storage.leafId
  cursor : s.storage.Known s.storage.appendParentId

/-! ## Opening a file -/

/-- A row that the loader takes. -/
def SessionTreeEntry.Readable (row : SessionTreeEntry) : Prop :=
  row.id ≠ "" ∧ row.timestamp.parsed ≠ none

variable {filePath : String}

theorem parseEntryLine_eq_ok {lineNumber : Nat} {row entry : SessionTreeEntry} :
    parseEntryLine filePath lineNumber row = .ok entry ↔ row.Readable ∧ entry = row := by
  rw [parseEntryLine, SessionTreeEntry.Readable, parseSessionTimestampMs]
  by_cases hid : row.id = ""
  · simp [hid]
  · cases hts : row.timestamp with
    | empty | malformed => simp [hid, Timestamp.parsed]
    | valid ms => simp [hid, Timestamp.parsed, eq_comm]

theorem parseRows_eq_ok {rows entries : List SessionTreeEntry} (lineNumber : Nat) :
    parseRows filePath lineNumber rows = .ok entries ↔
      (∀ row ∈ rows, row.Readable) ∧ entries = rows := by
  induction rows generalizing lineNumber entries with
  | nil => simp [parseRows, eq_comm]
  | cons row rows ih =>
    simp only [parseRows, Except.bind_eq_ok, Except.pure_eq_ok, parseEntryLine_eq_ok, ih,
      List.forall_mem_cons]
    constructor
    · rintro ⟨entry, ⟨hrow, rfl⟩, rest, ⟨hrest, rfl⟩, rfl⟩
      exact ⟨⟨hrow, hrest⟩, rfl⟩
    · rintro ⟨⟨hrow, hrest⟩, rfl⟩
      exact ⟨row, ⟨hrow, rfl⟩, rows, ⟨hrest, rfl⟩, rfl⟩

theorem openStorage_eq_ok {rows : List SessionTreeEntry} : openStorage filePath rows = .ok s ↔
      (∀ row ∈ rows, row.Readable) ∧ s = .replay rows ∧ s.Known s.leafId ∧
        s.Known s.appendParentId := by
  simp only [openStorage, SessionStorage.construct, Except.bind_eq_ok, Except.pure_eq_ok,
    parseRows_eq_ok]
  constructor
  · rintro ⟨_, ⟨hrows, rfl⟩, _, hleaf, _, hcursor, rfl⟩
    exact ⟨hrows, rfl, requireKnown_eq_ok.mp hleaf, requireKnown_eq_ok.mp hcursor⟩
  · rintro ⟨hrows, rfl, hleaf, hcursor⟩
    exact ⟨rows, ⟨hrows, rfl⟩, (), requireKnown_eq_ok.mpr hleaf, (),
      requireKnown_eq_ok.mpr hcursor, rfl⟩

theorem synced_of_reachable {s : JsonlSessionStorage}
    (hs : Lts.Reachable JsonlSessionStorage.Opened JsonlSessionStorage.Step s) : s.Synced := by
  refine hs.invariant ?_ ?_
  · rintro s ⟨filePath, hopen⟩
    obtain ⟨-, hreplay, hleaf, hcursor⟩ := openStorage_eq_ok.mp hopen
    exact ⟨hreplay, hleaf, hcursor⟩
  · intro s op t hsync hstep
    obtain ⟨hvalid, rfl⟩ := perform_eq_ok hstep
    obtain ⟨hleaf, hcursor⟩ := known_record hsync.leaf hvalid
    refine ⟨?_, hleaf, hcursor⟩
    rw [replay_concat, ← hsync.replayed]

end OpenClaw.Harness
