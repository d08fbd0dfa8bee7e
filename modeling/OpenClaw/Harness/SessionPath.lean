import Mathlib.Data.List.Nodup
import Mathlib.Data.List.Perm.Subperm
import OpenClaw.Harness.Reload
import OpenClaw.Harness.Session

/-!
# Paths to the root

* `walkToRoot_fuel` — the loop of `getPathToRoot` never needs more turns than it is given, so that
  it ends in every storage (`getPathToRoot_ends`).
* `Rooted` — from every row the loop reaches a root. It is kept by every row with a new id whose
  parent is a row (`Rooted.record`).
* `append_path`, `moveTo_path` — what an append and a move of the leaf show afterwards.
* **`session_storage_law`** — a reopened storage and the paths of a session.
-/

namespace OpenClaw.Harness

/-! ## The loop has enough turns -/

/-- Every indexed row is a row of the storage. -/
def SessionStorage.Indexed (s : SessionStorage) : Prop :=
  ∀ id row, s.byId id = some row → row.id = id ∧ id ∈ s.entries.map SessionTreeEntry.id

variable {s : SessionStorage} {seen : List String} {path : List SessionTreeEntry}
  {row : SessionTreeEntry}

theorem walkToRoot_fuel (hindexed : s.Indexed) (fuel : Nat) {e : SessionError}
    (hnodup : seen.Nodup) (hseen : seen ⊆ s.entries.map SessionTreeEntry.id)
    (hrow : row.id ∈ s.entries.map SessionTreeEntry.id)
    (hfuel : seen.length + fuel = s.entries.length + 1)
    (h : s.walkToRoot fuel seen path row = .error e) : e.code = "invalid_session" := by
  induction fuel generalizing seen path row with
  | zero =>
    have hlen := (List.subperm_of_subset hnodup hseen).length_le
    rw [List.length_map] at hlen
    omega
  | succ fuel ih =>
    rw [SessionStorage.walkToRoot] at h
    split at h
    · cases h
      rfl
    · rename_i hfresh
      split at h
      · cases h
      · split at h
        · cases h
          rfl
        · rename_i parentId _ _ parent hparent
          obtain ⟨hid, hmem⟩ := hindexed parentId parent hparent
          refine ih (List.nodup_cons.mpr ⟨hfresh, hnodup⟩) (List.cons_subset.mpr ⟨hrow, hseen⟩)
            (hid.symm ▸ hmem) ?_ h
          rw [List.length_cons]
          omega

/-! ## Chains of parents -/

/-- Following parents from a row leads to a root: the ids on the way, and the visible rows of the
way from the root. -/
inductive SessionStorage.Chain (s : SessionStorage) :
    SessionTreeEntry → List String → List SessionTreeEntry → Prop
  | root {row : SessionTreeEntry} : s.parentIdOf row = none → s.Chain row [row.id] (visibleRow row)
  | step {row parent : SessionTreeEntry} {parentId : String} {ids : List String}
      {path : List SessionTreeEntry} : s.parentIdOf row = some parentId →
      s.byId parentId = some parent → s.Chain parent ids path → row.id ∉ ids →
      s.Chain row (row.id :: ids) (path ++ visibleRow row)

variable {fuel : Nat}

theorem walkToRoot_step {parent : SessionTreeEntry} {parentId : String} (hseen : row.id ∉ seen)
    (hparentId : s.parentIdOf row = some parentId) (hparent : s.byId parentId = some parent) :
    s.walkToRoot (fuel + 1) seen path row =
      s.walkToRoot fuel (row.id :: seen) (visibleRow row ++ path) parent := by
  simp only [SessionStorage.walkToRoot, if_neg hseen, hparentId, hparent]

variable {ids : List String}

theorem walkToRoot_of_chain (h : s.Chain row ids path) {acc : List SessionTreeEntry}
    (hfuel : ids.length ≤ fuel) (hseen : ∀ id ∈ ids, id ∉ seen) :
    s.walkToRoot fuel seen acc row = .ok (path ++ acc) := by
  induction h generalizing fuel seen acc with
  | root hparent =>
    obtain ⟨fuel, rfl⟩ := Nat.exists_eq_add_of_lt hfuel
    rw [SessionStorage.walkToRoot, if_neg (hseen _ List.mem_cons_self), hparent]
  | step hparentId hparent _ hfresh ih =>
    obtain ⟨fuel, rfl⟩ : ∃ k, fuel = k + 1 := ⟨fuel - 1, by
      rw [List.length_cons] at hfuel
      omega⟩
    rw [walkToRoot_step (hseen _ List.mem_cons_self) hparentId hparent,
      ih (Nat.le_of_succ_le_succ hfuel), List.append_assoc]
    intro id hid hmem
    rcases List.mem_cons.mp hmem with rfl | hmem
    · exact hfresh hid
    · exact hseen id (List.mem_cons_of_mem _ hid) hmem

theorem SessionStorage.Chain.nodup (h : s.Chain row ids path) : ids.Nodup := by
  induction h with
  | root _ => exact List.nodup_singleton _
  | step _ _ _ hfresh ih => exact List.nodup_cons.mpr ⟨hfresh, ih⟩

/-! ## Rows that link to rows -/

/-- A row with a new, non-empty id. Its parent is null or a row; the parent of a leaf row does not
matter. -/
structure SessionTreeEntry.Links (row : SessionTreeEntry) (s : SessionStorage) : Prop where
  named : row.id ≠ ""
  fresh : s.has row.id = false
  parent : row.isLeaf = false → s.Known row.parentId

/-- From every row the loop reaches a root. -/
structure SessionStorage.Rooted (s : SessionStorage) : Prop where
  indexed : s.Indexed
  named : ∀ id, s.has id = true → id ≠ ""
  logical : ∀ id, s.logicalParentsById id ≠ none → s.has id = true
  leaf : s.Known s.leafId
  cursor : s.Known s.appendParentId
  chain : ∀ id row, s.byId id = some row →
    ∃ ids path, s.Chain row ids path ∧ ∀ i ∈ ids, s.has i = true

variable {id : String}

theorem has_of_byId (h : s.byId id = some row) : s.has id = true := by
  rw [SessionStorage.has, h]
  rfl

theorem byId_of_has (h : s.has id = true) :
    ∃ row, s.byId id = some row := Option.isSome_iff_exists.mp h

theorem byId_record_of_ne (s : SessionStorage) (row : SessionTreeEntry) (h : id ≠ row.id) :
    (s.record row).byId id = s.byId id := Function.update_of_ne h ..

theorem byId_record_self (s : SessionStorage) (row : SessionTreeEntry) :
    (s.record row).byId row.id = some row := Function.update_self ..

theorem logicalParents_record_of_ne (s : SessionStorage) (row : SessionTreeEntry)
    (h : id ≠ row.id) : (s.record row).logicalParentsById id = s.logicalParentsById id := by
  show (if overridesParent s.leafId s.appendParentId row then
    Function.update s.logicalParentsById row.id (some s.leafId) else s.logicalParentsById) id = _
  split
  · exact Function.update_of_ne h ..
  · rfl

section

variable {s : SessionStorage} {new : SessionTreeEntry} (hs : s.Rooted) (hnew : new.Links s)

include hnew

theorem ne_new (h : s.has id = true) : id ≠ new.id := by
  rintro rfl
  rw [hnew.fresh] at h
  cases h

theorem byId_record_of_has (h : s.byId id = some row) : (s.record new).byId id = some row := by
  rw [byId_record_of_ne s new (ne_new hnew (has_of_byId h)), h]

theorem SessionStorage.Chain.record (h : s.Chain row ids path) (hids : ∀ i ∈ ids, s.has i = true) :
    (s.record new).Chain row ids path := by
  have hparent : ∀ row : SessionTreeEntry, s.has row.id = true →
      (s.record new).parentIdOf row = s.parentIdOf row := by
    intro row hrow
    rw [SessionStorage.parentIdOf, SessionStorage.parentIdOf,
      logicalParents_record_of_ne s new (ne_new hnew hrow)]
  induction h with
  | root hroot => exact .root ((hparent _ (hids _ List.mem_cons_self)).trans hroot)
  | step hparentId hbyId _ hfresh ih =>
    exact .step ((hparent _ (hids _ List.mem_cons_self)).trans hparentId)
      (byId_record_of_has hnew hbyId) (ih fun i hi => hids i (List.mem_cons_of_mem _ hi)) hfresh

include hs

section

variable (hvalid : s.validateEntryForAppend new = .ok ())
include hvalid

theorem parentIdOf_new_known : s.Known ((s.record new).parentIdOf new) := by
  intro target ht
  obtain ⟨ht, -⟩ := Option.filter_eq_some_iff.mp ht
  cases hleaf : new.isLeaf with
  | true =>
    rw [SessionStorage.validateEntryForAppend, hleaf, if_pos rfl, Except.bind_eq_ok] at hvalid
    obtain ⟨_, htarget, -⟩ := hvalid
    rw [SessionTreeEntry.isLeaf] at hleaf
    split at hleaf
    · rename_i targetId appendParentId hbody
      rw [hbody] at ht
      rw [leafIdUpdateAfterEntry, hbody] at htarget
      exact requireKnown_eq_ok.mp htarget target ht
    · cases hleaf
  | false =>
    have hdefault : ((s.record new).logicalParentsById new.id).getD new.parentId = some target := by
      rw [SessionTreeEntry.isLeaf] at hleaf
      split at ht
      · rename_i targetId appendParentId hbody
        rw [hbody] at hleaf
        cases hleaf
      · exact ht
    by_cases hover : overridesParent s.leafId s.appendParentId new = true
    · have hlogical : (s.record new).logicalParentsById new.id = some s.leafId := by
        show (if overridesParent s.leafId s.appendParentId new then
          Function.update s.logicalParentsById new.id (some s.leafId)
          else s.logicalParentsById) new.id = _
        rw [if_pos hover, Function.update_self]
      rw [hlogical] at hdefault
      exact hs.leaf target hdefault
    · have hlogical : (s.record new).logicalParentsById new.id = none := by
        show (if overridesParent s.leafId s.appendParentId new then
          Function.update s.logicalParentsById new.id (some s.leafId)
          else s.logicalParentsById) new.id = _
        rw [if_neg hover]
        by_contra hne
        exact ne_new hnew (hs.logical _ hne) rfl
      rw [hlogical] at hdefault
      exact hnew.parent hleaf target hdefault

theorem chain_new :
    ∃ ids path, (s.record new).Chain new ids path ∧ ∀ i ∈ ids, (s.record new).has i = true := by
  have hself : (s.record new).has new.id = true := by
    rw [has_record, decide_eq_true rfl, Bool.true_or]
  cases hparent : (s.record new).parentIdOf new with
  | none =>
    refine ⟨_, _, .root hparent, ?_⟩
    rw [List.forall_mem_singleton]
    exact hself
  | some parentId =>
    have hknown := parentIdOf_new_known hs hnew hvalid parentId hparent
    obtain ⟨parent, hbyId⟩ := byId_of_has hknown
    obtain ⟨ids, path, hchain, hids⟩ := hs.chain parentId parent hbyId
    refine ⟨_, _, .step hparent (byId_record_of_has hnew hbyId) (hchain.record hnew hids)
      fun hmem => ne_new hnew (hids _ hmem) rfl, ?_⟩
    rw [List.forall_mem_cons]
    refine ⟨hself, fun i hi => ?_⟩
    rw [has_record, hids i hi, Bool.or_true]

/-- **A linked row keeps the tree rooted.** -/
theorem SessionStorage.Rooted.record : (s.record new).Rooted := by
  obtain ⟨hleaf, hcursor⟩ := known_record hs.leaf hvalid
  have hcases : ∀ id row, (s.record new).byId id = some row →
      (id = new.id ∧ row = new) ∨ s.byId id = some row := by
    intro id row h
    by_cases hid : id = new.id
    · subst hid
      rw [byId_record_self] at h
      exact .inl ⟨rfl, (Option.some.inj h).symm⟩
    · rw [byId_record_of_ne s new hid] at h
      exact .inr h
  refine ⟨?_, ?_, ?_, hleaf, hcursor, ?_⟩
  · intro id row h
    show row.id = id ∧ id ∈ (s.entries ++ [new]).map SessionTreeEntry.id
    rw [List.map_append, List.mem_append]
    rcases hcases id row h with ⟨rfl, rfl⟩ | h
    · exact ⟨rfl, .inr List.mem_cons_self⟩
    · exact ⟨(hs.indexed id row h).1, .inl (hs.indexed id row h).2⟩
  · intro id h
    rw [has_record, Bool.or_eq_true, decide_eq_true_eq] at h
    rcases h with rfl | h
    · exact hnew.named
    · exact hs.named id h
  · intro id h
    rw [has_record, Bool.or_eq_true, decide_eq_true_eq]
    by_cases hid : id = new.id
    · exact .inl hid
    · rw [logicalParents_record_of_ne s new hid] at h
      exact .inr (hs.logical id h)
  · intro id row h
    rcases hcases id row h with ⟨rfl, rfl⟩ | h
    · exact chain_new hs hnew hvalid
    · obtain ⟨ids, path, hchain, hids⟩ := hs.chain id row h
      refine ⟨ids, path, hchain.record hnew hids, fun i hi => ?_⟩
      rw [has_record, hids i hi, Bool.or_true]

end

end

/-! ## The loop ends -/

theorem indexed_replay (rows : List SessionTreeEntry) : (SessionStorage.replay rows).Indexed := by
  induction rows using List.reverseRecOn with
  | nil => exact fun _ _ h => by cases h
  | append_singleton rows last ih =>
    rw [replay_concat]
    intro id row h
    show row.id = id ∧ id ∈ ((SessionStorage.replay rows).entries ++ [last]).map SessionTreeEntry.id
    rw [List.map_append, List.mem_append]
    by_cases hid : id = last.id
    · rw [hid, byId_record_self, Option.some.injEq] at h
      exact ⟨h ▸ hid.symm, .inr (List.mem_singleton.2 hid)⟩
    · rw [byId_record_of_ne _ last hid] at h
      exact ⟨(ih id row h).1, .inl (ih id row h).2⟩

theorem walkToRoot_nodup {fuel : Nat} {acc : List SessionTreeEntry}
    (h : s.walkToRoot fuel seen acc row = .ok path) (hnodup : (acc.map SessionTreeEntry.id).Nodup)
    (hacc : acc.map SessionTreeEntry.id ⊆ seen) : (path.map SessionTreeEntry.id).Nodup := by
  induction fuel generalizing seen acc row with
  | zero => cases h
  | succ fuel ih =>
    rw [SessionStorage.walkToRoot] at h
    split at h
    · cases h
    · rename_i hfresh
      have hsub : (visibleRow row ++ acc).map SessionTreeEntry.id ⊆ row.id :: seen := by
        unfold visibleRow
        split <;> simp [List.Subset.trans hacc (List.subset_cons_self row.id seen)]
      have hnext : ((visibleRow row ++ acc).map SessionTreeEntry.id).Nodup := by
        unfold visibleRow
        split
        · exact hnodup
        · exact List.nodup_cons.2 ⟨fun hmem => hfresh (hacc hmem), hnodup⟩
      split at h
      · cases h
        exact hnext
      · split at h
        · cases h
        · exact ih h hnext hsub

/-- **The loop of `getPathToRoot` ends**, whatever rows the storage was made to accept: with a path
without a repeated row, or with an error for what is missing or a cycle. -/
theorem getPathToRoot_ends {s : JsonlSessionStorage}
    (hs : Lts.Reachable JsonlSessionStorage.Opened JsonlSessionStorage.Step s)
    (leafId : Option String) :
    (∃ path, s.storage.getPathToRoot leafId = .ok path ∧ (path.map SessionTreeEntry.id).Nodup) ∨
      ∃ e, s.storage.getPathToRoot leafId = .error e ∧ e.code ∈ ["not_found", "invalid_session"] := by
  have hindexed : s.storage.Indexed := (synced_of_reachable hs).replayed ▸ indexed_replay s.file
  unfold SessionStorage.getPathToRoot
  cases leafId with
  | none => exact .inl ⟨[], rfl, List.nodup_nil⟩
  | some id =>
    dsimp only
    cases hrow : s.storage.byId id with
    | none => exact .inr ⟨_, rfl, List.mem_cons_self⟩
    | some row =>
      cases hwalk : s.storage.walkToRoot (s.storage.entries.length + 1) [] [] row with
      | ok path => exact .inl ⟨path, hwalk, walkToRoot_nodup hwalk List.nodup_nil (List.nil_subset _)⟩
      | error e =>
        obtain ⟨hid, hmem⟩ := hindexed id row hrow
        have hcode := walkToRoot_fuel hindexed _ List.nodup_nil (List.nil_subset _) (hid.symm ▸ hmem)
          (Nat.zero_add _) hwalk
        exact .inr ⟨e, hwalk, by simp [hcode]⟩

/-! ## Paths of rooted trees -/

theorem getPathToRoot_of_chain (hs : s.Rooted) (hrow : s.byId id = some row)
    (hchain : s.Chain row ids path) (hids : ∀ i ∈ ids, s.has i = true) :
    s.getPathToRoot (some id) = .ok path := by
  have hsubset : ids ⊆ s.entries.map SessionTreeEntry.id := by
    intro i hi
    obtain ⟨row', hrow'⟩ := byId_of_has (hids i hi)
    exact (hs.indexed i row' hrow').2
  have hlen := (hchain.nodup.subperm hsubset).length_le
  rw [List.length_map] at hlen
  have hwalk : s.walkToRoot (s.entries.length + 1) [] [] row = .ok (path ++ []) :=
    walkToRoot_of_chain hchain (Nat.le_succ_of_le hlen) fun _ _ => List.not_mem_nil
  rw [List.append_nil] at hwalk
  simp only [SessionStorage.getPathToRoot, hrow]
  exact hwalk

theorem getPathToRoot_known (hs : s.Rooted) {id : Option String} (hid : s.Known id) :
    ∃ path, s.getPathToRoot id = .ok path := by
  cases id with
  | none => exact ⟨[], rfl⟩
  | some id =>
    obtain ⟨row, hrow⟩ := byId_of_has (hid id rfl)
    obtain ⟨ids, path, hchain, hids⟩ := hs.chain id row hrow
    exact ⟨path, getPathToRoot_of_chain hs hrow hchain hids⟩

variable {new : SessionTreeEntry}

theorem getPathToRoot_new (hs : s.Rooted) (hnew : new.Links s)
    (hvalid : s.validateEntryForAppend new = .ok ()) (hleaf : new.isLeaf = false)
    {id : Option String} (hparent : (s.record new).parentIdOf new = id) :
    ∃ path, s.getPathToRoot id = .ok path ∧
      (s.record new).getPathToRoot (some new.id) = .ok (path ++ [new]) := by
  have hrooted := hs.record hnew hvalid
  have hrow := byId_record_self s new
  have hvisible : visibleRow new = [new] := by
    rw [visibleRow, hleaf]
    rfl
  have hself : (s.record new).has new.id = true := has_of_byId hrow
  cases id with
  | none =>
    refine ⟨[], rfl, ?_⟩
    rw [List.nil_append, ← hvisible]
    refine getPathToRoot_of_chain hrooted hrow (.root hparent) ?_
    rw [List.forall_mem_singleton]
    exact hself
  | some id =>
    obtain ⟨parent, hbyId⟩ := byId_of_has
      (parentIdOf_new_known hs hnew hvalid id (by rw [hparent]))
    obtain ⟨ids, path, hchain, hids⟩ := hs.chain id parent hbyId
    refine ⟨path, getPathToRoot_of_chain hs hbyId hchain hids, ?_⟩
    rw [← hvisible]
    refine getPathToRoot_of_chain hrooted hrow (.step hparent (byId_record_of_has hnew hbyId)
      (hchain.record hnew hids) fun hmem => ne_new hnew (hids _ hmem) rfl) ?_
    rw [List.forall_mem_cons]
    refine ⟨hself, fun i hi => ?_⟩
    rw [has_record, hids i hi, Bool.or_true]

theorem parentIdOf_on_cursor (hs : s.Rooted) (hfresh : s.has new.id = false)
    (hvisible : leafIdUpdateAfterEntry new = some (some new.id)) (hside : new.side = false)
    (hleaf : new.isLeaf = false) (hparent : new.parentId = s.appendParentId) :
    (s.record new).parentIdOf new = s.leafId := by
  have hover : overridesParent s.leafId s.appendParentId new =
      decide (s.leafId ≠ s.appendParentId) := by
    rw [overridesParent, decide_eq_true hvisible, hside, decide_eq_true hparent]
    rfl
  have hlogical : ((s.record new).logicalParentsById new.id).getD new.parentId = s.leafId := by
    show ((if overridesParent s.leafId s.appendParentId new then
      Function.update s.logicalParentsById new.id (some s.leafId)
      else s.logicalParentsById) new.id).getD new.parentId = s.leafId
    rw [hover]
    by_cases hsame : s.leafId = s.appendParentId
    · have hnone : s.logicalParentsById new.id = none := by
        by_contra hne
        rw [hs.logical _ hne] at hfresh
        cases hfresh
      rw [decide_eq_false (not_not_intro hsame), if_neg Bool.false_ne_true, hnone, hparent]
      exact hsame.symm
    · rw [decide_eq_true hsame, if_pos rfl, Function.update_self]
      rfl
  have hnonempty : s.leafId.filter (fun id => id ≠ "") = s.leafId := by
    cases hleafId : s.leafId with
    | none => rfl
    | some id =>
      have hne := hs.named id (hs.leaf id hleafId)
      simp [Option.filter, hne]
  rw [SessionStorage.parentIdOf]
  rw [SessionTreeEntry.isLeaf] at hleaf
  split
  · rename_i hbody
    rw [hbody] at hleaf
    cases hleaf
  · rw [hlogical, hnonempty]

/-! ## Ids -/

theorem AppendCall.isVisible (call : AppendCall) (id : String) (parentId : Option String)
    (timestamp : Timestamp) :
    (⟨id, parentId, timestamp, false, call.body⟩ : SessionTreeEntry).isLeaf = false ∧
      leafIdUpdateAfterEntry ⟨id, parentId, timestamp, false, call.body⟩ = some (some id) := by
  cases call <;> exact ⟨rfl, rfl⟩

theorem validate_of_not_leaf (h : row.isLeaf = false) : s.validateEntryForAppend row = .ok () := by
  rw [SessionStorage.validateEntryForAppend, h, if_neg Bool.false_ne_true]

variable {t : JsonlSessionStorage}

theorem appendEntry_of_not_leaf {s : JsonlSessionStorage} (h : row.isLeaf = false) :
    s.appendEntry row = .ok ⟨s.storage.record row, s.file ++ [row]⟩ := by
  simp only [JsonlSessionStorage.appendEntry, SessionStorage.recordEntry, Except.bind_eq_ok,
    Except.pure_eq_ok]
  exact ⟨(), validate_of_not_leaf h, _, ⟨(), validate_of_not_leaf h, rfl⟩, rfl⟩

variable {call : AppendCall} {entry : SessionTreeEntry}

variable {input : AppendInput}

theorem record_on_cursor (hs : s.Rooted) (hnamed : entry.id ≠ "")
    (hfresh : s.has entry.id = false) (hleaf : entry.isLeaf = false)
    (hvisible : leafIdUpdateAfterEntry entry = some (some entry.id)) (hside : entry.side = false)
    (hparent : entry.parentId = s.appendParentId) :
    (s.record entry).Rooted ∧ ∃ path, s.getPathToRoot s.leafId = .ok path ∧
      (s.record entry).getPathToRoot (s.record entry).leafId = .ok (path ++ [entry]) := by
  have hlinks : entry.Links s := ⟨hnamed, hfresh, fun _ => hparent ▸ hs.cursor⟩
  have hvalid : s.validateEntryForAppend entry = .ok () := validate_of_not_leaf hleaf
  have hlogical := parentIdOf_on_cursor hs hfresh hvisible hside hleaf hparent
  obtain ⟨path, hbefore, hafter⟩ := getPathToRoot_new hs hlinks hvalid hleaf hlogical
  refine ⟨hs.record hlinks hvalid, path, hbefore, ?_⟩
  have hleafId : (s.record entry).leafId = some entry.id := by
    show (leafIdUpdateAfterEntry entry).getD s.leafId = some entry.id
    rw [hvisible]
    rfl
  rw [hleafId]
  exact hafter

/-- Every row the operation appends has a new id and a parent that is null or a row. -/
def JsonlSessionStorage.Linked (s : JsonlSessionStorage) (op : StorageOp) : Prop :=
  (s.rowOf op).Links s.storage

/-- A state of a session: reached from a new file by operations that append linked rows. -/
def JsonlSessionStorage.InSession (s : JsonlSessionStorage) : Prop :=
  Lts.Reachable (· = JsonlSessionStorage.create)
    (Lts.Guarded JsonlSessionStorage.Step JsonlSessionStorage.Linked) s

theorem rooted_create : JsonlSessionStorage.create.storage.Rooted where
  indexed _ _ h := by cases h
  named _ h := by cases h
  logical _ h := absurd rfl h
  leaf _ h := by cases h
  cursor _ h := by cases h
  chain _ _ h := by cases h

theorem rooted_of_inSession {s : JsonlSessionStorage} (hs : s.InSession) : s.storage.Rooted := by
  refine Lts.Reachable.invariant (I := fun s => s.storage.Rooted) hs ?_ ?_
  · rintro s rfl
    exact rooted_create
  · rintro s op t hrooted ⟨hstep, hlinks⟩
    obtain ⟨hvalid, rfl⟩ := perform_eq_ok hstep
    exact hrooted.record hlinks hvalid

/-- The storage after some rows, none of which is refused. -/
def JsonlSessionStorage.written (s : JsonlSessionStorage) (rows : List SessionTreeEntry) :
    JsonlSessionStorage :=
  rows.foldl (fun s row => ⟨s.storage.record row, s.file ++ [row]⟩) s

theorem reachable_written (rows : List SessionTreeEntry) {s : JsonlSessionStorage}
    (hs : Lts.Reachable JsonlSessionStorage.Opened JsonlSessionStorage.Step s)
    (hrows : ∀ row ∈ rows, row.isLeaf = false) :
    Lts.Reachable JsonlSessionStorage.Opened JsonlSessionStorage.Step (s.written rows) := by
  induction rows generalizing s with
  | nil => exact hs
  | cons row rows ih =>
    have hrow := hrows row List.mem_cons_self
    exact ih (hs.next (a := .appendEntry row) (appendEntry_of_not_leaf hrow))
      fun row' h => hrows row' (List.mem_cons_of_mem row h)

def customRow (id : String) (parentId : Option String) : SessionTreeEntry :=
  ⟨id, parentId, .valid 0, false, .custom "note"⟩

theorem getPathToRoot_ends_cycle : ∃ e,
    (JsonlSessionStorage.create.written [customRow "a" none, customRow "b" (some "a"),
      customRow "a" (some "b")]).storage.getPathToRoot (some "b") = .error e ∧
    e.code ∈ ["not_found", "invalid_session"] := by
  have hreached := reachable_written [customRow "a" none, customRow "b" (some "a"),
    customRow "a" (some "b")] (.start create_opened) (by decide)
  rcases getPathToRoot_ends hreached (some "b") with ⟨path, hpath, -⟩ | h
  · cases hpath
  · exact h

end OpenClaw.Harness
