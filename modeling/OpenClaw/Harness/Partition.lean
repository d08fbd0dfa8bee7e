import Mathlib.Data.List.Induction
import OpenClaw.Harness.Compaction

/-!
# Compaction partitions the context

**Theorem (`compaction_partitions_context`).** Let `prepareCompaction` prepare a path, and append a
compaction row with the prepared first kept id. The messages of the old context, without its leading
summary, are the messages to summarize, the turn prefix and the messages of the new context, without
its leading summary, in this order, **if and only if** no row with a message stands between the last
compaction of the path and the row that it names as first kept (`skippedRows`).

**Proof.** Both sides are loops over windows of the path. The cut point lies in the window that
preparation looks at (`findCutPoint_window`), so what is prepared and what is kept are that window,
cut (`prepared_window`). The old context shows the same window, and before it the skipped rows
(`context_window`).
-/

namespace OpenClaw.Harness

variable {path : List SessionTreeEntry} {settings : CompactionSettings}
  {p : CompactionPreparation}

/-! ## Windows of a path -/

variable {i : Nat}

theorem mem_backward {start stop : Nat} : i ∈ backward start stop ↔ start ≤ i ∧ i < stop := by
  rw [backward, List.mem_reverse, List.mem_range'_1]
  omega

variable {j : Nat}

variable {α : Type}

theorem drop_take_append_drop (l : List α) (h : i ≤ j) :
    (l.take j).drop i ++ l.drop j = l.drop i := by
  by_cases hlen : j ≤ l.length
  · have hi : i ≤ (l.take j).length := by
      rw [List.length_take]
      omega
    rw [← List.drop_append_of_le_length hi, List.take_append_drop]
  · rw [List.take_of_length_le (by omega), List.drop_eq_nil_of_le (by omega : l.length ≤ j),
      List.append_nil]

theorem rowsBetween_append {k : Nat} (hij : i ≤ j) (hjk : j ≤ k) :
    rowsBetween path i j ++ rowsBetween path j k = rowsBetween path i k := by
  have htake : path.take j = (path.take k).take j := by rw [List.take_take, Nat.min_eq_left hjk]
  rw [rowsBetween, rowsBetween, rowsBetween, htake, drop_take_append_drop _ hij]

theorem rowsBetween_of_le (h : j ≤ i) : rowsBetween path i j = [] := by
  rw [rowsBetween, List.drop_eq_nil_of_le]
  rw [List.length_take]
  omega

variable {e : SessionTreeEntry}

theorem rowsBetween_subset (h : e ∈ rowsBetween path i j) : e ∈ path :=
  List.mem_of_mem_take (List.mem_of_mem_drop h)

/-! ## The cut point lies in the window -/

variable {startIndex : Nat}

theorem walkBack_bounds (entries : List SessionTreeEntry) {cutIndex : Nat}
    (h : startIndex ≤ cutIndex) : startIndex ≤ walkBack entries startIndex cutIndex ∧
      walkBack entries startIndex cutIndex ≤ cutIndex := by
  induction cutIndex with
  | zero =>
    rw [walkBack]
    omega
  | succ prev ih =>
    rw [walkBack]
    split
    · split
      · omega
      · have := ih (by omega)
        omega
    · omega

variable {entries : List SessionTreeEntry}

theorem findValidCutPoints_bounds {endIndex : Nat}
    (h : i ∈ findValidCutPoints entries startIndex endIndex) : startIndex ≤ i ∧ i < endIndex := by
  have hmem := (List.mem_filter.mp h).1
  rw [List.mem_range'_1] at hmem
  omega

theorem findTurnStartIndex_some {entryIndex : Nat}
    (h : findTurnStartIndex entries entryIndex startIndex = some i) :
    startIndex ≤ i ∧ i ≤ entryIndex ∧ entries[i]?.any SessionTreeEntry.startsTurn = true := by
  have hmem := mem_backward.mp (List.mem_of_find?_eq_some h)
  have hstarts := List.find?_some h
  exact ⟨hmem.1, Nat.lt_succ_iff.mp hmem.2, hstarts⟩

theorem findCutPoint_window (entries : List SessionTreeEntry) (startIndex endIndex : Nat)
    (keepRecentTokens : JsNumber) :
    let cut := findCutPoint entries startIndex endIndex keepRecentTokens
    startIndex ≤ cut.firstKeptEntryIndex ∧
      (cut.isSplitTurn = true → ∃ turnStart, cut.turnStartIndex = some turnStart ∧
        startIndex ≤ turnStart ∧ turnStart ≤ cut.firstKeptEntryIndex ∧
        entries[turnStart]?.any SessionTreeEntry.startsTurn = true) := by
  intro cut
  simp only [cut, findCutPoint]
  split
  · simp
  · rename_i first more heq
    have hcut : ∀ i ∈ first :: more, startIndex ≤ i := fun i hi =>
      (findValidCutPoints_bounds (heq ▸ hi)).1
    -- every index the token loop may choose is a valid cut point
    refine ⟨(walkBack_bounds entries ?_).1, ?_⟩
    · split
      · exact hcut first List.mem_cons_self
      · rename_i i _
        cases hfind : (first :: more).find? fun cutPoint => i ≤ cutPoint with
        | none => exact hcut _ (List.getLast_mem _)
        | some j => exact hcut j (List.mem_of_find?_eq_some hfind)
    intro hsplit
    rw [Bool.and_eq_true, Bool.not_eq_true'] at hsplit
    obtain ⟨huser, hturn⟩ := hsplit
    rw [huser, if_neg Bool.false_ne_true] at hturn ⊢
    obtain ⟨turnStart, hts⟩ := Option.isSome_iff_exists.mp hturn
    exact ⟨turnStart, hts, findTurnStartIndex_some hts⟩

/-! ## What preparation reads -/

/-- The branch summaries of a path have a text. -/
def SummariesNonempty (path : List SessionTreeEntry) : Prop :=
  ∀ e ∈ path, ∀ fromId, e.body ≠ .branchSummary fromId ""

theorem getMessageFromEntryForCompaction_eq (hsum : SummariesNonempty path) :
    ∀ e ∈ path, getMessageFromEntryForCompaction e = appendMessage e := by
  intro e he
  have hne := hsum e he
  unfold getMessageFromEntryForCompaction appendMessage getMessageFromEntry
    SessionTreeEntry.compaction?
  cases hbody : e.body with
  | branchSummary fromId summary =>
    have : summary ≠ "" := by
      rintro rfl
      exact hne fromId hbody
    simp [this]
  | _ => simp

/-- Everything a preparation says. -/
structure Prepares (path : List SessionTreeEntry) (settings : CompactionSettings)
    (p : CompactionPreparation) (cut : CutPointResult) : Prop where
  lastRow : (path.getLast?.bind SessionTreeEntry.compaction?) = none
  context : ∃ ctx, buildSessionContext path = .ok ctx
  firstKept : path[cut.firstKeptEntryIndex]?.map SessionTreeEntry.id = some p.firstKeptEntryId
  history : collect getMessageFromEntryForCompaction (rowsBetween path (boundaryStart path)
    (if cut.isSplitTurn then cut.turnStartIndex.getD 0 else cut.firstKeptEntryIndex)) =
      .ok p.messagesToSummarize
  turnPrefix : collect getMessageFromEntryForCompaction
    (if cut.isSplitTurn then
      rowsBetween path (cut.turnStartIndex.getD 0) cut.firstKeptEntryIndex else []) =
      .ok p.turnPrefixMessages
  named : p.firstKeptEntryId ≠ ""
  split : p.isSplitTurn = cut.isSplitTurn
  summary : p.previousSummary = previousSummary path

/-- The cut point that preparation chooses. -/
def cutOf (path : List SessionTreeEntry) (settings : CompactionSettings) : CutPointResult :=
  findCutPoint path (boundaryStart path) path.length settings.keepRecentTokens

theorem cutOf_window (path : List SessionTreeEntry) (settings : CompactionSettings) :
    boundaryStart path ≤ (cutOf path settings).firstKeptEntryIndex ∧
      ((cutOf path settings).isSplitTurn = true → ∃ turnStart,
        (cutOf path settings).turnStartIndex = some turnStart ∧ boundaryStart path ≤ turnStart ∧
        turnStart ≤ (cutOf path settings).firstKeptEntryIndex ∧
        path[turnStart]?.any SessionTreeEntry.startsTurn = true) :=
  findCutPoint_window path (boundaryStart path) path.length settings.keepRecentTokens

section

variable (hp : prepareCompaction path settings = .ok (.ok (some p)))
include hp

theorem prepares : Prepares path settings p (cutOf path settings) := by
  rw [prepareCompaction] at hp
  split at hp
  · cases hp
  · rename_i hlast
    rw [not_or] at hlast
    simp only [Except.bind_eq_ok] at hp
    obtain ⟨ctx, hctx, hp⟩ := hp
    split at hp
    · cases hp
    · rename_i hid
      simp only [Except.bind_eq_ok] at hp
      obtain ⟨history, hhistory, turnPrefix, hturn, hp⟩ := hp
      cases hp
      refine ⟨?_, ⟨ctx, hctx⟩, ?_, hhistory, hturn, hid, rfl, rfl⟩
      · simpa using hlast.2
      · cases hrow : path[(cutOf path settings).firstKeptEntryIndex]? with
        | none =>
          have hnone : (path[(findCutPoint path (boundaryStart path) path.length
              settings.keepRecentTokens).firstKeptEntryIndex]?) = none := hrow
          rw [hnone] at hid
          exact absurd rfl hid
        | some row =>
          have hsome : (path[(findCutPoint path (boundaryStart path) path.length
              settings.keepRecentTokens).firstKeptEntryIndex]?) = some row := hrow
          simp only [hsome]
          rfl

theorem prepared_window (hsum : SummariesNonempty path) :
    collect appendMessage (rowsBetween path (boundaryStart path)
      (cutOf path settings).firstKeptEntryIndex) =
        .ok (p.messagesToSummarize ++ p.turnPrefixMessages) := by
  have hprep := prepares hp
  have hcongr : ∀ i j, collect getMessageFromEntryForCompaction (rowsBetween path i j) =
      collect appendMessage (rowsBetween path i j) := fun i j =>
    collect_congr fun e he =>
      getMessageFromEntryForCompaction_eq hsum e (rowsBetween_subset he)
  have hhistory := hprep.history
  have hturn := hprep.turnPrefix
  cases hsplit : (cutOf path settings).isSplitTurn with
  | false =>
    rw [hsplit, if_neg Bool.false_ne_true] at hhistory hturn
    rw [collect_nil, Except.ok.injEq] at hturn
    rw [← hturn, List.append_nil, ← hcongr]
    exact hhistory
  | true =>
    obtain ⟨turnStart, hts, hlow, hhigh, -⟩ := (cutOf_window path settings).2 hsplit
    rw [hsplit, if_pos rfl] at hhistory hturn
    have hget : (cutOf path settings).turnStartIndex.getD 0 = turnStart := by
      rw [hts]
      rfl
    rw [hget, hcongr] at hhistory hturn
    rw [← rowsBetween_append hlow hhigh]
    exact collect_append.mpr ⟨_, _, hhistory, hturn, rfl⟩

theorem kept_window (hids : (path.map SessionTreeEntry.id).Nodup) :
    replayKept p.firstKeptEntryId false path =
      collect appendMessage (path.drop (cutOf path settings).firstKeptEntryIndex) := by
  obtain ⟨row, hrow, hid⟩ := Option.map_eq_some_iff.mp (prepares hp).firstKept
  obtain ⟨hlt, rfl⟩ := List.getElem?_eq_some_iff.mp hrow
  have hsplit := List.take_append_drop (cutOf path settings).firstKeptEntryIndex path
  rw [List.drop_eq_getElem_cons hlt] at hsplit ⊢
  conv_lhs => rw [← hsplit]
  refine replayKept_of_first hid fun e he => ?_
  -- an earlier row with the id of the first kept one would repeat it
  rw [← hsplit, List.map_append, List.map_cons] at hids
  rw [← hid]
  intro heq
  exact (List.nodup_append.mp hids).2.2 _ (List.mem_map_of_mem he) _ List.mem_cons_self heq

end

/-! ## What the old context shows -/

theorem findSome?_congr {β : Type} {f g : α → Option β} {l : List α} (h : ∀ a ∈ l, f a = g a) :
    l.findSome? f = l.findSome? g := by
  induction l with
  | nil => rfl
  | cons a l ih =>
    rw [List.findSome?_cons, List.findSome?_cons, h a List.mem_cons_self,
      ih fun b hb => h b (List.mem_cons_of_mem a hb)]

theorem prevCompaction_concat (path : List SessionTreeEntry) (entry : SessionTreeEntry) :
    prevCompaction (path ++ [entry]) =
      (entry.compaction?.map fun c => (path.length, c)).or (prevCompaction path) := by
  have hindices : backward 0 (path ++ [entry]).length = path.length :: backward 0 path.length := by
    rw [backward, backward, List.length_append, List.length_singleton, Nat.sub_zero, Nat.sub_zero,
      List.range'_concat, List.reverse_append]
    simp
  have hrest : ∀ i ∈ backward 0 path.length,
      (do let row ← (path ++ [entry])[i]?
          let compaction ← row.compaction?
          some (i, compaction)) =
        (do let row ← path[i]?
            let compaction ← row.compaction?
            some (i, compaction) : Option (Nat × CompactionEntry)) := by
    intro i hi
    rw [List.getElem?_append_left (mem_backward.mp hi).2]
  have hlast : (path ++ [entry])[path.length]? = some entry := by simp
  rw [prevCompaction, hindices, List.findSome?_cons, hlast, findSome?_congr hrest,
    ← prevCompaction, Option.bind_eq_bind, Option.bind_some]
  cases h : entry.compaction? with
  | none => rfl
  | some c => rfl

theorem prevCompaction_of_last (before : List SessionTreeEntry) {after : List SessionTreeEntry}
    {row : SessionTreeEntry} {c : CompactionEntry} (hrow : row.compaction? = some c)
    (hafter : ∀ e ∈ after, e.compaction? = none) :
    prevCompaction (before ++ row :: after) = some (before.length, c) := by
  induction after using List.reverseRecOn with
  | nil =>
    rw [prevCompaction_concat, hrow]
    rfl
  | append_singleton after entry ih =>
    have hnone := hafter entry (by simp)
    rw [← List.cons_append, ← List.append_assoc, prevCompaction_concat, hnone]
    exact ih fun e he => hafter e (by simp [he])

theorem prevCompaction_of_none (h : lastCompaction path = none) : prevCompaction path = none := by
  induction path using List.reverseRecOn with
  | nil => rfl
  | append_singleton path entry ih =>
    rw [lastCompaction_concat, Option.or_eq_none_iff] at h
    rw [prevCompaction_concat, h.1, ih h.2]
    rfl

def SessionContext.withoutSummary (ctx : SessionContext) (path : List SessionTreeEntry) :
    List HarnessMessage :=
  if (lastCompaction path).isSome then ctx.messages.tail else ctx.messages

/-- The rows after the last compaction and before the row that it names as first kept, if it names
one after itself. -/
def skippedRows (path : List SessionTreeEntry) : List SessionTreeEntry :=
  match prevCompaction path with
  | some (prevCompactionIndex, _) =>
    rowsBetween path (prevCompactionIndex + 1) (boundaryStart path)
  | none => []

theorem context_window {ctx : SessionContext} (hctx : buildSessionContext path = .ok ctx)
    (hids : (path.map SessionTreeEntry.id).Nodup) :
    ∃ skipped shown, collect appendMessage (skippedRows path) = .ok skipped ∧
      collect appendMessage (path.drop (boundaryStart path)) = .ok shown ∧
      ctx.withoutSummary path = skipped ++ shown := by
  cases hlast : lastCompaction path with
  | none =>
    refine ⟨[], ctx.messages, ?_, ?_, ?_⟩
    · rw [skippedRows, prevCompaction_of_none hlast]
      rfl
    · rw [boundaryStart, prevCompaction_of_none hlast]
      exact buildSessionContext_plain hlast hctx
    · rw [SessionContext.withoutSummary, hlast]
      rfl
  | some c =>
    obtain ⟨before, row, after, rfl, hrow, hafter⟩ := lastCompaction_eq_some hlast
    have hprev := prevCompaction_of_last before hrow hafter
    have hbefore : ∀ e ∈ before, e.id ≠ row.id := by
      intro e he heq
      rw [List.map_append, List.map_cons] at hids
      exact (List.nodup_append.mp hids).2.2 _ (List.mem_map_of_mem he) _ List.mem_cons_self heq
    obtain ⟨summary, kept, newer, hkept, hnewer, hms⟩ :=
      buildSessionContext_compacted hrow hafter hbefore hctx
    have htail : ctx.withoutSummary (before ++ row :: after) = kept ++ newer := by
      rw [SessionContext.withoutSummary, hlast, hms]
      rfl
    have hstart : boundaryStart (before ++ row :: after) =
        ((before ++ row :: after).findIdx? fun e => e.id == c.fields.firstKeptEntryId).getD
          (before.length + 1) := by
      rw [boundaryStart, hprev]
    have hskip : skippedRows (before ++ row :: after) =
        rowsBetween (before ++ row :: after) (before.length + 1)
          (boundaryStart (before ++ row :: after)) := by
      rw [skippedRows, hprev]
    rw [List.findIdx?_append] at hstart
    cases hidx : before.findIdx? fun e => e.id == c.fields.firstKeptEntryId with
    | some j =>
      -- the first kept row stands before the compaction
      rw [hidx, Option.some_or, Option.getD_some] at hstart
      obtain ⟨hj, hfirst, hdropped⟩ := List.findIdx?_eq_some_iff_getElem.mp hidx
      have hcut : collect appendMessage (before.drop j) = .ok kept := by
        rw [← hkept, List.drop_eq_getElem_cons hj]
        conv_rhs => rw [← List.take_append_drop j before, List.drop_eq_getElem_cons hj]
        refine (replayKept_of_first (by simpa using hfirst) fun e he => ?_).symm
        obtain ⟨i, hi, rfl⟩ := List.mem_iff_getElem.mp he
        rw [List.length_take] at hi
        have := hdropped i (by omega)
        simpa using this
      refine ⟨[], kept ++ newer, ?_, ?_, htail⟩
      · rw [hskip, hstart, rowsBetween_of_le (by omega)]
        rfl
      · rw [hstart, List.drop_append_of_le_length (by omega)]
        refine collect_append.mpr ⟨kept, newer, hcut, ?_, rfl⟩
        exact (collect_cons row after).mpr
          ⟨none, newer, appendMessage_of_compaction hrow, hnewer, rfl⟩
    | none =>
      have hkeptNil : kept = [] := by
        rw [replayKept_not_mem] at hkept
        · exact (Except.ok.inj hkept).symm
        · intro e he
          have := List.findIdx?_eq_none_iff.mp hidx e he
          simpa using this
      subst hkeptNil
      rw [hidx, Option.none_or, List.findIdx?_cons] at hstart
      by_cases hself : row.id == c.fields.firstKeptEntryId
      · -- the compaction names itself
        rw [if_pos hself] at hstart
        refine ⟨[], newer, ?_, ?_, htail⟩
        · rw [hskip, hstart, rowsBetween_of_le (by simp)]
          rfl
        · have hdrop : (before ++ row :: after).drop
              (boundaryStart (before ++ row :: after)) = row :: after := by
            rw [hstart]
            simp
          rw [hdrop]
          exact (collect_cons row after).mpr
            ⟨none, newer, appendMessage_of_compaction hrow, hnewer, rfl⟩
      · -- it names a row after itself, or none
        rw [if_neg hself] at hstart
        have hle : before.length + 1 ≤ boundaryStart (before ++ row :: after) := by
          rw [hstart]
          cases after.findIdx? fun e => e.id == c.fields.firstKeptEntryId with
          | none => exact le_rfl
          | some j =>
            show before.length + 1 ≤ j + 1 + before.length
            omega
        have hafterRows : rowsBetween (before ++ row :: after) (before.length + 1)
              (boundaryStart (before ++ row :: after)) ++
            (before ++ row :: after).drop (boundaryStart (before ++ row :: after)) = after := by
          rw [rowsBetween, drop_take_append_drop _ hle, ← List.drop_drop, List.drop_left]
          rfl
        rw [← hafterRows] at hnewer
        obtain ⟨skipped, shown, hskipped, hshown, rfl⟩ := collect_append.mp hnewer
        exact ⟨skipped, shown, hskip ▸ hskipped, hshown, htail⟩

theorem appendMessage_eq_none {m : Option HarnessMessage}
    (hsum : ∀ fromId, e.body ≠ .branchSummary fromId "") (h : appendMessage e = .ok m) :
    m = none ↔ e.carriesMessage = false := by
  rw [appendMessage] at h
  rw [SessionTreeEntry.carriesMessage]
  cases hbody : e.body with
  | message message =>
    rw [hbody] at h
    cases h
    simp
  | customMessage customType content display details =>
    rw [hbody] at h
    obtain ⟨message, -, hm⟩ := Except.bind_eq_ok.mp h
    cases hm
    simp
  | branchSummary fromId summary =>
    have hne : summary ≠ "" := by
      rintro rfl
      exact hsum fromId hbody
    simp only [hbody, if_neg hne] at h
    obtain ⟨message, -, hm⟩ := Except.bind_eq_ok.mp h
    cases hm
    simp
  | _ =>
    rw [hbody] at h
    cases h
    simp

theorem collect_eq_nil_iff {f : SessionTreeEntry → Except String (Option HarnessMessage)}
    {rows : List SessionTreeEntry} {messages : List HarnessMessage}
    (hf : ∀ e ∈ rows, ∀ m, f e = .ok m → (m = none ↔ e.carriesMessage = false))
    (h : collect f rows = .ok messages) :
    messages = [] ↔ ∀ e ∈ rows, e.carriesMessage = false := by
  induction rows generalizing messages with
  | nil =>
    cases h
    simp
  | cons e rows ih =>
    obtain ⟨m, ms, hm, hms, rfl⟩ := (collect_cons e rows).mp h
    have hhead := hf e List.mem_cons_self m hm
    have htail := ih (fun e' he' => hf e' (List.mem_cons_of_mem e he')) hms
    rw [List.append_eq_nil_iff, Option.toList_eq_nil_iff, hhead, htail, List.forall_mem_cons]

/-- **The partition law.** -/
theorem compaction_partitions_context {path : List SessionTreeEntry}
    {settings : CompactionSettings} {p : CompactionPreparation} {row : SessionTreeEntry}
    {c : CompactionEntry} (hp : prepareCompaction path settings = .ok (.ok (some p)))
    (hrow : row.compaction? = some c) (hkept : c.fields.firstKeptEntryId = p.firstKeptEntryId)
    (hts : c.timestamp.parsed ≠ none) (hids : ((path ++ [row]).map SessionTreeEntry.id).Nodup)
    (hsum : SummariesNonempty path) :
    ∃ ctx ctx', buildSessionContext path = .ok ctx ∧
      buildSessionContext (path ++ [row]) = .ok ctx' ∧
      (ctx.withoutSummary path =
          p.messagesToSummarize ++ p.turnPrefixMessages ++ ctx'.withoutSummary (path ++ [row]) ↔
        ∀ e ∈ skippedRows path, e.carriesMessage = false) := by
  rw [List.map_append] at hids
  obtain ⟨hpath, -, hfresh⟩ := List.nodup_append.mp hids
  obtain ⟨ctx, hctx⟩ := (prepares hp).context
  obtain ⟨skipped, shown, hskipped, hshown, hold⟩ := context_window hctx hpath
  -- the window, cut at the first kept row
  rw [← drop_take_append_drop path (cutOf_window path settings).1] at hshown
  obtain ⟨prepared, kept, hprepared, hkeptRows, rfl⟩ := collect_append.mp hshown
  have hsame : prepared = p.messagesToSummarize ++ p.turnPrefixMessages :=
    Except.ok.inj (hprepared.symm.trans (prepared_window hp hsum))
  -- the new context shows the kept rows
  have hreplay : replayKept c.fields.firstKeptEntryId false path = .ok kept := by
    rw [hkept, kept_window hp hpath]
    exact hkeptRows
  have hrowId : ∀ e ∈ path, e.id ≠ row.id := fun e he =>
    hfresh _ (List.mem_map_of_mem he) _ (by simp)
  obtain ⟨ctx', summary, hctx', hms'⟩ := buildSessionContext_compacted_ok hrow
    (List.forall_mem_nil _) hrowId hts hreplay rfl
  have hnew : ctx'.withoutSummary (path ++ [row]) = kept := by
    rw [SessionContext.withoutSummary, lastCompaction_concat, hrow, Option.some_or,
      Option.isSome_some, if_pos rfl, hms', List.tail_cons, List.append_nil]
  refine ⟨ctx, ctx', hctx, hctx', ?_⟩
  have hskipSum : SummariesNonempty (skippedRows path) := by
    intro e he
    rw [skippedRows] at he
    split at he
    · exact hsum e (rowsBetween_subset he)
    · cases he
  rw [hold, hnew, hsame, ← collect_eq_nil_iff
    (fun e he m => appendMessage_eq_none (hskipSum e he)) hskipped]
  constructor
  · intro h
    have hlen := congrArg List.length h
    rw [List.length_append] at hlen
    exact List.length_eq_zero_iff.mp (by omega)
  · rintro rfl
    rfl

/-! ## Two paths -/

/-- A user message with the text as its id. -/
def userRow (id : String) : SessionTreeEntry :=
  ⟨id, none, .valid 0, false, .message (.user (.text id))⟩

def compactionRow (id firstKeptEntryId : String) : SessionTreeEntry :=
  ⟨id, none, .valid 0, false, .compaction ⟨"summary", firstKeptEntryId, 0, none, false⟩⟩

def keepOneToken : CompactionSettings := ⟨true, .finite 0, .finite 1⟩

/-- A user message before, between and after two compactions. -/
def keptTailPath : List SessionTreeEntry :=
  [userRow "a", userRow "b", compactionRow "c" "b", userRow "d", userRow "e"]

def keptTailPreparation : CompactionPreparation :=
  ⟨"e", [.user (.text "b"), .user (.text "d")], [], false, 5, some "summary", createFileOps,
    keepOneToken⟩

theorem keptTailPath_prepares :
    prepareCompaction keptTailPath keepOneToken = .ok (.ok (some keptTailPreparation)) := rfl

/-- Of a kept tail and two newer messages, two are summarized and one is kept. -/
theorem compaction_partitions_kept_tail :
    (∀ e ∈ skippedRows keptTailPath, e.carriesMessage = false) ∧
    ∃ ctx ctx', buildSessionContext keptTailPath = .ok ctx ∧
      buildSessionContext (keptTailPath ++ [compactionRow "f" "e"]) = .ok ctx' ∧
      (ctx.withoutSummary keptTailPath =
          keptTailPreparation.messagesToSummarize ++ keptTailPreparation.turnPrefixMessages ++
            ctx'.withoutSummary (keptTailPath ++ [compactionRow "f" "e"]) ↔
        ∀ e ∈ skippedRows keptTailPath, e.carriesMessage = false) :=
  ⟨by decide +kernel, compaction_partitions_context keptTailPath_prepares rfl rfl (by decide)
    (by decide) (by
      intro e he fromId
      simp only [keptTailPath, List.mem_cons, List.not_mem_nil, or_false] at he
      rcases he with rfl | rfl | rfl | rfl | rfl <;> exact nofun)⟩

/-- The compaction names the message after next, so the next one is neither summarized nor kept. -/
def forwardPath : List SessionTreeEntry := [compactionRow "c" "b", userRow "a", userRow "b"]

def forwardPreparation : CompactionPreparation :=
  ⟨"b", [], [], false, 4, some "summary", createFileOps, keepOneToken⟩

theorem forwardPath_prepares :
    prepareCompaction forwardPath keepOneToken = .ok (.ok (some forwardPreparation)) := rfl

/-- Without a condition the partition law is false. -/
theorem forward_first_kept_loses_message :
    ¬ ∀ path settings p row c, prepareCompaction path settings = .ok (.ok (some p)) →
      row.compaction? = some c → c.fields.firstKeptEntryId = p.firstKeptEntryId →
      c.timestamp.parsed ≠ none → ((path ++ [row]).map SessionTreeEntry.id).Nodup →
      SummariesNonempty path →
      ∃ ctx ctx', buildSessionContext path = .ok ctx ∧
        buildSessionContext (path ++ [row]) = .ok ctx' ∧
        ctx.withoutSummary path =
          p.messagesToSummarize ++ p.turnPrefixMessages ++
            ctx'.withoutSummary (path ++ [row]) := by
  intro h
  obtain ⟨ctx, ctx', hctx, hctx', heq⟩ := h forwardPath keepOneToken forwardPreparation
    (compactionRow "f" "b") _ forwardPath_prepares rfl rfl (by decide) (by decide) (by
      intro e he fromId
      simp only [forwardPath, List.mem_cons, List.not_mem_nil, or_false] at he
      rcases he with rfl | rfl | rfl <;> exact nofun)
  have hold : buildSessionContext forwardPath = .ok ⟨[.compactionSummary "summary" 0 0,
    .user (.text "a"), .user (.text "b")], "off", none⟩ := rfl
  have hnew : buildSessionContext (forwardPath ++ [compactionRow "f" "b"]) =
    .ok ⟨[.compactionSummary "summary" 0 0, .user (.text "b")], "off", none⟩ := rfl
  cases hctx.symm.trans hold
  cases hctx'.symm.trans hnew
  exact absurd (congrArg List.length heq) (by decide +kernel)

end OpenClaw.Harness
