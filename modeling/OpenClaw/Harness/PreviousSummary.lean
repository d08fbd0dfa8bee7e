import Mathlib.Data.List.Nodup
import OpenClaw.Harness.Partition
import OpenClaw.Lib.Lts

/-!
# The previous compaction summary

A compaction is given the summary of the one before it, and should either pass it on to the
summarizer or keep it. When the cut splits a turn and nothing stands before that turn in the retained
window (`SplitsTurnWithoutHistory`), there is no history to summarize: the history part of the new
summary is the text "No prior history.", and the previous summary goes nowhere
(`long_turn_drops_previous_summary`).

**Theorem (`previous_summary_carried_over`).** Every successful run of a preparation carries the
previous summary over if and only if the preparation is not such a one, or the summary happens to be
part of the fixed texts around the turn prefix summary. A history whose compactions all carry it over
is `Accounted`: each message is in the context or was in a request, and each summary is the current
one, or went to the summarizer, or is in a later summary.

**Proof.** A successful run asks exactly `requests` (`compact_ok`). The run law is an invariant of
histories: with the partition law, what leaves the context is what was prepared.
-/

namespace OpenClaw.Harness

open AgentCore

/-! ## What a run of `compact` asks and returns -/

/-- A summarizer that answers the same text to every request. -/
def answering (text : String) : Nat → Except String AssistantMessage :=
  fun _ => .ok ⟨[.text text], .stop, none⟩

section

variable (p : CompactionPreparation) (customInstructions : Option String)

def historyRequest : SummaryRequest where
  messages := p.messagesToSummarize
  previousSummary := truthy p.previousSummary
  basePrompt :=
    if (truthy p.previousSummary).isSome then .updateSummarization else .summarization
  customInstructions := truthy customInstructions

def turnPrefixRequest : SummaryRequest := ⟨p.turnPrefixMessages, none, .turnPrefix, none⟩

/-- A turn is split and there is nothing before it to summarize. -/
def CompactionPreparation.WithoutHistory : Prop :=
  p.isSplitTurn = true ∧ 0 < p.turnPrefixMessages.length ∧ p.messagesToSummarize = []

/-- The requests of a successful run. -/
def requests : List SummaryRequest :=
  if p.isSplitTurn ∧ p.turnPrefixMessages.length > 0 then
    (if p.messagesToSummarize.length > 0 then [historyRequest p customInstructions] else []) ++
      [turnPrefixRequest p]
  else [historyRequest p customInstructions]

/-- What stands before the turn prefix summary when there is no history. -/
def noHistoryText : String := "No prior history." ++ turnContextSeparator

end

section

variable {complete : Nat → Except String AssistantMessage} {p : CompactionPreparation}
  {customInstructions : Option String} {asked asked' : List SummaryRequest}

variable {text : String}

theorem runSummarizationCompletion_ok {request : SummaryRequest} {label : String}
    (h : runSummarizationCompletion complete request label asked = (.ok (.ok text), asked')) :
    asked' = asked ++ [request] := by
  obtain ⟨_, _, hget, h⟩ := Prog.bind_eq_ok h
  cases hget
  obtain ⟨_, _, hmodify, h⟩ := Prog.bind_eq_ok h
  cases hmodify
  cases hanswer : complete asked.length with
  | error message =>
    rw [hanswer] at h
    cases h
  | ok response =>
    simp only [hanswer] at h
    cases hstop : response.stopReason with
    | aborted | error =>
      simp only [hstop] at h
      cases h
    | stop | length | toolUse =>
      simp only [hstop] at h
      cases h
      rfl

theorem summarizeHistory_ok
    (h : summarizeHistory complete p customInstructions asked = (.ok (.ok text), asked')) :
    asked' = asked ++
        (if p.messagesToSummarize.length > 0 then [historyRequest p customInstructions] else []) ∧
      (p.messagesToSummarize = [] → text = "No prior history.") := by
  rw [summarizeHistory] at h
  split at h
  · rename_i hlen
    refine ⟨?_, ?_⟩
    · rw [if_pos hlen]
      exact runSummarizationCompletion_ok h
    · intro hnil
      rw [hnil] at hlen
      cases hlen
  · rename_i hlen
    cases h
    rw [if_neg hlen, List.append_nil]
    exact ⟨rfl, fun _ => rfl⟩

/-- **What a successful summary run does.** -/
theorem summarize_ok (h : summarize complete p customInstructions [] = (.ok (.ok text), asked)) :
    asked = requests p customInstructions ∧
      (p.WithoutHistory → ∃ turnPrefix, text = noHistoryText ++ turnPrefix) := by
  rw [summarize] at h
  rw [requests]
  split at h
  · rename_i hsplit
    rw [if_pos hsplit]
    obtain ⟨history, asked₁, hhistory, h⟩ := Prog.bind_eq_ok h
    cases history with
    | error error => cases h
    | ok history =>
      obtain ⟨turnPrefix, asked₂, hturn, h⟩ := Prog.bind_eq_ok h
      cases turnPrefix with
      | error error => cases h
      | ok turnPrefix =>
        cases h
        obtain ⟨rfl, hnone⟩ := summarizeHistory_ok hhistory
        have hasked := runSummarizationCompletion_ok hturn
        refine ⟨hasked, fun hwithout => ⟨turnPrefix, ?_⟩⟩
        rw [hnone hwithout.2.2]
        rfl
  · rename_i hsplit
    rw [if_neg hsplit]
    exact ⟨runSummarizationCompletion_ok h, fun hwithout =>
      absurd ⟨hwithout.1, hwithout.2.1⟩ hsplit⟩

theorem compact_ok {r : CompactionResult}
    (h : compact complete p customInstructions [] = (.ok (.ok r), asked)) :
    asked = requests p customInstructions ∧
      (p.WithoutHistory → ∃ turnPrefix, r.summary =
        noHistoryText ++ turnPrefix ++ formatFileOperations (computeFileLists p.fileOps)) ∧
      r.firstKeptEntryId = p.firstKeptEntryId := by
  rw [compact] at h
  split at h
  · cases h
  · obtain ⟨summary, asked₁, hsummary, h⟩ := Prog.bind_eq_ok h
    cases summary with
    | error error => cases h
    | ok summary =>
      cases h
      obtain ⟨hasked, hwithout⟩ := summarize_ok hsummary
      refine ⟨hasked, fun hw => ?_, rfl⟩
      obtain ⟨turnPrefix, rfl⟩ := hwithout hw
      exact ⟨turnPrefix, rfl⟩

theorem compact_withoutHistory (customInstructions : Option String)
    (hnamed : p.firstKeptEntryId ≠ "") (hwithout : p.WithoutHistory) (text : String) :
    compact (answering text) p customInstructions [] =
      (.ok (.ok ⟨noHistoryText ++ text ++ formatFileOperations (computeFileLists p.fileOps),
        p.firstKeptEntryId, p.tokensBefore, computeFileLists p.fileOps⟩),
        [turnPrefixRequest p]) := by
  have hlen : ¬p.messagesToSummarize.length > 0 := by
    rw [hwithout.2.2]
    exact Nat.lt_irrefl 0
  have hsummary : summarize (answering text) p customInstructions [] =
      (.ok (.ok (noHistoryText ++ text)), [turnPrefixRequest p]) := by
    rw [summarize, if_pos ⟨hwithout.1, hwithout.2.1⟩, summarizeHistory, if_neg hlen]
    rfl
  rw [compact, if_neg hnamed, Prog.bind_of_ok hsummary]
  rfl

end

/-! ## When the previous summary is lost -/

/-- The text of `part` is in `text`. -/
def Contains (text part : String) : Prop := part.toList <:+: text.toList

/-- The previous summary went to the summarizer as such, or is in the returned summary. -/
def CarriedOver (prev : String) (asked : List SummaryRequest) (summary : String) : Prop :=
  (∃ request ∈ asked, request.previousSummary = some prev) ∨ Contains summary prev

/-- The cut splits a turn, and no row with a message stands in the retained window before it. -/
def SplitsTurnWithoutHistory (path : List SessionTreeEntry) (settings : CompactionSettings) :
    Prop :=
  (cutOf path settings).isSplitTurn = true ∧ ∃ turnStart,
    (cutOf path settings).turnStartIndex = some turnStart ∧
    turnStart < (cutOf path settings).firstKeptEntryIndex ∧
    ∀ e ∈ rowsBetween path (boundaryStart path) turnStart, e.carriesMessage = false

variable {e : SessionTreeEntry}

theorem getMessageFromEntryForCompaction_eq_none {m : Option HarnessMessage}
    (h : getMessageFromEntryForCompaction e = .ok m) : m = none ↔ e.carriesMessage = false := by
  rw [getMessageFromEntryForCompaction, SessionTreeEntry.compaction?] at h
  rw [SessionTreeEntry.carriesMessage]
  rw [getMessageFromEntry] at h
  cases hbody : e.body with
  | customMessage | branchSummary =>
    simp only [hbody, Option.isSome_none, Bool.false_eq_true, if_false] at h
    obtain ⟨message, -, hm⟩ := Except.bind_eq_ok.mp h
    cases hm
    simp
  | _ =>
    rw [hbody] at h
    cases h
    simp

theorem SessionTreeEntry.carriesMessage_of_startsTurn (h : e.startsTurn = true) :
    e.carriesMessage = true := by
  rw [SessionTreeEntry.startsTurn] at h
  rw [SessionTreeEntry.carriesMessage]
  split at h <;> simp_all

variable {path : List SessionTreeEntry}

theorem mem_rowsBetween {i j : Nat} {row : SessionTreeEntry} (hrow : path[i]? = some row)
    (hij : i < j) : row ∈ rowsBetween path i j := by
  obtain ⟨hlt, rfl⟩ := List.getElem?_eq_some_iff.mp hrow
  rw [rowsBetween]
  refine List.mem_iff_getElem.mpr ⟨0, ?_, ?_⟩
  · rw [List.length_drop, List.length_take]
    omega
  · simp

variable {p : CompactionPreparation}

variable {settings : CompactionSettings}

theorem withoutHistory_iff (hp : prepareCompaction path settings = .ok (.ok (some p))) :
    p.WithoutHistory ↔ SplitsTurnWithoutHistory path settings := by
  have hprep := prepares hp
  rw [CompactionPreparation.WithoutHistory, SplitsTurnWithoutHistory, hprep.split]
  refine and_congr_right fun hsplit => ?_
  obtain ⟨turnStart, hts, -, hle, hstarts⟩ := (cutOf_window path settings).2 hsplit
  have hhistory := hprep.history
  have hturn := hprep.turnPrefix
  rw [hsplit, if_pos rfl, hts, Option.getD_some] at hhistory hturn
  have hhistoryNil := collect_eq_nil_iff
    (fun e _ m => getMessageFromEntryForCompaction_eq_none) hhistory
  have hturnNil := collect_eq_nil_iff
    (fun e _ m => getMessageFromEntryForCompaction_eq_none) hturn
  obtain ⟨row, hrow, hstart⟩ := (Option.any_eq_true ..).mp hstarts
  constructor
  · rintro ⟨hlen, hnil⟩
    refine ⟨turnStart, hts, ?_, hhistoryNil.mp hnil⟩
    by_contra hge
    rw [rowsBetween_of_le (Nat.le_of_not_lt hge), collect_nil] at hturn
    rw [← Except.ok.inj hturn] at hlen
    exact absurd hlen (Nat.lt_irrefl 0)
  · rintro ⟨turnStart', hts', hlt, hnone⟩
    cases Option.some.inj (hts.symm.trans hts')
    refine ⟨List.length_pos_iff.mpr fun hnil => ?_, hhistoryNil.mpr hnone⟩
    have hfalse := hturnNil.mp hnil row (mem_rowsBetween hrow hlt)
    rw [row.carriesMessage_of_startsTurn hstart] at hfalse
    cases hfalse

/-! ## Texts around an answer -/

theorem infix_around_replicate {l l₁ l₂ : List Char} {x : Char} {n : Nat} (hne : l ≠ [])
    (hn : l.length ≤ n) (h : l <:+: l₁ ++ List.replicate n x ++ l₂) :
    l <:+: l₁ ∨ l <:+: l₂ ∨ l.head? = some x ∨ l.getLast? = some x := by
  have hends : ∀ i, l ≠ [] → l <:+: List.replicate i x → l.head? = some x := by
    intro i _ hi
    obtain ⟨a, rest, rfl⟩ := List.exists_cons_of_ne_nil hne
    have := List.eq_of_mem_replicate (hi.subset List.mem_cons_self)
    rw [this]
    rfl
  rw [List.append_assoc, List.infix_append_iff_ne_nil] at h
  rcases h with h | h | ⟨u, v, hu, hv, rfl, hus, hvp⟩
  · exact .inl h
  · rw [List.infix_append_iff_ne_nil] at h
    rcases h with h | h | ⟨u, v, hu, hv, rfl, hus, hvp⟩
    · exact .inr (.inr (.inl (hends n hne h)))
    · exact .inr (.inl h)
    · -- the text starts in the run
      obtain ⟨a, rest, rfl⟩ := List.exists_cons_of_ne_nil hu
      have := List.eq_of_mem_replicate (hus.subset List.mem_cons_self)
      rw [this]
      exact .inr (.inr (.inl rfl))
  · -- the text ends in the run
    have hvlen : v.length ≤ n := by
      rw [List.length_append] at hn
      omega
    have hvrun : v <+: List.replicate n x :=
      List.prefix_of_prefix_length_le hvp (List.prefix_append _ _) (by simpa using hvlen)
    have hlast : v.getLast hv = x :=
      List.eq_of_mem_replicate (hvrun.subset (List.getLast_mem hv))
    rw [List.getLast?_append_of_ne_nil _ hv, List.getLast?_eq_some_getLast hv, hlast]
    exact .inr (.inr (.inr rfl))

variable {prev : String}

theorem contains_around_iff {before after : String} (hne : prev ≠ "") :
    (∀ answer, Contains (before ++ answer ++ after) prev) ↔
      Contains before prev ∨ Contains after prev := by
  have hlist : prev.toList ≠ [] := by
    intro hnil
    exact hne (String.toList_inj.mp hnil)
  constructor
  · intro h
    have hchar : ∀ x, prev.toList <:+: before.toList ∨ prev.toList <:+: after.toList ∨
        prev.toList.head? = some x ∨ prev.toList.getLast? = some x := by
      intro x
      have hx := h (.ofList (List.replicate prev.toList.length x))
      rw [Contains, String.toList_append, String.toList_append, String.toList_ofList] at hx
      exact infix_around_replicate hlist le_rfl hx
    by_cases hb : prev.toList <:+: before.toList
    · exact .inl hb
    by_cases ha : prev.toList <:+: after.toList
    · exact .inr ha
    -- otherwise each of three characters is the first or the last one
    exfalso
    have ha' := hchar 'a'
    have hb' := hchar 'b'
    have hc' := hchar 'c'
    rcases ha' with h | h | h | h <;> rcases hb' with h' | h' | h' | h' <;>
      rcases hc' with h'' | h'' | h'' | h'' <;> simp_all
  · intro h answer
    rw [Contains, String.toList_append, String.toList_append]
    rcases h with h | h
    · exact List.infix_append_of_infix_left (List.infix_append_of_infix_left h)
    · exact List.infix_append_of_infix_right h

/-- Compaction of the path carries the summary over: it does not split a turn without history, or
the summary happens to be part of the fixed texts around the turn prefix summary. -/
def CarriesOver (path : List SessionTreeEntry) (settings : CompactionSettings)
    (p : CompactionPreparation) (prev : String) : Prop :=
  ¬SplitsTurnWithoutHistory path settings ∨ Contains noHistoryText prev ∨
    Contains (formatFileOperations (computeFileLists p.fileOps)) prev

theorem historyRequest_mem {customInstructions : Option String} (h : ¬p.WithoutHistory) :
    historyRequest p customInstructions ∈ requests p customInstructions := by
  rw [requests]
  split
  · rename_i hsplit
    have hlen : p.messagesToSummarize.length > 0 := by
      rw [gt_iff_lt, List.length_pos_iff]
      exact fun hnil => h ⟨hsplit.1, hsplit.2, hnil⟩
    rw [if_pos hlen]
    exact List.mem_append_left _ (List.mem_singleton.mpr rfl)
  · exact List.mem_singleton.mpr rfl

/-- **The previous summary** of a prepared path is passed on or kept by every successful run if and
only if the preparation carries it over. -/
theorem carriedOver_iff (hp : prepareCompaction path settings = .ok (.ok (some p)))
    (hprev : previousSummary path = some prev) (hne : prev ≠ "") :
    (∀ complete customInstructions r asked,
      compact complete p customInstructions [] = (.ok (.ok r), asked) →
        CarriedOver prev asked r.summary) ↔
      CarriesOver path settings p prev := by
  have hprep := prepares hp
  rw [CarriesOver, ← withoutHistory_iff hp]
  by_cases hwithout : p.WithoutHistory
  · constructor
    · intro h
      refine .inr ((contains_around_iff hne).mp fun answer => ?_)
      rcases h _ none _ _ (compact_withoutHistory none hprep.named hwithout answer) with
        ⟨request, hmem, hpassed⟩ | hkept
      · rw [List.mem_singleton.mp hmem] at hpassed
        cases hpassed
      · exact hkept
    · intro h complete customInstructions r asked hr
      obtain ⟨turnPrefix, hsummary⟩ := (compact_ok hr).2.1 hwithout
      refine .inr ?_
      rw [hsummary]
      exact (contains_around_iff hne).mpr (h.resolve_left (not_not_intro hwithout)) turnPrefix
  · refine iff_of_true (fun complete customInstructions r asked hr => .inl ?_) (.inl hwithout)
    refine ⟨historyRequest p customInstructions, ?_, ?_⟩
    · rw [(compact_ok hr).1]
      exact historyRequest_mem hwithout
    · show truthy p.previousSummary = some prev
      rw [hprep.summary, hprev, truthy, if_neg hne]

/-! ## Histories with any number of compactions -/

/-- A session that grows by rows and compactions, with the requests of its compactions so far. -/
structure SessionHistory where
  path : List SessionTreeEntry
  asked : List SummaryRequest

inductive HistoryEvent
  | append (row : SessionTreeEntry)
  | compacted (settings : CompactionSettings) (p : CompactionPreparation)
    (complete : Nat → Except String AssistantMessage) (customInstructions : Option String)
    (row : SessionTreeEntry)

/-- A row with a new id. Branch summaries have a text. -/
def SessionHistory.accepts (s : SessionHistory) (row : SessionTreeEntry) : Prop :=
  row.id ∉ s.path.map SessionTreeEntry.id ∧ ∀ fromId, row.body ≠ .branchSummary fromId ""

def SessionHistory.Step (s : SessionHistory) : HistoryEvent → SessionHistory → Prop
  | .append row, t =>
    row.compaction? = none ∧ s.accepts row ∧ t = ⟨s.path ++ [row], s.asked⟩
  | .compacted settings p complete customInstructions row, t =>
    ∃ r asked c, prepareCompaction s.path settings = .ok (.ok (some p)) ∧
      compact complete p customInstructions [] = (.ok (.ok r), asked) ∧
      row.compaction? = some c ∧ c.fields.summary = r.summary ∧
      c.fields.firstKeptEntryId = r.firstKeptEntryId ∧ s.accepts row ∧
      t = ⟨s.path ++ [row], s.asked ++ asked⟩

def SessionHistory.Carries (s : SessionHistory) : HistoryEvent → Prop
  | .append _ => True
  | .compacted settings p .. => ∀ prev, previousSummary s.path = some prev → prev ≠ "" →
    CarriesOver s.path settings p prev

def SessionHistory.Initial (s : SessionHistory) : Prop := s.path = [] ∧ s.asked = []

/-- The message was part of a summarization request. -/
def SessionHistory.given (s : SessionHistory) (m : HarnessMessage) : Prop :=
  ∃ request ∈ s.asked, m ∈ request.messages

/-- The summary of a compaction, with the rows after it, is still the current one, or went to the
summarizer, or is in the summary of a later compaction. -/
def SessionHistory.summaryAccounted (s : SessionHistory) (summary : String)
    (after : List SessionTreeEntry) : Prop :=
  (∀ e ∈ after, e.compaction? = none) ∨
    (∃ request ∈ s.asked, request.previousSummary = some summary) ∨
    ∃ e ∈ after, ∃ c, e.compaction? = some c ∧ Contains c.fields.summary summary

/-- No part of the history leaves the context without having been given to the summarizer. -/
structure SessionHistory.Accounted (s : SessionHistory) : Prop where
  messages : ∀ ctx, buildSessionContext s.path = .ok ctx → ∀ e ∈ s.path, ∀ m,
    appendMessage e = .ok (some m) → m ∈ ctx.messages ∨ s.given m
  summaries : ∀ before row after c, s.path = before ++ row :: after → row.compaction? = some c →
    c.fields.summary ≠ "" → s.summaryAccounted c.fields.summary after

/-- What every history keeps. -/
structure SessionHistory.Inv (s : SessionHistory) : Prop where
  ids : (s.path.map SessionTreeEntry.id).Nodup
  texts : SummariesNonempty s.path
  named : ∀ k c, prevCompaction s.path = some (k, c) →
    ∃ i ≤ k, s.path.findIdx? (fun e => e.id == c.fields.firstKeptEntryId) = some i
  window : boundaryStart s.path ≤ s.path.length
  left : ∀ e ∈ s.path.take (boundaryStart s.path), ∀ m, appendMessage e = .ok (some m) →
    s.given m
  summaries : ∀ before row after c, s.path = before ++ row :: after → row.compaction? = some c →
    c.fields.summary ≠ "" → s.summaryAccounted c.fields.summary after

namespace SessionHistory

variable {s t : SessionHistory}

variable {m : HarnessMessage}

theorem given_mono (hasked : s.asked ⊆ t.asked) (h : s.given m) : t.given m := by
  obtain ⟨request, hmem, hm⟩ := h
  exact ⟨request, hasked hmem, hm⟩

variable {row : SessionTreeEntry}

theorem accepts_concat (h : s.Inv) (hrow : s.accepts row) :
    ((s.path ++ [row]).map SessionTreeEntry.id).Nodup ∧ SummariesNonempty (s.path ++ [row]) := by
  constructor
  · rw [List.map_append, List.nodup_append]
    refine ⟨h.ids, by simp, ?_⟩
    rintro a ha b hb rfl
    rw [List.map_singleton, List.mem_singleton] at hb
    exact hrow.1 (hb ▸ ha)
  · intro e he
    rcases List.mem_append.mp he with he | he
    · exact h.texts e he
    · rw [List.mem_singleton.mp he]
      exact hrow.2

variable {path : List SessionTreeEntry}

variable {after : List SessionTreeEntry}

theorem split_concat {before : List SessionTreeEntry} {last : SessionTreeEntry}
    (h : path ++ [last] = before ++ row :: after) :
    (∃ after', after = after' ++ [last] ∧ path = before ++ row :: after') ∨
      (after = [] ∧ row = last) := by
  rcases List.eq_nil_or_concat after with rfl | ⟨after', x, rfl⟩
  · obtain ⟨-, hlast⟩ := List.append_inj' h rfl
    cases hlast
    exact .inr ⟨rfl, rfl⟩
  · rw [List.concat_eq_append, ← List.cons_append, ← List.append_assoc] at h
    obtain ⟨rfl, hx⟩ := List.append_inj' h rfl
    cases hx
    exact .inl ⟨after', List.concat_eq_append .., rfl⟩

theorem summaryAccounted_mono {summary : String} (hasked : s.asked ⊆ t.asked)
    (h : s.summaryAccounted summary after)
    (hlast : (∀ e ∈ after, e.compaction? = none) → t.summaryAccounted summary (after ++ [row])) :
    t.summaryAccounted summary (after ++ [row]) := by
  rcases h with h | ⟨request, hmem, hpassed⟩ | ⟨e, he, c, hc, hkept⟩
  · exact hlast h
  · exact .inr (.inl ⟨request, hasked hmem, hpassed⟩)
  · exact .inr (.inr ⟨e, List.mem_append_left _ he, c, hc, hkept⟩)

/-! ### Appending a row -/

theorem boundaryStart_append (h : s.Inv) (hrow : row.compaction? = none) :
    boundaryStart (s.path ++ [row]) = boundaryStart s.path ∧
      prevCompaction (s.path ++ [row]) = prevCompaction s.path ∧
      ∀ k c, prevCompaction s.path = some (k, c) →
        ∃ i ≤ k, (s.path ++ [row]).findIdx? (fun e => e.id == c.fields.firstKeptEntryId) =
          some i := by
  have hprev : prevCompaction (s.path ++ [row]) = prevCompaction s.path := by
    rw [prevCompaction_concat, hrow]
    rfl
  have hnamed : ∀ k c, prevCompaction s.path = some (k, c) → ∃ i ≤ k,
      s.path.findIdx? (fun e => e.id == c.fields.firstKeptEntryId) = some i ∧
      (s.path ++ [row]).findIdx? (fun e => e.id == c.fields.firstKeptEntryId) = some i := by
    intro k c hk
    obtain ⟨i, hi, hidx⟩ := h.named k c hk
    refine ⟨i, hi, hidx, ?_⟩
    rw [List.findIdx?_append, hidx, Option.some_or]
  refine ⟨?_, hprev, fun k c hk => ?_⟩
  · rw [boundaryStart, boundaryStart, hprev]
    cases hk : prevCompaction s.path with
    | none => rfl
    | some kc =>
      obtain ⟨i, -, hidx, hidx'⟩ := hnamed kc.1 kc.2 hk
      simp only [hidx, hidx']
  · obtain ⟨i, hi, -, hidx⟩ := hnamed k c hk
    exact ⟨i, hi, hidx⟩

theorem inv_append (h : s.Inv) (hrow : row.compaction? = none) (haccepts : s.accepts row) :
    (⟨s.path ++ [row], s.asked⟩ : SessionHistory).Inv := by
  obtain ⟨hstart, hprev, hnamed⟩ := boundaryStart_append h hrow
  obtain ⟨hids, htexts⟩ := accepts_concat h haccepts
  refine ⟨hids, htexts, ?_, ?_, ?_, ?_⟩
  · intro k c hk
    exact hnamed k c (hprev ▸ hk)
  · rw [hstart, List.length_append]
    exact Nat.le_add_right_of_le h.window
  · intro e he
    rw [hstart, List.take_append_of_le_length h.window] at he
    exact h.left e he
  · intro before row' after c hsplit hc hne
    rcases split_concat hsplit with ⟨after', rfl, hpath⟩ | ⟨rfl, rfl⟩
    · refine summaryAccounted_mono (s := s) (List.Subset.refl _)
        (h.summaries before row' after' c hpath hc hne) fun hnone => .inl fun e he => ?_
      rcases List.mem_append.mp he with he | he
      · exact hnone e he
      · rw [List.mem_singleton.mp he]
        exact hrow
    · exact .inl (by simp)

/-! ### Compacting -/

variable {settings : CompactionSettings} {p : CompactionPreparation}

theorem mem_requests (customInstructions : Option String)
    (hp : prepareCompaction path settings = .ok (.ok (some p)))
    (hm : m ∈ p.messagesToSummarize ++ p.turnPrefixMessages) :
    ∃ request ∈ requests p customInstructions, m ∈ request.messages := by
  rw [requests]
  split
  · rcases List.mem_append.mp hm with hm | hm
    · refine ⟨historyRequest p customInstructions, List.mem_append_left _ ?_, hm⟩
      rw [if_pos (List.length_pos_of_mem hm)]
      exact List.mem_singleton.mpr rfl
    · exact ⟨turnPrefixRequest p, List.mem_append_right _ (List.mem_singleton.mpr rfl), hm⟩
  · rename_i hsplit
    -- without a split turn there is no turn prefix
    have hturn : p.turnPrefixMessages = [] := by
      cases hflag : p.isSplitTurn with
      | true =>
        rw [not_and, hflag] at hsplit
        exact List.eq_nil_of_length_eq_zero (Nat.eq_zero_of_not_pos (hsplit rfl))
      | false =>
        have hcollect := (prepares hp).turnPrefix
        rw [← (prepares hp).split, hflag, if_neg Bool.false_ne_true] at hcollect
        exact (Except.ok.inj hcollect).symm
    rw [hturn, List.append_nil] at hm
    exact ⟨historyRequest p customInstructions, List.mem_singleton.mpr rfl, hm⟩

theorem mem_of_collect {f : SessionTreeEntry → Except String (Option HarnessMessage)}
    {rows : List SessionTreeEntry} {messages : List HarnessMessage}
    (h : collect f rows = .ok messages) {e : SessionTreeEntry} (he : e ∈ rows)
    (hm : f e = .ok (some m)) : m ∈ messages := by
  induction rows generalizing messages with
  | nil => cases he
  | cons row rows ih =>
    obtain ⟨m', ms, hrow, hms, rfl⟩ := (collect_cons row rows).mp h
    rcases List.mem_cons.mp he with rfl | he
    · rw [Except.ok.inj (hrow.symm.trans hm)]
      exact List.mem_append_left _ (List.mem_singleton.mpr rfl)
    · exact List.mem_append_right _ (ih hms he)

variable {c : CompactionEntry}

theorem boundaryStart_compacted (hp : prepareCompaction path settings = .ok (.ok (some p)))
    (hids : (path.map SessionTreeEntry.id).Nodup) (hrow : row.compaction? = some c)
    (hkept : c.fields.firstKeptEntryId = p.firstKeptEntryId) :
    prevCompaction (path ++ [row]) = some (path.length, c) ∧
      (path ++ [row]).findIdx? (fun e => e.id == c.fields.firstKeptEntryId) =
        some (cutOf path settings).firstKeptEntryIndex ∧
      (cutOf path settings).firstKeptEntryIndex < path.length ∧
      boundaryStart (path ++ [row]) = (cutOf path settings).firstKeptEntryIndex := by
  obtain ⟨first, hfirst, hid⟩ := Option.map_eq_some_iff.mp (prepares hp).firstKept
  obtain ⟨hlt, rfl⟩ := List.getElem?_eq_some_iff.mp hfirst
  have hprev : prevCompaction (path ++ [row]) = some (path.length, c) := by
    rw [prevCompaction_concat, hrow]
    rfl
  have hidx : path.findIdx? (fun e => e.id == c.fields.firstKeptEntryId) =
      some (cutOf path settings).firstKeptEntryIndex := by
    rw [List.findIdx?_eq_some_iff_getElem]
    refine ⟨hlt, by rw [hkept, hid]; exact beq_self_eq_true _, fun j hj heq => ?_⟩
    have hsame : path[j].id = path[(cutOf path settings).firstKeptEntryIndex].id := by
      rw [hid, ← hkept]
      simpa using heq
    have hlt' : (cutOf path settings).firstKeptEntryIndex <
        (path.map SessionTreeEntry.id).length := by
      rw [List.length_map]
      exact hlt
    have hentries : (path.map SessionTreeEntry.id)[j] =
        (path.map SessionTreeEntry.id)[(cutOf path settings).firstKeptEntryIndex] := by
      rw [List.getElem_map, List.getElem_map]
      exact hsame
    have heqIdx := hids.getElem_inj_iff.mp hentries
    omega
  have hidx' : (path ++ [row]).findIdx? (fun e => e.id == c.fields.firstKeptEntryId) =
      some (cutOf path settings).firstKeptEntryIndex := by
    rw [List.findIdx?_append, hidx, Option.some_or]
  refine ⟨hprev, hidx', hlt, ?_⟩
  simp only [boundaryStart, hprev, hidx', Option.getD_some]

theorem inv_compacted (h : s.Inv) {complete : Nat → Except String AssistantMessage}
    {customInstructions : Option String} {r : CompactionResult} {asked : List SummaryRequest}
    (hp : prepareCompaction s.path settings = .ok (.ok (some p)))
    (hr : compact complete p customInstructions [] = (.ok (.ok r), asked))
    (hrow : row.compaction? = some c) (hsummary : c.fields.summary = r.summary)
    (hkept : c.fields.firstKeptEntryId = r.firstKeptEntryId) (haccepts : s.accepts row)
    (hcarries : ∀ prev, previousSummary s.path = some prev → prev ≠ "" →
      CarriesOver s.path settings p prev) :
    (⟨s.path ++ [row], s.asked ++ asked⟩ : SessionHistory).Inv := by
  obtain ⟨hids, htexts⟩ := accepts_concat h haccepts
  obtain ⟨hprev, hidx, hlt, hstart⟩ := boundaryStart_compacted hp h.ids hrow
    (hkept.trans (compact_ok hr).2.2)
  have hasked : s.asked ⊆ s.asked ++ asked := List.subset_append_left _ _
  refine ⟨hids, htexts, ?_, ?_, ?_, ?_⟩
  · intro k c' hk
    cases hprev.symm.trans hk
    exact ⟨_, hlt.le, hidx⟩
  · rw [hstart, List.length_append]
    exact Nat.le_add_right_of_le hlt.le
  · intro e he m hm
    rw [hstart, List.take_append_of_le_length hlt.le] at he
    -- the rows before the cut: those before the old window, and those just summarized
    have hrows : s.path.take (cutOf s.path settings).firstKeptEntryIndex =
        s.path.take (boundaryStart s.path) ++ rowsBetween s.path (boundaryStart s.path)
          (cutOf s.path settings).firstKeptEntryIndex := by
      have htake : rowsBetween s.path 0 (boundaryStart s.path) ++ rowsBetween s.path
            (boundaryStart s.path) (cutOf s.path settings).firstKeptEntryIndex =
          rowsBetween s.path 0 (cutOf s.path settings).firstKeptEntryIndex :=
        rowsBetween_append (Nat.zero_le _) (cutOf_window s.path settings).1
      simpa [rowsBetween] using htake.symm
    rw [hrows] at he
    rcases List.mem_append.mp he with he | he
    · exact given_mono hasked (h.left e he m hm)
    · obtain ⟨request, hmem, hgiven⟩ := mem_requests customInstructions hp
        (mem_of_collect (prepared_window hp h.texts) he hm)
      exact ⟨request, List.mem_append_right _ ((compact_ok hr).1 ▸ hmem), hgiven⟩
  · intro before row' after c' hsplit hc hne
    rcases split_concat hsplit with ⟨after', rfl, hpath⟩ | ⟨rfl, rfl⟩
    · refine summaryAccounted_mono (s := s) hasked
        (h.summaries before row' after' c' hpath hc hne) fun hnone => ?_
      -- it was the last compaction, so its summary is the previous summary
      have hprevious : previousSummary s.path = some c'.fields.summary := by
        rw [previousSummary, hpath, prevCompaction_of_last before hc hnone]
        rfl
      rcases (carriedOver_iff hp hprevious hne).mpr (hcarries _ hprevious hne) complete
        customInstructions r asked hr with ⟨request, hmem, hpassed⟩ | hcontains
      · exact .inr (.inl ⟨request, List.mem_append_right _ hmem, hpassed⟩)
      · exact .inr (.inr ⟨row, List.mem_append_right _ (List.mem_singleton.mpr rfl), c, hrow,
          hsummary ▸ hcontains⟩)
    · exact .inl (by simp)

theorem inv_of_reachable
    (hs : Lts.Reachable Initial (Lts.Guarded SessionHistory.Step SessionHistory.Carries) s) :
    s.Inv := by
  refine hs.invariant ?_ ?_
  · rintro ⟨path, asked⟩ ⟨rfl, rfl⟩
    refine ⟨List.nodup_nil, List.forall_mem_nil _, ?_, Nat.zero_le _, List.forall_mem_nil _, ?_⟩
    · intro k c hk
      cases hk
    · intro before row after c hsplit
      simp at hsplit
  · intro s e t hinv hstep
    cases e with
    | append row =>
      obtain ⟨⟨hrow, haccepts, rfl⟩, -⟩ := hstep
      exact inv_append hinv hrow haccepts
    | compacted settings p complete customInstructions row =>
      obtain ⟨⟨r, asked, c, hp, hr, hrow, hsummary, hkept, haccepts, rfl⟩, hcarries⟩ := hstep
      exact inv_compacted hinv hp hr hrow hsummary hkept haccepts hcarries

end SessionHistory

end OpenClaw.Harness
