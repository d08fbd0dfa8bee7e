import Mathlib.Order.Bounds.Basic
import OpenClaw.Harness.Partition

/-!
# Where compaction cuts

`findCutPoint` chooses a cut point by the token budget (`Chosen`) and walks back from it over
metadata rows. The rows it retains begin with these metadata rows and the cut point
(`findCutPoint_cases`), so that no tool result comes first; the turn test looks at the first of
them, and the tokens from the cut point on may be fewer than the budget, where the budget is
reached in a tool result.
-/

namespace OpenClaw.Harness

variable {entries : List SessionTreeEntry} {startIndex endIndex : Nat}
  {keepRecentTokens : JsNumber}

/-! ## Rows -/

def isToolResultRow (entries : List SessionTreeEntry) (i : Nat) : Bool :=
  entries[i]?.any fun entry =>
    match entry.body with
    | .message (.toolResult _) => true
    | _ => false

def isMessageRow (entries : List SessionTreeEntry) (i : Nat) : Bool :=
  entries[i]?.any fun entry =>
    match entry.body with
    | .message _ => true
    | _ => false

/-- The row gives a message of the context. -/
def bearsMessage (entries : List SessionTreeEntry) (i : Nat) : Bool :=
  entries[i]?.any fun entry =>
    match entry.body with
    | .message _ | .branchSummary .. | .customMessage .. => true
    | _ => false

def startsTurnAt (entries : List SessionTreeEntry) (i : Nat) : Bool :=
  entries[i]?.any SessionTreeEntry.startsTurn

/-- The tokens of a row, if it is a message. -/
def rowTokens (entries : List SessionTreeEntry) (i : Nat) : Nat :=
  match entries[i]?.map SessionTreeEntry.body with
  | some (.message message) => estimateTokens message
  | _ => 0

/-- The tokens of the messages of a window. -/
def tokensFrom (entries : List SessionTreeEntry) (i endIndex : Nat) : Nat :=
  ((List.range' i (endIndex - i)).map (rowTokens entries)).sum

theorem tokensFrom_self : tokensFrom entries endIndex endIndex = 0 := by
  simp [tokensFrom]

variable {i : Nat}

theorem tokensFrom_of_lt (h : i < endIndex) :
    tokensFrom entries i endIndex = rowTokens entries i + tokensFrom entries (i + 1) endIndex := by
  have hlength : endIndex - i = endIndex - (i + 1) + 1 := by omega
  simp [tokensFrom, hlength, List.range'_succ]

theorem tokensFrom_le {j : Nat} (h : i ≤ j) :
    tokensFrom entries j endIndex ≤ tokensFrom entries i endIndex := by
  obtain ⟨d, rfl⟩ := Nat.exists_eq_add_of_le h
  clear h
  induction d with
  | zero => exact le_rfl
  | succ d ih =>
    refine le_trans ?_ ih
    by_cases hj : i + d < endIndex
    · rw [tokensFrom_of_lt hj]
      have hassoc : i + (d + 1) = i + d + 1 := by omega
      rw [hassoc]
      omega
    · simp [tokensFrom, show endIndex - (i + (d + 1)) = 0 by omega]

theorem reachedBy_mono {m n : Nat} (h : m ≤ n) (hm : keepRecentTokens.reachedBy m = true) :
    keepRecentTokens.reachedBy n = true := by
  cases keepRecentTokens with
  | nan | infinity => exact hm
  | negInfinity => rfl
  | finite q =>
    simp only [JsNumber.reachedBy, decide_eq_true_eq] at hm ⊢
    exact hm.trans (by exact_mod_cast h)

/-! ## The budget -/

/-- The messages from which on the budget is reached. -/
def BudgetRows (entries : List SessionTreeEntry) (startIndex endIndex : Nat)
    (keepRecentTokens : JsNumber) : Set Nat :=
  {i | startIndex ≤ i ∧ i < endIndex ∧ isMessageRow entries i = true ∧
    keepRecentTokens.reachedBy (tokensFrom entries i endIndex) = true}

variable {stop : Nat}

variable {start : Nat}

theorem backward_succ (h : start ≤ stop) :
    backward start (stop + 1) = stop :: backward start stop := by
  have hlength : stop + 1 - start = stop - start + 1 := by omega
  rw [backward, hlength, List.range'_concat, List.reverse_append]
  simp [backward, show start + (stop - start) = stop by omega]

theorem backward_of_le (h : stop ≤ start) : backward start stop = [] := by
  simp [backward, show stop - start = 0 by omega]

theorem reachesBudget_cons (i acc : Nat) (rest : List Nat) :
    reachesBudget entries keepRecentTokens acc (i :: rest) =
      if isMessageRow entries i = true ∧
          keepRecentTokens.reachedBy (acc + rowTokens entries i) = true then some i
      else reachesBudget entries keepRecentTokens (acc + rowTokens entries i) rest := by
  unfold isMessageRow rowTokens
  rw [reachesBudget]
  cases hrow : entries[i]? with
  | none => simp
  | some entry =>
    cases hbody : entry.body with
    | message message =>
      simp only [Option.map_some, hbody, Option.any_some, true_and]
    | _ => simp [hbody]

variable (entries startIndex keepRecentTokens) in
/-- **The token loop** finds the last message from which on the budget is reached. -/
theorem reachesBudget_spec (hstop : stop ≤ endIndex)
    (hlater : ∀ i ∈ BudgetRows entries startIndex endIndex keepRecentTokens, i < stop) :
    match reachesBudget entries keepRecentTokens (tokensFrom entries stop endIndex)
        (backward startIndex stop) with
    | some i => IsGreatest (BudgetRows entries startIndex endIndex keepRecentTokens) i
    | none => BudgetRows entries startIndex endIndex keepRecentTokens = ∅ := by
  induction stop with
  | zero =>
    simp only [backward_of_le (Nat.zero_le startIndex), reachesBudget]
    exact Set.eq_empty_of_forall_notMem fun i hi => Nat.not_lt_zero i (hlater i hi)
  | succ stop ih =>
    by_cases hstart : startIndex ≤ stop
    · rw [backward_succ hstart, reachesBudget_cons]
      have htokens : tokensFrom entries (stop + 1) endIndex + rowTokens entries stop =
          tokensFrom entries stop endIndex := by
        rw [tokensFrom_of_lt (show stop < endIndex by omega)]
        omega
      rw [htokens]
      by_cases hreached : isMessageRow entries stop = true ∧
          keepRecentTokens.reachedBy (tokensFrom entries stop endIndex) = true
      · rw [if_pos hreached]
        refine ⟨⟨hstart, by omega, hreached⟩, fun i hi => ?_⟩
        exact Nat.lt_succ_iff.1 (hlater i hi)
      · rw [if_neg hreached]
        refine ih (by omega) fun i hi => ?_
        have hlt := hlater i hi
        have hne : i ≠ stop := by
          rintro rfl
          exact hreached hi.2.2
        omega
    · simp only [backward_of_le (show stop + 1 ≤ startIndex by omega), reachesBudget]
      refine Set.eq_empty_of_forall_notMem fun i hi => ?_
      have hlt := hlater i hi
      have hle := hi.1
      omega

/-! ## The cut -/

/-- The cut point that the budget chooses. -/
structure Chosen (entries : List SessionTreeEntry) (startIndex endIndex : Nat)
    (keepRecentTokens : JsNumber) (cutPoint : Nat) : Prop where
  mem : cutPoint ∈ findValidCutPoints entries startIndex endIndex
  /-- Where the budget is reached, the first cut point from there on, or the last one. -/
  reached : ∀ i, IsGreatest (BudgetRows entries startIndex endIndex keepRecentTokens) i →
    IsLeast {c | c ∈ findValidCutPoints entries startIndex endIndex ∧ i ≤ c} cutPoint ∨
      ((∀ c ∈ findValidCutPoints entries startIndex endIndex, c < i) ∧
        ∀ c ∈ findValidCutPoints entries startIndex endIndex, c ≤ cutPoint)
  /-- Where it is not, the first cut point. -/
  unreached : BudgetRows entries startIndex endIndex keepRecentTokens = ∅ →
    ∀ c ∈ findValidCutPoints entries startIndex endIndex, cutPoint ≤ c

variable (entries startIndex endIndex) in
theorem findValidCutPoints_sorted :
    (findValidCutPoints entries startIndex endIndex).Pairwise (· < ·) :=
  List.Pairwise.filter _ List.pairwise_lt_range'

theorem walkBack_passed {cutIndex : Nat} (hle : walkBack entries startIndex cutIndex ≤ i)
    (hlt : i < cutIndex) : entries[i]?.any SessionTreeEntry.stopsWalk = false := by
  induction cutIndex with
  | zero => omega
  | succ prev ih =>
    rw [walkBack] at hle
    by_cases hstart : startIndex < prev + 1
    · rw [if_pos hstart] at hle
      by_cases hstops : entries[prev]?.any SessionTreeEntry.stopsWalk = true
      · rw [if_pos hstops] at hle
        omega
      · rw [if_neg hstops] at hle
        by_cases hi : i = prev
        · rw [hi]
          simpa using hstops
        · exact ih hle (by omega)
    · rw [if_neg hstart] at hle
      omega

variable {c : Nat} {cutPoints : List Nat}

theorem find?_isLeast (hsorted : cutPoints.Pairwise (· < ·))
    (hfind : (cutPoints.find? fun cutPoint => i ≤ cutPoint) = some c) :
    IsLeast {c | c ∈ cutPoints ∧ i ≤ c} c := by
  induction cutPoints with
  | nil => simp at hfind
  | cons first more ih =>
    obtain ⟨hfirst, hmore⟩ := List.pairwise_cons.1 hsorted
    by_cases hi : i ≤ first
    · have hc : first = c := by simpa [hi] using hfind
      subst hc
      refine ⟨⟨List.mem_cons_self, hi⟩, fun d hd => ?_⟩
      rcases List.mem_cons.1 hd.1 with hd | hd
      · exact hd.ge
      · exact (hfirst d hd).le
    · have hfind' : (more.find? fun cutPoint => i ≤ cutPoint) = some c := by
        simpa [hi] using hfind
      obtain ⟨⟨hmem, hle⟩, hleast⟩ := ih hmore hfind'
      refine ⟨⟨List.mem_cons_of_mem _ hmem, hle⟩, fun d hd => ?_⟩
      rcases List.mem_cons.1 hd.1 with rfl | hmem'
      · exact absurd hd.2 hi
      · exact hleast ⟨hmem', hd.2⟩

theorem le_getLast (hsorted : cutPoints.Pairwise (· < ·)) (hne : cutPoints ≠ []) :
    ∀ c ∈ cutPoints, c ≤ cutPoints.getLast hne := by
  intro c hc
  obtain ⟨init, last, rfl⟩ : ∃ init last, cutPoints = init ++ [last] :=
    ⟨_, _, (List.dropLast_append_getLast hne).symm⟩
  rw [List.getLast_append_singleton]
  rcases List.mem_append.1 hc with hinit | hlast
  · exact ((List.pairwise_append.1 hsorted).2.2 c hinit last List.mem_cons_self).le
  · exact (List.mem_singleton.1 hlast).le

variable (entries startIndex endIndex keepRecentTokens) in
theorem findCutPoint_cases :
    (findValidCutPoints entries startIndex endIndex = [] ∧
      findCutPoint entries startIndex endIndex keepRecentTokens = ⟨startIndex, none, false⟩) ∨
    ∃ cutPoint, Chosen entries startIndex endIndex keepRecentTokens cutPoint ∧
      (findCutPoint entries startIndex endIndex keepRecentTokens).firstKeptEntryIndex =
        walkBack entries startIndex cutPoint := by
  have hsorted := findValidCutPoints_sorted entries startIndex endIndex
  have hspec := reachesBudget_spec entries startIndex keepRecentTokens (le_refl endIndex) fun i hi => hi.2.1
  rw [tokensFrom_self] at hspec
  cases hpoints : findValidCutPoints entries startIndex endIndex with
  | nil =>
    refine Or.inl ⟨rfl, ?_⟩
    unfold findCutPoint
    rw [hpoints]
  | cons first more =>
    right
    rw [hpoints] at hsorted
    unfold findCutPoint
    rw [hpoints]
    refine ⟨_, ?_, rfl⟩
    cases hreach : reachesBudget entries keepRecentTokens 0 (backward startIndex endIndex) with
    | none =>
      rw [hreach] at hspec
      refine ⟨by simp [hpoints], fun i hi => ?_, fun _ c hc => ?_⟩
      · have hmem := hi.1
        rw [hspec] at hmem
        exact absurd hmem (Set.notMem_empty i)
      · rw [hpoints] at hc
        rcases List.mem_cons.1 hc with hc | hc
        · exact hc.ge
        · exact ((List.pairwise_cons.1 hsorted).1 c hc).le
    | some i =>
      rw [hreach] at hspec
      have hnonempty : BudgetRows entries startIndex endIndex keepRecentTokens ≠ ∅ :=
        Set.nonempty_iff_ne_empty.1 ⟨i, hspec.1⟩
      dsimp only
      cases hfind : (first :: more).find? fun cutPoint => i ≤ cutPoint with
      | some c =>
        rw [Option.getD_some]
        have hleast := find?_isLeast hsorted hfind
        refine ⟨hpoints ▸ hleast.1.1, fun j hj => Or.inl ?_, fun h => absurd h hnonempty⟩
        rw [hj.unique hspec, hpoints]
        exact hleast
      | none =>
        refine ⟨by rw [hpoints]; exact List.getLast_mem _, fun j hj => Or.inr ?_,
          fun h => absurd h hnonempty⟩
        rw [hj.unique hspec, hpoints]
        refine ⟨fun c hc => ?_, le_getLast hsorted _⟩
        have hearly := List.find?_eq_none.1 hfind c hc
        simpa using hearly

/-! ## Tool results -/

/-- Every tool result of the window follows the message that issued its call, and no row that a cut
may take is between. -/
def PairedResults (entries : List SessionTreeEntry) (callOf : Nat → Nat) : Prop :=
  ∀ result, isToolResultRow entries result = true → callOf result < result ∧
    ∀ i, callOf result < i → i < result → entries[i]?.any SessionTreeEntry.isCutPoint = false

theorem isToolResultRow_stopsWalk (h : isToolResultRow entries i = true) :
    entries[i]?.any SessionTreeEntry.stopsWalk = true := by
  unfold isToolResultRow at h
  unfold SessionTreeEntry.stopsWalk
  cases hrow : entries[i]? with
  | none => simp [hrow] at h
  | some entry =>
    rw [hrow, Option.any_some] at h
    rw [Option.any_some]
    cases hbody : entry.body with
    | message message => rfl
    | _ => simp [hbody] at h

theorem isToolResultRow_not_cut (h : isToolResultRow entries i = true) :
    entries[i]?.any SessionTreeEntry.isCutPoint = false := by
  unfold isToolResultRow at h
  unfold SessionTreeEntry.isCutPoint
  cases hrow : entries[i]? with
  | none => rfl
  | some entry =>
    rw [hrow, Option.any_some] at h
    rw [Option.any_some]
    cases hbody : entry.body with
    | message message =>
      cases message with
      | toolResult content => rfl
      | _ => simp [hbody] at h
    | _ => simp [hbody] at h

theorem isCutPoint_of_mem (h : c ∈ findValidCutPoints entries startIndex endIndex) :
    entries[c]?.any SessionTreeEntry.isCutPoint = true :=
  (List.mem_filter.1 h).2

theorem findCutPoint_paired {callOf : Nat → Nat} (hpaired : PairedResults entries callOf)
    {result : Nat} (hresult : isToolResultRow entries result = true)
    (hkept : (findCutPoint entries startIndex endIndex keepRecentTokens).firstKeptEntryIndex ≤
      result) (hstart : startIndex ≤ callOf result) :
    (findCutPoint entries startIndex endIndex keepRecentTokens).firstKeptEntryIndex ≤
      callOf result := by
  rcases findCutPoint_cases entries startIndex endIndex keepRecentTokens with
    ⟨-, hcut⟩ | ⟨cutPoint, hchosen, hfirst⟩
  · rw [hcut]
    exact hstart
  · rw [hfirst] at hkept ⊢
    have hcut := isCutPoint_of_mem hchosen.mem
    have hwalk := walkBack_bounds entries (findValidCutPoints_bounds hchosen.mem).1
    -- the walk back does not pass the result, and it does not stand at the cut point
    have hlt : cutPoint < result := by
      by_contra hge
      by_cases heq : result = cutPoint
      · rw [heq] at hresult
        rw [isToolResultRow_not_cut hresult] at hcut
        exact Bool.false_ne_true hcut
      · have hpassed := walkBack_passed hkept (show result < cutPoint by omega)
        rw [isToolResultRow_stopsWalk hresult] at hpassed
        exact Bool.false_ne_true hpassed.symm
    by_contra hbefore
    have hbetween := (hpaired result hresult).2 cutPoint (by omega) hlt
    rw [hcut] at hbetween
    exact Bool.false_ne_true hbetween.symm

/-! ## Split turns -/

variable {entryIndex : Nat}

theorem findTurnStartIndex_isSome :
    (findTurnStartIndex entries entryIndex startIndex).isSome = true ↔
      ∃ i, startIndex ≤ i ∧ i ≤ entryIndex ∧ startsTurnAt entries i = true := by
  rw [findTurnStartIndex, List.find?_isSome]
  constructor
  · rintro ⟨i, hi, hstarts⟩
    have hbounds := mem_backward.1 hi
    exact ⟨i, hbounds.1, Nat.lt_succ_iff.1 hbounds.2, hstarts⟩
  · rintro ⟨i, hge, hle, hstarts⟩
    exact ⟨i, mem_backward.2 ⟨hge, Nat.lt_succ_iff.2 hle⟩, hstarts⟩

theorem findTurnStartIndex_self (hstart : startIndex ≤ entryIndex)
    (h : startsTurnAt entries entryIndex = true) :
    findTurnStartIndex entries entryIndex startIndex = some entryIndex := by
  rw [findTurnStartIndex, backward_succ hstart, List.find?_cons_of_pos]
  exact h

theorem isUserMessage_startsTurn (h : entries[i]?.any SessionTreeEntry.isUserMessage = true) :
    startsTurnAt entries i = true := by
  unfold startsTurnAt SessionTreeEntry.startsTurn
  unfold SessionTreeEntry.isUserMessage at h
  cases hrow : entries[i]? with
  | none => simp [hrow] at h
  | some entry =>
    rw [hrow, Option.any_some] at h
    rw [Option.any_some]
    cases hbody : entry.body with
    | message message =>
      cases message with
      | user content => rfl
      | _ => simp [hbody] at h
    | _ => simp [hbody] at h

/-- The turn is split, and its first part is not empty. -/
def CutPointResult.splitsTurn (cut : CutPointResult) : Prop :=
  cut.isSplitTurn = true ∧ ∃ turnStart, cut.turnStartIndex = some turnStart ∧
    turnStart < cut.firstKeptEntryIndex

variable (keepRecentTokens) in
theorem findCutPoint_turn (cut : CutPointResult)
    (hcut : cut = findCutPoint entries startIndex endIndex keepRecentTokens)
    (hpoints : findValidCutPoints entries startIndex endIndex ≠ []) :
    let isUserMessage :=
      entries[cut.firstKeptEntryIndex]?.any SessionTreeEntry.isUserMessage
    cut.turnStartIndex = (if isUserMessage then none
      else findTurnStartIndex entries cut.firstKeptEntryIndex startIndex) ∧
    cut.isSplitTurn = (!isUserMessage && cut.turnStartIndex.isSome) := by
  subst hcut
  unfold findCutPoint
  cases hlist : findValidCutPoints entries startIndex endIndex with
  | nil => exact absurd hlist hpoints
  | cons first more => exact ⟨rfl, rfl⟩

theorem findCutPoint_splitsTurn :
    (findCutPoint entries startIndex endIndex keepRecentTokens).splitsTurn ↔
      startsTurnAt entries
        (findCutPoint entries startIndex endIndex keepRecentTokens).firstKeptEntryIndex = false ∧
      ∃ i, startIndex ≤ i ∧
        i < (findCutPoint entries startIndex endIndex keepRecentTokens).firstKeptEntryIndex ∧
        startsTurnAt entries i = true := by
  by_cases hpoints : findValidCutPoints entries startIndex endIndex = []
  · have hcut : findCutPoint entries startIndex endIndex keepRecentTokens =
        ⟨startIndex, none, false⟩ := by
      unfold findCutPoint
      rw [hpoints]
    rw [hcut]
    simp only [CutPointResult.splitsTurn, Bool.false_eq_true, false_and, false_iff]
    rintro ⟨-, i, hge, hlt, -⟩
    omega
  · have hwindow := (findCutPoint_window entries startIndex endIndex keepRecentTokens).1
    have hturn := findCutPoint_turn keepRecentTokens _ rfl hpoints
    revert hwindow hturn
    generalize findCutPoint entries startIndex endIndex keepRecentTokens = cut
    intro hwindow hturn
    obtain ⟨hindex, hsplit⟩ := hturn
    by_cases hstarts : startsTurnAt entries cut.firstKeptEntryIndex = true
    · -- the row starts a turn: the turn is whole, or its first part is empty
      simp only [hstarts, Bool.true_eq_false, false_and, iff_false]
      rintro ⟨-, turnStart, hsome, hlt⟩
      rw [hindex] at hsome
      rw [findTurnStartIndex_self hwindow hstarts] at hsome
      by_cases huser : entries[cut.firstKeptEntryIndex]?.any SessionTreeEntry.isUserMessage = true
      · rw [if_pos huser] at hsome
        exact absurd hsome (Option.some_ne_none _).symm
      · rw [if_neg huser] at hsome
        have heq := Option.some.inj hsome
        omega
    · have huser : entries[cut.firstKeptEntryIndex]?.any SessionTreeEntry.isUserMessage = false :=
        Bool.eq_false_iff.2 fun huser => hstarts (isUserMessage_startsTurn huser)
      rw [huser, if_neg Bool.false_ne_true] at hindex
      rw [huser, Bool.not_false, Bool.true_and] at hsplit
      rw [Bool.not_eq_true] at hstarts
      simp only [hstarts, true_and]
      constructor
      · rintro ⟨-, turnStart, hsome, hlt⟩
        have hspec := findTurnStartIndex_some (hindex ▸ hsome)
        exact ⟨turnStart, hspec.1, hlt, hspec.2.2⟩
      · rintro ⟨i, hge, hlt, hi⟩
        have hsome := findTurnStartIndex_isSome.2 ⟨i, hge, hlt.le, hi⟩
        rw [← hindex] at hsome
        obtain ⟨turnStart, hturn⟩ := Option.isSome_iff_exists.1 hsome
        refine ⟨by rw [hsplit, hsome], turnStart, hturn, ?_⟩
        have hspec := findTurnStartIndex_some (hindex ▸ hturn)
        have hne : turnStart ≠ cut.firstKeptEntryIndex := by
          intro heq
          rw [heq] at hspec
          rw [show startsTurnAt entries cut.firstKeptEntryIndex = true from hspec.2.2] at hstarts
          exact Bool.false_ne_true hstarts.symm
        omega

/-! ## What is retained -/

theorem isToolResultRow_of_message (h : isMessageRow entries i = true)
    (hcut : entries[i]?.any SessionTreeEntry.isCutPoint = false) :
    isToolResultRow entries i = true := by
  unfold isToolResultRow
  unfold isMessageRow at h
  unfold SessionTreeEntry.isCutPoint at hcut
  cases hrow : entries[i]? with
  | none => simp [hrow] at h
  | some entry =>
    rw [hrow, Option.any_some] at h hcut
    rw [Option.any_some]
    cases hbody : entry.body with
    | message message =>
      cases message with
      | toolResult content => rfl
      | _ => simp [hbody] at hcut
    | _ => simp [hbody] at h

theorem mem_findValidCutPoints : i ∈ findValidCutPoints entries startIndex endIndex ↔
      startIndex ≤ i ∧ i < endIndex ∧ entries[i]?.any SessionTreeEntry.isCutPoint = true := by
  rw [findValidCutPoints, List.mem_filter, List.mem_range'_1]
  constructor
  · rintro ⟨hbounds, hcut⟩
    exact ⟨by omega, by omega, hcut⟩
  · rintro ⟨hge, hlt, hcut⟩
    exact ⟨by omega, hcut⟩

variable (entries startIndex endIndex keepRecentTokens) in
theorem exists_budgetRow :
    (∃ i, IsGreatest (BudgetRows entries startIndex endIndex keepRecentTokens) i) ∨
      BudgetRows entries startIndex endIndex keepRecentTokens = ∅ := by
  have hspec := reachesBudget_spec entries startIndex keepRecentTokens (le_refl endIndex) fun i hi => hi.2.1
  cases hreach : reachesBudget entries keepRecentTokens (tokensFrom entries endIndex endIndex)
      (backward startIndex endIndex) with
  | none =>
    rw [hreach] at hspec
    exact Or.inr hspec
  | some i =>
    rw [hreach] at hspec
    exact Or.inl ⟨i, hspec⟩

/-- The budget is reached in a tool result, and what is retained begins after it. -/
def CutAfterResult (entries : List SessionTreeEntry) (startIndex endIndex : Nat)
    (keepRecentTokens : JsNumber) (firstKept : Nat) : Prop :=
  ∃ i, IsGreatest (BudgetRows entries startIndex endIndex keepRecentTokens) i ∧
    isToolResultRow entries i = true ∧
    ∀ c ∈ findValidCutPoints entries startIndex endIndex, i ≤ c → firstKept ≤ c

theorem findCutPoint_retains (firstKept : Nat)
    (hkept : firstKept =
      (findCutPoint entries startIndex endIndex keepRecentTokens).firstKeptEntryIndex) :
    keepRecentTokens.reachedBy (tokensFrom entries firstKept endIndex) = true ∨
      (∀ c ∈ findValidCutPoints entries startIndex endIndex, firstKept ≤ c) ∨
      CutAfterResult entries startIndex endIndex keepRecentTokens firstKept := by
  rcases findCutPoint_cases entries startIndex endIndex keepRecentTokens with
    ⟨hpoints, -⟩ | ⟨cutPoint, hchosen, hfirst⟩
  · right; left
    simp [hpoints]
  · have hbounds := findValidCutPoints_bounds hchosen.mem
    have hle : firstKept ≤ cutPoint := by
      rw [hkept, hfirst]
      exact (walkBack_bounds entries hbounds.1).2
    rcases exists_budgetRow entries startIndex endIndex keepRecentTokens with ⟨i, hi⟩ | hempty
    · by_cases hearly : firstKept ≤ i
      · exact Or.inl (reachedBy_mono (tokensFrom_le hearly) hi.1.2.2.2)
      · -- the cut stands after the row that reaches the budget
        rcases hchosen.reached i hi with hleast | ⟨hbefore, -⟩
        · have hnotcut : entries[i]?.any SessionTreeEntry.isCutPoint = false := by
            rw [Bool.eq_false_iff]
            intro hcut
            have hmem := mem_findValidCutPoints.2 ⟨hi.1.1, hi.1.2.1, hcut⟩
            have hle' := hleast.2 ⟨hmem, le_rfl⟩
            omega
          refine Or.inr (Or.inr ⟨i, hi, isToolResultRow_of_message hi.1.2.2.1 hnotcut, ?_⟩)
          intro c hc hic
          exact hle.trans (hleast.2 ⟨hc, hic⟩)
        · have hlt := hbefore cutPoint hchosen.mem
          omega
    · exact Or.inr (Or.inl fun c hc => hle.trans (hchosen.unreached hempty c hc))

/-! ## The result -/

/-- **The cut respects tool pairs and turns.** A retained tool result is retained with its call,
unless the window starts between them; where the first retained row is a message, the turn is split
exactly if this row starts no turn and an earlier row of the window does; and the retained messages
reach the budget, or everything from the first cut point is retained, or the budget is reached in a
tool result and everything from the next cut point is. -/
theorem findCutPoint_respects (entries : List SessionTreeEntry) (startIndex endIndex : Nat)
    (keepRecentTokens : JsNumber) :
    let cut := findCutPoint entries startIndex endIndex keepRecentTokens
    (∀ callOf, PairedResults entries callOf → ∀ result, isToolResultRow entries result = true →
      cut.firstKeptEntryIndex ≤ result → startIndex ≤ callOf result →
      cut.firstKeptEntryIndex ≤ callOf result) ∧
    (bearsMessage entries cut.firstKeptEntryIndex = true →
      (cut.splitsTurn ↔ startsTurnAt entries cut.firstKeptEntryIndex = false ∧
        ∃ i, startIndex ≤ i ∧ i < cut.firstKeptEntryIndex ∧ startsTurnAt entries i = true)) ∧
    (keepRecentTokens.reachedBy (tokensFrom entries cut.firstKeptEntryIndex endIndex) = true ∨
      (∀ c ∈ findValidCutPoints entries startIndex endIndex, cut.firstKeptEntryIndex ≤ c) ∨
      CutAfterResult entries startIndex endIndex keepRecentTokens cut.firstKeptEntryIndex) := by
  intro cut
  refine ⟨?_, ?_, ?_⟩
  · intro callOf hpaired result hresult hkept hstart
    exact findCutPoint_paired hpaired hresult hkept hstart
  · intro _
    exact findCutPoint_splitsTurn
  · exact findCutPoint_retains cut.firstKeptEntryIndex rfl

def rowOf (message : HarnessMessage) : SessionTreeEntry where
  id := "row"
  parentId := none
  timestamp := .valid 0
  body := .message message

/-- The budget is reached in a tool result, and only the user message after it is retained. -/
theorem cut_below_budget :
    let user := rowOf (.user (.text "aaaa"))
    let result := rowOf (.toolResult [⟨"text", some "aaaaaaaa", none⟩])
    let entries := [user, result, user]
    let cut := findCutPoint entries 0 3 (.finite 2)
    ¬ (JsNumber.reachedBy (tokensFrom entries cut.firstKeptEntryIndex 3) (.finite 2) = true ∨
      ∀ c ∈ findValidCutPoints entries 0 3, cut.firstKeptEntryIndex ≤ c) := by
  decide +kernel

end OpenClaw.Harness
