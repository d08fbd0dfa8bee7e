import OpenClaw.AutoReply.MarkdownChunks

/-!
# What `chunkMarkdownText` keeps

The bodies of the chunks and what is dropped between them are the text again.

**Main result (`chunkMarkdownText_preserves_iff`).** Nothing but white space is dropped, and of
fenced code nothing but a line break at a cut, if and only if no round of the loop breaks inside of
a fence before white space that is no line break.
-/

namespace OpenClaw.AutoReply

open Js

section

variable (text : Str) (spans : List FenceSpan)

/-! ## What is dropped -/

/-- What is dropped behind the body of the chunk. -/
def Cut.dropped (cut : Cut) : Str := (text.take cut.next).drop cut.stop

/-- The code unit `u` at `i` is dropped behind the body. -/
structure Cut.Drops (cut : Cut) (i u : Nat) : Prop where
  ge : cut.stop ≤ i
  lt : i < cut.next
  unit : text[i]? = some u

/-- White space only is dropped, and inside of fences one line break at most. -/
structure Cut.Keeps (cut : Cut) : Prop where
  blank : ∀ i u, cut.Drops text i u → isSpace u = true
  code : ∀ i u, cut.Drops text i u → InsideFence spans i → u = 0x0A
  once : ∀ i j u v, cut.Drops text i u → cut.Drops text j v → InsideFence spans i →
    InsideFence spans j → i = j

/-- The lines that are added at the cut: none, or those of the fence that the cut is inside of. -/
def Cut.AddsLines (cut : Cut) (nextOpening : Str) : Prop :=
  (cut.closing = [] ∧ nextOpening = []) ∨
    ∃ fence ∈ spans, fence.Contains cut.stop ∧
      cut.closing = closingOf fence (cut.opening ++ cut.body text) ∧
      nextOpening = reopenPrefix (some fence)

/-- From `start` on, the chunks and what is dropped between them are the text. -/
inductive Tiles : (start : Nat) → (opening : Str) → List Cut → Prop
  | nil (opening : Str) : Tiles text.length opening []
  | cons (cut : Cut) {cuts : List Cut} {nextOpening : Str} (hbody : cut.start < cut.stop)
      (hdropped : cut.stop ≤ cut.next) (hnext : cut.next ≤ text.length)
      (hlines : cut.AddsLines text spans nextOpening) (h : Tiles cut.next nextOpening cuts) :
      Tiles cut.start cut.opening (cut :: cuts)

structure Preserves (cuts : List Cut) : Prop where
  tiles : Tiles text spans 0 [] cuts
  whole : text = cuts.flatMap fun cut => cut.body text ++ cut.dropped text
  keeps : ∀ cut ∈ cuts, cut.Keeps text spans

/-! ## Rounds of the loop -/

variable (limit : Nat)

/-- The loop comes from one of its states to another. -/
inductive Rounds : Nat → Option FenceSpan → Nat → Option FenceSpan → Prop
  | refl (start : Nat) (reopenFence : Option FenceSpan) : Rounds start reopenFence start reopenFence
  | head {start start' : Nat} {reopenFence reopenFence' : Option FenceSpan} {split : Break}
      (hstart : start < text.length)
      (hsplit : roundBreak text spans limit start reopenFence = some split)
      (h : Rounds (nextStart text split) split.fenceToSplit start' reopenFence') :
      Rounds start reopenFence start' reopenFence'

/-- The break is inside of a fence, before white space that is no line break. -/
def Break.BeforeBlank (split : Break) : Prop :=
  InsideFence spans split.idx ∧ ∃ u ∈ text[split.idx]?, isSpace u = true ∧ u ≠ 0x0A

/-- The round of the loop from this state makes such a break. -/
def SplitsBeforeBlank (start : Nat) (reopenFence : Option FenceSpan) : Prop :=
  start < text.length ∧ ∃ split, roundBreak text spans limit start reopenFence = some split ∧
    split.BeforeBlank text spans

end

/-! ## One round -/

section

variable {text : Str} {spans : List FenceSpan} {start : Nat} {split : Break}

theorem isSpace_lineBreak : isSpace 0x0A = true := by decide

theorem skipLeadingNewlines_le (hstart : start ≤ text.length) :
    skipLeadingNewlines text start ≤ text.length := by
  have hlength := (List.takeWhile_prefix (· = 0x0A) (l := text.drop start)).length_le
  rw [List.length_drop] at hlength
  unfold skipLeadingNewlines
  omega

variable {i u : Nat}

theorem getElem?_skipLeadingNewlines (hge : start ≤ i) (hlt : i < skipLeadingNewlines text start)
    (hu : text[i]? = some u) : u = 0x0A := by
  have htext := (text.drop start).takeWhile_append_dropWhile (p := (· = 0x0A))
  have hbreaks : ∀ u ∈ (text.drop start).takeWhile (· = 0x0A), u = 0x0A := by
    intro u hu
    simpa using List.mem_takeWhile_imp hu
  unfold skipLeadingNewlines at hlt
  obtain ⟨offset, rfl⟩ := Nat.exists_eq_add_of_le hge
  rw [← List.getElem?_drop, ← htext, List.getElem?_append_left (by omega)] at hu
  exact hbreaks u (List.mem_of_getElem? hu)

variable {reopenFence : Option FenceSpan}

theorem drops_cases (h : (cutAt text start reopenFence split).Drops text i u) :
    (i = split.idx ∧ isSpace u = true) ∨
      (split.idx < i ∧ u = 0x0A ∧ split.fenceToSplit = none) := by
  obtain ⟨hge, hlt, hu⟩ := h
  change split.idx ≤ i at hge
  change i < nextStart text split at hlt
  have hlength := (List.getElem?_eq_some_iff.1 hu).1
  unfold nextStart at hlt
  dsimp only at hlt
  by_cases hidx : i = split.idx
  · refine .inl ⟨hidx, ?_⟩
    rw [hidx] at hu hlt
    by_cases hspace : isSpace u = true
    · exact hspace
    · rw [hu, Option.any_some, eq_false_of_ne_true hspace, if_neg Bool.false_ne_true,
        Nat.add_zero, Nat.min_eq_right (by omega)] at hlt
      split at hlt
      · exact absurd hlt (Nat.lt_irrefl _)
      · rw [getElem?_skipLeadingNewlines (Nat.le_refl _) hlt hu]
        exact isSpace_lineBreak
  · refine .inr ⟨by omega, ?_⟩
    split at hlt
    · exfalso
      split at hlt <;> omega
    · rename_i hfence
      refine ⟨getElem?_skipLeadingNewlines ?_ hlt hu, by simpa using hfence⟩
      split <;> omega

theorem nextStart_place (h : split.Good text spans start) :
    split.idx ≤ nextStart text split ∧ nextStart text split ≤ text.length := by
  have hle := h.le
  have hmin : split.idx ≤ min text.length
      (split.idx + if text[split.idx]?.any isSpace then 1 else 0) := by omega
  unfold nextStart
  split
  · exact ⟨hmin, Nat.min_le_left _ _⟩
  · exact ⟨hmin.trans (le_skipLeadingNewlines text _), skipLeadingNewlines_le (Nat.min_le_left _ _)⟩

variable {low : Nat}

theorem drops_outside (hfound : Found text low spans) (houtside : ¬InsideFence spans split.idx)
    (h : (cutAt text start reopenFence split).Drops text i u) : ¬InsideFence spans i := by
  intro hinside
  obtain ⟨fence, hfence, hstart, hstop⟩ := hinside
  have hge : split.idx ≤ i := h.ge
  have hopen : split.idx ≤ fence.start := by
    by_contra hnot
    exact houtside ⟨fence, hfence, Nat.lt_of_not_le hnot, by omega⟩
  -- the second code unit of the fence would be one of the line breaks
  obtain ⟨c, d, rest, hdrop, -, hd⟩ := hfound.opens fence hfence
  have hsecond : text[fence.start + 1]? = some d := by
    rw [← List.getElem?_drop, hdrop]
    rfl
  have hdrops : (cutAt text start reopenFence split).Drops text (fence.start + 1) d :=
    ⟨Nat.le_succ_of_le hopen, Nat.lt_of_le_of_lt hstart h.lt, hsecond⟩
  rcases drops_cases hdrops with ⟨hidx, -⟩ | ⟨-, hbreak, -⟩
  · omega
  · rw [hbreak] at hd
    rcases hd with hd | hd | hd
    · cases hd
    · cases hd
    · cases hd

theorem cutAt_keeps_iff (hfound : Found text low spans) (h : split.Good text spans start) :
    (cutAt text start reopenFence split).Keeps text spans ↔ ¬split.BeforeBlank text spans := by
  constructor
  · intro hkeeps hblank
    obtain ⟨hinside, u, hu, hspace, hne⟩ := hblank
    have hlength := (List.getElem?_eq_some_iff.1 hu).1
    have hdrops : (cutAt text start reopenFence split).Drops text split.idx u := by
      refine ⟨Nat.le_refl _, ?_, hu⟩
      change split.idx < nextStart text split
      have hsep : split.idx < min text.length
          (split.idx + if text[split.idx]?.any isSpace then 1 else 0) := by
        rw [hu, Option.any_some, hspace, if_pos rfl]
        omega
      unfold nextStart
      split
      · exact hsep
      · exact hsep.trans_le (le_skipLeadingNewlines text _)
    exact hne (hkeeps.code split.idx u hdrops hinside)
  · intro hblank
    have hcases {i u : Nat} (hdrops : (cutAt text start reopenFence split).Drops text i u)
        (hinside : InsideFence spans i) : i = split.idx ∧ u = 0x0A := by
      cases hsplit : split.fenceToSplit with
      | none => exact absurd hinside (drops_outside hfound (h.outside hsplit) hdrops)
      | some fence =>
        rcases drops_cases hdrops with ⟨rfl, hspace⟩ | ⟨-, -, hnone⟩
        · refine ⟨rfl, ?_⟩
          by_contra hne
          exact hblank ⟨hinside, u, hdrops.unit, hspace, hne⟩
        · rw [hsplit] at hnone
          cases hnone
    refine ⟨?_, ?_, ?_⟩
    · intro i u hdrops
      rcases drops_cases hdrops with ⟨-, hspace⟩ | ⟨-, rfl, -⟩
      · exact hspace
      · exact isSpace_lineBreak
    · intro i u hdrops hinside
      exact (hcases hdrops hinside).2
    · intro i j u v hi hj hinsideI hinsideJ
      rw [(hcases hi hinsideI).1, (hcases hj hinsideJ).1]

theorem cutAt_addsLines (reopenFence : Option FenceSpan) (h : split.Good text spans start) :
    (cutAt text start reopenFence split).AddsLines text spans (reopenPrefix split.fenceToSplit) := by
  unfold Cut.AddsLines cutAt
  cases hsplit : split.fenceToSplit with
  | none => exact .inl ⟨rfl, rfl⟩
  | some fence =>
    obtain ⟨hmem, hcontains⟩ := h.inside fence hsplit
    exact .inr ⟨fence, hmem, hcontains, rfl, rfl⟩

theorem slice_append_slice {middle stop : Nat} (hstart : start ≤ middle) (hstop : middle ≤ stop) :
    (text.take middle).drop start ++ (text.take stop).drop middle = (text.take stop).drop start := by
  have htake : text.take middle = (text.take stop).take middle := by
    rw [List.take_take, Nat.min_eq_left hstop]
  have hsplit := (((text.take stop).drop start).take_append_drop (middle - start))
  rw [List.drop_drop, ← List.drop_take, ← htake, Nat.add_sub_cancel' hstart] at hsplit
  exact hsplit

theorem Tiles.whole {opening : Str} {cuts : List Cut} (h : Tiles text spans start opening cuts) :
    text.drop start = cuts.flatMap fun cut => cut.body text ++ cut.dropped text := by
  induction h with
  | nil opening => exact List.drop_length
  | @cons cut cuts nextOpening hbody hdropped hnext hlines h ih =>
    rw [List.flatMap_cons, ← ih, Cut.body, Cut.dropped, slice_append_slice hbody.le hdropped]
    have hsplit := (text.drop cut.start).take_append_drop (cut.next - cut.start)
    rw [List.drop_drop, ← List.drop_take, Nat.add_sub_cancel' (hbody.le.trans hdropped)] at hsplit
    exact hsplit.symm

/-! ## The loop -/

theorem keeps_last (opening : Str) :
    (⟨opening, start, text.length, [], text.length⟩ : Cut).Keeps text spans := by
  have hnothing {i u : Nat} {P : Prop}
      (h : (⟨opening, start, text.length, [], text.length⟩ : Cut).Drops text i u) : P :=
    absurd h.lt (Nat.not_lt.2 h.ge)
  exact ⟨fun _ _ => hnothing, fun _ _ h => hnothing h, fun _ _ _ _ h => hnothing h⟩

variable {limit : Nat}

theorem not_splitsBeforeBlank_of_none (h : roundBreak text spans limit start reopenFence = none) :
    ¬SplitsBeforeBlank text spans limit start reopenFence := by
  intro hsplits
  obtain ⟨-, split, hsplit, -⟩ := hsplits
  rw [h] at hsplit
  cases hsplit

theorem rounds_of_none {start' : Nat} {reopenFence' : Option FenceSpan}
    (h : roundBreak text spans limit start reopenFence = none)
    (hrounds : Rounds text spans limit start reopenFence start' reopenFence') :
    start' = start ∧ reopenFence' = reopenFence := by
  cases hrounds with
  | refl => exact ⟨rfl, rfl⟩
  | head hstart hsplit =>
    rw [h] at hsplit
    cases hsplit

theorem rounds_of_some {P : Nat → Option FenceSpan → Prop} (hstart : start < text.length)
    (hsplit : roundBreak text spans limit start reopenFence = some split) :
    (∀ start' reopenFence', Rounds text spans limit start reopenFence start' reopenFence' →
      P start' reopenFence') ↔ P start reopenFence ∧ ∀ start' reopenFence',
        Rounds text spans limit (nextStart text split) split.fenceToSplit start' reopenFence' →
          P start' reopenFence' := by
  constructor
  · intro h
    refine ⟨h start reopenFence (.refl start reopenFence), ?_⟩
    intro start' reopenFence' hrounds
    exact h start' reopenFence' (.head hstart hsplit hrounds)
  · intro h start' reopenFence' hrounds
    cases hrounds with
    | refl => exact h.1
    | head hstart' hsplit' hrounds =>
      rw [hsplit] at hsplit'
      cases hsplit'
      exact h.2 start' reopenFence' hrounds

theorem chunkFrom_spec (limit : Nat) (reopenFence : Option FenceSpan)
    (hfound : Found text low spans) (hstart : start ≤ text.length) :
    Tiles text spans start (reopenPrefix reopenFence)
        (chunkFrom text spans limit start reopenFence) ∧
      ((∀ cut ∈ chunkFrom text spans limit start reopenFence, cut.Keeps text spans) ↔
        ∀ start' reopenFence', Rounds text spans limit start reopenFence start' reopenFence' →
          ¬SplitsBeforeBlank text spans limit start' reopenFence') := by
  induction start, reopenFence using chunkFrom.induct text spans limit with
  | case1 start reopenFence hlt hnone =>
    rw [chunkFrom, if_pos hlt, hnone]
    have htile : Tiles text spans start (reopenPrefix reopenFence)
        [⟨reopenPrefix reopenFence, start, text.length, [], text.length⟩] := by
      exact .cons ⟨reopenPrefix reopenFence, start, text.length, [], text.length⟩ hlt
        (Nat.le_refl _) (Nat.le_refl _) (.inl ⟨rfl, rfl⟩) (.nil [])
    refine ⟨htile, ?_⟩
    constructor
    · intro _ start' reopenFence' hrounds
      obtain ⟨rfl, rfl⟩ := rounds_of_none hnone hrounds
      exact not_splitsBeforeBlank_of_none hnone
    · intro _ cut hcut
      rw [List.mem_singleton] at hcut
      rw [hcut]
      exact keeps_last _
  | case2 start reopenFence hlt split hsplit hstuck =>
    exact absurd (roundBreak_good hfound hsplit).lt (Nat.not_lt.2 hstuck)
  | case3 start reopenFence hlt split hsplit hprogress ih =>
    have hgood := roundBreak_good hfound hsplit
    obtain ⟨hplace, hnext⟩ := nextStart_place hgood
    obtain ⟨htiles, hkeeps⟩ := ih hnext
    have hsplits : SplitsBeforeBlank text spans limit start reopenFence ↔
        split.BeforeBlank text spans := by
      constructor
      · intro h
        obtain ⟨-, split', hsplit', hblank⟩ := h
        rw [hsplit] at hsplit'
        cases hsplit'
        exact hblank
      · intro h
        exact ⟨hlt, split, hsplit, h⟩
    rw [chunkFrom, if_pos hlt, hsplit]
    dsimp only
    rw [if_neg hprogress]
    refine ⟨?_, ?_⟩
    · exact .cons (cutAt text start reopenFence split) hgood.lt hplace hnext
        (cutAt_addsLines reopenFence hgood) htiles
    · rw [List.forall_mem_cons, cutAt_keeps_iff hfound hgood, hkeeps, rounds_of_some hlt hsplit,
        hsplits]
  | case4 start reopenFence hend =>
    have hlength : start = text.length := by omega
    subst hlength
    rw [chunkFrom, if_neg hend]
    refine ⟨.nil _, ?_⟩
    constructor
    · intro _ start' reopenFence' hrounds hsplits
      cases hrounds with
      | refl => exact hend hsplits.1
      | head hstart => exact hend hstart
    · intro _ cut hcut
      cases hcut

end

/-! ## The whole function -/

theorem chunkMarkdownText_eq (text : Str) (limit : Nat) :
    chunkMarkdownText text limit = (chunkCuts text limit).map (·.render text) := by
  unfold chunkMarkdownText chunkCuts resolveChunkEarlyReturn
  by_cases htext : text = []
  · rw [if_pos htext, if_pos htext]
    rfl
  · rw [if_neg htext, if_neg htext]
    have hwhole : [text] = [(⟨[], 0, text.length, [], text.length⟩ : Cut)].map (·.render text) := by
      simp [Cut.render, Cut.body]
    by_cases hlimit : limit = 0
    · rw [if_pos hlimit, if_pos (by simp [hlimit])]
      exact hwhole
    · rw [if_neg hlimit]
      by_cases hshort : text.length ≤ limit
      · rw [if_pos hshort, if_pos (by simp [hshort])]
        exact hwhole
      · rw [if_neg hshort, if_neg (by simp [hlimit, hshort])]

/-- The chunks are what the cuts make of the text, and the cuts preserve it if and only if no round
of the loop breaks inside of a fence before white space that is no line break. -/
theorem chunkMarkdownText_preserves_iff (text : Str) (limit : Nat) (hlimit : 1 ≤ limit) :
    chunkMarkdownText text limit = (chunkCuts text limit).map (·.render text) ∧
      (Preserves text (parseFenceSpans text) (chunkCuts text limit) ↔
        ∀ start reopenFence,
          Rounds text (parseFenceSpans text) limit 0 none start reopenFence →
            ¬SplitsBeforeBlank text (parseFenceSpans text) limit start reopenFence) := by
  refine ⟨chunkMarkdownText_eq text limit, ?_⟩
  have hspec := chunkFrom_spec limit none (parseFenceSpans_found text) (Nat.zero_le _)
  have hcuts : chunkCuts text limit = chunkFrom text (parseFenceSpans text) limit 0 none := by
    unfold chunkCuts
    by_cases htext : text = []
    · rw [if_pos htext, chunkFrom, if_neg (by simp [htext])]
    · have hpos := List.length_pos_iff.2 htext
      rw [if_neg htext]
      by_cases hshort : text.length ≤ limit
      · have hnone : roundBreak text (parseFenceSpans text) limit 0 none = none := by
          unfold roundBreak reopenPrefix
          rw [if_pos (by simp; omega)]
        rw [if_pos (by simp [hshort]), chunkFrom, if_pos hpos, hnone]
        rfl
      · rw [if_neg (by simp [hshort]; omega)]
  rw [hcuts]
  constructor
  · intro h
    exact hspec.2.1 h.keeps
  · intro h
    exact ⟨hspec.1, by simpa using hspec.1.whole, hspec.2.2 h⟩

/-- A fence with the lines `a` and ` b`. -/
def indentedCode : Str :=
  [0x60, 0x60, 0x60, 0x0A, 0x61, 0x0A, 0x20, 0x62, 0x0A, 0x60, 0x60, 0x60]

theorem indentedCode_spans :
    parseFenceSpans indentedCode = [⟨0, 12, [0x60, 0x60, 0x60], [0x60, 0x60, 0x60], []⟩] := by
  decide +kernel

/-- A limit that the fence fits in. -/
theorem indentedCode_kept :
    1 ≤ 12 ∧ Preserves indentedCode (parseFenceSpans indentedCode) (chunkCuts indentedCode 12) := by
  have hnone : roundBreak indentedCode (parseFenceSpans indentedCode) 12 0 none = none := rfl
  refine ⟨by decide, (chunkMarkdownText_preserves_iff indentedCode 12 (by decide)).2.2 ?_⟩
  intro start reopenFence hrounds
  obtain ⟨rfl, rfl⟩ := rounds_of_none hnone hrounds
  exact not_splitsBeforeBlank_of_none hnone

/-- The indentation of the line `b` is dropped. -/
theorem indentation_dropped :
    ¬ ∀ text limit, 1 ≤ limit → Preserves text (parseFenceSpans text) (chunkCuts text limit) := by
  intro h
  have hcuts : chunkCuts indentedCode 9 =
      [⟨[], 0, 6, [0x60, 0x60, 0x60], 7⟩, ⟨[0x60, 0x60, 0x60, 0x0A], 7, 12, [], 12⟩] := by
    decide +kernel
  have hpreserves := h indentedCode 9 (by decide)
  rw [hcuts, indentedCode_spans] at hpreserves
  have hkeeps := hpreserves.keeps _ List.mem_cons_self
  have hspace := hkeeps.code 6 0x20 ⟨by decide, by decide, by decide⟩
    ⟨_, List.mem_cons_self, by decide, by decide⟩
  cases hspace

end OpenClaw.AutoReply
