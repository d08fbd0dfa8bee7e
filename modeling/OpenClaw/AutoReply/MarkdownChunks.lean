import OpenClaw.AutoReply.FenceSpans

/-!
# `auto-reply/chunk.ts`: `chunkMarkdownText`

A long text is cut into chunks. A cut inside of a fenced code block closes the fence at the end of
the chunk and opens it again in the next one. The code unit at a cut is dropped if it is white
space, and so are line breaks behind it, unless the cut is inside of a fence.

**Main result (`chunkMarkdownText_preserves_iff`).** The chunks keep every code unit that is not
white space, in order, and all of the fenced code but a line break at a cut, if and only if no cut
inside of a fence is made before white space that is no line break.
-/

namespace OpenClaw.AutoReply

open Js

/-! ## Break points -/

structure Breakpoints where
  depth : Nat
  lastNewline : Option Nat
  lastWhitespace : Option Nat

section

variable (text : Str)

/-- The body of the loop of `scanParenAwareBreakpoints`. -/
def scanBreakpoint (isAllowed : Nat → Bool) (points : Breakpoints) (i : Nat) : Breakpoints :=
  if !isAllowed i then points
  else
    match text[i]? with
    | none => points
    | some u =>
      if u = 0x28 then { points with depth := points.depth + 1 }
      else if u = 0x29 && 0 < points.depth then { points with depth := points.depth - 1 }
      else if points.depth ≠ 0 then points
      else if u = 0x0A then { points with lastNewline := some i }
      else if isSpace u then { points with lastWhitespace := some i }
      else points

def scanParenAwareBreakpoints (start stop : Nat) (isAllowed : Nat → Bool) : Breakpoints :=
  (List.range' start (stop - start)).foldl (scanBreakpoint text isAllowed) ⟨0, none, none⟩

variable (spans : List FenceSpan)

/-- `none` is -1. -/
def pickSafeBreakIndex (start stop : Nat) : Option Nat :=
  let points := scanParenAwareBreakpoints text start stop (isSafeFenceBreak spans)
  (points.lastNewline.filter (start < ·)).or (points.lastWhitespace.filter (start < ·))

def isHighSurrogate (u : Nat) : Bool := 0xD800 ≤ u && u ≤ 0xDBFF

def isLowSurrogate (u : Nat) : Bool := 0xDC00 ≤ u && u ≤ 0xDFFF

def avoidTrailingHighSurrogateBreak (start stop : Nat) : Nat :=
  if stop ≤ start || text.length ≤ stop then stop
  else if text[stop - 1]?.any isHighSurrogate && text[stop]?.any isLowSurrogate then
    if start < stop - 1 then stop - 1 else stop + 1
  else stop

def skipLeadingNewlines (start : Nat) : Nat :=
  start + ((text.drop start).takeWhile (· = 0x0A)).length

/-! ## A cut -/

/-- `fenceToSplit` is the fence that the break is inside of. -/
structure Break where
  idx : Nat
  fenceToSplit : Option FenceSpan

def FenceSpan.closeLine (fence : FenceSpan) : Str := fence.indent ++ fence.marker

def reopenPrefix : Option FenceSpan → Str
  | some fence => fence.openLine ++ [0x0A]
  | none => []

/-- `fenceAtBreak`, if it is the same fence. -/
def sameFenceAt (fence : FenceSpan) (idx : Nat) : Option FenceSpan :=
  (findFenceSpanAt spans idx).filter (·.start = fence.start)

/-- The loop over the line breaks up to `last`: the last break after one of them that is inside of
the fence, unless it is before `minProgressIdx`. -/
def pickNewline (fence : FenceSpan) (start minProgressIdx last : Nat) : Option Nat :=
  let newlines := (List.range (last + 1)).reverse.filter fun i => start ≤ i && text[i]? = some 0x0A
  ((newlines.takeWhile (minProgressIdx ≤ · + 1)).find? fun i =>
    (sameFenceAt spans fence (i + 1)).isSome).map (· + 1)

def minProgressIdx (fence : FenceSpan) (start : Nat) : Nat :=
  min text.length (max (start + 1) (fence.start + fence.openLine.length + 2))

/-- The break in a window that ends inside of the fence: room is left for the closing line. -/
def breakInFence (fence : FenceSpan) (start contentLimit windowEnd : Nat) : Nat :=
  let closeLength := fence.closeLine.length
  if contentLimit ≤ closeLength + 1 then windowEnd
  else
    let maxIdxIfAlreadyNewline := start + contentLimit - closeLength
    match pickNewline text spans fence start (minProgressIdx text fence start)
        (max start (maxIdxIfAlreadyNewline - 1)) with
    | some candidateBreak => candidateBreak
    | none =>
      if maxIdxIfAlreadyNewline < minProgressIdx text fence start then windowEnd
      else max (minProgressIdx text fence start) (start + (contentLimit - (closeLength + 1)))

def pickBreak (start contentLimit : Nat) : Break :=
  let windowEnd := min text.length (start + contentLimit)
  let breakIdx := (pickSafeBreakIndex text spans start windowEnd).getD windowEnd
  match findFenceSpanAt spans breakIdx with
  | none => ⟨breakIdx, none⟩
  | some fence =>
    let breakIdx := breakInFence text spans fence start contentLimit windowEnd
    ⟨breakIdx, sameFenceAt spans fence breakIdx⟩

/-- The break, moved away from the middle of a surrogate pair. -/
def safeBreak (start : Nat) (picked : Break) : Break :=
  let idx := avoidTrailingHighSurrogateBreak text start picked.idx
  if idx = picked.idx then picked
  else ⟨idx, picked.fenceToSplit.bind fun fence => sameFenceAt spans fence idx⟩

/-- A chunk: `text.slice(start, stop)` between the lines that are added. The next chunk begins at
`next`. -/
structure Cut where
  opening : Str
  start : Nat
  stop : Nat
  closing : Str
  next : Nat
  deriving DecidableEq

def Cut.body (cut : Cut) : Str := (text.take cut.stop).drop cut.start

def Cut.render (cut : Cut) : Str := cut.opening ++ cut.body text ++ cut.closing

/-- The closing line, on a line of its own. -/
def closingOf (fence : FenceSpan) (chunk : Str) : Str :=
  if chunk.getLast? = some 0x0A then fence.closeLine else 0x0A :: fence.closeLine

def nextStart (split : Break) : Nat :=
  let brokeOnSeparator := text[split.idx]?.any isSpace
  let next := min text.length (split.idx + if brokeOnSeparator then 1 else 0)
  if split.fenceToSplit.isSome then next else skipLeadingNewlines text next

def cutAt (start : Nat) (reopenFence : Option FenceSpan) (split : Break) : Cut where
  opening := reopenPrefix reopenFence
  start := start
  stop := split.idx
  closing := match split.fenceToSplit with
    | some fence =>
      closingOf fence (reopenPrefix reopenFence ++ (text.take split.idx).drop start)
    | none => []
  next := nextStart text split

/-! ## The loop -/

variable (limit : Nat)

/-- Where a round of the loop breaks; not at all if what is left is one chunk. -/
def roundBreak (start : Nat) (reopenFence : Option FenceSpan) : Option Break :=
  let contentLimit := max 1 (limit - (reopenPrefix reopenFence).length)
  if text.length - start ≤ contentLimit then none
  else some (safeBreak text spans start (pickBreak text spans start contentLimit))

theorem le_skipLeadingNewlines (start : Nat) : start ≤ skipLeadingNewlines text start :=
  Nat.le_add_right _ _

theorem lt_nextStart {start : Nat} {split : Break} (hstart : start < text.length)
    (hsplit : start < split.idx) : start < nextStart text split := by
  have hnext : start < min text.length
      (split.idx + if text[split.idx]?.any isSpace then 1 else 0) := by
    split <;> omega
  unfold nextStart
  split
  · exact hnext
  · exact hnext.trans_le (le_skipLeadingNewlines text _)

/-- The loop. The chunks are cut by their places in the text. -/
def chunkFrom (start : Nat) (reopenFence : Option FenceSpan) : List Cut :=
  if start < text.length then
    match roundBreak text spans limit start reopenFence with
    | none => [⟨reopenPrefix reopenFence, start, text.length, [], text.length⟩]
    | some split =>
      -- `rawContent` is empty
      if split.idx ≤ start then []
      else cutAt text start reopenFence split :: chunkFrom (nextStart text split) split.fenceToSplit
  else []
termination_by text.length - start
decreasing_by
  have hlt := lt_nextStart text ‹_› (Nat.lt_of_not_le ‹_›)
  omega

/-- The cuts of a text that is not empty, the early returns included. -/
def chunkCuts : List Cut :=
  if text = [] then []
  else if limit = 0 || text.length ≤ limit then [⟨[], 0, text.length, [], text.length⟩]
  else chunkFrom text (parseFenceSpans text) limit 0 none

def resolveChunkEarlyReturn : Option (List Str) :=
  if text = [] then some []
  else if limit = 0 then some [text]
  else if text.length ≤ limit then some [text]
  else none

def chunkMarkdownText : List Str :=
  match resolveChunkEarlyReturn text limit with
  | some early => early
  | none => (chunkFrom text (parseFenceSpans text) limit 0 none).map (·.render text)

end

/-! ## Where a break is -/

section

variable {text : Str} {spans : List FenceSpan}

variable {isAllowed : Nat → Bool} {P : Nat → Prop} {points : Breakpoints} {i : Nat}

theorem scanBreakpoint_forall (text : Str) (hi : isAllowed i = true → P i)
    (hnewline : ∀ j ∈ points.lastNewline, P j) (hwhitespace : ∀ j ∈ points.lastWhitespace, P j) :
    (∀ j ∈ (scanBreakpoint text isAllowed points i).lastNewline, P j) ∧
      ∀ j ∈ (scanBreakpoint text isAllowed points i).lastWhitespace, P j := by
  have hpoints := And.intro hnewline hwhitespace
  unfold scanBreakpoint
  by_cases hallowed : isAllowed i = true
  · have hnew : ∀ j ∈ some i, P j := by
      intro j hj
      cases hj
      exact hi hallowed
    rw [hallowed, Bool.not_true, if_neg Bool.false_ne_true]
    split
    · exact hpoints
    · split
      · exact hpoints
      · split
        · exact hpoints
        · split
          · exact hpoints
          · split
            · exact ⟨hnew, hwhitespace⟩
            · split
              · exact ⟨hnewline, hnew⟩
              · exact hpoints
  · rw [eq_false_of_ne_true hallowed, Bool.not_false, if_pos rfl]
    exact hpoints

theorem scanBreakpoints_forall (text : Str) {is : List Nat}
    (his : ∀ i ∈ is, isAllowed i = true → P i) (hnewline : ∀ j ∈ points.lastNewline, P j)
    (hwhitespace : ∀ j ∈ points.lastWhitespace, P j) :
    (∀ j ∈ (is.foldl (scanBreakpoint text isAllowed) points).lastNewline, P j) ∧
      ∀ j ∈ (is.foldl (scanBreakpoint text isAllowed) points).lastWhitespace, P j := by
  induction is generalizing points with
  | nil => exact ⟨hnewline, hwhitespace⟩
  | cons i is ih =>
    rw [List.forall_mem_cons] at his
    obtain ⟨hnewline', hwhitespace'⟩ := scanBreakpoint_forall text his.1 hnewline hwhitespace
    exact ih his.2 hnewline' hwhitespace'

variable {start : Nat}

theorem pickSafeBreakIndex_spec {stop : Nat}
    (h : pickSafeBreakIndex text spans start stop = some i) :
    start < i ∧ i < stop ∧ isSafeFenceBreak spans i = true := by
  have hrange : ∀ i ∈ List.range' start (stop - start), isSafeFenceBreak spans i = true →
      i < stop ∧ isSafeFenceBreak spans i = true := by
    intro i hi hallowed
    rw [List.mem_range'_1] at hi
    exact ⟨by omega, hallowed⟩
  have hpoints := scanBreakpoints_forall text hrange
    (show ∀ j ∈ (⟨0, none, none⟩ : Breakpoints).lastNewline, _ by simp)
    (show ∀ j ∈ (⟨0, none, none⟩ : Breakpoints).lastWhitespace, _ by simp)
  rw [pickSafeBreakIndex, scanParenAwareBreakpoints, Option.or_eq_some_iff] at h
  rcases h with h | ⟨-, h⟩
  · rw [Option.filter_eq_some_iff, decide_eq_true_iff] at h
    exact ⟨h.2, hpoints.1 i h.1⟩
  · rw [Option.filter_eq_some_iff, decide_eq_true_iff] at h
    exact ⟨h.2, hpoints.2 i h.1⟩

variable (text spans) in
/-- The break makes progress, and the fence that it splits is the one that it is inside of. -/
structure Break.Good (start : Nat) (split : Break) : Prop where
  lt : start < split.idx
  le : split.idx ≤ text.length
  inside : ∀ fence ∈ split.fenceToSplit, fence ∈ spans ∧ fence.Contains split.idx
  outside : split.fenceToSplit = none → ¬InsideFence spans split.idx

theorem not_insideFence_of_none {index : Nat} (hordered : Ordered spans)
    (h : findFenceSpanAt spans index = none) : ¬InsideFence spans index := by
  intro hinside
  have hsome := (findFenceSpanAt_isSome_iff hordered index).2 hinside
  rw [h] at hsome
  cases hsome

variable {fence : FenceSpan} {idx : Nat}

theorem sameFenceAt_sound {found : FenceSpan} (h : sameFenceAt spans fence idx = some found) :
    found ∈ spans ∧ found.Contains idx :=
  findFenceSpanAt_sound (Option.filter_eq_some_iff.1 h).1

theorem sameFenceAt_of_contains (hordered : Ordered spans) (hfence : fence ∈ spans)
    (hcontains : fence.Contains idx) : sameFenceAt spans fence idx = some fence := by
  have hsome := (findFenceSpanAt_isSome_iff hordered idx).2 ⟨fence, hfence, hcontains⟩
  obtain ⟨found, hfound⟩ := Option.isSome_iff_exists.1 hsome
  obtain ⟨hmem, hfoundContains⟩ := findFenceSpanAt_sound hfound
  have heq : found = fence := hordered.eq_of_lt hmem hfence
    (hfoundContains.1.trans hcontains.2) (hcontains.1.trans hfoundContains.2)
  rw [sameFenceAt, hfound, heq, Option.filter_some, if_pos (by simp)]

theorem pickNewline_spec {minProgress last : Nat}
    (h : pickNewline text spans fence start minProgress last = some idx) :
    minProgress ≤ idx ∧ idx ≤ text.length ∧ (sameFenceAt spans fence idx).isSome = true := by
  obtain ⟨i, hi, rfl⟩ := Option.map_eq_some_iff.1 h
  have hmem := List.mem_of_find?_eq_some hi
  have hprogress := List.mem_takeWhile_imp hmem
  have hnewline := (List.takeWhile_prefix _).subset hmem
  rw [List.mem_filter, Bool.and_eq_true, decide_eq_true_iff, decide_eq_true_iff] at hnewline
  obtain ⟨hlt, -⟩ := List.getElem?_eq_some_iff.1 hnewline.2.2
  have hsame : (sameFenceAt spans fence (i + 1)).isSome = true := by
    simpa using List.find?_some hi
  exact ⟨by simpa using hprogress, hlt, hsame⟩

variable {contentLimit : Nat}

theorem breakInFence_spec (hordered : Ordered spans) (hfence : fence ∈ spans)
    (hlong : contentLimit < text.length - start) (hlimit : 1 ≤ contentLimit)
    (hcontains : fence.Contains (start + contentLimit)) :
    let idx := breakInFence text spans fence start contentLimit (start + contentLimit)
    start < idx ∧ idx ≤ text.length ∧ (sameFenceAt spans fence idx).isSome = true := by
  have hwindow : start < start + contentLimit ∧ start + contentLimit ≤ text.length ∧
      (sameFenceAt spans fence (start + contentLimit)).isSome = true := by
    refine ⟨by omega, by omega, ?_⟩
    rw [sameFenceAt_of_contains hordered hfence hcontains]
    rfl
  have hprogress : start < minProgressIdx text fence start := by
    unfold minProgressIdx
    omega
  unfold breakInFence
  dsimp only
  split
  · exact hwindow
  · split
    · rename_i candidate hcandidate
      obtain ⟨hle, hlength, hsame⟩ := pickNewline_spec hcandidate
      exact ⟨hprogress.trans_le hle, hlength, hsame⟩
    · split
      · exact hwindow
      · rename_i hroom
        have hinside : fence.Contains (max (minProgressIdx text fence start)
            (start + (contentLimit - (fence.closeLine.length + 1)))) := by
          have hstart := hcontains.1
          have hstop := hcontains.2
          have hmin : fence.start < minProgressIdx text fence start := by
            unfold minProgressIdx
            omega
          exact ⟨by omega, by omega⟩
        refine ⟨by omega, ?_, ?_⟩
        · unfold minProgressIdx
          omega
        · rw [sameFenceAt_of_contains hordered hfence hinside]
          rfl

theorem pickBreak_good (hordered : Ordered spans) (hlong : contentLimit < text.length - start)
    (hlimit : 1 ≤ contentLimit) :
    (pickBreak text spans start contentLimit).Good text spans start := by
  have hwindow : min text.length (start + contentLimit) = start + contentLimit := by omega
  unfold pickBreak
  rw [hwindow]
  dsimp only
  have hpick : ∀ idx, (pickSafeBreakIndex text spans start (start + contentLimit)).getD
      (start + contentLimit) = idx → start < idx ∧ idx ≤ text.length ∧
        ((findFenceSpanAt spans idx).isSome = true → idx = start + contentLimit) := by
    intro idx hidx
    cases hsoft : pickSafeBreakIndex text spans start (start + contentLimit) with
    | none =>
      rw [hsoft, Option.getD_none] at hidx
      exact ⟨by omega, by omega, fun _ => hidx.symm⟩
    | some soft =>
      obtain ⟨hlt, hle, hsafe⟩ := pickSafeBreakIndex_spec hsoft
      rw [hsoft, Option.getD_some] at hidx
      subst hidx
      refine ⟨hlt, by omega, ?_⟩
      intro hsome
      rw [isSafeFenceBreak, Option.isNone_iff_eq_none] at hsafe
      rw [hsafe] at hsome
      cases hsome
  generalize (pickSafeBreakIndex text spans start (start + contentLimit)).getD
    (start + contentLimit) = idx at hpick ⊢
  obtain ⟨hlt, hle, hhard⟩ := hpick idx rfl
  cases hfence : findFenceSpanAt spans idx with
  | none => exact ⟨hlt, hle, by simp, fun _ => not_insideFence_of_none hordered hfence⟩
  | some fence =>
    rw [hfence] at hhard
    rw [hhard rfl] at hfence
    obtain ⟨hmem, hcontains⟩ := findFenceSpanAt_sound hfence
    obtain ⟨hlt', hle', hsame⟩ := breakInFence_spec hordered hmem hlong hlimit hcontains
    refine ⟨hlt', hle', fun found hfound => sameFenceAt_sound hfound, ?_⟩
    intro hnone
    dsimp only at hnone
    rw [hnone] at hsame
    cases hsame

variable {near : Nat}

theorem sameFenceAt_of_near (hordered : Ordered spans) (hfence : fence ∈ spans)
    (hcontains : fence.Contains idx) (hnear : near = idx - 1 ∨ near = idx + 1)
    (hinside : InsideFence spans near) : sameFenceAt spans fence near = some fence := by
  obtain ⟨other, hother, hotherContains⟩ := hinside
  have heq : other = fence := by
    refine hordered.eq_of_lt hother hfence ?_ ?_
    · have h₁ := hotherContains.1
      have h₂ := hcontains.2
      omega
    · have h₁ := hotherContains.2
      have h₂ := hcontains.1
      omega
  rw [heq] at hotherContains
  exact sameFenceAt_of_contains hordered hfence hotherContains

variable {low : Nat}

theorem not_insideFence_near (hfound : Found text low spans) (hoff : ¬InsideFence spans idx)
    (hlow : ∃ u ∈ text[idx]?, isLowSurrogate u = true) (hnear : near = idx - 1 ∨ near = idx + 1) :
    ¬InsideFence spans near := by
  intro hinside
  obtain ⟨fence, hfence, hstart, hstop⟩ := hinside
  obtain ⟨u, hu, hlow⟩ := hlow
  have hends : ¬(fence.start < idx ∧ idx < fence.stop) := fun h => hoff ⟨fence, hfence, h⟩
  by_cases hidx : idx = fence.stop
  · -- a line break, or nothing
    have hbreak := hfound.ends fence hfence u (by rwa [← hidx])
    rw [hbreak] at hlow
    cases hlow
  · -- a blank or a marker
    have hopen : idx = fence.start := by omega
    obtain ⟨c, d, rest, hdrop, hc, -⟩ := hfound.opens fence hfence
    have hget : text[idx]? = some c := by
      rw [hopen, ← Nat.add_zero fence.start, ← List.getElem?_drop, hdrop]
      rfl
    rw [hget, Option.mem_some] at hu
    rw [← hu] at hlow
    rcases hc with rfl | rfl | rfl
    · cases hlow
    · cases hlow
    · cases hlow

theorem safeBreak_good {picked : Break} (hfound : Found text low spans)
    (h : picked.Good text spans start) :
    (safeBreak text spans start picked).Good text spans start := by
  unfold safeBreak
  dsimp only
  split
  · exact h
  · rename_i hmoved
    unfold avoidTrailingHighSurrogateBreak at hmoved ⊢
    by_cases hedge : (decide (picked.idx ≤ start) || decide (text.length ≤ picked.idx)) = true
    · rw [if_pos hedge] at hmoved
      exact absurd rfl hmoved
    · rw [if_neg hedge] at hmoved ⊢
      by_cases hpair : (text[picked.idx - 1]?.any isHighSurrogate &&
          text[picked.idx]?.any isLowSurrogate) = true
      · rw [if_pos hpair] at hmoved ⊢
        have hlow : ∃ u ∈ text[picked.idx]?, isLowSurrogate u = true := by
          rw [Bool.and_eq_true] at hpair
          cases hu : text[picked.idx]? with
          | none =>
            rw [hu] at hpair
            cases hpair.2
          | some u =>
            rw [hu] at hpair
            exact ⟨u, rfl, hpair.2⟩
        rw [Bool.or_eq_true, decide_eq_true_iff, decide_eq_true_iff] at hedge
        generalize hidx : (if start < picked.idx - 1 then picked.idx - 1 else picked.idx + 1) =
          idx at hmoved ⊢
        have hnear : idx = picked.idx - 1 ∨ idx = picked.idx + 1 := by
          rw [← hidx]
          split
          · exact .inl rfl
          · exact .inr rfl
        have hprogress : start < idx ∧ idx ≤ text.length := by
          rw [← hidx]
          split <;> omega
        refine ⟨hprogress.1, hprogress.2, ?_, ?_⟩
        · intro fence hfence
          obtain ⟨first, -, hsame⟩ := Option.bind_eq_some_iff.1 hfence
          exact sameFenceAt_sound hsame
        · intro hnone hinside
          cases hsplit : picked.fenceToSplit with
          | none => exact not_insideFence_near hfound (h.outside hsplit) hlow hnear hinside
          | some fence =>
            obtain ⟨hmem, hcontains⟩ := h.inside fence hsplit
            have hsame := sameFenceAt_of_near hfound.ordered hmem hcontains hnear hinside
            rw [hsplit, Option.bind_some, hsame] at hnone
            cases hnone
      · rw [if_neg hpair] at hmoved
        exact absurd rfl hmoved

theorem roundBreak_good {limit : Nat} {reopenFence : Option FenceSpan} {split : Break}
    (hfound : Found text low spans)
    (h : roundBreak text spans limit start reopenFence = some split) :
    split.Good text spans start := by
  unfold roundBreak at h
  dsimp only at h
  split at h
  · cases h
  · cases h
    exact safeBreak_good hfound (pickBreak_good hfound.ordered (by omega) (Nat.le_max_left _ _))

end

end OpenClaw.AutoReply
