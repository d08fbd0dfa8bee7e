import Mathlib.Data.List.TakeWhile
import OpenClaw.Lib.JsValue

/-!
# `markdown-core/src/fences.ts`: fenced code blocks

`parseFenceSpans` scans a whole text, and `findFenceSpanAt` looks up the span that an offset is
inside of by binary search.

**Main results.** The spans are in order (`parseFenceSpans_found`), so the search finds the span of
every offset inside one (`findFenceSpanAt_isSome_iff`), as going through the spans does
(`findFenceSpanAt_eq_find`).
-/

namespace OpenClaw.AutoReply

open Js

structure FenceSpan where
  start : Nat
  stop : Nat
  openLine : Str
  marker : Str
  indent : Str
  deriving DecidableEq

/-! ## Lines of fences -/

/-- A match of `/^( {0,3})(`{3,}|~{3,})(.*)$/`. -/
structure FenceLine where
  indent : Str
  marker : Str
  trailing : Str

/-- What `.` does not match. -/
def isLineTerminator (u : Nat) : Bool := u ∈ [0x0A, 0x0D, 0x2028, 0x2029]

def matchFenceLine (line : Str) : Option FenceLine :=
  let indent := line.takeWhile (· = 0x20)
  match line.dropWhile (· = 0x20) with
  | c :: rest =>
    let marker := (c :: rest).takeWhile (· = c)
    let trailing := (c :: rest).dropWhile (· = c)
    if (c = 0x60 || c = 0x7E) && indent.length ≤ 3 && 3 ≤ marker.length &&
        trailing.all fun u => !isLineTerminator u then
      some ⟨indent, marker, trailing⟩
    else none
  | [] => none

/-- The fence that is open, and where it began. -/
structure OpenFence where
  start : Nat
  openLine : Str
  marker : Str
  indent : Str

def OpenFence.span (fence : OpenFence) (stop : Nat) : FenceSpan :=
  ⟨fence.start, stop, fence.openLine, fence.marker, fence.indent⟩

/-- `markerChar` and `markerLen` agree with those of the open fence, and blanks follow. -/
def OpenFence.closedBy (fence : OpenFence) (line : FenceLine) : Bool :=
  fence.marker.head? = line.marker.head? && fence.marker.length ≤ line.marker.length &&
    line.trailing.all fun u => u = 0x20 || u = 0x09

/-- `replace(/\r$/, "")`. -/
def dropTrailingCr (line : Str) : Str := if line.getLast? = some 0x0D then line.dropLast else line

/-- What the line at `offset` does to the open fence: the span that it closes, and the fence that
is open after it. -/
def scanFenceLine (fence : Option OpenFence) (offset : Nat) (rawLine : Str) :
    Option FenceSpan × Option OpenFence :=
  let line := dropTrailingCr rawLine
  match matchFenceLine line, fence with
  | none, fence => (none, fence)
  | some found, none => (none, some ⟨offset, line, found.marker, found.indent⟩)
  | some found, some fence =>
    if fence.closedBy found then (some (fence.span (offset + rawLine.length)), none)
    else (none, some fence)

def isLineUnit (u : Nat) : Bool := u ≠ 0x0A

/-- The loop, from `offset` on, where `text` is left of the buffer. -/
def scanFences (fence : Option OpenFence) (offset : Nat) (text : Str) : List FenceSpan :=
  let rawLine := text.takeWhile isLineUnit
  let scanned := scanFenceLine fence offset rawLine
  match _hrest : text.dropWhile isLineUnit with
  | [] => scanned.1.toList ++ (scanned.2.map (·.span (offset + rawLine.length))).toList
  | _ :: rest => scanned.1.toList ++ scanFences scanned.2 (offset + rawLine.length + 1) rest
termination_by text.length
decreasing_by
  have hlength := (List.dropWhile_suffix (l := text) isLineUnit).length_le
  rw [‹text.dropWhile isLineUnit = _›, List.length_cons] at hlength
  exact hlength

/-- `scanFenceSpans(buffer).spans`. -/
def parseFenceSpans (buffer : Str) : List FenceSpan := scanFences none 0 buffer

/-! ## The search -/

section

variable (spans : List FenceSpan) (index : Nat)

/-- The loop between `low` and `high`; `high` is one more than in the source. -/
def searchFenceSpan (low high : Nat) : Option FenceSpan :=
  if low < high then
    match spans[(low + (high - 1)) / 2]? with
    | none => none
    | some span =>
      if index ≤ span.start then searchFenceSpan low ((low + (high - 1)) / 2)
      else if span.stop ≤ index then searchFenceSpan ((low + (high - 1)) / 2 + 1) high
      else some span
  else none
termination_by high - low

def findFenceSpanAt : Option FenceSpan := searchFenceSpan spans index 0 spans.length

def isSafeFenceBreak : Bool := (findFenceSpanAt spans index).isNone

end

/-! ## Spans in order -/

def FenceSpan.Contains (span : FenceSpan) (index : Nat) : Prop :=
  span.start < index ∧ index < span.stop

/-- The offset is inside of a fenced code block. -/
def InsideFence (spans : List FenceSpan) (index : Nat) : Prop :=
  ∃ span ∈ spans, span.Contains index

/-- Each span ends before the next begins. -/
structure Ordered (spans : List FenceSpan) : Prop where
  pairwise : spans.Pairwise fun earlier later => earlier.stop ≤ later.start
  stops : ∀ span ∈ spans, span.start ≤ span.stop

variable {spans : List FenceSpan} {index low : Nat} {span : FenceSpan}

variable {high : Nat}

theorem searchFenceSpan_sound (h : searchFenceSpan spans index low high = some span) :
    span ∈ spans ∧ span.Contains index := by
  fun_induction searchFenceSpan spans index low high with
  | case1 => cases h
  | case2 low high hlt middle hspan hstart ih => exact ih h
  | case3 low high hlt middle hspan hstart hstop ih => exact ih h
  | case4 low high hlt middle hspan hstart hstop =>
    cases h
    exact ⟨List.mem_of_getElem? hspan, Nat.lt_of_not_le hstart, Nat.lt_of_not_le hstop⟩
  | case5 => cases h

theorem Ordered.le (h : Ordered spans) {i j : Nat} (hij : i ≤ j) {earlier later : FenceSpan}
    (hi : spans[i]? = some earlier) (hj : spans[j]? = some later) :
    earlier.start ≤ later.start ∧ earlier.stop ≤ later.stop := by
  obtain ⟨hilt, rfl⟩ := List.getElem?_eq_some_iff.1 hi
  obtain ⟨hjlt, rfl⟩ := List.getElem?_eq_some_iff.1 hj
  rcases Nat.lt_or_eq_of_le hij with hlt | rfl
  · have hbetween := List.pairwise_iff_getElem.1 h.pairwise i j hilt hjlt hlt
    have hearlier := h.stops _ (List.getElem_mem hilt)
    have hlater := h.stops _ (List.getElem_mem hjlt)
    omega
  · exact ⟨Nat.le_refl _, Nat.le_refl _⟩

theorem Ordered.eq_of_lt (h : Ordered spans) {other : FenceSpan} (hspan : span ∈ spans)
    (hother : other ∈ spans) (hfirst : span.start < other.stop)
    (hsecond : other.start < span.stop) : span = other := by
  obtain ⟨i, hi, rfl⟩ := List.getElem_of_mem hspan
  obtain ⟨j, hj, rfl⟩ := List.getElem_of_mem hother
  rcases Nat.lt_trichotomy i j with hij | rfl | hij
  · have hbetween := List.pairwise_iff_getElem.1 h.pairwise i j hi hj hij
    omega
  · rfl
  · have hbetween := List.pairwise_iff_getElem.1 h.pairwise j i hj hi hij
    omega

theorem searchFenceSpan_complete {position : Nat} (hordered : Ordered spans)
    (hhigh : high ≤ spans.length) (hlow : low ≤ position) (hposition : position < high)
    (hspan : spans[position]? = some span) (hcontains : span.Contains index) :
    (searchFenceSpan spans index low high).isSome = true := by
  fun_induction searchFenceSpan spans index low high with
  | case1 low high hlt hnone =>
    rw [List.getElem?_eq_none_iff] at hnone
    omega
  | case2 low high hlt middle hmiddle hstart ih =>
    -- the offset is not behind the middle span, so the span is before it
    have hbefore : position < (low + (high - 1)) / 2 := by
      by_contra hnot
      have hle := (hordered.le (Nat.le_of_not_lt hnot) hmiddle hspan).1
      exact absurd hcontains.1 (by omega)
    exact ih (by omega) hlow hbefore
  | case3 low high hlt middle hmiddle hstart hstop ih =>
    have hafter : (low + (high - 1)) / 2 < position := by
      by_contra hnot
      have hle := (hordered.le (Nat.le_of_not_lt hnot) hspan hmiddle).2
      exact absurd hcontains.2 (by omega)
    exact ih hhigh hafter hposition
  | case4 => rfl
  | case5 low high hlt => omega

theorem findFenceSpanAt_sound (h : findFenceSpanAt spans index = some span) :
    span ∈ spans ∧ span.Contains index :=
  searchFenceSpan_sound h

theorem findFenceSpanAt_isSome_iff (hordered : Ordered spans) (index : Nat) :
    (findFenceSpanAt spans index).isSome = true ↔ InsideFence spans index := by
  constructor
  · intro h
    obtain ⟨span, hspan⟩ := Option.isSome_iff_exists.1 h
    obtain ⟨hmem, hcontains⟩ := findFenceSpanAt_sound hspan
    exact ⟨span, hmem, hcontains⟩
  · intro h
    obtain ⟨span, hmem, hcontains⟩ := h
    obtain ⟨position, hposition, rfl⟩ := List.getElem_of_mem hmem
    exact searchFenceSpan_complete hordered (Nat.le_refl _) (Nat.zero_le _) hposition
      (List.getElem?_eq_getElem hposition) hcontains

/-! ## What the scan finds -/

/-- A blank or a marker. -/
def IsFenceUnit (u : Nat) : Prop := u = 0x20 ∨ u = 0x60 ∨ u = 0x7E

/-- The opening line of a fence begins with two code units of its indentation and marker. -/
def OpensAt (buffer : Str) (start : Nat) : Prop :=
  ∃ c d rest, buffer.drop start = c :: d :: rest ∧ IsFenceUnit c ∧ IsFenceUnit d

def LineEndsAt (buffer : Str) (stop : Nat) : Prop := ∀ u ∈ buffer[stop]?, u = 0x0A

/-- The spans are in order, none begins before `low`, and each goes from a line start to a line
end. -/
structure Found (buffer : Str) (low : Nat) (spans : List FenceSpan) : Prop where
  ordered : Ordered spans
  starts : ∀ span ∈ spans, low ≤ span.start
  opens : ∀ span ∈ spans, OpensAt buffer span.start
  ends : ∀ span ∈ spans, LineEndsAt buffer span.stop

theorem Found.nil (buffer : Str) (low : Nat) : Found buffer low [] :=
  ⟨⟨List.Pairwise.nil, by simp⟩, by simp, by simp, by simp⟩

variable {buffer : Str}

theorem Found.cons (h : Found buffer span.stop spans) (hlow : low ≤ span.start)
    (hstop : span.start ≤ span.stop) (hopens : OpensAt buffer span.start)
    (hends : LineEndsAt buffer span.stop) : Found buffer low (span :: spans) := by
  refine ⟨⟨List.pairwise_cons.2 ⟨h.starts, h.ordered.pairwise⟩,
    List.forall_mem_cons.2 ⟨hstop, h.ordered.stops⟩⟩, List.forall_mem_cons.2 ⟨hlow, ?_⟩,
    List.forall_mem_cons.2 ⟨hopens, h.opens⟩, List.forall_mem_cons.2 ⟨hends, h.ends⟩⟩
  intro later hlater
  exact (hlow.trans hstop).trans (h.starts later hlater)

variable {found : FenceLine}

theorem matchFenceLine_opens {line : Str} (h : matchFenceLine line = some found) :
    ∃ c d rest, line = c :: d :: rest ∧ IsFenceUnit c ∧ IsFenceUnit d := by
  unfold matchFenceLine at h
  have hline := line.takeWhile_append_dropWhile (p := (· = 0x20))
  have hindent : ∀ u ∈ line.takeWhile (· = 0x20), IsFenceUnit u := by
    intro u hu
    exact .inl (by simpa using List.mem_takeWhile_imp hu)
  generalize line.takeWhile (· = 0x20) = indent at h hline hindent
  cases hdrop : line.dropWhile (· = 0x20) with
  | nil =>
    rw [hdrop] at h
    cases h
  | cons c rest =>
    rw [hdrop] at h hline
    dsimp only at h
    split at h
    · rename_i hmatch
      simp only [Bool.and_eq_true, Bool.or_eq_true, decide_eq_true_iff] at hmatch
      obtain ⟨⟨⟨hc, -⟩, hmarker⟩, -⟩ := hmatch
      have hsecond : ∃ rest', rest = c :: rest' := by
        rw [List.takeWhile_cons_of_pos (by simp), List.length_cons] at hmarker
        cases rest with
        | nil => simp at hmarker
        | cons d rest' =>
          by_cases hd : d = c
          · exact ⟨rest', by rw [hd]⟩
          · rw [List.takeWhile_cons_of_neg (by simpa using hd)] at hmarker
            simp at hmarker
      obtain ⟨rest', rfl⟩ := hsecond
      cases indent with
      | nil => exact ⟨c, c, rest', hline.symm, .inr hc, .inr hc⟩
      | cons a indent =>
        have ha := hindent a List.mem_cons_self
        cases indent with
        | nil => exact ⟨a, c, c :: rest', hline.symm, ha, .inr hc⟩
        | cons b indent =>
          exact ⟨a, b, indent ++ c :: c :: rest', hline.symm, ha, hindent b (by simp)⟩
    · cases h

theorem prefix_dropTrailingCr (line : Str) : dropTrailingCr line <+: line := by
  unfold dropTrailingCr
  split
  · exact List.dropLast_prefix line
  · exact List.prefix_refl line

variable {text : Str} {offset : Nat}

theorem opensAt_of_match (hdrop : buffer.drop offset = text)
    (h : matchFenceLine (dropTrailingCr (text.takeWhile isLineUnit)) = some found) :
    OpensAt buffer offset := by
  obtain ⟨c, d, rest, hline, hc, hd⟩ := matchFenceLine_opens h
  obtain ⟨after, hafter⟩ :=
    (prefix_dropTrailingCr (text.takeWhile isLineUnit)).trans (List.takeWhile_prefix isLineUnit)
  refine ⟨c, d, rest ++ after, ?_, hc, hd⟩
  rw [hdrop, ← hafter, hline]
  rfl

/-- Where the scan is: the open fence began at `low` or later, and before `offset`. -/
def ScanState (buffer : Str) (low offset : Nat) : Option OpenFence → Prop
  | none => low ≤ offset
  | some fence => low ≤ fence.start ∧ fence.start ≤ offset ∧ OpensAt buffer fence.start

variable {fence : Option OpenFence}

theorem ScanState.mono {next : Nat} (h : ScanState buffer low offset fence) (hle : offset ≤ next) :
    ScanState buffer low next fence := by
  cases fence with
  | none => exact h.trans hle
  | some fence => exact ⟨h.1, h.2.1.trans hle, h.2.2⟩

section

variable (hdrop : buffer.drop offset = text)
include hdrop

theorem lineEndsAt_takeWhile : LineEndsAt buffer (offset + (text.takeWhile isLineUnit).length) := by
  intro u hu
  have htext := text.takeWhile_append_dropWhile (p := isLineUnit)
  have hhead := List.head?_dropWhile_not isLineUnit text
  generalize text.takeWhile isLineUnit = line at htext hu
  rw [← List.getElem?_drop, hdrop, ← htext, List.getElem?_append_right (Nat.le_refl _),
    Nat.sub_self, ← List.head?_eq_getElem?, Option.mem_def] at hu
  rw [hu] at hhead
  simpa [isLineUnit] using hhead

theorem scanFenceLine_found (hstate : ScanState buffer low offset fence) (next : Nat)
    (hnext : offset + (text.takeWhile isLineUnit).length ≤ next) :
    ∃ low', ScanState buffer low' next
        (scanFenceLine fence offset (text.takeWhile isLineUnit)).2 ∧
      ∀ spans, Found buffer low' spans → Found buffer low
        ((scanFenceLine fence offset (text.takeWhile isLineUnit)).1.toList ++ spans) := by
  have hle : offset ≤ next := (Nat.le_add_right _ _).trans hnext
  unfold scanFenceLine
  dsimp only
  cases hmatch : matchFenceLine (dropTrailingCr (text.takeWhile isLineUnit)) with
  | none => exact ⟨low, hstate.mono hle, fun spans h => h⟩
  | some found =>
    cases fence with
    | none =>
      exact ⟨low, ⟨hstate, hle, opensAt_of_match hdrop hmatch⟩, fun spans h => h⟩
    | some fence =>
      dsimp only
      by_cases hclosed : fence.closedBy found = true
      · rw [if_pos hclosed]
        refine ⟨offset + (text.takeWhile isLineUnit).length, hnext, ?_⟩
        intro spans h
        exact h.cons hstate.1 (hstate.2.1.trans (Nat.le_add_right _ _)) hstate.2.2
          (lineEndsAt_takeWhile hdrop)
      · rw [if_neg hclosed]
        exact ⟨low, hstate.mono hle, fun spans h => h⟩

theorem drop_of_dropWhile {rest : Str} {u : Nat} (hrest : text.dropWhile isLineUnit = u :: rest) :
    buffer.drop (offset + (text.takeWhile isLineUnit).length + 1) = rest := by
  have htext := text.takeWhile_append_dropWhile (p := isLineUnit)
  rw [hrest] at htext
  generalize text.takeWhile isLineUnit = line at htext ⊢
  rw [Nat.add_assoc, ← List.drop_drop, hdrop, ← List.drop_drop, ← htext, List.drop_left]
  rfl

theorem scanFences_found (hstate : ScanState buffer low offset fence) :
    Found buffer low (scanFences fence offset text) := by
  induction fence, offset, text using scanFences.induct generalizing low with
  | case1 fence offset text hrest =>
    obtain ⟨low', hstate', hfound⟩ := scanFenceLine_found hdrop hstate _ (Nat.le_refl _)
    rw [scanFences]
    split
    · refine hfound _ ?_
      cases hnext : (scanFenceLine fence offset (text.takeWhile isLineUnit)).2 with
      | none => exact Found.nil buffer low'
      | some open' =>
        rw [hnext] at hstate'
        exact (Found.nil buffer _).cons hstate'.1 hstate'.2.1 hstate'.2.2
          (lineEndsAt_takeWhile hdrop)
    · rename_i hcons
      rw [hrest] at hcons
      cases hcons
  | case2 fence offset text rawLine scanned u rest hrest =>
    rename_i ih
    obtain ⟨low', hstate', hfound⟩ := scanFenceLine_found hdrop hstate
      (offset + (text.takeWhile isLineUnit).length + 1) (Nat.le_succ _)
    rw [scanFences]
    split
    · rename_i hnil
      rw [hrest] at hnil
      cases hnil
    · rename_i hcons
      rw [hrest] at hcons
      cases hcons
      exact hfound _ (ih (drop_of_dropWhile hdrop hrest) hstate')

end

theorem parseFenceSpans_found (buffer : Str) : Found buffer 0 (parseFenceSpans buffer) :=
  scanFences_found rfl (Nat.le_refl 0)

/-- **The binary search is a search through the spans**, at every offset of every text. -/
theorem findFenceSpanAt_eq_find (buffer : Str) (index : Nat) :
    findFenceSpanAt (parseFenceSpans buffer) index =
      (parseFenceSpans buffer).find? fun span => span.start < index ∧ index < span.stop := by
  have hordered := (parseFenceSpans_found buffer).ordered
  cases hfind : (parseFenceSpans buffer).find? fun span => span.start < index ∧ index < span.stop with
  | none =>
    rw [← Option.not_isSome_iff_eq_none, findFenceSpanAt_isSome_iff hordered]
    rintro ⟨span, hmem, hafter, hbefore⟩
    exact List.find?_eq_none.1 hfind span hmem (by simp [hafter, hbefore])
  | some first =>
    have hfirst : first.Contains index := by
      simpa [FenceSpan.Contains] using List.find?_some hfind
    have hmem := List.mem_of_find?_eq_some hfind
    obtain ⟨span, hspan⟩ := Option.isSome_iff_exists.1
      ((findFenceSpanAt_isSome_iff hordered index).2 ⟨first, hmem, hfirst⟩)
    obtain ⟨hmem', hcontains⟩ := findFenceSpanAt_sound hspan
    rw [hspan, hordered.eq_of_lt hmem' hmem (hcontains.1.trans hfirst.2) (hfirst.1.trans hcontains.2)]

end OpenClaw.AutoReply
