import Mathlib.Data.List.Infix
import OpenClaw.ToolCallRepair.Payload

/-!
# `tool-call-repair/src/payload.ts`: `stripPlainTextToolCallBlocks`

The scan looks for a block at each line start of the text and takes it out, with the indentation
before it and one line break behind it.

**Main result (`stripPlainTextToolCallBlocks_spec`).** The text falls into pieces: single code units
that are kept, none of which is at a line start where a block is recognized, and whole blocks at
line starts, which are removed.

Lines are those of the original text. What a removal puts at the start of a line is not looked at
again, so a second call may remove more.
-/

namespace OpenClaw.ToolCallRepair

open Js

/-! ## The scan -/

/-- `/(?:^|\n)…/`: whether the pattern matches at the start of a line. -/
def testAtLineStarts (pattern : Str → Bool) (text : Str) : Bool :=
  pattern text || text.tails.any fun
    | 0x0A :: rest => pattern rest
    | _ => false

/-- `/\s+to=/`. -/
def beginsHarmonyTarget (text : Str) : Bool :=
  text.head?.any isSpace && (units "to=").isPrefixOf (skipWhitespace text)

/-- `/\s*(?:<\|channel\|>)?(?:commentary|analysis|final)\s+to=/`. -/
def beginsHarmonyCall (text : Str) : Bool :=
  let text := skipWhitespace text
  let text :=
    if harmonyChannelMarker.isPrefixOf text then text.drop harmonyChannelMarker.length else text
  harmonyChannels.any fun channel =>
    channel.isPrefixOf text && beginsHarmonyTarget (text.drop channel.length)

/-- `/\s*<function=[A-Za-z0-9_.:-]{1,120}>/i`. -/
def beginsXmlFunction (text : Str) : Bool :=
  (matchXmlFunction (skipWhitespace text)).any fun (name, _) => name.length ≤ 120

/-- Whether one of the three patterns of the early return is found. -/
def mentionsToolCall (text : Str) : Bool :=
  text.tails.any (fun rest => (matchBracketed rest).isSome) ||
    testAtLineStarts beginsHarmonyCall text || testAtLineStarts beginsXmlFunction text

section

variable {α : Type} (parseObject : Str → Option α) (lower : Str → Str)

/-- `blockEnd` at a line start with this rest of the text. -/
def blockEndAfterIndent (text : Str) : Option Str :=
  blockEndAt parseObject lower (skipHorizontalWhitespace text)

/-- `blockEnd` at any place; it is looked for at line starts only. -/
def blockEndIf (lineStart : Bool) (text : Str) : Option Str :=
  if lineStart then blockEndAfterIndent parseObject lower text else none

section

variable {parseObject lower}

variable {text rest : Str}

theorem blockEndAfterIndent_eats (h : blockEndAfterIndent parseObject lower text = some rest) :
    Eats text rest :=
  .of_suffix (skipHorizontalWhitespace_suffix text) (blockEndAt_eats h)

theorem blockEndIf_eq_some {lineStart : Bool}
    (h : blockEndIf parseObject lower lineStart text = some rest) :
    lineStart = true ∧ blockEndAfterIndent parseObject lower text = some rest := by
  cases lineStart with
  | true => exact ⟨rfl, h⟩
  | false => cases h

end

/-- `cursor`: behind the line break that follows the block. -/
def afterBlock (blockEnd : Str) : Str := (consumeLineBreak blockEnd).getD blockEnd

theorem afterBlock_suffix (blockEnd : Str) : afterBlock blockEnd <:+ blockEnd := by
  unfold afterBlock
  cases hbreak : consumeLineBreak blockEnd with
  | none => exact List.suffix_refl blockEnd
  | some rest => exact consumeLineBreak_suffix hbreak

/-- The code units of the text before this rest of it. -/
def before (text rest : Str) : Str := text.take (text.length - rest.length)

/-- The loop. `lineStart` says whether the text begins a line; what is kept comes out. -/
def stripFrom (lineStart : Bool) : Str → Str
  | [] => []
  | u :: text =>
    match _hblock : blockEndIf parseObject lower lineStart (u :: text) with
    | none => u :: stripFrom (u = 0x0A) text
    | some blockEnd =>
      let rest := afterBlock blockEnd
      stripFrom ((before (u :: text) rest).getLast? = some 0x0A) rest
termination_by text => text.length
decreasing_by
  · exact Nat.lt_succ_self text.length
  · have heats := blockEndAfterIndent_eats (blockEndIf_eq_some ‹_›).2
    exact (heats.suffix (afterBlock_suffix blockEnd)).2

def stripPlainTextToolCallBlocks (text : Str) : Str :=
  if text = [] || !mentionsToolCall text then text else stripFrom parseObject lower true text

/-! ## Pieces of a text -/

inductive Piece
  | kept (u : Nat)
  | removed (indent block lineBreak : Str)

namespace Piece

def source : Piece → Str
  | kept u => [u]
  | removed indent block lineBreak => indent ++ block ++ lineBreak

def result : Piece → Str
  | kept u => [u]
  | removed _ _ _ => []

end Piece

def AtLineStart (text : Str) : Prop := text = [] ∨ text.getLast? = some 0x0A

/-- The piece has its place between these two parts of the text. A line break is left behind a
removed block only if none follows it. -/
def Piece.Fits (text : Str) (rest : Str) : Piece → Prop
  | kept u => AtLineStart text → blockEndAfterIndent parseObject lower (u :: rest) = none
  | removed indent block lineBreak =>
    AtLineStart text ∧ (∀ u ∈ indent, isHorizontalSpace u = true) ∧ block ≠ [] ∧
      blockEndAt parseObject lower (block ++ (lineBreak ++ rest)) = some (lineBreak ++ rest) ∧
      consumeLineBreak (lineBreak ++ rest) = if lineBreak = [] then none else some rest

/-- The pieces continue the text, each in its place. -/
inductive Continues : Str → List Piece → Prop
  | nil (text : Str) : Continues text []
  | cons {text : Str} {piece : Piece} {pieces : List Piece}
      (hfits : piece.Fits parseObject lower text (pieces.flatMap Piece.source))
      (hpieces : Continues (text ++ piece.source) pieces) : Continues text (piece :: pieces)

end

/-! ## What the scan does -/

section

variable {α : Type} {parseObject : Str → Option α} {lower : Str → Str}

variable {text rest : Str}

theorem before_append (h : rest <:+ text) : before text rest ++ rest = text := by
  obtain ⟨start, rfl⟩ := h
  simp [before]

theorem consumeLineBreak_afterBlock (blockEnd : Str) :
    ∃ lineBreak, blockEnd = lineBreak ++ afterBlock blockEnd ∧
      consumeLineBreak blockEnd = if lineBreak = [] then none else some (afterBlock blockEnd) := by
  unfold afterBlock
  cases hbreak : consumeLineBreak blockEnd with
  | none => exact ⟨[], rfl, rfl⟩
  | some rest =>
    obtain ⟨lineBreak, happend⟩ := consumeLineBreak_suffix hbreak
    refine ⟨lineBreak, happend.symm, ?_⟩
    have hne : lineBreak ≠ [] := by
      intro hnil
      rw [hnil, List.nil_append] at happend
      rw [happend] at hbreak
      unfold consumeLineBreak at hbreak
      split at hbreak
      · have hlength := congrArg List.length (Option.some.inj hbreak)
        simp only [List.length_cons] at hlength
        omega
      · have hlength := congrArg List.length (Option.some.inj hbreak)
        simp only [List.length_cons] at hlength
        omega
      · have hlength := congrArg List.length (Option.some.inj hbreak)
        simp only [List.length_cons] at hlength
        omega
      · cases hbreak
    rw [if_neg hne]
    rfl

variable {part : Str}

theorem getLast?_append_eq (h : part ≠ []) : (text ++ part).getLast? = part.getLast? := by
  rw [List.getLast?_append]
  cases hlast : part.getLast? with
  | none => exact absurd (List.getLast?_eq_none_iff.1 hlast) h
  | some u => rfl

theorem atLineStart_append (h : part ≠ []) :
    AtLineStart (text ++ part) ↔ part.getLast? = some 0x0A := by
  rw [AtLineStart, getLast?_append_eq h]
  simp [h]

variable {u : Nat}

variable {lineStart : Bool}

theorem stripFrom_of_none (h : blockEndIf parseObject lower lineStart (u :: text) = none) :
    stripFrom parseObject lower lineStart (u :: text) =
      u :: stripFrom parseObject lower (u = 0x0A) text := by
  rw [stripFrom]
  split
  · rfl
  · rename_i hblock
    rw [h] at hblock
    cases hblock

variable {blockEnd : Str}

theorem stripFrom_of_some (h : blockEndIf parseObject lower lineStart (u :: text) = some blockEnd) :
    stripFrom parseObject lower lineStart (u :: text) =
      stripFrom parseObject lower
        ((before (u :: text) (afterBlock blockEnd)).getLast? = some 0x0A)
        (afterBlock blockEnd) := by
  rw [stripFrom]
  split
  · rename_i hblock
    rw [h] at hblock
    cases hblock
  · rename_i blockEnd' hblock
    rw [h] at hblock
    cases hblock
    rfl

theorem exists_removed (hline : AtLineStart text)
    (h : blockEndAfterIndent parseObject lower rest = some blockEnd) :
    ∃ indent block lineBreak, before rest (afterBlock blockEnd) = indent ++ block ++ lineBreak ∧
      (Piece.removed indent block lineBreak).Fits parseObject lower text (afterBlock blockEnd) ∧
      block ≠ [] := by
  obtain ⟨hsuffix, hlength⟩ := blockEndAt_eats h
  obtain ⟨block, hblock⟩ := hsuffix
  obtain ⟨lineBreak, hbreak, hconsume⟩ := consumeLineBreak_afterBlock blockEnd
  have hne : block ≠ [] := by
    intro hnil
    rw [hnil, List.nil_append] at hblock
    rw [hblock] at hlength
    exact Nat.lt_irrefl _ hlength
  have hrest : rest = rest.takeWhile isHorizontalSpace ++ block ++ lineBreak ++
      afterBlock blockEnd := by
    rw [List.append_assoc _ lineBreak, ← hbreak, List.append_assoc, hblock, skipHorizontalWhitespace,
      List.takeWhile_append_dropWhile]
  refine ⟨rest.takeWhile isHorizontalSpace, block, lineBreak, ?_, ⟨hline, ?_, hne, ?_, ?_⟩, hne⟩
  · have happend := before_append (((blockEndAfterIndent_eats h).suffix
      (afterBlock_suffix blockEnd)).1)
    exact List.append_cancel_right (happend.trans hrest)
  · intro u hu
    exact List.mem_takeWhile_imp hu
  · rwa [← hbreak, hblock]
  · rwa [← hbreak]

theorem stripFrom_continues (lineStart : Bool) (rest text : Str)
    (hstart : lineStart = true ↔ AtLineStart text) :
    ∃ pieces, Continues parseObject lower text pieces ∧ pieces.flatMap Piece.source = rest ∧
      pieces.flatMap Piece.result = stripFrom parseObject lower lineStart rest := by
  induction lineStart, rest using stripFrom.induct parseObject lower generalizing text with
  | case1 lineStart =>
    refine ⟨[], .nil text, rfl, ?_⟩
    rw [stripFrom]
    rfl
  | case2 lineStart u rest hblock ih =>
    obtain ⟨pieces, hcontinues, hsource, hresult⟩ := ih (text ++ [u]) (by
      rw [atLineStart_append (by simp)]
      simp)
    refine ⟨.kept u :: pieces, .cons ?_ hcontinues, ?_, ?_⟩
    · intro hline
      rw [blockEndIf, if_pos (hstart.2 hline)] at hblock
      rwa [hsource]
    · rw [List.flatMap_cons, hsource]
      rfl
    · rw [stripFrom_of_none hblock, List.flatMap_cons, hresult]
      rfl
  | case3 lineStart u rest blockEnd hblock after ih =>
    obtain ⟨hline, hend⟩ := blockEndIf_eq_some hblock
    obtain ⟨indent, block, lineBreak, hbefore, hfits, hne⟩ := exists_removed (hstart.1 hline) hend
    have hbeforeNe : before (u :: rest) after ≠ [] := by
      rw [hbefore]
      simp [hne]
    obtain ⟨pieces, hcontinues, hsource, hresult⟩ :=
      ih (text ++ before (u :: rest) after) (by
        rw [atLineStart_append hbeforeNe]
        simp)
    refine ⟨.removed indent block lineBreak :: pieces, .cons ?_ ?_, ?_, ?_⟩
    · rw [hsource]
      exact hfits
    · rw [Piece.source, ← hbefore]
      exact hcontinues
    · rw [List.flatMap_cons, hsource, Piece.source, ← hbefore]
      exact before_append (((blockEndAfterIndent_eats hend).suffix
        (afterBlock_suffix blockEnd)).1)
    · rw [stripFrom_of_some hblock, List.flatMap_cons, hresult]
      rfl

/-! ## The early return -/

theorem skipWhitespace_skipHorizontalWhitespace (text : Str) :
    skipWhitespace (skipHorizontalWhitespace text) = skipWhitespace text := by
  induction text with
  | nil => rfl
  | cons u text ih =>
    by_cases hu : isHorizontalSpace u = true
    · have hspace : isSpace u = true := by
        unfold isHorizontalSpace at hu
        rw [Bool.or_eq_true, decide_eq_true_iff, decide_eq_true_iff] at hu
        rcases hu with rfl | rfl <;> rfl
      rw [skipHorizontalWhitespace, List.dropWhile_cons_of_pos hu, skipWhitespace, skipWhitespace,
        List.dropWhile_cons_of_pos hspace]
      exact ih
    · rw [skipHorizontalWhitespace, List.dropWhile_cons_of_neg hu]

theorem skipWhitespace_of_head (hu : isSpace u = false) : skipWhitespace (u :: text) = u :: text :=
  List.dropWhile_cons_of_neg (by rw [hu]; exact Bool.false_ne_true)

theorem matchBracketed_cons (text : Str) :
    matchBracketed (0x5B :: text) =
      bracketedName (if (units "tool:").isPrefixOf text then text.drop (units "tool:").length
        else text) := rfl

variable {opening : PlainTextToolCallOpening}

theorem matchBracketed_of_parseBracketOpening (h : parseBracketOpening text = some opening) :
    (matchBracketed text).isSome = true := by
  unfold parseBracketOpening at h
  split at h
  · rename_i text
    rw [matchBracketed_cons]
    by_cases htool : (units "tool:").isPrefixOf text = true
    · rw [if_pos htool] at h ⊢
      obtain ⟨named, hname, -⟩ := Option.map_eq_some_iff.1 h
      rw [hname, Option.isSome_some]
    · rw [if_neg htool] at h ⊢
      obtain ⟨named, hname, -⟩ := Option.bind_eq_some_iff.1 h
      rw [hname, Option.isSome_some]
  · cases h

theorem beginsHarmonyTarget_dropWhile
    (h : (units "to=").isPrefixOf (skipHorizontalWhitespace (text.dropWhile isChannelChar)) = true) :
    beginsHarmonyTarget (text.dropWhile isChannelChar) = true := by
  generalize hrest : text.dropWhile isChannelChar = rest at h
  have hhead : ∀ u, rest.head? = some u → isChannelChar u = false := by
    intro u hu
    rw [← hrest] at hu
    have hnot := List.head?_dropWhile_not isChannelChar text
    rw [hu] at hnot
    simpa using hnot
  obtain ⟨after, hafter⟩ := List.isPrefixOf_iff_prefix.1 h
  have hto : skipHorizontalWhitespace rest = 0x74 :: (0x6F :: 0x3D :: after) := hafter.symm
  have hskip : skipWhitespace rest = skipHorizontalWhitespace rest := by
    rw [← skipWhitespace_skipHorizontalWhitespace, hto]
    exact skipWhitespace_of_head rfl
  rw [beginsHarmonyTarget, hskip, h, Bool.and_true]
  cases rest with
  | nil => cases hto
  | cons u rest =>
    by_cases hu : isHorizontalSpace u = true
    · unfold isHorizontalSpace at hu
      rw [Bool.or_eq_true, decide_eq_true_iff, decide_eq_true_iff] at hu
      rcases hu with rfl | rfl <;> rfl
    · rw [skipHorizontalWhitespace, List.dropWhile_cons_of_neg hu, List.cons.injEq] at hto
      have hchannel := hhead u rfl
      rw [hto.1] at hchannel
      cases hchannel

theorem skipWhitespace_of_channel (h : text.takeWhile isChannelChar ∈ harmonyChannels) :
    skipWhitespace text = text := by
  cases text with
  | nil => rfl
  | cons u text =>
    by_cases hu : isChannelChar u = true
    · refine skipWhitespace_of_head ?_
      rw [List.takeWhile_cons_of_pos hu] at h
      simp only [harmonyChannels, List.mem_cons, List.not_mem_nil, or_false] at h
      rcases h with h | h | h
      · rw [(List.cons.inj h).1]
        rfl
      · rw [(List.cons.inj h).1]
        rfl
      · rw [(List.cons.inj h).1]
        rfl
    · rw [List.takeWhile_cons_of_neg hu] at h
      exact absurd h (by decide)

theorem beginsHarmonyCall_of_parseHarmonyOpening (h : parseHarmonyOpening text = some opening) :
    beginsHarmonyCall text = true := by
  have hskip : skipWhitespace text = text := by
    by_cases hmarker : harmonyChannelMarker.isPrefixOf text = true
    · obtain ⟨rest, rfl⟩ := List.isPrefixOf_iff_prefix.1 hmarker
      exact skipWhitespace_of_head rfl
    · unfold parseHarmonyOpening at h
      rw [if_neg hmarker] at h
      by_cases hchannel : text.takeWhile isChannelChar ∉ harmonyChannels
      · rw [if_pos hchannel] at h
        cases h
      · exact skipWhitespace_of_channel (not_not.1 hchannel)
  unfold parseHarmonyOpening at h
  unfold beginsHarmonyCall
  dsimp only at h ⊢
  rw [hskip]
  generalize (if harmonyChannelMarker.isPrefixOf text then
    text.drop harmonyChannelMarker.length else text) = start at h ⊢
  by_cases hchannel : start.takeWhile isChannelChar ∉ harmonyChannels
  · rw [if_pos hchannel] at h
    cases h
  · rw [if_neg hchannel] at h
    split at h
    · cases h
    · rename_i hto
      rw [Bool.not_eq_true', Bool.not_eq_false] at hto
      rw [List.any_eq_true]
      refine ⟨start.takeWhile isChannelChar, not_not.1 hchannel, ?_⟩
      have hdrop : start.drop (start.takeWhile isChannelChar).length =
          start.dropWhile isChannelChar := by
        have hdropLeft : (start.takeWhile isChannelChar ++ start.dropWhile isChannelChar).drop
            (start.takeWhile isChannelChar).length = start.dropWhile isChannelChar :=
          List.drop_left
        rwa [List.takeWhile_append_dropWhile] at hdropLeft
      rw [hdrop, Bool.and_eq_true]
      exact ⟨List.isPrefixOf_iff_prefix.2 (List.takeWhile_prefix _),
        beginsHarmonyTarget_dropWhile hto⟩

theorem skipWhitespace_of_matchXmlFunction {name : Str}
    (h : matchXmlFunction text = some (name, rest)) : skipWhitespace text = text := by
  unfold matchXmlFunction at h
  dsimp only at h
  split at h
  · cases h
  · rename_i hmarker
    rw [not_not] at hmarker
    cases text with
    | nil => rfl
    | cons u text =>
      refine skipWhitespace_of_head ?_
      have hu : lowerUnit u = 0x3C := (List.cons.inj hmarker).1
      have hlt : u = 0x3C := by
        unfold lowerUnit isUpper at hu
        split at hu
        · rename_i hupper
          rw [Bool.and_eq_true, decide_eq_true_iff, decide_eq_true_iff] at hupper
          omega
        · exact hu
      rw [hlt]
      rfl

theorem beginsXmlFunction_of_parse (h : parseXmlishFunctionOpening text = some opening) :
    beginsXmlFunction text = true := by
  obtain ⟨⟨name, rest⟩, hname, hlength⟩ := Option.bind_eq_some_iff.1 h
  rw [beginsXmlFunction, skipWhitespace_of_matchXmlFunction hname, hname]
  dsimp only at hlength
  by_cases hlen : name.length ≤ 120
  · simpa using hlen
  · rw [if_neg hlen] at hlength
    cases hlength

theorem begins_of_blockEndAt (h : blockEndAt parseObject lower text = some rest) :
    (matchBracketed text).isSome = true ∨ beginsHarmonyCall text = true ∨
      beginsXmlFunction text = true := by
  rw [blockEndAt, Option.or_eq_some_iff] at h
  rcases h with h | ⟨-, h⟩
  · obtain ⟨block, hblock, -⟩ := Option.map_eq_some_iff.1 h
    obtain ⟨opening, hopening, -⟩ := Option.bind_eq_some_iff.1 hblock
    rw [parseOpening, Option.or_eq_some_iff] at hopening
    rcases hopening with hopening | ⟨-, hopening⟩
    · exact .inl (matchBracketed_of_parseBracketOpening hopening)
    · exact .inr (.inl (beginsHarmonyCall_of_parseHarmonyOpening hopening))
  · obtain ⟨opening, hopening, -⟩ := Option.bind_eq_some_iff.1 h
    rw [parseXmlishOpening, Option.or_eq_some_iff] at hopening
    rcases hopening with hopening | ⟨-, hopening⟩
    · exact .inl (matchBracketed_of_parseBracketOpening hopening)
    · exact .inr (.inr (beginsXmlFunction_of_parse hopening))

variable {start : Str}

theorem testAtLineStarts_of {pattern : Str → Bool} (hline : AtLineStart start)
    (h : pattern rest = true) : testAtLineStarts pattern (start ++ rest) = true := by
  rw [testAtLineStarts, Bool.or_eq_true]
  by_cases hstart : start = []
  · rw [hstart]
    exact .inl h
  · have hlast := hline.resolve_left hstart
    obtain ⟨line, rfl⟩ := List.getLast?_eq_some_iff.1 hlast
    refine .inr (List.any_eq_true.2 ⟨0x0A :: rest, ?_, h⟩)
    rw [List.mem_tails]
    exact ⟨line, by rw [List.append_assoc, List.singleton_append]⟩

theorem mentionsToolCall_of_block (hline : AtLineStart start)
    (h : blockEndAfterIndent parseObject lower rest = some blockEnd) :
    mentionsToolCall (start ++ rest) = true := by
  rw [mentionsToolCall, Bool.or_eq_true, Bool.or_eq_true]
  rcases begins_of_blockEndAt h with hbracket | hharmony | hxml
  · refine .inl (.inl (List.any_eq_true.2 ⟨skipHorizontalWhitespace rest, ?_, hbracket⟩))
    rw [List.mem_tails]
    exact (skipHorizontalWhitespace_suffix rest).trans (List.suffix_append start rest)
  · refine .inl (.inr (testAtLineStarts_of hline ?_))
    rw [beginsHarmonyCall, skipWhitespace_skipHorizontalWhitespace] at hharmony
    exact hharmony
  · refine .inr (testAtLineStarts_of hline ?_)
    rw [beginsXmlFunction, skipWhitespace_skipHorizontalWhitespace] at hxml
    exact hxml

/-! ## The whole function -/

theorem stripFrom_eq_self (lineStart : Bool) (rest text : Str)
    (hstart : lineStart = true ↔ AtLineStart text)
    (h : ∀ line after, text ++ rest = line ++ after → AtLineStart line →
      blockEndAfterIndent parseObject lower after = none) :
    stripFrom parseObject lower lineStart rest = rest := by
  induction rest generalizing lineStart text with
  | nil => rw [stripFrom]
  | cons u rest ih =>
    have hblock : blockEndIf parseObject lower lineStart (u :: rest) = none := by
      unfold blockEndIf
      by_cases hline : lineStart = true
      · rw [if_pos hline]
        exact h text (u :: rest) rfl (hstart.1 hline)
      · rw [if_neg hline]
    rw [stripFrom_of_none hblock, ih _ (text ++ [u])]
    · rw [atLineStart_append (by simp)]
      simp
    · intro line after happend
      exact h line after (by rw [← happend, List.append_assoc, List.singleton_append])

theorem atLineStart_nil : true = true ↔ AtLineStart [] := ⟨fun _ => .inl rfl, fun _ => rfl⟩

/-- Blocks at line starts of the text are removed whole, with their indentation and one line break,
and everything else stays in its order; a text without such a block stays as it is. -/
theorem stripPlainTextToolCallBlocks_spec {α : Type} (parseObject : Str → Option α)
    (lower : Str → Str) (text : Str) :
    (∃ pieces, Continues parseObject lower [] pieces ∧ pieces.flatMap Piece.source = text ∧
      pieces.flatMap Piece.result = stripPlainTextToolCallBlocks parseObject lower text) ∧
    ((∀ line rest, text = line ++ rest → AtLineStart line →
        blockEndAfterIndent parseObject lower rest = none) →
      stripPlainTextToolCallBlocks parseObject lower text = text) := by
  have hscan : stripPlainTextToolCallBlocks parseObject lower text =
      stripFrom parseObject lower true text := by
    unfold stripPlainTextToolCallBlocks
    by_cases hmentions : text = [] || !mentionsToolCall text
    · rw [if_pos hmentions, stripFrom_eq_self true text [] atLineStart_nil]
      intro line rest happend hline
      rw [List.nil_append] at happend
      cases hblock : blockEndAfterIndent parseObject lower rest with
      | none => rfl
      | some blockEnd =>
        have hfound := mentionsToolCall_of_block hline hblock
        have hne : text ≠ [] := by
          intro hnil
          rw [hnil, eq_comm, List.append_eq_nil_iff] at happend
          have hlength := (blockEndAfterIndent_eats hblock).2
          rw [happend.2] at hlength
          exact Nat.not_lt_zero _ hlength
        rw [← happend] at hfound
        simp [hfound, hne] at hmentions
    · rw [if_neg hmentions]
  rw [hscan]
  refine ⟨stripFrom_continues true text [] atLineStart_nil, ?_⟩
  intro hnone
  exact stripFrom_eq_self true text [] atLineStart_nil hnone

end

/-! ## A second call -/

/-- `JSON.parse` on the object `{}`. -/
def parseEmptyObject (text : Str) : Option Unit := if text = [0x7B, 0x7D] then some () else none

/-- A block of `a`: `[a]`, a line break, the empty object and `[/a]`. -/
def blockOfA : Str := [0x5B, 0x61, 0x5D, 0x0A, 0x7B, 0x7D, 0x5B, 0x2F, 0x61, 0x5D]

theorem strip_twoBlocks :
    stripPlainTextToolCallBlocks parseEmptyObject (List.map lowerUnit) (blockOfA ++ blockOfA) =
      blockOfA := by
  have hfirst : blockEndIf parseEmptyObject (List.map lowerUnit) true (blockOfA ++ blockOfA) =
      some blockOfA := by decide +kernel
  refine (stripFrom_of_some hfirst).trans ?_
  change stripFrom _ _ false blockOfA = blockOfA
  unfold blockOfA
  iterate 10
    rw [stripFrom_of_none]
    rotate_left
    · decide +kernel
  rw [stripFrom]

/-- The second block of a line stays, and then it begins a line. -/
theorem second_block_stays :
    let strip := stripPlainTextToolCallBlocks parseEmptyObject (List.map lowerUnit)
    blockEndAfterIndent parseEmptyObject (List.map lowerUnit) (strip (blockOfA ++ blockOfA)) =
        some [] ∧
      strip (strip (blockOfA ++ blockOfA)) ≠ strip (blockOfA ++ blockOfA) := by
  have hrecognized : blockEndIf parseEmptyObject (List.map lowerUnit) true blockOfA = some [] := by
    decide +kernel
  dsimp only
  rw [strip_twoBlocks]
  refine ⟨hrecognized, ?_⟩
  rw [stripPlainTextToolCallBlocks, if_neg (by decide +kernel)]
  intro h
  have hstrip : stripFrom parseEmptyObject (List.map lowerUnit) true blockOfA =
      stripFrom parseEmptyObject (List.map lowerUnit) _ [] := stripFrom_of_some hrecognized
  rw [hstrip, stripFrom] at h
  cases h

end OpenClaw.ToolCallRepair
