import OpenClaw.ToolCallRepair.Grammar

/-!
# `tool-call-repair/src/payload.ts`: recognizing a block

The parsers of plain-text tool calls. As in the grammar, a parser takes the text that is left and
gives the text that it leaves. `lower` is `String.prototype.toLowerCase`, and `parseObject` is
`JSON.parse` where it gives an object that is neither `null` nor an array.
-/

namespace OpenClaw.ToolCallRepair

open Js

/-! ## Openings -/

structure PlainTextToolCallOpening where
  allowsOptionalXmlishClose : Bool
  name : Str
  requiresClosing : Bool
  rest : Str

/-- A name that is not empty and ends with `]`. -/
def bracketedName (text : Str) : Option (Str × Str) :=
  match text.takeWhile isPlainTextToolNameChar, text.dropWhile isPlainTextToolNameChar with
  | name@(_ :: _), 0x5D :: rest => some (name, rest)
  | _, _ => none

def parseBracketOpening (text : Str) : Option PlainTextToolCallOpening :=
  match text with
  | 0x5B :: text =>
    if (units "tool:").isPrefixOf text then
      (bracketedName (text.drop (units "tool:").length)).map fun (name, rest) =>
        ⟨true, name, false, rest⟩
    else
      (bracketedName text).bind fun (name, rest) =>
        (consumeLineBreak (skipHorizontalWhitespace rest)).map fun rest => ⟨false, name, true, rest⟩
  | _ => none

/-- `/[A-Za-z_]/`. -/
def isChannelChar (u : Nat) : Bool := isUpper u || isLower u || u = 0x5F

def parseHarmonyOpening (text : Str) : Option PlainTextToolCallOpening :=
  let text :=
    if harmonyChannelMarker.isPrefixOf text then text.drop harmonyChannelMarker.length else text
  if text.takeWhile isChannelChar ∉ harmonyChannels then none
  else
    let text := skipHorizontalWhitespace (text.dropWhile isChannelChar)
    if !(units "to=").isPrefixOf text then none
    else
      let text := text.drop 3
      let name := text.takeWhile isPlainTextToolNameChar
      if name = [] then none
      else
        let text := skipHorizontalWhitespace (text.dropWhile isPlainTextToolNameChar)
        if !(units "code").isPrefixOf text then none
        else
          let text := skipWhitespace (text.drop 4)
          let text := if harmonyMessageMarker.isPrefixOf text then
            skipWhitespace (text.drop harmonyMessageMarker.length) else text
          some ⟨false, name, false, text⟩

/-- `/^<function=([A-Za-z0-9_.:-]{1,120})>\s*/i`. -/
def parseXmlishFunctionOpening (text : Str) : Option PlainTextToolCallOpening :=
  (matchXmlFunction text).bind fun (name, rest) =>
    if name.length ≤ 120 then some ⟨false, name, false, skipWhitespace rest⟩ else none

def parseOpening (text : Str) : Option PlainTextToolCallOpening :=
  (parseBracketOpening text).or (parseHarmonyOpening text)

def parseXmlishOpening (text : Str) : Option PlainTextToolCallOpening :=
  (parseBracketOpening text).or (parseXmlishFunctionOpening text)

/-! ## Blocks with a JSON object -/

def defaultMaxPlainTextToolPayloadBytes : Nat := 256000

section Blocks

variable {α : Type} (parseObject : Str → Option α)

def consumeJsonObject (text : Str) (maxPayloadBytes : Nat) : Option (α × Str) :=
  let text := skipWhitespace text
  if text.head? ≠ some 0x7B then none
  else
    (findJsonObjectEnd text (some maxPayloadBytes)).bind fun rest =>
      (parseObject (text.take (text.length - rest.length))).map fun value => (value, rest)

def parseClosing (text name : Str) : Option Str :=
  let text := skipWhitespace text
  let namedClosing := units "[/" ++ name ++ units "]"
  if endToolRequest.isPrefixOf text then some (text.drop endToolRequest.length)
  else if namedClosing.isPrefixOf text then some (text.drop namedClosing.length)
  else none

def parseOptionalHarmonyClosing (text : Str) : Str :=
  if harmonyCallMarker.isPrefixOf (skipWhitespace text) then
    (skipWhitespace text).drop harmonyCallMarker.length
  else text

/-- `arguments`, `name` and the rest behind `end`. -/
structure PlainTextToolCallBlock (α : Type) where
  arguments : α
  name : Str
  rest : Str

structure PlainTextToolCallParseOptions where
  allowedToolNames : Option (List Str)
  maxPayloadBytes : Option Nat

def parsePlainTextToolCallBlockAt (text : Str) (options : PlainTextToolCallParseOptions) :
    Option (PlainTextToolCallBlock α) :=
  (parseOpening text).bind fun opening =>
    if options.allowedToolNames.any fun names => opening.name ∉ names then none
    else
      (consumeJsonObject parseObject opening.rest
        (options.maxPayloadBytes.getD defaultMaxPlainTextToolPayloadBytes)).bind
          fun (value, rest) =>
            (if opening.requiresClosing then parseClosing rest opening.name
              else some (parseOptionalHarmonyClosing rest)).map fun rest =>
                ⟨value, opening.name, rest⟩

/-! ## Blocks with parameters -/

/-- `/<\/parameter>/i`: what is before the first match, and behind it. -/
def splitParameterClose : Str → Option (Str × Str)
  | [] => none
  | u :: text =>
    if ((u :: text).take (units "</parameter>").length).map lowerUnit = units "</parameter>" then
      some ([], (u :: text).drop (units "</parameter>").length)
    else (splitParameterClose text).map fun (payload, rest) => (u :: payload, rest)

structure XmlishParameterBlock where
  name : Str
  payload : Str
  rest : Str

/-- `/^<parameter=([A-Za-z0-9_.:-]{1,120})>/i`, and then to the first close. -/
def findXmlishParameterBlock (text : Str) : Option XmlishParameterBlock :=
  let text := skipWhitespace text
  let marker := units "<parameter="
  if (text.take marker.length).map lowerUnit ≠ marker then none
  else
    let text := text.drop marker.length
    match text.takeWhile isXmlishNameChar, text.dropWhile isXmlishNameChar with
    | name@(_ :: _), 0x3E :: rest =>
      if name.length ≤ 120 then
        (splitParameterClose rest).map fun (payload, rest) => ⟨name, payload, rest⟩
      else none
    | _, _ => none

variable (lower : Str → Str)

def consumeXmlishFunctionClose (text : Str) : Option Str :=
  if (units "</function>").isPrefixOf (lower (skipWhitespace text)) then
    some ((skipWhitespace text).drop (units "</function>").length)
  else none

def consumeOptionalXmlishFunctionClose (text : Str) : Str :=
  (consumeXmlishFunctionClose lower text).getD text

/-- The text behind all parameters. Each takes some of it, so `fuel` for its length is enough. -/
def skipXmlishParameterBlocks : (fuel : Nat) → Str → Str
  | 0, text => text
  | fuel + 1, text =>
    match findXmlishParameterBlock text with
    | none => text
    | some parameter => skipXmlishParameterBlocks fuel parameter.rest

def parseXmlishPlainTextToolCallBlockEndAt (text : Str) : Option Str :=
  (parseXmlishOpening text).bind fun opening =>
    if (findXmlishParameterBlock opening.rest).isNone then none
    else
      let rest := skipXmlishParameterBlocks opening.rest.length opening.rest
      if opening.allowsOptionalXmlishClose then
        some (consumeOptionalXmlishFunctionClose lower rest)
      else consumeXmlishFunctionClose lower rest

/-- `blockEnd` of `stripPlainTextToolCallBlocks`: the rest behind a block of either kind. -/
def blockEndAt (text : Str) : Option Str :=
  ((parsePlainTextToolCallBlockAt parseObject text ⟨none, none⟩).map (·.rest)).or
    (parseXmlishPlainTextToolCallBlockEndAt lower text)

end Blocks

/-! ## What a parser leaves -/

theorem skipHorizontalWhitespace_suffix (text : Str) : skipHorizontalWhitespace text <:+ text :=
  List.dropWhile_suffix _

theorem skipWhitespace_suffix (text : Str) : skipWhitespace text <:+ text :=
  List.dropWhile_suffix _

variable {text rest : Str}

theorem consumeLineBreak_suffix (h : consumeLineBreak text = some rest) : rest <:+ text := by
  unfold consumeLineBreak at h
  split at h
  · cases h
    exact ⟨[0x0D, 0x0A], rfl⟩
  · cases h
    exact List.suffix_cons _ _
  · cases h
    exact List.suffix_cons _ _
  · cases h

theorem scanJsonObject_suffix {limit : Option Nat} {scan : JsonScan}
    (h : scanJsonObject limit scan text = some rest) : rest <:+ text := by
  induction text generalizing scan with
  | nil =>
    cases h
  | cons u text ih =>
    rw [scanJsonObject] at h
    have hcons : text <:+ u :: text := List.suffix_cons u text
    split at h
    · cases h
    · split at h
      · split at h
        · exact (ih h).trans hcons
        · split at h
          · exact (ih h).trans hcons
          · split at h
            · exact (ih h).trans hcons
            · exact (ih h).trans hcons
      · split at h
        · exact (ih h).trans hcons
        · split at h
          · exact (ih h).trans hcons
          · split at h
            · split at h
              · cases h
                exact hcons
              · exact (ih h).trans hcons
            · exact (ih h).trans hcons

variable {name : Str}

theorem bracketedName_suffix (h : bracketedName text = some (name, rest)) : rest <:+ text := by
  unfold bracketedName at h
  split at h
  · rename_i hdrop
    cases h
    exact (List.suffix_cons _ _).trans (hdrop ▸ List.dropWhile_suffix _)
  · cases h

variable {opening : PlainTextToolCallOpening}

theorem parseBracketOpening_suffix (h : parseBracketOpening text = some opening) :
    ∃ tail, text = 0x5B :: tail ∧ opening.rest <:+ tail := by
  unfold parseBracketOpening at h
  split at h
  · rename_i tail
    refine ⟨tail, rfl, ?_⟩
    split at h
    · obtain ⟨⟨name, rest⟩, hname, rfl⟩ := Option.map_eq_some_iff.1 h
      exact (bracketedName_suffix hname).trans (List.drop_suffix _ _)
    · obtain ⟨⟨name, rest⟩, hname, h⟩ := Option.bind_eq_some_iff.1 h
      obtain ⟨after, hbreak, rfl⟩ := Option.map_eq_some_iff.1 h
      exact ((consumeLineBreak_suffix hbreak).trans (skipHorizontalWhitespace_suffix rest)).trans
        (bracketedName_suffix hname)
  · cases h

/-- The parser leaves less than it is given. -/
def Eats (text rest : Str) : Prop := rest <:+ text ∧ rest.length < text.length

theorem Eats.suffix {left : Str} (h : Eats text rest) (hleft : left <:+ rest) :
    Eats text left := ⟨hleft.trans h.1, hleft.length_le.trans_lt h.2⟩

theorem Eats.of_suffix {middle : Str} (hmiddle : middle <:+ text) (h : Eats middle rest) :
    Eats text rest :=
  ⟨h.1.trans hmiddle, h.2.trans_le hmiddle.length_le⟩

theorem eats_cons (u : Nat) (h : rest <:+ text) : Eats (u :: text) rest := by
  refine ⟨h.trans (List.suffix_cons u text), ?_⟩
  have hlength := h.length_le
  rw [List.length_cons]
  omega

theorem eats_drop {marker : Str} (hne : marker ≠ []) (h : marker.isPrefixOf text = true) :
    Eats text (text.drop marker.length) := by
  refine ⟨List.drop_suffix _ _, ?_⟩
  have hlength := (List.isPrefixOf_iff_prefix.1 h).length_le
  have hpos := List.length_pos_iff.2 hne
  rw [List.length_drop]
  omega

theorem parseHarmonyOpening_eats (h : parseHarmonyOpening text = some opening) :
    Eats text opening.rest := by
  unfold parseHarmonyOpening at h
  dsimp only at h
  generalize hstart : (if harmonyChannelMarker.isPrefixOf text then
    text.drop harmonyChannelMarker.length else text) = start at h
  have hsuffix : start <:+ text := by
    rw [← hstart]
    split
    · exact List.drop_suffix _ _
    · exact List.suffix_refl _
  split at h
  · cases h
  · split at h
    · cases h
    · rename_i hto
      split at h
      · cases h
      · split at h
        · cases h
        · rw [Bool.not_eq_true', Bool.not_eq_false] at hto
          have heats := eats_drop (by decide) hto
          cases h
          refine .of_suffix (((skipHorizontalWhitespace_suffix _).trans
            (List.dropWhile_suffix _)).trans hsuffix) (heats.suffix ?_)
          split
          · exact (((skipWhitespace_suffix _).trans (List.drop_suffix _ _)).trans
              (skipWhitespace_suffix _)).trans ((List.drop_suffix _ _).trans
                ((skipHorizontalWhitespace_suffix _).trans (List.dropWhile_suffix _)))
          · exact (skipWhitespace_suffix _).trans ((List.drop_suffix _ _).trans
              ((skipHorizontalWhitespace_suffix _).trans (List.dropWhile_suffix _)))

theorem parseOpening_eats (h : parseOpening text = some opening) : Eats text opening.rest := by
  rw [parseOpening, Option.or_eq_some_iff] at h
  rcases h with h | ⟨-, h⟩
  · obtain ⟨tail, rfl, hrest⟩ := parseBracketOpening_suffix h
    exact eats_cons _ hrest
  · exact parseHarmonyOpening_eats h

theorem matchXmlFunction_eats (h : matchXmlFunction text = some (name, rest)) : Eats text rest := by
  unfold matchXmlFunction at h
  dsimp only at h
  split at h
  · cases h
  · split at h
    · rename_i hdrop
      cases h
      exact .of_suffix ((List.dropWhile_suffix _).trans (List.drop_suffix _ _))
        (hdrop ▸ eats_cons _ (List.suffix_refl _))
    · cases h

theorem parseXmlishOpening_eats (h : parseXmlishOpening text = some opening) :
    Eats text opening.rest := by
  rw [parseXmlishOpening, Option.or_eq_some_iff] at h
  rcases h with h | ⟨-, h⟩
  · obtain ⟨tail, rfl, hrest⟩ := parseBracketOpening_suffix h
    exact eats_cons _ hrest
  · obtain ⟨⟨name, rest⟩, hname, h⟩ := Option.bind_eq_some_iff.1 h
    dsimp only at h
    by_cases hlen : name.length ≤ 120
    · rw [if_pos hlen] at h
      cases h
      exact (matchXmlFunction_eats hname).suffix (skipWhitespace_suffix rest)
    · rw [if_neg hlen] at h
      cases h

section

variable {α : Type} {parseObject : Str → Option α} {lower : Str → Str}

variable {text rest : Str}

theorem consumeJsonObject_suffix {limit : Nat} {value : α}
    (h : consumeJsonObject parseObject text limit = some (value, rest)) : rest <:+ text := by
  unfold consumeJsonObject at h
  dsimp only at h
  split at h
  · cases h
  · obtain ⟨after, hscan, h⟩ := Option.bind_eq_some_iff.1 h
    obtain ⟨value', -, h⟩ := Option.map_eq_some_iff.1 h
    cases h
    exact (scanJsonObject_suffix hscan).trans (skipWhitespace_suffix text)

theorem parseClosing_suffix {name : Str} (h : parseClosing text name = some rest) :
    rest <:+ text := by
  unfold parseClosing at h
  dsimp only at h
  split at h
  · cases h
    exact (List.drop_suffix _ _).trans (skipWhitespace_suffix text)
  · split at h
    · cases h
      exact (List.drop_suffix _ _).trans (skipWhitespace_suffix text)
    · cases h

theorem parseOptionalHarmonyClosing_suffix (text : Str) :
    parseOptionalHarmonyClosing text <:+ text := by
  unfold parseOptionalHarmonyClosing
  split
  · exact (List.drop_suffix _ _).trans (skipWhitespace_suffix text)
  · exact List.suffix_refl text

theorem parsePlainTextToolCallBlockAt_eats {options : PlainTextToolCallParseOptions}
    {block : PlainTextToolCallBlock α}
    (h : parsePlainTextToolCallBlockAt parseObject text options = some block) :
    Eats text block.rest := by
  obtain ⟨opening, hopening, h⟩ := Option.bind_eq_some_iff.1 h
  split at h
  · cases h
  · obtain ⟨⟨value, rest⟩, hpayload, h⟩ := Option.bind_eq_some_iff.1 h
    obtain ⟨after, hclosing, rfl⟩ := Option.map_eq_some_iff.1 h
    refine (parseOpening_eats hopening).suffix (.trans ?_ (consumeJsonObject_suffix hpayload))
    split at hclosing
    · exact parseClosing_suffix hclosing
    · cases hclosing
      exact parseOptionalHarmonyClosing_suffix rest

theorem splitParameterClose_suffix {payload : Str}
    (h : splitParameterClose text = some (payload, rest)) : rest <:+ text := by
  induction text generalizing payload with
  | nil => cases h
  | cons u text ih =>
    rw [splitParameterClose] at h
    split at h
    · cases h
      exact List.drop_suffix _ _
    · obtain ⟨⟨payload', rest'⟩, hsplit, h⟩ := Option.map_eq_some_iff.1 h
      cases h
      exact (ih hsplit).trans (List.suffix_cons u text)

theorem findXmlishParameterBlock_suffix {parameter : XmlishParameterBlock}
    (h : findXmlishParameterBlock text = some parameter) : parameter.rest <:+ text := by
  unfold findXmlishParameterBlock at h
  dsimp only at h
  split at h
  · cases h
  · split at h
    · rename_i hdrop
      split at h
      · obtain ⟨⟨payload, rest⟩, hsplit, rfl⟩ := Option.map_eq_some_iff.1 h
        refine (splitParameterClose_suffix hsplit).trans ?_
        refine .trans ((List.suffix_cons _ _).trans (hdrop ▸ List.dropWhile_suffix _)) ?_
        exact (List.drop_suffix _ _).trans (skipWhitespace_suffix text)
      · cases h
    · cases h

theorem skipXmlishParameterBlocks_suffix (fuel : Nat) (text : Str) :
    skipXmlishParameterBlocks fuel text <:+ text := by
  induction fuel generalizing text with
  | zero => exact List.suffix_refl text
  | succ fuel ih =>
    rw [skipXmlishParameterBlocks]
    cases hparameter : findXmlishParameterBlock text with
    | none => exact List.suffix_refl text
    | some parameter =>
      exact (ih parameter.rest).trans (findXmlishParameterBlock_suffix hparameter)

theorem consumeXmlishFunctionClose_suffix (h : consumeXmlishFunctionClose lower text = some rest) :
    rest <:+ text := by
  unfold consumeXmlishFunctionClose at h
  split at h
  · cases h
    exact (List.drop_suffix _ _).trans (skipWhitespace_suffix text)
  · cases h

theorem parseXmlishPlainTextToolCallBlockEndAt_eats
    (h : parseXmlishPlainTextToolCallBlockEndAt lower text = some rest) : Eats text rest := by
  obtain ⟨opening, hopening, h⟩ := Option.bind_eq_some_iff.1 h
  have hskip := skipXmlishParameterBlocks_suffix opening.rest.length opening.rest
  refine (parseXmlishOpening_eats hopening).suffix (.trans ?_ hskip)
  split at h
  · cases h
  · dsimp only at h
    split at h
    · cases h
      unfold consumeOptionalXmlishFunctionClose
      cases hclose : consumeXmlishFunctionClose lower
          (skipXmlishParameterBlocks opening.rest.length opening.rest) with
      | none => exact List.suffix_refl _
      | some rest => exact consumeXmlishFunctionClose_suffix hclose
    · exact consumeXmlishFunctionClose_suffix h

theorem blockEndAt_eats (h : blockEndAt parseObject lower text = some rest) : Eats text rest := by
  rw [blockEndAt, Option.or_eq_some_iff] at h
  rcases h with h | ⟨-, h⟩
  · obtain ⟨block, hblock, rfl⟩ := Option.map_eq_some_iff.1 h
    exact parsePlainTextToolCallBlockAt_eats hblock
  · exact parseXmlishPlainTextToolCallBlockEndAt_eats h

end

end OpenClaw.ToolCallRepair
