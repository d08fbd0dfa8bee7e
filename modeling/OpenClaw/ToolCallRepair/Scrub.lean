import OpenClaw.ToolCallRepair.BufferState

/-!
# Scrubbing of `tool-call-repair/src/stream-normalizer.ts`

Events carry snapshots of the message so far. When the text of a call is held back or hidden, the
snapshots that go out are rewritten to leave it out.

The source compares the blocks of a rewritten content with the original ones as objects. Here a
block remembers which of them it is.
-/

namespace OpenClaw.ToolCallRepair

open Js

/-! ## Contents -/

/-- A block of a content. `origin` is its index in the content that was rewritten, unless it is a
new object. -/
structure Block where
  origin : Option Nat
  value : Value

inductive Content
  | blocks (bs : List Block)
  | other (value : Value)

def contentOf : Value → Content
  | .arr items => .blocks (items.mapIdx fun index item => ⟨some index, item⟩)
  | value => .other value

def Content.toValue : Content → Value
  | .blocks bs => .arr (bs.map (·.value))
  | .other value => value

/-- The text of a value that is a text block. -/
def textOf (value : Value) : Option Str :=
  if (value.field "type").asStr = some (units "text") then (value.field "text").asStr else none

/-- `block === originals[index]`. -/
def Block.isOriginalAt (block : Block) (originals : List Value) (index : Nat) : Bool :=
  block.origin == some index ||
    (!block.value.isRecord && originals[index]?.any block.value.same)

def Block.withText (block : Block) (text : Str) : Block :=
  ⟨none, block.value.setField "text" (.str text)⟩

structure Scrubbed where
  changed : Bool
  content : Content

variable (lower : Str → Str) (matcher : PlainTextToolCallNameMatcher)

/-! ## Suppressed text -/

/-- `/\[\/[A-Za-z0-9_.:-]+\]/`. -/
def hasBracketClose (text : Str) : Bool :=
  text.tails.any fun
    | 0x5B :: 0x2F :: name =>
      name.takeWhile isXmlishNameChar ≠ [] && (name.dropWhile isXmlishNameChar).head? = some 0x5D
    | _ => false

def hasSuppressedToolCallClosingMarker (text : Str) : Bool :=
  text ≠ [] &&
    (includes (lower text) (units "</parameter>") || includes (lower text) (units "</function>") ||
      includes text endToolRequest || includes text harmonyCallMarker || 0x7D ∈ text ||
      hasBracketClose text)

def getTextToolCallEventText (event : Value) : Option Str :=
  match event.field "delta" with
  | .str delta => some delta
  | _ => (event.field "content").asStr

def appendTextToolCallBuffer (bufferedText : Str) (event : Value) : Str :=
  match getTextToolCallEventText event with
  | none => bufferedText
  | some text =>
    if (event.field "content").asStr.isSome && bufferedText = [] then text
    else if (event.field "delta").asStr.isSome then bufferedText ++ text
    else bufferedText

def shouldRescanSuppressedTextToolCallBuffer (previousBufferedText : Str) (event : Value) : Bool :=
  match getTextToolCallEventText event with
  | none | some [] => false
  | some eventText =>
    hasSuppressedToolCallClosingMarker lower
      (lastUnits textToolCallSuppressedMarkerScanChars previousBufferedText ++ eventText)

def truncateSuppressedTextToolCallBuffer (text : Str) : Str :=
  if text.length ≤ textToolCallSuppressedScanMaxChars then text
  else text.take textToolCallBufferMaxChars ++ lastUnits textToolCallSuppressedTailChars text

structure SuppressedAppend where
  changed : Bool
  scanText : Str
  text : Str

def appendSuppressedTextToolCallBuffer (bufferedText : Str) (event : Value) : SuppressedAppend :=
  let nextText := appendTextToolCallBuffer bufferedText event
  if nextText = bufferedText then ⟨false, bufferedText, bufferedText⟩
  else ⟨true, nextText, truncateSuppressedTextToolCallBuffer nextText⟩

def shouldSuppressBufferedTextBlock (blockText bufferedText : Str) : Bool :=
  let normalizedBlock := trim blockText
  let normalizedBuffer := trim bufferedText
  let normalizedSuppressedPrefix := trim (bufferedText.take textToolCallBufferMaxChars)
  normalizedBlock ≠ [] && normalizedBuffer ≠ [] &&
    (normalizedBlock.isPrefixOf normalizedBuffer || normalizedBuffer.isPrefixOf normalizedBlock ||
      (textToolCallSuppressedScanMaxChars ≤ bufferedText.length &&
        normalizedSuppressedPrefix ≠ [] &&
        normalizedSuppressedPrefix.isPrefixOf normalizedBlock))

/-! ## Prefixes over the cap -/

/-- The text blocks to suppress, by their positions, and what one of them keeps. -/
structure Suppression where
  indexes : List Nat
  visible : Option (Str × Nat)

structure OverCapScan where
  suppressed : List Nat
  accumulated : Str
  reachedOverCap : Bool

/-- The loop of `scrubFirstOverCapTextPrefixFromContent` over the values from `index` on. -/
def findOverCapPrefix (scan : OverCapScan) (index : Nat) : List Value → Option Suppression
  | [] => if scan.reachedOverCap then some ⟨scan.suppressed, none⟩ else none
  | value :: values =>
    match textOf value with
    | none => findOverCapPrefix scan (index + 1) values
    | some text =>
      let startsCall := hasExactSerializedToolCallPrefix matcher (trimStart text)
      if trim text = [] then findOverCapPrefix scan (index + 1) values
      else if scan.accumulated = [] && !startsCall then findOverCapPrefix scan (index + 1) values
      else if scan.reachedOverCap && startsCall then some ⟨scan.suppressed, none⟩
      else if scan.reachedOverCap && scan.suppressed.length = 1 &&
          !hasSuppressedToolCallClosingMarker lower text then
        some ⟨scan.suppressed, none⟩
      else
        let accumulated :=
          if scan.accumulated = [] then text else scan.accumulated ++ 0x0A :: text
        let suppressed := scan.suppressed ++ [index]
        match getPlainTextToolCallBufferState lower matcher accumulated with
        | .overCap =>
          match stripSerializedToolCallPrefixes lower matcher accumulated with
          | some strippedSuffix => some ⟨suppressed, some (strippedSuffix, index)⟩
          | none => findOverCapPrefix ⟨suppressed, accumulated, true⟩ (index + 1) values
        | .impossible =>
          if scan.reachedOverCap then
            some ⟨suppressed, (stripSerializedToolCallPrefixes lower matcher accumulated).map
              fun strippedSuffix => (strippedSuffix, index)⟩
          else findOverCapPrefix ⟨[], [], false⟩ (index + 1) values
        | .possible =>
          findOverCapPrefix ⟨suppressed, accumulated, scan.reachedOverCap⟩ (index + 1) values

def scrubSuppressedTextIndexesFromContent (preserveEmptyTextBlocks : Bool)
    (suppression : Suppression) (bs : List Block) : List Block :=
  (bs.mapIdx fun index block =>
    if index ∉ suppression.indexes then [block]
    else
      match suppression.visible with
      | some (visibleSuffix, visibleSuffixIndex) =>
        if visibleSuffixIndex = index && trim visibleSuffix ≠ [] then
          [block.withText visibleSuffix]
        else if preserveEmptyTextBlocks then [block.withText []]
        else []
      | none => if preserveEmptyTextBlocks then [block.withText []] else []).flatten

def scrubOverCapTextPrefixes (preserveEmptyTextBlocks : Bool) :
    (turns : Nat) → (changed : Bool) → List Block → Bool × List Block
  | 0, changed, bs => (changed, bs)
  | turns + 1, changed, bs =>
    match findOverCapPrefix lower matcher ⟨[], [], false⟩ 0 (bs.map (·.value)) with
    | none => (changed, bs)
    | some suppression =>
      scrubOverCapTextPrefixes preserveEmptyTextBlocks turns true
        (scrubSuppressedTextIndexesFromContent preserveEmptyTextBlocks suppression bs)

def scrubOverCapTextPrefixFromContent (preserveEmptyTextBlocks : Bool) (bs : List Block) :
    Bool × List Block :=
  scrubOverCapTextPrefixes lower matcher preserveEmptyTextBlocks 32 false bs

/-! ## Contents of snapshots -/

/-- `Array.prototype[index]` for an index that is a number. -/
def atIndex (bs : List Block) (index : Int) : Option Block :=
  if 0 ≤ index then bs[index.toNat]? else none

def scrubBufferedTextFromContent (content : Content) (bufferedText : Str) (onlyTextIndex : Value)
    (preserveEmptyTextBlocks : Bool) : Scrubbed :=
  match content with
  | .blocks bs =>
    match onlyTextIndex with
    | .num index =>
      match atIndex bs index with
      | none => ⟨false, content⟩
      | some block =>
        if !(textOf block.value).any fun text =>
            shouldSuppressBufferedTextBlock text bufferedText then
          ⟨false, content⟩
        else if preserveEmptyTextBlocks then
          ⟨true, .blocks (bs.set index.toNat (block.withText []))⟩
        else ⟨true, .blocks (bs.eraseIdx index.toNat)⟩
    | _ =>
      let overCapPrefix := scrubOverCapTextPrefixFromContent lower matcher preserveEmptyTextBlocks bs
      if overCapPrefix.1 then ⟨true, .blocks overCapPrefix.2⟩
      else
        let suppressed (block : Block) :=
          (textOf block.value).any fun text => shouldSuppressBufferedTextBlock text bufferedText
        if !bs.any suppressed then ⟨false, content⟩
        else
          ⟨true, .blocks (bs.flatMap fun block =>
            if !suppressed block then [block]
            else if preserveEmptyTextBlocks then [block.withText []]
            else [])⟩
  | .other (.str text) =>
    if shouldSuppressBufferedTextBlock text bufferedText then ⟨true, .other (.str [])⟩
    else ⟨false, content⟩
  | .other _ => ⟨false, content⟩

/-- `strings.join("\n")`. -/
def joinLines : List Str → Str
  | [] => []
  | [text] => text
  | text :: texts => text ++ 0x0A :: joinLines texts

/-- The text blocks replaced by what is left of them together. -/
def replaceJoined (strippedJoined : Str) (firstTextIndex : Option Nat)
    (preserveEmptyTextBlocks : Bool) (bs : List Block) : List Block :=
  (bs.mapIdx fun index block =>
    let visible := firstTextIndex = some index && trim strippedJoined ≠ []
    match textOf block.value with
    | none => [block]
    | some _ =>
      if preserveEmptyTextBlocks then [block.withText (if visible then strippedJoined else [])]
      else if visible then [block.withText strippedJoined]
      else []).flatten

/-- What is left of a text, if that is another text. -/
def strippedText (text : Str) : Option Str :=
  (stripSerializedToolCallPrefixes lower matcher text).filter (· ≠ text)

def stripPlainTextToolCallsFromContent (content : Content) (preserveEmptyTextBlocks : Bool) :
    Scrubbed :=
  match content with
  | .blocks bs =>
    let joinedText := joinLines (bs.filterMap fun block => textOf block.value)
    let strippedJoined :=
      if trim joinedText = [] then none
      else
        (stripSerializedToolCallPrefixes lower matcher (trim joinedText)).filter (· ≠ joinedText)
    match strippedJoined with
    | some strippedJoined =>
      ⟨true, .blocks (replaceJoined strippedJoined
        (bs.findIdx? fun block => (textOf block.value).isSome) preserveEmptyTextBlocks bs)⟩
    | none =>
      let stripped (block : Block) := (textOf block.value).bind (strippedText lower matcher)
      if !bs.any fun block => (stripped block).isSome then ⟨false, content⟩
      else
        ⟨true, .blocks (bs.flatMap fun block =>
          match stripped block with
          | none => [block]
          | some text =>
            if trim text ≠ [] then [block.withText text]
            else if preserveEmptyTextBlocks then [block.withText []]
            else [])⟩
  | .other (.str text) =>
    match strippedText lower matcher text with
    | some stripped => ⟨true, .other (.str stripped)⟩
    | none => ⟨false, content⟩
  | .other _ => ⟨false, content⟩

/-- `typeof value === "undefined"`. -/
def isUndefined : Value → Bool
  | .undefined => true
  | _ => false

def scrubPlainTextToolCallContent (content : Content) (bufferedText : Str) (onlyTextIndex : Value)
    (preserveEmptyTextBlocks : Bool) : Scrubbed :=
  let scrubbed := scrubBufferedTextFromContent lower matcher content bufferedText onlyTextIndex
    preserveEmptyTextBlocks
  if isUndefined onlyTextIndex then
    let stripped :=
      stripPlainTextToolCallsFromContent lower matcher scrubbed.content preserveEmptyTextBlocks
    if stripped.changed then stripped else scrubbed
  else scrubbed

/-- Would the block at the index of an event be another one? -/
def shouldPreserveEmptyTextBlocksForEventIndex (content : Value) (bufferedText : Str)
    (eventContentIndex : Value) : Bool :=
  match content, eventContentIndex with
  | .arr items, .num index =>
    if index < 0 || items.length ≤ index.toNat then false
    else
      let scrubbed := scrubPlainTextToolCallContent lower matcher (contentOf content) bufferedText
        .undefined false
      match scrubbed.content with
      | .blocks bs =>
        scrubbed.changed && !bs[index.toNat]?.any fun block =>
          block.isOriginalAt items index.toNat
      | .other _ => false
  | _, _ => false

/-! ## Snapshots of events -/

/-- The event with the content of its snapshot `key` scrubbed, as by `scrubBufferedTextFromMessage`
and `scrubBufferedTextFromError`. -/
def scrubBufferedText (key : String) (event : Value) (bufferedText : Str) (contentIndex : Value)
    (preserveEmptyTextBlocks : Bool) : Value :=
  let snapshot := event.field key
  if !snapshot.isRecord then event
  else
    let scrubbed := scrubPlainTextToolCallContent lower matcher
      (contentOf (snapshot.field "content")) bufferedText contentIndex preserveEmptyTextBlocks
    if !scrubbed.changed then event
    else event.setField key (snapshot.setField "content" scrubbed.content.toValue)

def scrubBufferedTextFromPartial (event : Value) (bufferedText : Str) (contentIndex : Value)
    (preserveEmptyTextBlocks : Bool) : Value :=
  scrubBufferedText lower matcher "partial" event bufferedText contentIndex
    (preserveEmptyTextBlocks ||
      shouldPreserveEmptyTextBlocksForEventIndex lower matcher
        ((event.field "partial").field "content") bufferedText (event.field "contentIndex"))

def scrubBufferedTextFromMessage (event : Value) (bufferedText : Str) (contentIndex : Value) :
    Value :=
  scrubBufferedText lower matcher "message" event bufferedText contentIndex false

def scrubBufferedTextFromError (event : Value) (bufferedText : Str) (contentIndex : Value) :
    Value :=
  scrubBufferedText lower matcher "error" event bufferedText contentIndex false

/-! ## Visible suffixes -/

/-- A text block with the visible text, or nothing if that is blank. -/
def Block.visible (block : Block) (visibleText : Str) : List Block :=
  if trim visibleText ≠ [] then [block.withText visibleText] else []

def startsCall (matcher : PlainTextToolCallNameMatcher) (block : Block) : Bool :=
  (textOf block.value).any fun text => hasExactSerializedToolCallPrefix matcher (trimStart text)

/-- The first text block that meets a condition replaced by the visible text. -/
def replaceFirst (p : Block → Bool) (visibleText : Str) : List Block → List Block
  | [] => []
  | block :: bs =>
    if p block then block.visible visibleText ++ bs
    else block :: replaceFirst p visibleText bs

/-- `replaceTextContentWithVisibleSuffix` without an index, on blocks; `none` leaves the record. -/
def replaceWithoutIndex (matcher : Option PlainTextToolCallNameMatcher) (visibleText : Str)
    (bs : List Block) : Option (List Block) :=
  if bs.countP (fun block => (textOf block.value).isSome) ≠ 1 then
    match matcher with
    | none => none
    | some matcher =>
      if bs.any (startsCall matcher) then some (replaceFirst (startsCall matcher) visibleText bs)
      else none
  else some (replaceFirst (fun block => (textOf block.value).isSome) visibleText bs)

/-- `replaceTextContentWithVisibleSuffix` at an index, on blocks. -/
def replaceAtIndex (matcher : Option PlainTextToolCallNameMatcher) (visibleText : Str)
    (contentIndex : Int) (bs : List Block) : List Block :=
  (bs.mapIdx fun index block =>
    if (index : Int) ≠ contentIndex || (textOf block.value).isNone ||
        matcher.any (fun matcher => !startsCall matcher block) then [block]
    else block.visible visibleText).flatten

/-- Each block is the original one at its place. -/
def sameBlocks (originals : List Value) (bs : List Block) : Bool :=
  (bs.mapIdx fun index block => block.isOriginalAt originals index).all id

def replaceTextContentWithVisibleSuffix (record : Value) (visibleText : Str)
    (contentIndex : Value) (matcher : Option PlainTextToolCallNameMatcher) : Value :=
  match contentOf (record.field "content") with
  | .other (.str _) => record.setField "content" (.str visibleText)
  | .other _ => record
  | .blocks bs =>
    let withBlocks (bs : List Block) := record.setField "content" (Content.blocks bs).toValue
    let withoutIndex := ((replaceWithoutIndex matcher visibleText bs).map withBlocks).getD record
    match contentIndex with
    | .num index =>
      let replaced := replaceAtIndex matcher visibleText index bs
      if matcher.isSome && sameBlocks (bs.map (·.value)) replaced then withoutIndex else withBlocks replaced
    | _ => withoutIndex

/-- The event with the text of its snapshot `key` replaced, as by
`scrubReclassifiedMixedTextFromPartial` and `scrubReclassifiedMixedTextFromError`. -/
def scrubReclassifiedMixedText (key : String) (event : Value) (visibleText : Str)
    (contentIndex : Value) : Value :=
  let snapshot := event.field key
  if !snapshot.isRecord then event
  else event.setField key
    (replaceTextContentWithVisibleSuffix snapshot visibleText contentIndex (some matcher))

def textBlock (text : Str) : Value := .obj [("type", .str (units "text")), ("text", .str text)]

def createScrubbedTextDeltaEvent (event : Value) (text : Str) : Value :=
  let contentIndex := event.field "contentIndex"
  let partialMessage := event.field "partial"
  let syntheticContent := match contentIndex with
    | .num index =>
      (List.range (index + 1).toNat).map fun i =>
        textBlock (if (i : Int) = index then text else [])
    | _ => [textBlock text]
  let scrubbedPartial :=
    if partialMessage.isRecord then
      replaceTextContentWithVisibleSuffix partialMessage text contentIndex none
    else .obj [("role", .str (units "assistant")), ("content", .arr syntheticContent)]
  (((event.eraseField "content").setField "type" (.str (units "text_delta"))).setField "delta"
    (.str text)).setField "partial" scrubbedPartial

def appendReclassifiedVisibleDelta (visibleText : Str) (event : Value) : Str :=
  match event.field "delta" with
  | .str delta => visibleText ++ delta
  | _ => visibleText

def isAllowedTextToolCallLikeEvent (event : Value) : Bool :=
  (getTextToolCallEventText event).any fun text =>
    trim text ≠ [] && getPlainTextToolCallBufferState lower matcher text ≠ .impossible

end OpenClaw.ToolCallRepair
