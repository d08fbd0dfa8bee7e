import OpenClaw.ToolCallRepair.Grammar

/-!
# The streaming classifier of `tool-call-repair/src/stream-normalizer.ts`

Can the text that has come so far still become a serialized tool call? The answer is for a text
that may be cut anywhere. Beyond a cap the text is not kept whole, and complete calls at its start
are stripped to see what is left.
-/

namespace OpenClaw.ToolCallRepair

open Js

structure PlainTextToolCallNameMatcher where
  hasExactName : Str → Bool
  hasNamePrefix : Str → Bool

def textToolCallBufferMaxChars : Nat := 256000

def textToolCallSuppressedScanMaxChars : Nat := textToolCallBufferMaxChars + 64000

def textToolCallSuppressedTailChars : Nat :=
  textToolCallSuppressedScanMaxChars - textToolCallBufferMaxChars

def textToolCallSuppressedMarkerScanChars : Nat := 2048

inductive BufferState
  | possible | impossible | overCap
  deriving DecidableEq

variable (lower : Str → Str) (matcher : PlainTextToolCallNameMatcher)

/-! ## What could still be a call -/

def couldStillBeJsonPayload (text : Str) : Bool :=
  match text.dropWhile isSpace with
  | [] => true
  | u :: _ => u = 0x7B

def couldStillBeXmlishParameterPayload (text : Str) : Bool :=
  match text.dropWhile isSpace with
  | [] => true
  | u :: rest => matchesLiteralPrefix (lower (u :: rest)) (units "<parameter=")

/-- What follows the opening of a bracketed call. -/
def couldStillBePayload (text : Str) : Bool :=
  couldStillBeJsonPayload text || couldStillBeXmlishParameterPayload lower text

/-- A name and what follows it: a text that ends in the name may go on with it, and a name that
ended is complete and goes on with `close`. -/
def couldStillBeName (isNameChar : Nat → Bool) (close : Nat) (afterClose : Str → Bool)
    (text : Str) : Bool :=
  let name := text.takeWhile isNameChar
  if name = [] || !matcher.hasNamePrefix name then false
  else
    match text.dropWhile isNameChar with
    | [] => true
    | u :: rest => u = close && matcher.hasExactName name && afterClose rest

/-- What follows `[name]`: a line break, and the payload. -/
def couldStillBeLineBreakPayload (text : Str) : Bool :=
  match skipHorizontalWhitespace text with
  | [] => true
  | [0x0D] => true
  | 0x0D :: 0x0A :: rest => couldStillBePayload lower rest
  | 0x0D :: rest => couldStillBePayload lower rest
  | 0x0A :: rest => couldStillBePayload lower rest
  | _ => false

def couldStillBeBracketedStandaloneToolCall (text : Str) : Bool :=
  let toolPrefix := units "[tool:"
  if text.head? ≠ some 0x5B then false
  else if matchesLiteralPrefix text toolPrefix then
    if text.length ≤ toolPrefix.length then true
    else
      couldStillBeName matcher isPlainTextToolNameChar 0x5D (couldStillBePayload lower)
        (text.drop toolPrefix.length)
  else
    couldStillBeName matcher isPlainTextToolNameChar 0x5D (couldStillBeLineBreakPayload lower)
      (text.drop 1)

def couldStillBeXmlishFunctionToolCall (text : Str) : Bool :=
  let marker := units "<function="
  if !matchesLiteralPrefix (lower text) marker then false
  else if text.length ≤ marker.length then true
  else
    couldStillBeName matcher isXmlishNameChar 0x3E (couldStillBeXmlishParameterPayload lower)
      (text.drop marker.length)

/-- What follows `code` in a harmony header. -/
def couldStillBeHarmonyPayload (text : Str) : Bool :=
  match text.dropWhile isSpace with
  | [] => true
  | u :: rest => matchesLiteralPrefix (u :: rest) harmonyMessageMarker || u = 0x7B

/-- What follows `to=` in a harmony header. -/
def couldStillBeHarmonyRecipient (text : Str) : Bool :=
  let name := text.takeWhile isPlainTextToolNameChar
  if name = [] || !matcher.hasNamePrefix name then false
  else
    match skipHorizontalWhitespace (text.dropWhile isPlainTextToolNameChar) with
    | [] => true
    | u :: rest =>
      let codeMarker := units "code"
      if !matcher.hasExactName name then false
      else if !matchesLiteralPrefix (u :: rest) codeMarker then false
      else if (u :: rest).length ≤ codeMarker.length then true
      else couldStillBeHarmonyPayload ((u :: rest).drop codeMarker.length)

/-- What follows the channel marker. -/
def couldStillBeHarmonyChannel (text : Str) : Bool :=
  match harmonyChannels.find? (matchesLiteralPrefix text) with
  | none => false
  | some channel =>
    if text.length ≤ channel.length then true
    else
      match skipHorizontalWhitespace (text.drop channel.length) with
      | [] => true
      | u :: rest =>
        let toMarker := units "to="
        if !matchesLiteralPrefix (u :: rest) toMarker then false
        else if (u :: rest).length ≤ toMarker.length then true
        else couldStillBeHarmonyRecipient matcher ((u :: rest).drop toMarker.length)

def couldStillBeHarmonyStandaloneToolCall (text : Str) : Bool :=
  if matchesLiteralPrefix text harmonyChannelMarker then
    if text.length ≤ harmonyChannelMarker.length then true
    else couldStillBeHarmonyChannel matcher (text.drop harmonyChannelMarker.length)
  else couldStillBeHarmonyChannel matcher text

/-! ## Stripping complete calls -/

/-- The name of a harmony header:
`/^(?:<\|channel\|>)?(?:commentary|analysis|final)\s+to=([A-Za-z0-9_-]+)\s+code\b/`. -/
def matchHarmonyHeader (text : Str) : Option Str :=
  let text :=
    if harmonyChannelMarker.isPrefixOf text then text.drop harmonyChannelMarker.length else text
  match harmonyChannels.find? (·.isPrefixOf text) with
  | none => none
  | some channel =>
    let afterChannel := text.drop channel.length
    let afterSpace := afterChannel.dropWhile isSpace
    if afterSpace.length = afterChannel.length || !(units "to=").isPrefixOf afterSpace then none
    else
      let name := (afterSpace.drop 3).takeWhile isPlainTextToolNameChar
      let afterName := (afterSpace.drop 3).dropWhile isPlainTextToolNameChar
      let code := afterName.dropWhile isSpace
      if name = [] || code.length = afterName.length || !(units "code").isPrefixOf code then none
      else if (code.drop 4).head?.any fun u => isAlphanum u || u = 0x5F then none
      else some name

def hasExactSerializedToolCallPrefix (text : Str) : Bool :=
  match matchBracketed text with
  | some (name, _) => matcher.hasExactName name
  | none =>
    match matchXmlFunction text with
    | some (name, _) => matcher.hasExactName name
    | none => (matchHarmonyHeader text).any matcher.hasExactName

def stripCompleteSerializedToolCallPrefix (text : Str) : Option Str :=
  if !hasExactSerializedToolCallPrefix matcher text then none
  else
    match findXmlishToolCallEnd lower text with
    | some rest => some rest
    | none =>
      match (findBracketedJsonPayloadStart text).or (findHarmonyJsonPayloadStart text) with
      | none => none
      | some json => (findJsonObjectEnd json none).map consumeJsonToolClosingMarker

/-- The loop of `stripSerializedToolCallPrefixes`, with the turns that are left. -/
def stripPrefixes : (turns : Nat) → (changed : Bool) → Str → Option Str
  | 0, _, current =>
    some (if hasExactSerializedToolCallPrefix matcher (trimStart current) then [] else current)
  | turns + 1, changed, current =>
    match stripCompleteSerializedToolCallPrefix lower matcher (trimStart current) with
    | none =>
      if changed && hasExactSerializedToolCallPrefix matcher (trimStart current) then some []
      else if changed then some current
      else none
    | some next => if trim next = [] then some next else stripPrefixes turns true next

def stripSerializedToolCallPrefixes (text : Str) : Option Str :=
  stripPrefixes lower matcher 32 false text

/-! ## The state of a buffer -/

def couldStillBeToolCall (text : Str) : Bool :=
  couldStillBeBracketedStandaloneToolCall lower matcher text ||
    couldStillBeXmlishFunctionToolCall lower matcher text ||
    couldStillBeHarmonyStandaloneToolCall matcher text

def getPlainTextToolCallBufferState (text : Str) : BufferState :=
  let trimmed := trimStart text
  if trimmed = [] then
    if textToolCallBufferMaxChars < text.length then .impossible else .possible
  else if !couldStillBeToolCall lower matcher trimmed then .impossible
  else if text.length ≤ textToolCallBufferMaxChars then .possible
  else
    match stripSerializedToolCallPrefixes lower matcher trimmed with
    | some rest => if trim rest ≠ [] then .impossible else .overCap
    | none => .overCap

end OpenClaw.ToolCallRepair
