import OpenClaw.Lib.JsValue

/-!
# `tool-call-repair/src/grammar.ts`

The scanners of serialized tool calls. An offset into a text is the rest of the text from there, so
a scanner takes the text that is left and gives the text that it leaves. `lower` is
`String.prototype.toLowerCase`.
-/

namespace OpenClaw.ToolCallRepair

open Js

def endToolRequest : Str := units "[END_TOOL_REQUEST]"

def harmonyChannelMarker : Str := units "<|channel|>"

def harmonyMessageMarker : Str := units "<|message|>"

def harmonyCallMarker : Str := units "<|call|>"

/-- Either a complete literal, or the beginning of it. -/
def matchesLiteralPrefix (text literal : Str) : Bool :=
  text.isPrefixOf literal || literal.isPrefixOf text

/-- `/[A-Za-z0-9_-]/`. -/
def isPlainTextToolNameChar (u : Nat) : Bool := isAlphanum u || u = 0x5F || u = 0x2D

/-- `/[A-Za-z0-9_.:-]/`. -/
def isXmlishNameChar (u : Nat) : Bool :=
  isAlphanum u || u = 0x5F || u = 0x2E || u = 0x3A || u = 0x2D

def isHorizontalSpace (u : Nat) : Bool := u = 0x20 || u = 0x09

def skipHorizontalWhitespace (text : Str) : Str := text.dropWhile isHorizontalSpace

def skipWhitespace (text : Str) : Str := text.dropWhile isSpace

def consumeLineBreak : Str → Option Str
  | 0x0D :: 0x0A :: rest => some rest
  | 0x0D :: rest => some rest
  | 0x0A :: rest => some rest
  | _ => none

/-! ## JSON objects -/

/-- Where the loop of `findJsonObjectEnd` is. -/
structure JsonScan where
  /-- The code units that were read. -/
  read : Nat
  depth : Int
  inString : Bool
  escaped : Bool

/-- The rest of the text after the object. -/
def scanJsonObject (maxPayloadBytes : Option Nat) : JsonScan → Str → Option Str
  | _, [] => none
  | scan, u :: rest =>
    let read := scan.read + 1
    if maxPayloadBytes.any (· < read) then none
    else if scan.inString then
      if scan.escaped then
        scanJsonObject maxPayloadBytes { scan with read, escaped := false } rest
      else if u = 0x5C then
        scanJsonObject maxPayloadBytes { scan with read, escaped := true } rest
      else if u = 0x22 then
        scanJsonObject maxPayloadBytes { scan with read, inString := false } rest
      else scanJsonObject maxPayloadBytes { scan with read } rest
    else if u = 0x22 then
      scanJsonObject maxPayloadBytes { scan with read, inString := true } rest
    else if u = 0x7B then
      scanJsonObject maxPayloadBytes { scan with read, depth := scan.depth + 1 } rest
    else if u = 0x7D then
      if scan.depth - 1 = 0 then some rest
      else scanJsonObject maxPayloadBytes { scan with read, depth := scan.depth - 1 } rest
    else scanJsonObject maxPayloadBytes { scan with read } rest

def findJsonObjectEnd (text : Str) (maxPayloadBytes : Option Nat) : Option Str :=
  scanJsonObject maxPayloadBytes ⟨0, 0, false, false⟩ text

def skipSerializedToolCallTrailingLineBreak (text : Str) : Str :=
  (consumeLineBreak text).getD text

/-- `/^\[\/[A-Za-z0-9_-]+\]/`: the rest after a closing marker. -/
def bracketClose : Str → Option Str
  | 0x5B :: 0x2F :: name =>
    match name.takeWhile isPlainTextToolNameChar, name.dropWhile isPlainTextToolNameChar with
    | _ :: _, 0x5D :: rest => some rest
    | _, _ => none
  | _ => none

/-- The closing markers that may follow the payload; without one only a line break is skipped. -/
def consumeJsonToolClosingMarker (text : Str) : Str :=
  let rest := skipWhitespace text
  if endToolRequest.isPrefixOf rest then
    skipSerializedToolCallTrailingLineBreak (rest.drop endToolRequest.length)
  else
    match bracketClose rest with
    | some rest => skipSerializedToolCallTrailingLineBreak rest
    | none =>
      if harmonyCallMarker.isPrefixOf rest then
        skipSerializedToolCallTrailingLineBreak (rest.drop harmonyCallMarker.length)
      else skipSerializedToolCallTrailingLineBreak text

/-- The text, if an object begins it. -/
def atObject (text : Str) : Option Str := if text.head? = some 0x7B then some text else none

def findBracketedJsonPayloadStart (text : Str) : Option Str :=
  if text.head? ≠ some 0x5B then none
  else
    match text.dropWhile (· ≠ 0x5D) with
    | [] => none
    | _ :: rest =>
      atObject (skipHorizontalWhitespace
        (skipSerializedToolCallTrailingLineBreak (skipHorizontalWhitespace rest)))

def harmonyChannels : List Str := [units "commentary", units "analysis", units "final"]

def findHarmonyJsonPayloadStart (text : Str) : Option Str :=
  let text :=
    if harmonyChannelMarker.isPrefixOf text then text.drop harmonyChannelMarker.length else text
  match harmonyChannels.find? (·.isPrefixOf text) with
  | none => none
  | some channel =>
    let text := skipHorizontalWhitespace (text.drop channel.length)
    if !(units "to=").isPrefixOf text then none
    else
      let text := text.drop 3
      if text.takeWhile isPlainTextToolNameChar = [] then none
      else
        let text := skipHorizontalWhitespace (text.dropWhile isPlainTextToolNameChar)
        if !(units "code").isPrefixOf text then none
        else
          let text := skipWhitespace (text.drop 4)
          atObject (if harmonyMessageMarker.isPrefixOf text then
            skipWhitespace (text.drop harmonyMessageMarker.length) else text)

/-! ## Tagged calls -/

section

variable (lower : Str → Str)

def startsWithAsciiMarkerIgnoreCase (text marker : Str) : Bool :=
  lower (text.take marker.length) = marker

/-- The rest of the text from the first marker. -/
def indexOfAsciiMarkerIgnoreCase (marker : Str) : Str → Option Str
  | [] => none
  | u :: rest =>
    if marker.head? = some u && startsWithAsciiMarkerIgnoreCase lower (u :: rest) marker then
      some (u :: rest)
    else indexOfAsciiMarkerIgnoreCase marker rest

/-- A match of `/^<function=([A-Za-z0-9_.:-]+)>/i`: the name and the rest. -/
def matchXmlFunction (text : Str) : Option (Str × Str) :=
  let marker := units "<function="
  if (text.take marker.length).map lowerUnit ≠ marker then none
  else
    let text := text.drop marker.length
    match text.takeWhile isXmlishNameChar, text.dropWhile isXmlishNameChar with
    | name@(_ :: _), 0x3E :: rest => some (name, rest)
    | _, _ => none

/-- A match of `/^\[(?:tool:)?([A-Za-z0-9_-]+)\]/`: the name and the rest. -/
def matchBracketed (text : Str) : Option (Str × Str) :=
  match text with
  | 0x5B :: text =>
    let marker := units "tool:"
    let text := if marker.isPrefixOf text then text.drop marker.length else text
    match text.takeWhile isPlainTextToolNameChar, text.dropWhile isPlainTextToolNameChar with
    | name@(_ :: _), 0x5D :: rest => some (name, rest)
    | _, _ => none
  | _ => none

/-- The loop of `findXmlishToolCallEnd` from a parameter. Each parameter takes some of the text, so
`fuel` for its length is enough. -/
def skipXmlishParameters : (fuel : Nat) → Str → Option Str
  | 0, _ => none
  | fuel + 1, text =>
    match indexOfAsciiMarkerIgnoreCase lower (units "</parameter>") text with
    | none => none
    | some close =>
      let text := skipWhitespace (close.drop (units "</parameter>").length)
      if startsWithAsciiMarkerIgnoreCase lower text (units "</function>") then
        some (skipSerializedToolCallTrailingLineBreak (text.drop (units "</function>").length))
      else if !startsWithAsciiMarkerIgnoreCase lower text (units "<parameter=") then
        some (skipSerializedToolCallTrailingLineBreak text)
      else skipXmlishParameters fuel text

def findXmlishToolCallEnd (text : Str) : Option Str :=
  let afterOpening := match matchXmlFunction text with
    | some (_, rest) => some rest
    | none =>
      (matchBracketed text).map fun (_, rest) =>
        skipSerializedToolCallTrailingLineBreak (skipHorizontalWhitespace rest)
  match afterOpening with
  | none => none
  | some rest =>
    let rest := skipWhitespace rest
    if !startsWithAsciiMarkerIgnoreCase lower rest (units "<parameter=") then none
    else skipXmlishParameters lower rest.length rest

end

end OpenClaw.ToolCallRepair
