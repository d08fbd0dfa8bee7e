import OpenClaw.Lib.Utf16

/-!
# Truncation of tool output

`truncateHead` keeps the beginning of an output and `truncateTail` its end, in whole lines, within
a number of lines and a number of UTF-8 bytes. A last line that is too long by itself is cut in
the middle. Strings are those of the program: UTF-16, with lone surrogates allowed.
-/

namespace OpenClaw.Harness.Truncate

open Utf16

def defaultMaxLines : Nat := 2000

def defaultMaxBytes : Nat := 50 * 1024

inductive TruncatedBy | lines | bytes
  deriving DecidableEq, Repr

structure TruncationResult where
  content : Utf16
  truncated : Bool
  truncatedBy : Option TruncatedBy
  totalLines : Nat
  totalBytes : Nat
  outputLines : Nat
  outputBytes : Nat
  lastLinePartial : Bool
  firstLineExceedsLimit : Bool
  maxLines : Nat
  maxBytes : Nat
  deriving DecidableEq, Repr

structure TruncationOptions where
  maxLines : Option Nat := none
  maxBytes : Option Nat := none

/-! ## Lines and bytes -/

/-- `"\n"` -/
def newline : UInt16 := 0x0A

def splitLinesForCounting (content : Utf16) : List Utf16 :=
  if content = [] then []
  else
    let lines := content.splitOn newline
    if content.getLast? = some newline then lines.dropLast else lines

def joinLines (lines : List Utf16) : Utf16 := [newline].intercalate lines

def findFirstNonAscii (content : Utf16) : Option Nat := content.findIdx? (0x7F < ·)

/-- The loop of `utf8ByteLength`, from the first unit that is not ASCII. -/
def countUtf8Bytes : Utf16 → Nat
  | [] => 0
  | [code] => if code ≤ 0x7F then 1 else if code ≤ 0x7FF then 2 else 3
  | code :: next :: rest =>
    if code ≤ 0x7F then 1 + countUtf8Bytes (next :: rest)
    else if code ≤ 0x7FF then 2 + countUtf8Bytes (next :: rest)
    else if isHighSurrogate code && isLowSurrogate next then 4 + countUtf8Bytes rest
    else 3 + countUtf8Bytes (next :: rest)

/-- `utf8ByteLength`, on a runtime with a `Buffer` or without one. -/
def utf8ByteLength (runtimeBuffer : Bool) (content : Utf16) : Nat :=
  if runtimeBuffer then utf8Length content
  else
    match findFirstNonAscii content with
    | none => content.length
    | some firstNonAscii => firstNonAscii + countUtf8Bytes (content.drop firstNonAscii)

def replaceUnpairedSurrogates : Utf16 → Utf16
  | [] => []
  | [code] => if isHighSurrogate code || isLowSurrogate code then [replacementUnit] else [code]
  | code :: next :: rest =>
    if isHighSurrogate code then
      if isLowSurrogate next then code :: next :: replaceUnpairedSurrogates rest
      else replacementUnit :: replaceUnpairedSurrogates (next :: rest)
    else if isLowSurrogate code then
      replacementUnit :: replaceUnpairedSurrogates (next :: rest)
    else code :: replaceUnpairedSurrogates (next :: rest)

/-! ## The end of a line -/

/-- The bytes of a unit that is no part of a pair, and whether it is a surrogate. -/
def unitBytes (code : UInt16) : Nat × Bool :=
  if isHighSurrogate code || isLowSurrogate code then (3, true)
  else (if code ≤ 0x7F then 1 else if code ≤ 0x7FF then 2 else 3, false)

/-- Where the loop of `truncateStringToBytesFromEnd` stands. -/
structure CutScan where
  outputBytes : Nat
  start : Nat
  needsReplacement : Bool

/-- The loop of `truncateStringToBytesFromEnd`: the units before the cursor, the last one first. -/
def scanFromEnd (maxBytes : Nat) : Utf16 → CutScan → CutScan
  | [], scan => scan
  | [code], scan =>
    let (characterBytes, unpairedSurrogate) := unitBytes code
    if maxBytes < scan.outputBytes + characterBytes then scan
    else
      { outputBytes := scan.outputBytes + characterBytes
        start := 0
        needsReplacement := scan.needsReplacement || unpairedSurrogate }
  | code :: previous :: before, scan =>
    if isLowSurrogate code && isHighSurrogate previous then
      if maxBytes < scan.outputBytes + 4 then scan
      else scanFromEnd maxBytes before
        { scan with outputBytes := scan.outputBytes + 4, start := before.length }
    else
      let (characterBytes, unpairedSurrogate) := unitBytes code
      if maxBytes < scan.outputBytes + characterBytes then scan
      else scanFromEnd maxBytes (previous :: before)
        { outputBytes := scan.outputBytes + characterBytes
          start := before.length + 1
          needsReplacement := scan.needsReplacement || unpairedSurrogate }

def truncateStringToBytesFromEnd (str : Utf16) (maxBytes : Nat) : Utf16 :=
  if maxBytes = 0 then []
  else
    let scan := scanFromEnd maxBytes str.reverse
      { outputBytes := 0, start := str.length, needsReplacement := false }
    let output := str.drop scan.start
    if scan.needsReplacement then replaceUnpairedSurrogates output else output

/-! ## Truncation -/

section

variable (runtimeBuffer : Bool)

structure ResolvedTruncationInput where
  lines : List Utf16
  totalLines : Nat
  totalBytes : Nat
  maxLines : Nat
  maxBytes : Nat

def resolveTruncationInput (content : Utf16) (options : TruncationOptions) :
    ResolvedTruncationInput :=
  let lines := splitLinesForCounting content
  { lines
    totalLines := lines.length
    totalBytes := utf8ByteLength runtimeBuffer content
    maxLines := options.maxLines.getD defaultMaxLines
    maxBytes := options.maxBytes.getD defaultMaxBytes }

/-- The lines kept so far. -/
structure KeptLines where
  outputLinesArr : List Utf16 := []
  outputBytesCount : Nat := 0
  truncatedBy : TruncatedBy
  lastLinePartial : Bool := false

def withinLimits (input : ResolvedTruncationInput) : Bool :=
  input.totalLines ≤ input.maxLines && input.totalBytes ≤ input.maxBytes

def initialTruncatedBy (input : ResolvedTruncationInput) : TruncatedBy :=
  if input.maxLines < input.totalLines then .lines else .bytes

/-- The limit that is reported in the end. -/
def finalTruncatedBy (input : ResolvedTruncationInput) (kept : KeptLines) : TruncatedBy :=
  if input.maxLines < input.totalLines ∧ input.maxLines ≤ kept.outputLinesArr.length ∧
      kept.outputBytesCount ≤ input.maxBytes then .lines
  else kept.truncatedBy

/-- The result where nothing is cut. -/
def unchangedResult (input : ResolvedTruncationInput) (content : Utf16) : TruncationResult :=
  { content
    truncated := false
    truncatedBy := none
    totalLines := input.totalLines
    totalBytes := input.totalBytes
    outputLines := input.totalLines
    outputBytes := input.totalBytes
    lastLinePartial := false
    firstLineExceedsLimit := false
    maxLines := input.maxLines
    maxBytes := input.maxBytes }

/-- The result that the kept lines give. -/
def keptResult (input : ResolvedTruncationInput) (kept : KeptLines) : TruncationResult :=
  let content := joinLines kept.outputLinesArr
  { content
    truncated := true
    truncatedBy := some (finalTruncatedBy input kept)
    totalLines := input.totalLines
    totalBytes := input.totalBytes
    outputLines := kept.outputLinesArr.length
    outputBytes := utf8ByteLength runtimeBuffer content
    lastLinePartial := kept.lastLinePartial
    firstLineExceedsLimit := false
    maxLines := input.maxLines
    maxBytes := input.maxBytes }

/-- The bytes of a line, with the newline that joins it to those there are. -/
def lineBytes (kept : KeptLines) (line : Utf16) : Nat :=
  utf8ByteLength runtimeBuffer line + if 0 < kept.outputLinesArr.length then 1 else 0

/-- The loop of `truncateHead`, over the lines that are left. -/
def headLoop (maxLines maxBytes : Nat) : List Utf16 → KeptLines → KeptLines
  | [], kept => kept
  | line :: rest, kept =>
    if kept.outputLinesArr.length < maxLines then
      let bytes := kept.outputBytesCount + lineBytes runtimeBuffer kept line
      if maxBytes < bytes then { kept with truncatedBy := .bytes }
      else headLoop maxLines maxBytes rest
        { kept with outputLinesArr := kept.outputLinesArr ++ [line], outputBytesCount := bytes }
    else kept

def truncateHead (content : Utf16) (options : TruncationOptions) : TruncationResult :=
  let input := resolveTruncationInput runtimeBuffer content options
  if withinLimits input then unchangedResult input content
  else if input.maxBytes < utf8ByteLength runtimeBuffer (input.lines.headD []) then
    { content := []
      truncated := true
      truncatedBy := some .bytes
      totalLines := input.totalLines
      totalBytes := input.totalBytes
      outputLines := 0
      outputBytes := 0
      lastLinePartial := false
      firstLineExceedsLimit := true
      maxLines := input.maxLines
      maxBytes := input.maxBytes }
  else keptResult runtimeBuffer input
    (headLoop runtimeBuffer input.maxLines input.maxBytes input.lines
      { truncatedBy := initialTruncatedBy input })

/-- The loop of `truncateTail`, over the lines that are left, the last one first. -/
def tailLoop (maxLines maxBytes : Nat) : List Utf16 → KeptLines → KeptLines
  | [], kept => kept
  | line :: rest, kept =>
    if kept.outputLinesArr.length < maxLines then
      let bytes := kept.outputBytesCount + lineBytes runtimeBuffer kept line
      if maxBytes < bytes then
        if kept.outputLinesArr = [] then
          -- The end of a line that is too long by itself is kept.
          let truncatedLine := truncateStringToBytesFromEnd line maxBytes
          { outputLinesArr := [truncatedLine]
            outputBytesCount := utf8ByteLength runtimeBuffer truncatedLine
            truncatedBy := .bytes
            lastLinePartial := true }
        else { kept with truncatedBy := .bytes }
      else tailLoop maxLines maxBytes rest
        { kept with outputLinesArr := line :: kept.outputLinesArr, outputBytesCount := bytes }
    else kept

def truncateTail (content : Utf16) (options : TruncationOptions) : TruncationResult :=
  let input := resolveTruncationInput runtimeBuffer content options
  if withinLimits input then unchangedResult input content
  else keptResult runtimeBuffer input
    (tailLoop runtimeBuffer input.maxLines input.maxBytes input.lines.reverse
      { truncatedBy := initialTruncatedBy input })

end

end OpenClaw.Harness.Truncate
