import OpenClaw.Normalization

/-!
# Command segments and inline commands

`infra/exec-command-analysis-types.ts`, the result types of `infra/exec-command-resolution.ts` and
`infra/command-explainer/types.ts`, and the POSIX part of `infra/exec-wrapper-tokens.ts` and
`infra/shell-inline-command.ts`.

What these functions in turn ask of the file system, of the shell grammar and of the tables of
known wrappers is a field of `Host`. Nothing is assumed of the answers.
-/

namespace OpenClaw.Exec

/-! ## Segments -/

structure ExecutableResolution where
  rawExecutable : String
  resolvedPath : Option String
  resolvedRealPath : Option String
  executableName : String
  deriving DecidableEq

structure CommandResolution where
  execution : ExecutableResolution
  policy : ExecutableResolution
  effectiveArgv : Option (List String)
  policyBlocked : Option Bool
  deriving DecidableEq

structure ExecCommandSegment where
  raw : String
  argv : List String
  sourceArgv : Option (List String)
  resolution : Option CommandResolution
  deriving DecidableEq

structure ExecCommandAnalysis where
  ok : Bool
  reason : Option String
  segments : List ExecCommandSegment
  chains : Option (List (List ExecCommandSegment))

/-- `segment.resolution?.policyBlocked === true`. -/
def ExecCommandSegment.policyBlocked (segment : ExecCommandSegment) : Bool :=
  (segment.resolution.bind (·.policyBlocked)) == some true

/-- `argv[0] ?? ""`. -/
def firstWord (argv : List String) : String := argv.head?.getD ""

/-- A string that is there and is not empty. -/
def truthy (value : Option String) : Option String := value.filter (· ≠ "")

/-! ## Explained commands -/

inductive CommandContext
  | topLevel
  | commandSubstitution
  | processSubstitution
  | functionDefinition
  | wrapperPayload
  deriving DecidableEq

inductive CommandShape
  | pipeline | and | or | sequence | «if» | «for» | «while» | case | subshell | group | background
  deriving DecidableEq

def CommandShape.name : CommandShape → String
  | .pipeline => "pipeline"
  | .and => "and"
  | .or => "or"
  | .sequence => "sequence"
  | .if => "if"
  | .for => "for"
  | .while => "while"
  | .case => "case"
  | .subshell => "subshell"
  | .group => "group"
  | .background => "background"

/-- Offsets into the source; rows and columns are for display. -/
structure SourceSpan where
  startIndex : Nat
  endIndex : Nat
  deriving DecidableEq

structure CommandStep where
  id : Option String
  parentCommandId : Option String
  context : CommandContext
  executable : String
  argv : List String
  text : String
  span : SourceSpan
  executableSpan : SourceSpan
  deriving DecidableEq

inductive CommandOperatorKind
  | and | or | sequence | newlineSequence | pipe | stderrPipe | background
  deriving DecidableEq

structure CommandOperator where
  id : String
  kind : CommandOperatorKind
  fromCommandId : String
  toCommandId : String
  parentCommandId : Option String
  deriving DecidableEq

inductive RiskKind
  | inlineEval | shellWrapper | shellWrapperThroughCarrier | commandCarrier | commandSubstitution
  | processSubstitution | dynamicExecutable | dynamicArgument | eval | source | «alias»
  | functionDefinition | lineContinuation | heredoc | hereString | redirect | syntaxError
  deriving DecidableEq

def RiskKind.name : RiskKind → String
  | .inlineEval => "inline-eval"
  | .shellWrapper => "shell-wrapper"
  | .shellWrapperThroughCarrier => "shell-wrapper-through-carrier"
  | .commandCarrier => "command-carrier"
  | .commandSubstitution => "command-substitution"
  | .processSubstitution => "process-substitution"
  | .dynamicExecutable => "dynamic-executable"
  | .dynamicArgument => "dynamic-argument"
  | .eval => "eval"
  | .source => "source"
  | .alias => "alias"
  | .functionDefinition => "function-definition"
  | .lineContinuation => "line-continuation"
  | .heredoc => "heredoc"
  | .hereString => "here-string"
  | .redirect => "redirect"
  | .syntaxError => "syntax-error"

/-- `payload` is that of a shell wrapper; the other kinds have none. -/
structure CommandRisk where
  kind : RiskKind
  payload : String
  text : String
  span : SourceSpan
  deriving DecidableEq

structure CommandExplanation where
  ok : Bool
  shapes : List CommandShape
  topLevelCommands : List CommandStep
  nestedCommands : List CommandStep
  operators : Option (List CommandOperator)
  risks : List CommandRisk

/-! ## The host -/

structure PlanningContext where
  cwd : Option String
  env : Option (List (String × String))
  platform : Option String

structure Host where
  /-- `String.prototype.toLowerCase`. -/
  toLowerCase : String → String
  /-- `process.platform`. -/
  processPlatform : String
  resolveCommandResolutionFromArgv : List String → PlanningContext → Option CommandResolution
  resolveExecutableTrustPath : ExecutableResolution → Option String
  /-- `path.resolve`, and on Windows the separators and the case normalized. -/
  resolvePath : String → String
  /-- `.error` is the message of what the function throws. -/
  explainShellCommand : String → Except String CommandExplanation
  analyzeWindowsShellCommand : String → PlanningContext → ExecCommandAnalysis
  extractBindableShellWrapperInlineCommand : List String → Option String
  isDispatchWrapperExecutable : String → Bool

variable (host : Host)

/-- `normalizeLowercaseStringOrEmpty`. -/
def Host.lower (value : Option String) : String :=
  ((normalizeOptionalString value).map host.toLowerCase).getD ""

def isWindowsPlatform (platform : Option String) : Bool :=
  JsString.startsWith (host.lower platform) "win"

/-! ## Executable tokens -/

/-- The last component of a path, the separators at its end dropped. -/
def lastComponent (isSeparator : Char → Bool) (cs : List Char) : List Char :=
  ((cs.reverse.dropWhile isSeparator).takeWhile fun c => !isSeparator c).reverse

/-- `path.posix.basename`. -/
def posixBasename (token : String) : String :=
  .ofList (lastComponent (· = '/') token.toList)

/-- `path.win32.basename`: a drive is no part of the name. -/
def win32Basename (token : String) : String :=
  match token.toList with
  | letter :: ':' :: rest =>
    if letter.isAlpha then .ofList (lastComponent (fun c => c = '/' || c = '\\') rest)
    else .ofList (lastComponent (fun c => c = '/' || c = '\\') token.toList)
  | cs => .ofList (lastComponent (fun c => c = '/' || c = '\\') cs)

def basenameLower (token : String) : String :=
  let win := win32Basename token
  let posix := posixBasename token
  host.lower (some (if JsString.length win < JsString.length posix then win else posix))

def endsWith (value suffix : String) : Bool := suffix.toList.isSuffixOf value.toList

def stripWindowsExecutableSuffix (value : String) : String :=
  if [".exe", ".cmd", ".bat", ".com"].any (endsWith value) then
    .ofList (value.toList.take (value.toList.length - 4))
  else value

def normalizeExecutableToken (token : String) : String :=
  stripWindowsExecutableSuffix (basenameLower host token)

/-! ## Inline commands -/

def posixInlineCommandFlags : List String := ["-lc", "-c", "--command"]

def posixShellOptionsWithSeparateValues : List String :=
  ["--init-file", "--rcfile", "-O", "-o", "+O", "+o"]

def countSeparateValueOptionChars (options : List Char) : Nat :=
  options.countP fun c => c = 'o' || c = 'O'

structure CombinedCommandFlag where
  attachedCommand : Option String
  separateValueCount : Nat

def parseCombinedCommandFlag (token : String) : Option CombinedCommandFlag :=
  match token.toList with
  | '-' :: optionChars =>
    if 'c' ∉ optionChars || '-' ∈ optionChars then none
    else
      let suffix := (optionChars.dropWhile (· ≠ 'c')).drop 1
      if suffix ≠ [] && !suffix.all Char.isAlpha then some ⟨some (.ofList suffix), 0⟩
      else some ⟨none, countSeparateValueOptionChars optionChars⟩
  | _ => none

def isCombinedCommandFlag (token : String) : Bool := (parseCombinedCommandFlag token).isSome

def combinedSeparateValueOptionCount (token : String) : Nat :=
  match token.toList with
  | sign :: optionChars =>
    if (sign ≠ '-' && sign ≠ '+') || '-' ∈ optionChars then 0
    else countSeparateValueOptionChars optionChars
  | [] => 0

def isPosixShortOption (token : String) (option : Char) : Bool :=
  match token.toList with
  | '-' :: options => '-' ∉ options && option ∈ options
  | _ => false

def isPosixInteractiveModeOption (token : String) : Bool :=
  token = "--interactive" || isPosixShortOption token 'i'

/-- The words that an option of a POSIX shell takes, itself included. -/
def advancePosixInlineOptionScan (token : String) : Nat :=
  if 0 < combinedSeparateValueOptionCount token then 1 + combinedSeparateValueOptionCount token
  else if token ∈ posixShellOptionsWithSeparateValues then 2
  else 1

/-- The scan that `hasPosixInteractiveStartupBeforeInlineCommand` and
`hasPosixLoginStartupBeforeInlineCommand` share, over the words after the shell: has one that is
in `startup` come when the inline command does? `skip` words are passed over. -/
def scanStartup (flags : List String) (startup : String → Bool) :
    (saw : Bool) → (skip : Nat) → List String → Bool
  | _, _, [] => false
  | saw, skip + 1, _ :: words => scanStartup flags startup saw skip words
  | saw, 0, word :: words =>
    let token := JsString.trim word
    if token = "" then scanStartup flags startup saw 0 words
    else if token = "--" then false
    else
      let saw := saw || startup token
      if token ∈ flags || isCombinedCommandFlag token then saw
      else if !JsString.startsWith token "-" && !JsString.startsWith token "+" then false
      else scanStartup flags startup saw (advancePosixInlineOptionScan token - 1) words

def hasPosixInteractiveStartupBeforeInlineCommand (argv flags : List String) : Bool :=
  scanStartup flags isPosixInteractiveModeOption false 0 (argv.drop 1)

def hasPosixLoginStartupBeforeInlineCommand (argv flags : List String) : Bool :=
  scanStartup flags (fun token => token = "--login" || isPosixShortOption token 'l') false 0
    (argv.drop 1)

structure InlineCommandMatch where
  command : Option String
  valueTokenIndex : Option Nat

/-- The word at an index, trimmed; `null` when it is not there or is blank. -/
def commandAt (argv : List String) (index : Nat) : Option String :=
  normalizeOptionalString argv[index]?

/-- `resolveInlineCommandMatch` with `allowCombinedC`, over the words after the shell. `index` is
that of the first of `words` in `argv`. -/
def scanInlineCommand (argv flags : List String) : (index skip : Nat) → List String →
    InlineCommandMatch
  | _, _, [] => ⟨none, none⟩
  | index, skip + 1, _ :: words => scanInlineCommand argv flags (index + 1) skip words
  | index, 0, word :: words =>
    let token := JsString.trim word
    if token = "" then scanInlineCommand argv flags (index + 1) 0 words
    else if token = "--" then ⟨none, none⟩
    else if token ∈ flags then
      ⟨commandAt argv (index + 1), if index + 1 < argv.length then some (index + 1) else none⟩
    else
      match parseCombinedCommandFlag token with
      | some ⟨some attached, _⟩ => ⟨normalizeOptionalString (some attached), some index⟩
      | some ⟨none, count⟩ => ⟨commandAt argv (index + 1 + count), some (index + 1 + count)⟩
      | none =>
        if !JsString.startsWith token "-" && !JsString.startsWith token "+" then ⟨none, none⟩
        else scanInlineCommand argv flags (index + 1) (advancePosixInlineOptionScan token - 1) words

/-- `resolveInlineCommandMatch(argv, flags, { allowCombinedC: true })`. -/
def resolveInlineCommandMatch (argv flags : List String) : InlineCommandMatch :=
  scanInlineCommand argv flags 1 0 (argv.drop 1)

/-! ## Positional carriers -/

/-- A white space of the pattern, which no line break is. -/
def isShellWhitespace (c : Char) : Bool :=
  JsString.isWhitespace c && c ≠ '\r' && c ≠ '\n'

/-- The parameter a word expands to: `$x`, `${x}` or either in double quotes. -/
def expandedParameter : List Char → Option Char
  | ['$', c] => some c
  | ['$', '\x7b', c, '\x7d'] => some c
  | ['"', '$', c, '"'] => some c
  | ['"', '$', '\x7b', c, '\x7d', '"'] => some c
  | _ => none

def isPositionalZero (word : List Char) : Bool := expandedParameter word = some '0'

def isPositionalArg (word : List Char) : Bool :=
  match expandedParameter word with
  | some c => c ∈ ['@', '*'] || (c.isDigit && c ≠ '0')
  | none => false

/-- The words that white space separates. -/
def shellWords (cs : List Char) : List (List Char) :=
  (cs.splitOnP isShellWhitespace).filter (· ≠ [])

/-- `isDirectShellPositionalCarrierCommand`: the zeroth parameter with further ones after it,
perhaps after `exec` or `exec --`. -/
def isDirectShellPositionalCarrierCommand (command : String) : Bool :=
  let carried : List (List Char) → Bool
    | zero :: args => isPositionalZero zero && args.all isPositionalArg
    | [] => false
  match shellWords (JsString.trim command).toList with
  | ['e', 'x', 'e', 'c'] :: ['-', '-'] :: words => carried words
  | ['e', 'x', 'e', 'c'] :: words => carried words
  | words => carried words

end OpenClaw.Exec
