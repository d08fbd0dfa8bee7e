import OpenClaw.Exec.CommandCarriers

/-!
# `infra/dispatch-wrapper-resolution.ts`: the wrappers

Each wrapper has its own grammar of options over one scanner. An index into `argv` is the list of
words from there, so the scanner gives the words from the command on.

**Main result (`unwrapKnownDispatchWrapperInvocation_spec`).** A wrapper that is transparent for an
invocation unwraps it to some of its last words.
-/

namespace OpenClaw.Exec

/-! ## The scanner -/

inductive WrapperScanDirective
  | «continue» | consumeNext | stop | invalid
  deriving DecidableEq

variable (host : Host)

section Scan

variable {σ : Type} (separators : List String)
  (onToken : σ → String → String → WrapperScanDirective × σ)

/-- The loop, over the words after the wrapper. `state` is what `onToken` closes over. -/
def scanWrapperWords (state : σ) : (expectsOptionValue : Bool) → List String →
    Option (List String)
  | expectsOptionValue, [] => if expectsOptionValue then none else some []
  | expectsOptionValue, word :: words =>
    let token := JsString.trim word
    if token = "" then scanWrapperWords state expectsOptionValue words
    else if expectsOptionValue then scanWrapperWords state false words
    else if token ∈ separators then some words
    else
      match onToken state token (host.lower (some token)) with
      | (.stop, _) => some (word :: words)
      | (.invalid, _) => none
      | (.consumeNext, state) => scanWrapperWords state true words
      | (.continue, state) => scanWrapperWords state false words

def scanWrapperInvocation (state : σ) (adjustCommand : List String → Option (List String))
    (argv : List String) : Option (List String) :=
  ((scanWrapperWords host separators onToken state false argv.tail).bind adjustCommand).filter
    (· ≠ [])

end Scan

/-- `!token.startsWith("-") || token === "-"`. -/
def isOperand (token : String) : Bool := !JsString.startsWith token "-" || token = "-"

/-- `onToken` of `unwrapDashOptionInvocation`. -/
def dashOption (onFlag : String → String → WrapperScanDirective) (state : Unit)
    (token lower : String) : WrapperScanDirective × Unit :=
  if isOperand token then (.stop, state)
  else (onFlag (parseInlineOptionToken lower).name lower, state)

def unwrapDashOptionInvocation (onFlag : String → String → WrapperScanDirective)
    (adjustCommand : List String → Option (List String)) : List String → Option (List String) :=
  scanWrapperInvocation host ["--"] (dashOption onFlag) () adjustCommand

def hasEquals (token : String) : Bool := '=' ∈ token.toList

/-! ## The grammars -/

def niceOptionsWithValue : List String := ["-n", "--adjustment", "--priority"]

/-- `/^-\d+$/`. -/
def isDashNumber (token : String) : Bool :=
  match token.toList with
  | '-' :: c :: digits => (c :: digits).all Char.isDigit
  | _ => false

def unwrapNiceInvocation : List String → Option (List String) :=
  unwrapDashOptionInvocation host (fun flag lower =>
    if isDashNumber lower then .continue
    else if flag ∈ niceOptionsWithValue then
      if hasEquals lower || lower ≠ flag then .continue else .consumeNext
    else if JsString.startsWith lower "-n" && 2 < JsString.length lower then .continue
    else .invalid) some

def caffeinateOptionsWithValue : List String := ["-t", "-w"]

def unwrapCaffeinateInvocation : List String → Option (List String) :=
  unwrapDashOptionInvocation host (fun flag lower =>
    if flag ∈ ["-d", "-i", "-m", "-s", "-u"] then .continue
    else if flag ∈ caffeinateOptionsWithValue then
      if lower ≠ flag || hasEquals lower then .continue else .consumeNext
    else .invalid) some

def unwrapNohupInvocation : List String → Option (List String) :=
  scanWrapperInvocation host ["--"] (fun state token lower =>
    if isOperand token then (.stop, state)
    else if lower = "--help" || lower = "--version" then (.continue, state)
    else (.invalid, state)) () some

def sandboxExecOptionsWithValue : List String := ["-f", "-p", "-d"]

def unwrapSandboxExecInvocation : List String → Option (List String) :=
  unwrapDashOptionInvocation host (fun flag lower =>
    if flag ∈ sandboxExecOptionsWithValue then
      if lower ≠ flag || hasEquals lower then .continue else .consumeNext
    else .invalid) some

def stdbufOptionsWithValue : List String := ["-i", "--input", "-o", "--output", "-e", "--error"]

def unwrapStdbufInvocation : List String → Option (List String) :=
  unwrapDashOptionInvocation host (fun flag lower =>
    if flag ∉ stdbufOptionsWithValue then .invalid
    else if hasEquals lower then .continue else .consumeNext) some

def timeFlagOptions : List String :=
  ["-a", "--append", "-h", "--help", "-l", "-p", "-q", "--quiet", "-v", "--verbose", "-V",
    "--version"]

def timeOptionsWithValue : List String := ["-f", "--format", "-o", "--output"]

def tabledFlag (flagOptions optionsWithValue : List String) (flag lower : String) :
    WrapperScanDirective :=
  if flag ∈ flagOptions then .continue
  else if flag ∈ optionsWithValue then if hasEquals lower then .continue else .consumeNext
  else .invalid

def unwrapTimeInvocation : List String → Option (List String) :=
  unwrapDashOptionInvocation host (tabledFlag timeFlagOptions timeOptionsWithValue) some

/-- `timeInvocationWritesOutputFile`, over the words after `time`. -/
def timeWritesOutputFile : (expectsOptionValue : Bool) → List String → Bool
  | _, [] => false
  | expectsOptionValue, word :: words =>
    let token := JsString.trim word
    if token = "" then timeWritesOutputFile expectsOptionValue words
    else if expectsOptionValue then timeWritesOutputFile false words
    else if token = "--" || isOperand token then false
    else
      let lower := host.lower (some token)
      let flag := (parseInlineOptionToken lower).name
      if flag = "-o" || flag = "--output" then true
      else timeWritesOutputFile (flag ∈ timeOptionsWithValue && !hasEquals lower) words

def timeInvocationWritesOutputFile (argv : List String) : Bool :=
  timeWritesOutputFile host false argv.tail

def flockShortFlagOptions : List String := ["-e", "-F", "-n", "-o", "-s", "-x"]

def flockLongFlagOptions : List String :=
  ["--close", "--exclusive", "--nb", "--no-fork", "--nonblock", "--shared", "--verbose"]

def flockShortOptionsWithValue : List String := ["-E", "-w"]

def flockLongOptionsWithValue : List String := ["--conflict-exit-code", "--timeout", "--wait"]

/-- `/^-[eFnsxo]+$/`. -/
def isFlockShortFlagCluster (token : String) : Bool :=
  match token.toList with
  | '-' :: c :: flags => (c :: flags).all (· ∈ "eFnsxo".toList)
  | _ => false

/-- The first operand is the lock; the command is the word behind it. -/
def flockCommand (words : List String) : Option (List String) :=
  let wrappedCommand := JsString.trim (firstWord words.tail)
  if wrappedCommand ≠ "" && isOperand wrappedCommand then some words.tail else none

def unwrapFlockInvocation : List String → Option (List String) :=
  scanWrapperInvocation host ["--"] (fun state token lower =>
    let parsed := parseInlineOptionToken token
    let lowerFlag := (parseInlineOptionToken lower).name
    if isOperand token then (.stop, state)
    else if lowerFlag ∈ flockLongFlagOptions then (.continue, state)
    else if lowerFlag ∈ flockLongOptionsWithValue then
      (if parsed.inlineValue.isSome then .continue else .consumeNext, state)
    else if isFlockShortFlagCluster token then (.continue, state)
    else if parsed.name ∈ flockShortFlagOptions then (.continue, state)
    else if parsed.name ∈ flockShortOptionsWithValue then
      (if parsed.inlineValue.isSome || token ≠ parsed.name then .continue else .consumeNext, state)
    else (.invalid, state)) () flockCommand

def bsdScriptFlagOptions : List String := ["-a", "-d", "-k", "-p", "-q", "-r"]

def bsdScriptOptionsWithValue : List String := ["-F", "-t"]

def supportsScriptPositionalCommand (platform : String) : Bool :=
  platform = "darwin" || platform = "freebsd"

/-- The second word that is not blank: the first is the transcript. -/
def scriptCommand (words : List String) : Option (List String) :=
  let isBlank word := JsString.trim word = ""
  let command := ((words.dropWhile isBlank).tail).dropWhile isBlank
  if command = [] then none else some command

def unwrapScriptInvocation (argv : List String) (platform : String) : Option (List String) :=
  if !supportsScriptPositionalCommand platform then none
  else
    scanWrapperInvocation host ["--"] (fun state token lower =>
      let flag := (parseInlineOptionToken token).name
      if isOperand lower then (.stop, state)
      else if flag ∈ bsdScriptOptionsWithValue then
        (if hasEquals token then .continue else .consumeNext, state)
      else if flag ∈ bsdScriptFlagOptions then (.continue, state)
      else (.invalid, state)) () scriptCommand argv

def timeoutFlagOptions : List String := ["--foreground", "--preserve-status", "-v", "--verbose"]

def timeoutOptionsWithValue : List String := ["-k", "--kill-after", "-s", "--signal"]

/-- The command is the word behind the duration. -/
def timeoutCommand (words : List String) : Option (List String) :=
  if words.tail = [] then none else some words.tail

def unwrapTimeoutInvocation : List String → Option (List String) :=
  unwrapDashOptionInvocation host (tabledFlag timeoutFlagOptions timeoutOptionsWithValue)
    timeoutCommand

def knownArchSelectors : List String := ["-arm64", "-arm64e", "-i386", "-x86_64", "-x86_64h"]

def isKnownArchSelectorToken (token : String) : Bool := token ∈ knownArchSelectors

def isKnownArchNameToken (token : String) : Bool := isKnownArchSelectorToken ("-" ++ token)

/-- `/^-[A-Za-z0-9_]+$/`. -/
def isArchSelectorToken (token : String) : Bool :=
  match token.toList with
  | '-' :: c :: name => (c :: name).all fun c => isAsciiAlphanum c || c = '_'
  | _ => false

/-- Options of `arch` that change the environment of what it starts. -/
def archMutatingOptions : List String := ["-c", "-d", "-e", "-h"]

/-- `onToken` of `arch`; the state is `expectsArchName`. -/
def archToken (expectsArchName : Bool) (token lower : String) : WrapperScanDirective × Bool :=
  if expectsArchName then (if isKnownArchNameToken lower then .continue else .invalid, false)
  else if isOperand token then (.stop, expectsArchName)
  else if lower = "-32" || lower = "-64" then (.continue, expectsArchName)
  else if lower = "-arch" then (.continue, true)
  else if lower ∈ archMutatingOptions then (.invalid, expectsArchName)
  else if isArchSelectorToken token && isKnownArchSelectorToken lower then
    (.continue, expectsArchName)
  else (.invalid, expectsArchName)

def unwrapArchInvocation : List String → Option (List String) :=
  scanWrapperInvocation host [] archToken false some

def supportsArchDispatchWrapper (platform : String) : Bool := platform = "darwin"

def supportsXcrunDispatchWrapper (platform : String) : Bool := platform = "darwin"

def xcrunFlagOptions : List String :=
  ["-k", "--kill-cache", "-l", "--log", "-n", "--no-cache", "-r", "--run", "-v", "--verbose"]

def unwrapXcrunInvocation : List String → Option (List String) :=
  scanWrapperInvocation host [] (fun state token lower =>
    if isOperand token then (.stop, state)
    else if lower ∈ xcrunFlagOptions then (.continue, state)
    else (.invalid, state)) () some

/-! ## The table -/

/-- A wrapper without `unwrap` is never unwrapped. -/
structure DispatchWrapperSpec where
  name : String
  unwrap : Option (List String → String → Option (List String))
  transparentUsage : List String → String → Bool

def opaqueWrapper (name : String) : DispatchWrapperSpec := ⟨name, none, fun _ _ => false⟩

def transparentWrapper (name : String) (unwrap : List String → Option (List String)) :
    DispatchWrapperSpec := ⟨name, some fun argv _ => unwrap argv, fun _ _ => true⟩

def dispatchWrapperSpecs : List DispatchWrapperSpec := [
  { name := "arch"
    unwrap := some fun argv platform =>
      if supportsArchDispatchWrapper platform then unwrapArchInvocation host argv else none
    transparentUsage := fun _ platform => supportsArchDispatchWrapper platform },
  transparentWrapper "caffeinate" (unwrapCaffeinateInvocation host),
  opaqueWrapper "chrt",
  opaqueWrapper "doas",
  { name := "env"
    unwrap := some fun argv _ => unwrapEnvInvocation host argv
    transparentUsage := fun argv _ => !envInvocationUsesModifiers host argv },
  transparentWrapper "flock" (unwrapFlockInvocation host),
  opaqueWrapper "ionice",
  transparentWrapper "nice" (unwrapNiceInvocation host),
  transparentWrapper "nohup" (unwrapNohupInvocation host),
  transparentWrapper "sandbox-exec" (unwrapSandboxExecInvocation host),
  { name := "script"
    unwrap := some (unwrapScriptInvocation host)
    transparentUsage := fun _ _ => false },
  opaqueWrapper "setsid",
  transparentWrapper "stdbuf" (unwrapStdbufInvocation host),
  opaqueWrapper "sudo",
  opaqueWrapper "taskset",
  { name := "time"
    unwrap := some fun argv _ => unwrapTimeInvocation host argv
    transparentUsage := fun argv _ => !timeInvocationWritesOutputFile host argv },
  transparentWrapper "timeout" (unwrapTimeoutInvocation host),
  { name := "xcrun"
    unwrap := some fun argv platform =>
      if supportsXcrunDispatchWrapper platform then unwrapXcrunInvocation host argv else none
    transparentUsage := fun _ platform => supportsXcrunDispatchWrapper platform }]

def dispatchWrapperSpec (name : String) : Option DispatchWrapperSpec :=
  (dispatchWrapperSpecs host).find? (·.name = name)

inductive DispatchWrapperUnwrapResult
  | notWrapper
  | blocked (wrapper : String)
  | unwrapped (wrapper : String) (argv : List String)
  deriving DecidableEq

def unwrapDispatchWrapper (wrapper : String) (unwrapped : Option (List String)) :
    DispatchWrapperUnwrapResult :=
  match unwrapped with
  | some argv => .unwrapped wrapper argv
  | none => .blocked wrapper

def unwrapKnownDispatchWrapperInvocation (argv : List String) (platform : String) :
    DispatchWrapperUnwrapResult :=
  let token0 := JsString.trim (firstWord argv)
  if token0 = "" then .notWrapper
  else
    let wrapper := normalizeExecutableToken host token0
    match dispatchWrapperSpec host wrapper with
    | none => .notWrapper
    | some spec =>
      match spec.unwrap with
      | some unwrap => unwrapDispatchWrapper wrapper (unwrap argv platform)
      | none => .blocked wrapper

def isSemanticDispatchWrapperUsage (wrapper : String) (argv : List String) (platform : String) :
    Bool :=
  match dispatchWrapperSpec host wrapper with
  | none => true
  | some spec => spec.unwrap.isNone || !spec.transparentUsage argv platform

/-! ## What is unwrapped -/

section Scan

variable {host : Host} {σ : Type} {separators : List String}
  {onToken : σ → String → String → WrapperScanDirective × σ}

variable {state : σ}

theorem scanWrapperWords_suffix {expectsOptionValue : Bool} {words rest : List String}
    (h : scanWrapperWords host separators onToken state expectsOptionValue words = some rest) :
    rest <:+ words := by
  induction words generalizing state expectsOptionValue with
  | nil =>
    rw [scanWrapperWords] at h
    split at h
    · cases h
    · cases h
      exact List.suffix_refl []
  | cons word words ih =>
    rw [scanWrapperWords] at h
    have hcons : words <:+ word :: words := List.suffix_cons word words
    split at h
    · exact (ih h).trans hcons
    · split at h
      · exact (ih h).trans hcons
      · split at h
        · cases h
          exact hcons
        · split at h
          · cases h
            exact List.suffix_refl _
          · cases h
          · exact (ih h).trans hcons
          · exact (ih h).trans hcons

/-- The command is some of the last words of the invocation. -/
def RunsLastWords (argv command : List String) : Prop := command ≠ [] ∧ command <:+ argv.tail

theorem scanWrapperInvocation_runsLastWords {adjustCommand : List String → Option (List String)}
    (hadjust : ∀ words rest, adjustCommand words = some rest → rest <:+ words)
    {argv command : List String}
    (h : scanWrapperInvocation host separators onToken state adjustCommand argv = some command) :
    RunsLastWords argv command := by
  rw [scanWrapperInvocation, Option.filter_eq_some_iff] at h
  obtain ⟨hcommand, hne⟩ := h
  obtain ⟨words, hwords, hcommand⟩ := Option.bind_eq_some_iff.1 hcommand
  refine ⟨by simpa using hne, ?_⟩
  exact (hadjust words command hcommand).trans (scanWrapperWords_suffix hwords)

end Scan

section

variable (words rest : List String)

theorem some_suffix (h : some words = some rest) : rest <:+ words := by
  cases h
  exact List.suffix_refl words

theorem flockCommand_suffix (h : flockCommand words = some rest) : rest <:+ words := by
  unfold flockCommand at h
  dsimp only at h
  split at h
  · cases h
    exact List.tail_suffix words
  · cases h

theorem timeoutCommand_suffix (h : timeoutCommand words = some rest) : rest <:+ words := by
  unfold timeoutCommand at h
  split at h
  · cases h
  · cases h
    exact List.tail_suffix words

end

variable {host : Host} {platform : String}

/-- What a wrapper of the table unwraps, where its use is transparent. -/
def DispatchWrapperSpec.Unwraps (spec : DispatchWrapperSpec) (platform : String) : Prop :=
  ∀ unwrap argv command, spec.unwrap = some unwrap → spec.transparentUsage argv platform = true →
    unwrap argv platform = some command → RunsLastWords argv command

theorem opaqueWrapper_unwraps (name : String) : (opaqueWrapper name).Unwraps platform := by
  intro unwrap argv command hunwrap
  cases hunwrap

theorem transparentWrapper_unwraps {name : String} {unwrap : List String → Option (List String)}
    (h : ∀ argv command, unwrap argv = some command → RunsLastWords argv command) :
    (transparentWrapper name unwrap).Unwraps platform := by
  intro unwrap' argv command hunwrap htransparent hcommand
  cases hunwrap
  exact h argv command hcommand

theorem dispatchWrapperSpecs_unwraps :
    ∀ spec ∈ dispatchWrapperSpecs host, spec.Unwraps platform := by
  have hscan {σ : Type} {separators : List String}
      {onToken : σ → String → String → WrapperScanDirective × σ} {state : σ} (argv command)
      (h : scanWrapperInvocation host separators onToken state some argv = some command) :
      RunsLastWords argv command := scanWrapperInvocation_runsLastWords some_suffix h
  simp only [dispatchWrapperSpecs, List.forall_mem_cons]
  refine ⟨?arch, ?caffeinate, ?chrt, ?doas, ?env, ?flock, ?ionice, ?nice, ?nohup, ?sandboxExec,
    ?script, ?setsid, ?stdbuf, ?superuser, ?taskset, ?time, ?timeout, ?xcrun, by simp⟩
  case arch =>
    intro unwrap argv command hunwrap htransparent hcommand
    cases hunwrap
    dsimp only at htransparent hcommand
    rw [if_pos htransparent] at hcommand
    exact hscan _ _ hcommand
  case env =>
    intro unwrap argv command hunwrap htransparent hcommand
    cases hunwrap
    rw [Bool.not_eq_true'] at htransparent
    obtain ⟨hne, hwords⟩ := parseEnvInvocationPrelude_plain host hcommand htransparent
    refine ⟨hne, ?_⟩
    rcases hwords with h | h | ⟨h, -⟩
    · rw [h]
      exact List.suffix_cons _ _
    · rw [h]
      exact List.suffix_cons _ _
    · exact h ▸ List.suffix_refl _
  case script =>
    intro unwrap argv command hunwrap htransparent hcommand
    cases htransparent
  case time =>
    intro unwrap argv command hunwrap htransparent hcommand
    cases hunwrap
    exact hscan _ _ hcommand
  case xcrun =>
    intro unwrap argv command hunwrap htransparent hcommand
    cases hunwrap
    dsimp only at htransparent hcommand
    rw [if_pos htransparent] at hcommand
    exact hscan _ _ hcommand
  case flock =>
    exact transparentWrapper_unwraps fun _ _ =>
      scanWrapperInvocation_runsLastWords flockCommand_suffix
  case timeout =>
    exact transparentWrapper_unwraps fun _ _ =>
      scanWrapperInvocation_runsLastWords timeoutCommand_suffix
  case caffeinate | nice | nohup | sandboxExec | stdbuf =>
    exact transparentWrapper_unwraps hscan
  case chrt | doas | ionice | setsid | superuser | taskset => exact opaqueWrapper_unwraps _

theorem dispatchWrapperSpecs_ne_nil :
    ∀ spec ∈ dispatchWrapperSpecs host, ∀ unwrap argv command, spec.unwrap = some unwrap →
      unwrap argv platform = some command → command ≠ [] := by
  have hscan {σ : Type} {separators : List String}
      {onToken : σ → String → String → WrapperScanDirective × σ} {state : σ}
      {adjustCommand : List String → Option (List String)} {argv command : List String}
      (h : scanWrapperInvocation host separators onToken state adjustCommand argv =
        some command) : command ≠ [] := by
    rw [scanWrapperInvocation, Option.filter_eq_some_iff] at h
    simpa using h.2
  simp only [dispatchWrapperSpecs, List.forall_mem_cons]
  refine ⟨?arch, ?caffeinate, ?chrt, ?doas, ?env, ?flock, ?ionice, ?nice, ?nohup, ?sandboxExec,
    ?script, ?setsid, ?stdbuf, ?superuser, ?taskset, ?time, ?timeout, ?xcrun, by simp⟩
  case arch | xcrun =>
    intro unwrap argv command hunwrap hcommand
    cases hunwrap
    dsimp only at hcommand
    split at hcommand
    · exact hscan hcommand
    · cases hcommand
  case env =>
    intro unwrap argv command hunwrap hcommand
    cases hunwrap
    exact unwrapEnvInvocation_ne_nil host hcommand
  case script =>
    intro unwrap argv command hunwrap hcommand
    cases hunwrap
    unfold unwrapScriptInvocation at hcommand
    split at hcommand
    · cases hcommand
    · exact hscan hcommand
  case caffeinate | flock | nice | nohup | sandboxExec | stdbuf | time | timeout =>
    intro unwrap argv command hunwrap hcommand
    cases hunwrap
    exact hscan hcommand
  case chrt | doas | ionice | setsid | superuser | taskset =>
    intro unwrap argv command hunwrap
    cases hunwrap

variable {argv command : List String} {wrapper : String}

section

variable (h : unwrapKnownDispatchWrapperInvocation host argv platform = .unwrapped wrapper command)
include h

theorem unwrapKnown_eq_unwrapped :
    ∃ spec unwrap, dispatchWrapperSpec host wrapper = some spec ∧ spec.unwrap = some unwrap ∧
      unwrap argv platform = some command := by
  unfold unwrapKnownDispatchWrapperInvocation at h
  dsimp only at h
  by_cases hblank : JsString.trim (firstWord argv) = ""
  · rw [if_pos hblank] at h
    cases h
  · rw [if_neg hblank] at h
    generalize normalizeExecutableToken host (JsString.trim (firstWord argv)) = name at h
    cases hspec : dispatchWrapperSpec host name with
    | none =>
      rw [hspec] at h
      cases h
    | some spec =>
      rw [hspec] at h
      dsimp only at h
      cases hunwrap : spec.unwrap with
      | none =>
        rw [hunwrap] at h
        cases h
      | some unwrap =>
        rw [hunwrap] at h
        dsimp only at h
        cases hargv : unwrap argv platform with
        | none =>
          rw [hargv] at h
          cases h
        | some argv' =>
          rw [hargv] at h
          cases h
          exact ⟨spec, unwrap, hspec, hunwrap, hargv⟩

theorem unwrapKnown_ne_nil : command ≠ [] := by
  obtain ⟨spec, unwrap, hspec, hunwrap, hcommand⟩ := unwrapKnown_eq_unwrapped h
  exact dispatchWrapperSpecs_ne_nil spec (List.mem_of_find?_eq_some hspec) unwrap argv command
    hunwrap hcommand

theorem unwrapKnownDispatchWrapperInvocation_spec
    (htransparent : isSemanticDispatchWrapperUsage host wrapper argv platform = false) :
    RunsLastWords argv command := by
  obtain ⟨spec, unwrap, hspec, hunwrap, hcommand⟩ := unwrapKnown_eq_unwrapped h
  rw [isSemanticDispatchWrapperUsage, hspec] at htransparent
  dsimp only at htransparent
  rw [hunwrap, Option.isNone_some, Bool.false_or, Bool.not_eq_false'] at htransparent
  exact dispatchWrapperSpecs_unwraps spec (List.mem_of_find?_eq_some hspec) unwrap argv command
    hunwrap htransparent hcommand

end

/-! ## What a wrapper gives the command -/

/-- The words after `env` give the command another environment or directory: an option, a lone `-`
or an assignment. Behind `--` there are operands only. -/
def envChangesChild : List String → Bool
  | [] => false
  | word :: words =>
    if word = "--" then words.head?.any fun operand => operand = "-" || hasEquals operand
    else JsString.startsWith word "-" || hasEquals word

variable (host) in
/-- The invocation gives the command another environment, directory or identity. -/
def ChangesChild (wrapper : String) (argv command : List String) : Prop :=
  wrapper = "sudo" ∨ wrapper = "doas" ∨ (wrapper = "env" ∧ envChangesChild argv.tail = true) ∨
    (wrapper = "arch" ∧ ∃ words, argv.tail = words ++ command ∧
      ∃ word ∈ words, host.lower (some (JsString.trim word)) ∈ archMutatingOptions)

/-- What `env` accepts as an empty prelude, and yet it changes the environment. -/
def hiddenEnvChange : List String → Bool
  | [] => false
  | word :: words =>
    if word = "--" then words.head?.any fun operand => operand = "-" || hasEquals operand
    else word = "-" || hasEquals word

theorem envChangesChild_eq_hidden (hcommand : unwrapEnvInvocation host argv = some command)
    (hplain : envInvocationUsesModifiers host argv = false) :
    envChangesChild argv.tail = hiddenEnvChange argv.tail := by
  obtain ⟨-, h | h | ⟨-, h⟩⟩ := parseEnvInvocationPrelude_plain host hcommand hplain
  · rw [h]
    rfl
  · rw [h]
    rfl
  · cases hwords : argv.tail with
    | nil => rfl
    | cons word words =>
      have hdash : JsString.startsWith word "-" = false := h word (by rw [hwords]; rfl)
      have hne : word ≠ "-" := by
        intro heq
        rw [heq] at hdash
        cases hdash
      rw [envChangesChild, hiddenEnvChange, hdash, decide_eq_false hne]

theorem lower_blank : host.lower (some "") = "" := rfl

theorem archToken_mutating (state : Bool) (token lower : String)
    (h : lower ∈ archMutatingOptions) :
    (archToken state token lower).1 = .stop ∨ (archToken state token lower).1 = .invalid := by
  unfold archToken
  by_cases hstate : state = true
  · have hname : isKnownArchNameToken lower = false := by
      revert lower
      decide
    rw [if_pos hstate, hname]
    exact .inr rfl
  · rw [if_neg hstate]
    by_cases hoperand : isOperand token = true
    · rw [if_pos hoperand]
      exact .inl rfl
    · have hwidth : ¬(decide (lower = "-32") || decide (lower = "-64")) = true := by
        revert lower
        decide
      have harch : lower ≠ "-arch" := by
        revert lower
        decide
      rw [if_neg hoperand, if_neg hwidth, if_neg harch, if_pos h]
      exact .inr rfl

theorem archToken_ne_consumeNext (state : Bool) (token lower : String) :
    (archToken state token lower).1 ≠ .consumeNext := by
  unfold archToken
  split
  · split <;> exact WrapperScanDirective.noConfusion
  · split
    · exact WrapperScanDirective.noConfusion
    · split
      · exact WrapperScanDirective.noConfusion
      · split
        · exact WrapperScanDirective.noConfusion
        · split
          · exact WrapperScanDirective.noConfusion
          · split <;> exact WrapperScanDirective.noConfusion

theorem scanArchWords {state : Bool} {words rest : List String}
    (h : scanWrapperWords host [] archToken state false words = some rest) :
    ∃ passed, words = passed ++ rest ∧
      ∀ word ∈ passed, host.lower (some (JsString.trim word)) ∉ archMutatingOptions := by
  induction words generalizing state with
  | nil =>
    cases h
    exact ⟨[], rfl, by simp⟩
  | cons word words ih =>
    have hpass {state : Bool} (hword : host.lower (some (JsString.trim word)) ∉ archMutatingOptions)
        (h : scanWrapperWords host [] archToken state false words = some rest) :
        ∃ passed, word :: words = passed ++ rest ∧
          ∀ word ∈ passed, host.lower (some (JsString.trim word)) ∉ archMutatingOptions := by
      obtain ⟨passed, hwords, hpassed⟩ := ih h
      refine ⟨word :: passed, by rw [hwords, List.cons_append], ?_⟩
      exact List.forall_mem_cons.2 ⟨hword, hpassed⟩
    rw [scanWrapperWords] at h
    by_cases hblank : JsString.trim word = ""
    · rw [if_pos hblank] at h
      refine hpass ?_ h
      rw [hblank, lower_blank]
      decide
    · rw [if_neg hblank, if_neg Bool.false_ne_true, if_neg List.not_mem_nil] at h
      have hmutating := archToken_mutating state (JsString.trim word)
        (host.lower (some (JsString.trim word)))
      have hconsume := archToken_ne_consumeNext state (JsString.trim word)
        (host.lower (some (JsString.trim word)))
      cases hdirective : archToken state (JsString.trim word)
          (host.lower (some (JsString.trim word))) with
      | mk directive next =>
        rw [hdirective] at h hmutating hconsume
        cases directive with
        | stop =>
          cases h
          exact ⟨[], rfl, by simp⟩
        | invalid => cases h
        | consumeNext => exact absurd rfl hconsume
        | «continue» =>
          refine hpass ?_ h
          intro hword
          rcases hmutating hword with hstop | hinvalid
          · cases hstop
          · cases hinvalid

theorem unwrapArchInvocation_passed (h : unwrapArchInvocation host argv = some command) :
    ∃ passed, argv.tail = passed ++ command ∧
      ∀ word ∈ passed, host.lower (some (JsString.trim word)) ∉ archMutatingOptions := by
  rw [unwrapArchInvocation, scanWrapperInvocation, Option.filter_eq_some_iff] at h
  obtain ⟨words, hwords, hcommand⟩ := Option.bind_eq_some_iff.1 h.1
  cases hcommand
  exact scanArchWords hwords

theorem changesChild_iff
    (h : unwrapKnownDispatchWrapperInvocation host argv platform = .unwrapped wrapper command)
    (htransparent : isSemanticDispatchWrapperUsage host wrapper argv platform = false) :
    ChangesChild host wrapper argv command ↔
      wrapper = "env" ∧ hiddenEnvChange argv.tail = true := by
  obtain ⟨spec, unwrap, hspec, hunwrap, hcommand⟩ := unwrapKnown_eq_unwrapped h
  rw [isSemanticDispatchWrapperUsage, hspec] at htransparent
  dsimp only at htransparent
  rw [hunwrap, Option.isNone_some, Bool.false_or, Bool.not_eq_false'] at htransparent
  have henv : wrapper = "env" → envChangesChild argv.tail = hiddenEnvChange argv.tail := by
    intro hwrapper
    subst hwrapper
    have hentry : dispatchWrapperSpec host "env" = some ⟨"env",
      some fun argv _ => unwrapEnvInvocation host argv,
      fun argv _ => !envInvocationUsesModifiers host argv⟩ := rfl
    cases hspec
    cases hunwrap
    rw [Bool.not_eq_true'] at htransparent
    exact envChangesChild_eq_hidden hcommand htransparent
  constructor
  · intro hchanges
    rcases hchanges with rfl | rfl | ⟨hwrapper, hwords⟩ | ⟨rfl, passed, hpassed, word, hword, hopt⟩
    · have hentry : dispatchWrapperSpec host "sudo" = some (opaqueWrapper "sudo") := rfl
      cases hspec
      cases hunwrap
    · have hentry : dispatchWrapperSpec host "doas" = some (opaqueWrapper "doas") := rfl
      cases hspec
      cases hunwrap
    · rw [henv hwrapper] at hwords
      exact ⟨hwrapper, hwords⟩
    · have hentry : dispatchWrapperSpec host "arch" = some ⟨"arch",
        some fun argv platform =>
          if supportsArchDispatchWrapper platform then unwrapArchInvocation host argv else none,
        fun _ platform => supportsArchDispatchWrapper platform⟩ := rfl
      cases hspec
      cases hunwrap
      dsimp only at htransparent hcommand
      rw [if_pos htransparent] at hcommand
      obtain ⟨passed', hpassed', hkeeps⟩ := unwrapArchInvocation_passed hcommand
      rw [hpassed] at hpassed'
      rw [List.append_cancel_right hpassed'] at hword
      exact absurd hopt (hkeeps word hword)
  · intro hchanges
    refine .inr (.inr (.inl ⟨hchanges.1, ?_⟩))
    rw [henv hchanges.1]
    exact hchanges.2

end OpenClaw.Exec
