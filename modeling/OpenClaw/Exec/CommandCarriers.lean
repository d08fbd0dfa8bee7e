import OpenClaw.Exec.CommandAnalysis

/-!
# `infra/command-carriers.ts`: the prelude of `env`

The part that `env` uses, with `splitShellArgs` of `utils/shell-argv.ts` and
`infra/inline-option-token.ts`. A depth up to `MAX_ENV_SPLIT_PAYLOAD_DEPTH` is the number of levels
that are left.

**Main result (`parseEnvInvocationPrelude_plain`).** A prelude without modifiers is empty, `--` or
a lone `-`.
-/

namespace OpenClaw.Exec

/-! ## `parseInlineOptionToken` -/

structure InlineOptionToken where
  name : String
  inlineValue : Option String

def parseInlineOptionToken (token : String) : InlineOptionToken where
  name := .ofList (token.toList.takeWhile (· ≠ '='))
  inlineValue := match token.toList.dropWhile (· ≠ '=') with
    | [] => none
    | _ :: value => some (.ofList value)

/-! ## `splitShellArgs` -/

inductive ShellQuote
  | none | single | double
  deriving DecidableEq

def doubleQuoteEscapes : List Char := ['\\', '"', '$', '\x60', '\n', '\r']

structure ShellSplit where
  quote : ShellQuote
  escaped : Bool
  buf : List Char
  tokens : List String

def ShellSplit.pushToken (split : ShellSplit) : ShellSplit :=
  if split.buf = [] then split
  else { split with buf := [], tokens := split.tokens ++ [.ofList split.buf] }

def ShellSplit.finish (split : ShellSplit) : Option (List String) :=
  if split.escaped || split.quote ≠ .none then none else some split.pushToken.tokens

/-- The loop. A backslash in double quotes escapes only some characters. -/
def splitShellFrom (split : ShellSplit) : List Char → Option (List String)
  | [] => split.finish
  | c :: rest =>
    if split.escaped then
      splitShellFrom { split with buf := split.buf ++ [c], escaped := false } rest
    else
      match split.quote with
      | .single =>
        if c = '\x27' then splitShellFrom { split with quote := .none } rest
        else splitShellFrom { split with buf := split.buf ++ [c] } rest
      | .double =>
        if c = '\\' && rest.head?.any (· ∈ doubleQuoteEscapes) then
          splitShellFrom { split with escaped := true } rest
        else if c = '"' then splitShellFrom { split with quote := .none } rest
        else splitShellFrom { split with buf := split.buf ++ [c] } rest
      | .none =>
        if c = '\\' then splitShellFrom { split with escaped := true } rest
        else if c = '\x27' then splitShellFrom { split with quote := .single } rest
        else if c = '"' then splitShellFrom { split with quote := .double } rest
        else if c = '#' && split.buf = [] then split.finish
        else if JsString.isWhitespace c then splitShellFrom split.pushToken rest
        else splitShellFrom { split with buf := split.buf ++ [c] } rest

def splitShellArgs (raw : String) : Option (List String) :=
  splitShellFrom ⟨.none, false, [], []⟩ raw.toList

/-! ## Options -/

def maxEnvSplitPayloadDepth : Nat := 32

def envOptionsWithValue : List String :=
  ["-C", "-P", "-S", "-s", "-u", "--argv0", "--block-signal", "--chdir", "--default-signal",
    "--ignore-signal", "--split-string", "--unset"]

def envSplitStringOptions : List String := ["-S", "-s", "--split-string"]

def envStandaloneOptions : List String := ["-0", "-i", "--ignore-environment", "--null"]

def isAsciiAlphanum (c : Char) : Bool := c.isAlpha || c.isDigit

/-- What `.` does not match. -/
def isLineTerminator (c : Char) : Bool := c.toNat ∈ [0x0A, 0x0D, 0x2028, 0x2029]

/-- `/^[A-Za-z_][A-Za-z0-9_]*=.*$/u`. -/
def isEnvAssignmentToken (token : String) : Bool :=
  let isNameChar c := isAsciiAlphanum c || c = '_'
  match token.toList.takeWhile isNameChar, token.toList.dropWhile isNameChar with
  | c :: _, '=' :: value => !c.isDigit && value.all fun c => !isLineTerminator c
  | _, _ => false

/-- `hasInlineValue` says that there is an `inlineValue`. -/
structure ParsedCarrierOption where
  name : String
  inlineValue : Option String

/-- The options of a cluster: the first with a value takes the rest of the token. -/
def parseShortOptions (standaloneOptions optionsWithValue nonExecutingOptions : List String) :
    List Char → Option (List ParsedCarrierOption)
  | [] => some []
  | c :: rest =>
    let name := String.ofList ['-', c]
    if name ∈ optionsWithValue then
      some [⟨name, if rest = [] then none else some (.ofList rest)⟩]
    else if name ∈ standaloneOptions || name ∈ nonExecutingOptions then
      (parseShortOptions standaloneOptions optionsWithValue nonExecutingOptions rest).map
        (⟨name, none⟩ :: ·)
    else none

def parseCarrierOptionToken (token : String)
    (standaloneOptions optionsWithValue nonExecutingOptions : List String) :
    Option (List ParsedCarrierOption) :=
  if JsString.startsWith token "--" then
    let option := parseInlineOptionToken token
    if option.name ∈ standaloneOptions || option.name ∈ optionsWithValue ||
        option.name ∈ nonExecutingOptions then
      some [⟨option.name, option.inlineValue⟩]
    else none
  else
    match token.toList with
    | '-' :: c :: cluster =>
      if isAsciiAlphanum c then
        parseShortOptions standaloneOptions optionsWithValue nonExecutingOptions (c :: cluster)
      else none
    | _ => none

/-- The last option with a value decides. -/
def knownCarrierOptionConsumesNextValue (options : List ParsedCarrierOption)
    (optionsWithValue nonExecutingOptions : List String) : Option Bool :=
  if options.any (·.name ∈ nonExecutingOptions) then none
  else
    some (options.foldl (fun consumes option =>
      if option.name ∈ optionsWithValue then option.inlineValue.isNone else consumes) false)

/-! ## The prelude -/

/-- `command` is `argv` from `commandIndex` on. -/
structure ParsedEnvInvocationPrelude where
  assignmentKeys : List String
  command : List String
  splitArgv : Option (List String)
  usesModifiers : Bool

/-- What `env` runs. -/
def ParsedEnvInvocationPrelude.carried (parsed : ParsedEnvInvocationPrelude) : List String :=
  parsed.splitArgv.getD parsed.command

section

variable (splitPayload : String → List String → Option (List String))

/-- An option with `-S`: the payload is inline or the next word. -/
def parseEnvSplit (assignmentKeys : List String) (option : ParsedCarrierOption)
    (words : List String) : Option ParsedEnvInvocationPrelude :=
  match option.inlineValue, words with
  | some payload, trailing | none, payload :: trailing =>
    (splitPayload payload trailing).map fun splitArgv =>
      ⟨assignmentKeys, trailing, some splitArgv, true⟩
  | none, [] => none

/-- The loop over the words after `env`. With `skip` the next word is the value of an option. -/
def scanEnvPrelude (assignmentKeys : List String) (usesModifiers : Bool) :
    (skip : Bool) → List String → Option ParsedEnvInvocationPrelude
  | _, [] => none
  | true, _ :: words => scanEnvPrelude assignmentKeys usesModifiers false words
  | false, token :: words =>
    if token = "" then none
    else if isEnvAssignmentToken token then
      scanEnvPrelude (assignmentKeys ++ [(parseInlineOptionToken token).name]) true false words
    else if token = "--" || token = "-" then
      if words = [] then none else some ⟨assignmentKeys, words, none, usesModifiers⟩
    else if JsString.startsWith token "-" then
      match parseCarrierOptionToken token envStandaloneOptions envOptionsWithValue [] with
      | none => none
      | some options =>
        match options.find? (·.name ∈ envSplitStringOptions) with
        | some option => parseEnvSplit splitPayload assignmentKeys option words
        | none =>
          scanEnvPrelude assignmentKeys true
            ((knownCarrierOptionConsumesNextValue options envOptionsWithValue []).getD false) words
    else some ⟨assignmentKeys, token :: words, none, usesModifiers⟩

end

variable (host : Host)

/-- `resolveEnvSplitPayload`, with `resolveEnvCarriedArgv` for an `env` that the payload begins. -/
def resolveEnvSplitPayload (resolveEnvCarriedArgv : List String → Option (List String))
    (payload : String) (trailingArgv : List String) : Option (List String) :=
  (splitShellArgs payload).bind fun innerArgv =>
    if innerArgv = [] then none
    else
      some ((resolveEnvCarriedArgv ("env" :: (innerArgv ++ trailingArgv))).getD
        (innerArgv ++ trailingArgv))

/-- The prelude, with so many levels of `-S` payloads left. -/
def parseEnvPreludeAt : (levels : Nat) → List String → Option ParsedEnvInvocationPrelude
  | 0, _ => none
  | levels + 1, argv =>
    if normalizeExecutableToken host (firstWord argv) ≠ "env" then none
    else
      scanEnvPrelude
        (resolveEnvSplitPayload fun argv =>
          (parseEnvPreludeAt levels argv).map ParsedEnvInvocationPrelude.carried)
        [] false false argv.tail

@[irreducible]
def parseEnvInvocationPrelude (argv : List String) : Option ParsedEnvInvocationPrelude :=
  parseEnvPreludeAt host (maxEnvSplitPayloadDepth + 1) argv

def envInvocationUsesModifiers (argv : List String) : Bool :=
  match parseEnvInvocationPrelude host argv with
  | some parsed => parsed.usesModifiers
  | none => normalizeExecutableToken host (firstWord argv) = "env"

def unwrapEnvInvocation (argv : List String) : Option (List String) :=
  (parseEnvInvocationPrelude host argv).map ParsedEnvInvocationPrelude.carried

/-! ## A prelude without modifiers -/

section

variable {splitPayload : String → List String → Option (List String)}

variable {words : List String} {parsed : ParsedEnvInvocationPrelude}

variable {assignmentKeys : List String}

theorem parseEnvSplit_modifiers {option : ParsedCarrierOption}
    (h : parseEnvSplit splitPayload assignmentKeys option words = some parsed) :
    parsed.usesModifiers = true := by
  unfold parseEnvSplit at h
  split at h
  · obtain ⟨splitArgv, -, rfl⟩ := Option.map_eq_some_iff.1 h
    rfl
  · obtain ⟨splitArgv, -, rfl⟩ := Option.map_eq_some_iff.1 h
    rfl
  · cases h

theorem scanEnvPrelude_modifiers {skip : Bool}
    (h : scanEnvPrelude splitPayload assignmentKeys true skip words = some parsed) :
    parsed.usesModifiers = true := by
  induction words generalizing assignmentKeys skip with
  | nil =>
    cases skip with
    | true => cases h
    | false => cases h
  | cons token words ih =>
    cases skip with
    | true => exact ih h
    | false =>
      rw [scanEnvPrelude] at h
      split at h
      · cases h
      · split at h
        · exact ih h
        · split at h
          · split at h
            · cases h
            · cases h
              rfl
          · split at h
            · split at h
              · cases h
              · split at h
                · exact parseEnvSplit_modifiers h
                · exact ih h
            · cases h
              rfl

theorem scanEnvPrelude_plain (h : scanEnvPrelude splitPayload [] false false words = some parsed)
    (hplain : parsed.usesModifiers = false) : parsed.splitArgv = none ∧ parsed.command ≠ [] ∧
      (words = "--" :: parsed.command ∨ words = "-" :: parsed.command ∨
        (words = parsed.command ∧
          ∀ token ∈ words.head?, JsString.startsWith token "-" = false)) := by
  have hmodified {keys rest : List String} {skip : Bool}
      (hrest : scanEnvPrelude splitPayload keys true skip rest = some parsed) : False := by
    rw [scanEnvPrelude_modifiers hrest] at hplain
    cases hplain
  cases words with
  | nil => cases h
  | cons token words =>
    rw [scanEnvPrelude] at h
    split at h
    · cases h
    · split at h
      · exact (hmodified h).elim
      · split at h
        · rename_i hdash
          split at h
          · cases h
          · rename_i hwords
            cases h
            refine ⟨rfl, hwords, ?_⟩
            rw [Bool.or_eq_true, decide_eq_true_iff, decide_eq_true_iff] at hdash
            rcases hdash with rfl | rfl
            · exact .inl rfl
            · exact .inr (.inl rfl)
        · split at h
          · split at h
            · cases h
            · split at h
              · rw [parseEnvSplit_modifiers h] at hplain
                cases hplain
              · exact (hmodified h).elim
          · rename_i hdash
            cases h
            refine ⟨rfl, List.cons_ne_nil _ _, .inr (.inr ⟨rfl, ?_⟩)⟩
            intro token' htoken
            cases htoken
            exact eq_false_of_ne_true hdash

end

/-! ## What is carried -/

variable {parsed : ParsedEnvInvocationPrelude}

theorem scanEnvPrelude_carried {splitPayload : String → List String → Option (List String)}
    (hsplit : ∀ payload trailing argv, splitPayload payload trailing = some argv → argv ≠ [])
    {assignmentKeys words : List String} {usesModifiers skip : Bool}
    (h : scanEnvPrelude splitPayload assignmentKeys usesModifiers skip words = some parsed) :
    parsed.carried ≠ [] := by
  have hpayload {keys rest : List String} {option : ParsedCarrierOption}
      (h : parseEnvSplit splitPayload keys option rest = some parsed) : parsed.carried ≠ [] := by
    unfold parseEnvSplit at h
    split at h
    · obtain ⟨splitArgv, hargv, rfl⟩ := Option.map_eq_some_iff.1 h
      exact hsplit _ _ _ hargv
    · obtain ⟨splitArgv, hargv, rfl⟩ := Option.map_eq_some_iff.1 h
      exact hsplit _ _ _ hargv
    · cases h
  induction words generalizing assignmentKeys usesModifiers skip with
  | nil =>
    cases skip with
    | true => cases h
    | false => cases h
  | cons token words ih =>
    cases skip with
    | true => exact ih h
    | false =>
      rw [scanEnvPrelude] at h
      split at h
      · cases h
      · split at h
        · exact ih h
        · split at h
          · split at h
            · cases h
            · rename_i hwords
              cases h
              exact hwords
          · split at h
            · split at h
              · cases h
              · split at h
                · exact hpayload h
                · exact ih h
            · cases h
              exact List.cons_ne_nil _ _

theorem resolveEnvSplitPayload_ne_nil
    {resolveEnvCarriedArgv : List String → Option (List String)}
    (hresolve : ∀ argv carried, resolveEnvCarriedArgv argv = some carried → carried ≠ [])
    (payload : String) (trailing argv : List String)
    (h : resolveEnvSplitPayload resolveEnvCarriedArgv payload trailing = some argv) :
    argv ≠ [] := by
  obtain ⟨innerArgv, -, h⟩ := Option.bind_eq_some_iff.1 h
  by_cases hinner : innerArgv = []
  · rw [if_pos hinner] at h
    cases h
  · rw [if_neg hinner] at h
    cases h
    cases hcarried : resolveEnvCarriedArgv ("env" :: (innerArgv ++ trailing)) with
    | none => simp [hinner]
    | some carried => exact hresolve _ carried hcarried

variable {argv : List String}

variable {levels : Nat}

theorem parseEnvPreludeAt_carried (h : parseEnvPreludeAt host levels argv = some parsed) :
    parsed.carried ≠ [] := by
  induction levels generalizing argv parsed with
  | zero => cases h
  | succ levels ih =>
    rw [parseEnvPreludeAt] at h
    by_cases hname : normalizeExecutableToken host (firstWord argv) ≠ "env"
    · rw [if_pos hname] at h
      cases h
    · rw [if_neg hname] at h
      refine scanEnvPrelude_carried (resolveEnvSplitPayload_ne_nil ?_) h
      intro argv carried hcarried
      obtain ⟨parsed, hparsed, rfl⟩ := Option.map_eq_some_iff.1 hcarried
      exact ih hparsed

theorem unwrapEnvInvocation_ne_nil {command : List String}
    (h : unwrapEnvInvocation host argv = some command) : command ≠ [] := by
  unfold unwrapEnvInvocation at h
  cases hparsed : parseEnvInvocationPrelude host argv with
  | none =>
    rw [hparsed] at h
    cases h
  | some parsed =>
    rw [hparsed] at h
    cases h
    unfold parseEnvInvocationPrelude at hparsed
    exact parseEnvPreludeAt_carried host hparsed

theorem parseEnvPreludeAt_plain (h : parseEnvPreludeAt host levels argv = some parsed)
    (hplain : parsed.usesModifiers = false) : parsed.splitArgv = none ∧ parsed.command ≠ [] ∧
      (argv.tail = "--" :: parsed.command ∨ argv.tail = "-" :: parsed.command ∨
        (argv.tail = parsed.command ∧
          ∀ token ∈ argv.tail.head?, JsString.startsWith token "-" = false)) := by
  cases levels with
  | zero => cases h
  | succ levels =>
    rw [parseEnvPreludeAt] at h
    by_cases hname : normalizeExecutableToken host (firstWord argv) ≠ "env"
    · rw [if_pos hname] at h
      cases h
    · rw [if_neg hname] at h
      exact scanEnvPrelude_plain h hplain

theorem parseEnvInvocationPrelude_plain {rest : List String}
    (h : unwrapEnvInvocation host argv = some rest)
    (hplain : envInvocationUsesModifiers host argv = false) :
    rest ≠ [] ∧ (argv.tail = "--" :: rest ∨ argv.tail = "-" :: rest ∨
      (argv.tail = rest ∧ ∀ token ∈ argv.tail.head?, JsString.startsWith token "-" = false)) := by
  unfold unwrapEnvInvocation at h
  unfold envInvocationUsesModifiers at hplain
  cases hparsed : parseEnvInvocationPrelude host argv with
  | none =>
    rw [hparsed] at h
    cases h
  | some parsed =>
    rw [hparsed] at h hplain
    unfold parseEnvInvocationPrelude at hparsed
    obtain ⟨hsplit, hcommand, hwords⟩ := parseEnvPreludeAt_plain host hparsed hplain
    rw [Option.map_some, ParsedEnvInvocationPrelude.carried, hsplit, Option.getD_none] at h
    cases h
    exact ⟨hcommand, hwords⟩

end OpenClaw.Exec
