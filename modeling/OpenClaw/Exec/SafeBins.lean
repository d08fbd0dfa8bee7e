import Mathlib.Logic.Function.Basic
import OpenClaw.Lib.JsString

/-!
# `infra/exec-safe-bin-policy-profiles.ts` and `infra/exec-safe-bin-policy-validator.ts`

A safe bin may run without approval while its arguments keep to its profile: no denied option, a
literal for every value and operand, and a bounded number of operands.

Sets of flags are lists. Strings are sequences of characters; a character above U+FFFF is two code
units in the source, none of which is a flag.
-/

namespace OpenClaw.Exec

/-! ## Profiles -/

structure SafeBinProfileFixture where
  minPositional : Option Nat := none
  maxPositional : Option Nat := none
  allowedValueFlags : List String := []
  deniedFlags : List String := []

/-- A `Map` from prefixes to flags; `null` is for prefixes of several flags. -/
abbrev LongFlagPrefixMap := String → Option (Option String)

structure SafeBinProfile where
  minPositional : Option Nat := none
  maxPositional : Option Nat := none
  allowedValueFlags : Option (List String) := none
  deniedFlags : Option (List String) := none
  knownLongFlags : Option (List String) := none
  knownLongFlagsSet : Option (List String) := none
  longFlagPrefixMap : Option LongFlagPrefixMap := none

def collectKnownLongFlags (allowedValueFlags deniedFlags : List String) : List String :=
  ((allowedValueFlags ++ deniedFlags).filter fun flag => JsString.startsWith flag "--").dedup

/-- The entry of a prefix of a flag, from the entry it has. -/
def mergeFlag (flag : String) : Option (Option String) → Option (Option String)
  | none => some (some flag)
  | some existing => if existing = some flag then some existing else some none

/-- One turn of the inner loop of `buildLongFlagPrefixMap`. -/
def setPrefix (flag : String) (prefixMap : LongFlagPrefixMap) (key : String) : LongFlagPrefixMap :=
  Function.update prefixMap key (mergeFlag flag (prefixMap key))

/-- The prefixes of a flag that have more than two characters. -/
def longPrefixes (flag : String) : List String :=
  (flag.toList.inits.filter fun key => 2 < key.length).map .ofList

def buildLongFlagPrefixMap (knownLongFlags : List String) : LongFlagPrefixMap :=
  knownLongFlags.foldl
    (fun prefixMap flag =>
      if JsString.startsWith flag "--" && decide (2 < flag.toList.length) then
        (longPrefixes flag).foldl (setPrefix flag) prefixMap
      else prefixMap)
    fun _ => none

def compileSafeBinProfile (fixture : SafeBinProfileFixture) : SafeBinProfile where
  minPositional := fixture.minPositional
  maxPositional := fixture.maxPositional
  allowedValueFlags := some fixture.allowedValueFlags
  deniedFlags := some fixture.deniedFlags
  knownLongFlags := some (collectKnownLongFlags fixture.allowedValueFlags fixture.deniedFlags)
  knownLongFlagsSet := some (collectKnownLongFlags fixture.allowedValueFlags fixture.deniedFlags)
  longFlagPrefixMap := some (buildLongFlagPrefixMap
    (collectKnownLongFlags fixture.allowedValueFlags fixture.deniedFlags))

namespace SafeBinProfile

def allowed (profile : SafeBinProfile) : List String := profile.allowedValueFlags.getD []

def denied (profile : SafeBinProfile) : List String := profile.deniedFlags.getD []

/-- `knownLongFlags`, with its default. -/
def known (profile : SafeBinProfile) : List String :=
  profile.knownLongFlags.getD (collectKnownLongFlags profile.allowed profile.denied)

def knownSet (profile : SafeBinProfile) : List String :=
  profile.knownLongFlagsSet.getD profile.known

def prefixMap (profile : SafeBinProfile) : LongFlagPrefixMap :=
  profile.longFlagPrefixMap.getD (buildLongFlagPrefixMap profile.known)

end SafeBinProfile

/-! ## Tokens -/

/-- `ExecArgvToken`, without the raw text. -/
inductive ExecArgvToken
  | empty
  | terminator
  | stdin
  | positional
  | long (flag : String) (inlineValue : Option String)
  | shortCluster (cluster : List Char)

def parseExecArgvToken (raw : String) : ExecArgvToken :=
  match raw.toList with
  | [] => .empty
  | ['-', '-'] => .terminator
  | ['-'] => .stdin
  | '-' :: '-' :: text =>
    if '=' ∈ text then
      .long (.ofList ('-' :: '-' :: text.takeWhile fun c => c ≠ '='))
        (some (.ofList ((text.dropWhile fun c => c ≠ '=').drop 1)))
    else .long raw none
  | '-' :: cluster => .shortCluster cluster
  | _ => .positional

/-! ## Literals -/

/-- `/^[A-Za-z]:[\\/]/`. -/
def hasDrive : List Char → Bool
  | letter :: ':' :: slash :: _ => letter.isAlpha && (slash = '\\' || slash = '/')
  | _ => false

def isPathLikeToken (value : String) : Bool :=
  let trimmed := JsString.trim value
  if trimmed = "" then false
  else if trimmed = "-" then false
  else if JsString.startsWith trimmed "./" || JsString.startsWith trimmed "../" ||
      JsString.startsWith trimmed "~" then true
  else if JsString.startsWith trimmed "/" then true
  else hasDrive trimmed.toList

def hasGlobToken (value : String) : Bool :=
  value.toList.any fun c => c ∈ ['*', '?', '[', ']']

/-- The characters that make a `$` an expansion. -/
def expands (c : Char) : Bool :=
  c.isAlphanum || c ∈ ['_', '@', '*', '?', '!', '$', '#', '-', '\x7b', '(', '[']

/-- `/\$(?:[A-Za-z0-9_@*?!$#-]|\{|\(|\[)/`. -/
def hasExpansion : List Char → Bool
  | '$' :: c :: cs => expands c || hasExpansion (c :: cs)
  | _ :: cs => hasExpansion cs
  | [] => false

def hasShellExpansionToken (value : String) : Bool := hasExpansion value.toList

def isSafeLiteralToken (value : String) : Bool :=
  if value = "" || value = "-" then true
  else !hasGlobToken value && !hasShellExpansionToken value && !isPathLikeToken value

def isInvalidValueToken (value : Option String) : Bool :=
  match value with
  | none => true
  | some value => value = "" || !isSafeLiteralToken value

/-! ## Options -/

/-- The number of words that an accepted option takes. -/
inductive Consumed
  | one
  | two

def resolveCanonicalLongFlag (profile : SafeBinProfile) (flag : String) : Option String :=
  if !JsString.startsWith flag "--" || decide (flag.toList.length ≤ 2) then none
  else if flag ∈ profile.knownSet then some flag
  else (profile.prefixMap flag).join

/-- `consumeLongOptionToken`; `next` is the word after the option. -/
def consumeLongOptionToken (profile : SafeBinProfile) (next : Option String) (flag : String)
    (inlineValue : Option String) : Option Consumed :=
  match resolveCanonicalLongFlag profile flag with
  | none => none
  | some canonicalFlag =>
    if canonicalFlag ∈ profile.denied then none
    else
      match inlineValue with
      | some inlineValue =>
        if canonicalFlag ∉ profile.allowed then none
        else if isSafeLiteralToken inlineValue then some .one else none
      | none =>
        if canonicalFlag ∉ profile.allowed then some .one
        else if isInvalidValueToken next then none else some .two

/-- The flag of a code unit of a cluster. Half a character is none. -/
def shortFlag (c : Char) : Option String :=
  if c.toNat ≤ 0xFFFF then some (.ofList ['-', c]) else none

def isShortFlagIn (flags : List String) (c : Char) : Bool :=
  match shortFlag c with
  | some flag => flag ∈ flags
  | none => false

def consumeShortOptionClusterToken (profile : SafeBinProfile) (next : Option String) :
    List Char → Option Consumed
  | [] => none
  | c :: inlineValue =>
    if isShortFlagIn profile.denied c then none
    else if !isShortFlagIn profile.allowed c then
      consumeShortOptionClusterToken profile next inlineValue
    else if inlineValue ≠ [] then
      if isSafeLiteralToken (.ofList inlineValue) then some .one else none
    else if isInvalidValueToken next then none else some .two

/-! ## Operands -/

/-- The words after the terminator. -/
def collectRest : List String → Option (List String)
  | [] => some []
  | rest :: args =>
    if rest = "" || rest = "-" then collectRest args
    else if isSafeLiteralToken rest then (collectRest args).map (rest :: ·) else none

def collectPositionalTokens (profile : SafeBinProfile) : List String → Option (List String)
  | [] => some []
  | raw :: args =>
    let consumed (next : Option Consumed) : Option (List String) :=
      match next, args with
      | none, _ => none
      | some .one, args => collectPositionalTokens profile args
      | some .two, [] => some []
      | some .two, _ :: args => collectPositionalTokens profile args
    match parseExecArgvToken raw with
    | .empty | .stdin => collectPositionalTokens profile args
    | .terminator => collectRest args
    | .positional =>
      if isSafeLiteralToken raw then (collectPositionalTokens profile args).map (raw :: ·)
      else none
    | .long flag inlineValue =>
      consumed (consumeLongOptionToken profile args.head? flag inlineValue)
    | .shortCluster cluster =>
      consumed (consumeShortOptionClusterToken profile args.head? cluster)

def validatePositionalCount (positional : List String) (profile : SafeBinProfile) : Bool :=
  decide (profile.minPositional.getD 0 ≤ positional.length) &&
    match profile.maxPositional with
    | some maxPositional => decide (positional.length ≤ maxPositional)
    | none => true

/-! ## Semantics -/

/-- The text after the last `/` or `\`. -/
def tailOfPath (cs : List Char) : List Char :=
  (cs.reverse.takeWhile fun c => c ≠ '/' && c ≠ '\\').reverse

local instance lawfulBEq_chars : LawfulBEq (List Char) := inferInstance

/-- `replace(/\.(?:exe|cmd|bat|com)$/i, "")`. -/
def dropWindowsSuffix (name : String) : String :=
  if (name.toList.reverse.take 4).reverse.map Char.toLower ∈
      [".exe".toList, ".cmd".toList, ".bat".toList, ".com".toList] then
    .ofList (name.toList.take (name.toList.length - 4))
  else name

/-- `normalizeSafeBinName`. `toLowerCase` is that of the language. -/
def normalizeSafeBinName (toLowerCase : String → String) (raw : String) : String :=
  let trimmed := if JsString.trim raw = "" then "" else toLowerCase (JsString.trim raw)
  if trimmed = "" then "" else dropWindowsSuffix (.ofList (tailOfPath trimmed.toList))

/-- The bins whose rule is `ALWAYS_DENY_SAFE_BIN_SEMANTICS`; no other bin has a rule. -/
def deniedBins : List String := ["jq", "awk", "gawk", "mawk", "nawk", "sed", "gsed"]

def validateSafeBinSemantics (toLowerCase : String → String) (binName : Option String) : Bool :=
  match binName with
  | none => true
  | some binName => normalizeSafeBinName toLowerCase binName ∉ deniedBins

def validateSafeBinArgv (toLowerCase : String → String) (args : List String)
    (profile : SafeBinProfile) (binName : Option String) : Bool :=
  match collectPositionalTokens profile args with
  | none => false
  | some positional =>
    validatePositionalCount positional profile && validateSafeBinSemantics toLowerCase binName

end OpenClaw.Exec
