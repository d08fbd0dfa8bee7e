import OpenClaw.Config.DeepMerge
import OpenClaw.Lib.JsString
import OpenClaw.Lib.Logged

/-!
# Config includes

The `$include` directive: a value is processed with the path of its file, the files that are being
included and the number of further levels that are allowed. A file is read only after its path has
passed the checks. `JsonTree` values stand for parsed files; the platform's paths and files and the
resolver are given.
-/

namespace OpenClaw.Config

variable {ν : Type}

def includeKey : String := "$include"

def maxIncludeDepth : Nat := 10

/-- Maximum length for `$include` path and resolved path. -/
def maxIncludePathLength : Nat := 4096

/-- What `fs.realpathSync` does. -/
inductive Realpath
  | found (real : String)
  | notFound
  | failed
deriving DecidableEq

/-- The platform: `node:path`, links in the file system, and containment of paths. -/
structure Host where
  normalize : String → String
  /-- `path.resolve`, of a directory and a path. -/
  resolve : String → String → String
  dirname : String → String
  isAbsolute : String → Bool
  realpathSync : String → Realpath
  isPathInside : String → String → Bool

inductive IncludeError (ν : Type)
  /-- `ConfigIncludeError`. -/
  | include (message includePath : String)
  /-- `ConfigIncludeError` with `String(value)` as the path. -/
  | invalid (message : String) (value : JsonTree ν)
  /-- `CircularIncludeError`. -/
  | circular (chain : List String)

def IncludeError.message : IncludeError ν → String
  | .include message _ | .invalid message _ => message
  | .circular chain => "Circular include detected: " ++ " -> ".intercalate chain

structure IncludeFileReadParams where
  includePath : String
  resolvedPath : String
  rootRealDir : String
deriving DecidableEq

/-- What a guarded read throws: a `ConfigIncludeError`, or another error. -/
inductive ReadFailure
  | include (message includePath : String)
  | other

/-- Reading gives no text where it throws. A parsed value has no field twice. -/
structure IncludeResolver (ν : Type) where
  readFile : String → Option String
  readFileWithGuards : Option (IncludeFileReadParams → Except ReadFailure String)
  parseJson : String → Option (JsonTree ν)
  parseJson_distinct : ∀ {raw : String} {parsed : JsonTree ν}, parseJson raw = some parsed →
    parsed.Distinct

structure IncludeRoot where
  rootDir : String
  rootRealDir : String
deriving DecidableEq

/-- What the processors of one run share. Nested processors are made with the normalized root of
the first one, so that their roots are the same. -/
structure IncludeContext (ν : Type) where
  host : Host
  resolver : IncludeResolver ν
  configRoot : IncludeRoot
  allowedRoots : List IncludeRoot

abbrev Include (ν α : Type) := Logged IncludeFileReadParams (IncludeError ν) α

/-! ## Loading a file -/

section

variable (ctx : IncludeContext ν)

def IncludeContext.roots : List IncludeRoot := ctx.configRoot :: ctx.allowedRoots

def findContainingRoot (candidate : String) (field : IncludeRoot → String) : Option IncludeRoot :=
  ctx.roots.find? fun root => ctx.host.isPathInside (field root) candidate

def normalizedInclude (basePath includePath : String) : String :=
  let configDir := ctx.host.dirname basePath
  ctx.host.normalize
    (if ctx.host.isAbsolute includePath then includePath
    else ctx.host.resolve configDir includePath)

/-- The root that contains a normalized path: by the path itself, and by its real path too if it
has one. -/
def containingRoot (includePath normalized : String) : Except (IncludeError ν) IncludeRoot :=
  match findContainingRoot ctx normalized IncludeRoot.rootDir with
  | none =>
    .error (.include ("Include path escapes config directory: " ++ includePath ++ " (root: " ++
      ctx.configRoot.rootDir ++ ")") includePath)
  | some lexicalMatch =>
    match ctx.host.realpathSync normalized with
    | .found real =>
      match findContainingRoot ctx real IncludeRoot.rootRealDir with
      | none =>
        .error (.include ("Include path resolves outside config directory (symlink): " ++
          includePath ++ " (root: " ++ ctx.configRoot.rootDir ++ ")") includePath)
      | some realMatch => .ok realMatch
    | .notFound => .ok lexicalMatch
    | .failed =>
      .error (.include ("Failed to resolve include file realpath: " ++ includePath ++
        " (resolved: " ++ normalized ++ ")") includePath)

/-- The normalized path of an include of the file `basePath`, and the root that it is in. -/
def resolvePath (basePath includePath : String) :
    Except (IncludeError ν) (String × IncludeRoot) :=
  if '\x00' ∈ includePath.toList then
    .error (.include "Include path must not contain null bytes" includePath)
  else if maxIncludePathLength ≤ JsString.length includePath then
    .error (.include ("Include path exceeds maximum length (" ++ toString maxIncludePathLength ++
      " characters)") includePath)
  else
    let normalized := normalizedInclude ctx basePath includePath
    if maxIncludePathLength ≤ JsString.length normalized then
      .error (.include ("Resolved include path exceeds maximum length (" ++
        toString maxIncludePathLength ++ " characters)") includePath)
    else (containingRoot ctx includePath normalized).map (normalized, ·)

def checkCircular (visited : List String) (resolvedPath : String) : Except (IncludeError ν) Unit :=
  if resolvedPath ∈ visited then .error (.circular (visited ++ [resolvedPath])) else .ok ()

/-- The text of a file. A `ConfigIncludeError` of the resolver is passed on. -/
def readText (params : IncludeFileReadParams) : Except (IncludeError ν) String :=
  let failed := IncludeError.include ("Failed to read include file: " ++ params.includePath ++
    " (resolved: " ++ params.resolvedPath ++ ")") params.includePath
  match ctx.resolver.readFileWithGuards with
  | some readFileWithGuards =>
    match readFileWithGuards params with
    | .ok raw => .ok raw
    | .error (.include message includePath) => .error (.include message includePath)
    | .error .other => .error failed
  | none =>
    match ctx.resolver.readFile params.resolvedPath with
    | some raw => .ok raw
    | none => .error failed

def readFile (includePath resolvedPath : String) (root : IncludeRoot) : Include ν String := do
  Logged.perform ⟨includePath, resolvedPath, root.rootRealDir⟩
  Logged.ofExcept (readText ctx ⟨includePath, resolvedPath, root.rootRealDir⟩)

def parseFile (includePath resolvedPath raw : String) : Except (IncludeError ν) (JsonTree ν) :=
  match ctx.resolver.parseJson raw with
  | some parsed => .ok parsed
  | none =>
    .error (.include ("Failed to parse include file: " ++ includePath ++ " (resolved: " ++
      resolvedPath ++ ")") includePath)

end

/-! ## Processing a value -/

/-- `typeof value`. -/
def typeOf : JsonTree ν → String
  | .bool _ => "boolean"
  | .num _ => "number"
  | .str _ => "string"
  | .null | .arr _ | .obj _ => "object"

section

variable (loadFile : String → Include ν (JsonTree ν))

/-- The files of a list, merged from left to right. -/
def includeList (merged : JsonTree ν) : List (JsonTree ν) → Include ν (JsonTree ν)
  | [] => pure merged
  | .str item :: items => do
    let loaded ← loadFile item
    includeList (deepMerge merged loaded) items
  | item :: _ =>
    .fail (.invalid ("Invalid $include array item: expected string, got " ++ typeOf item) item)

def resolveInclude : JsonTree ν → Include ν (JsonTree ν)
  | .str value => loadFile value
  | .arr items => includeList loadFile (.obj []) items
  | value =>
    .fail (.invalid ("Invalid $include value: expected string or array of strings, got " ++
      typeOf value) value)

def siblingError (includeValue : JsonTree ν) : IncludeError ν :=
  let message := "Sibling keys require included content to be an object"
  match includeValue with
  | .str path => .include message path
  | _ => .include message includeKey

def hasSiblings (fields : Fields (JsonTree ν)) : Bool := fields.any fun f => f.1 ≠ includeKey

mutual

def process : JsonTree ν → Include ν (JsonTree ν)
  | .arr items => do
    let items ← processItems items
    return .arr items
  | .obj fields =>
    match Fields.get includeKey fields with
    | none => do
      let result ← processFields fields
      return .obj result
    | some includeValue => do
      let included ← resolveInclude loadFile includeValue
      if hasSiblings fields = false then return included
      else if included.isPlainObject = false then .fail (siblingError includeValue)
      else do
        let rest ← processFields fields
        return deepMerge included (.obj rest)
  | value => pure value

def processItems : List (JsonTree ν) → Include ν (List (JsonTree ν))
  | [] => pure []
  | item :: items => do
    let item ← process item
    let items ← processItems items
    return item :: items

/-- The fields of an object, but for the directive. Setting the field `__proto__` of a new object
gives it no field of its own. -/
def processFields : Fields (JsonTree ν) → Include ν (Fields (JsonTree ν))
  | [] => pure []
  | (key, value) :: fields =>
    if key = includeKey then processFields fields
    else do
      let value ← process value
      let rest ← processFields fields
      return if key = "__proto__" then rest else (key, value) :: rest

end

end

/-- Loads a file that is included from `basePath`, with the files that are being included and the
number of levels still allowed, which is `maxIncludeDepth - depth`. -/
def loadFile (ctx : IncludeContext ν) (levels : Nat) (basePath : String) (visited : List String)
    (includePath : String) : Include ν (JsonTree ν) := do
  let (resolvedPath, root) ← Logged.ofExcept (resolvePath ctx basePath includePath)
  Logged.ofExcept (checkCircular visited resolvedPath)
  match levels with
  | 0 =>
    .fail (.include ("Maximum include depth (" ++ toString maxIncludeDepth ++ ") exceeded at: " ++
      includePath) includePath)
  | levels + 1 =>
    let raw ← readFile ctx includePath resolvedPath root
    let parsed ← Logged.ofExcept (parseFile ctx includePath resolvedPath raw)
    process (loadFile ctx levels resolvedPath (visited ++ [resolvedPath])) parsed

/-! ## The whole config -/

def Host.safeRealpath (host : Host) (target : String) : String :=
  match host.realpathSync target with
  | .found real => real
  | .notFound | .failed => target

/-- The root with its links resolved. -/
def Host.rootAt (host : Host) (rootDir : String) : IncludeRoot :=
  ⟨rootDir, host.normalize (host.safeRealpath rootDir)⟩

def includeContext (host : Host) (resolver : IncludeResolver ν) (configPath : String)
    (allowedRoots : List String) : IncludeContext ν where
  host := host
  resolver := resolver
  configRoot := host.rootAt (host.normalize (host.dirname configPath))
  allowedRoots :=
    (allowedRoots.filter fun entry => decide (0 < entry.length) && host.isAbsolute entry).map
      fun entry => host.rootAt (host.normalize entry)

/-- Resolves all `$include` directives in a parsed config object. -/
def resolveConfigIncludes (host : Host) (resolver : IncludeResolver ν) (obj : JsonTree ν)
    (configPath : String) (allowedRoots : List String) : Include ν (JsonTree ν) :=
  process (loadFile (includeContext host resolver configPath allowedRoots) maxIncludeDepth
    configPath [host.normalize configPath]) obj

end OpenClaw.Config
