import OpenClaw.Config.Includes

/-!
# What includes mean

The reference `expand` gives a value with every directive replaced: the files of the directive are
merged from left to right, and the other keys of its object are merged over the result. A file is
expanded up to a number of levels.

`Requests` says when a file is asked for: everything before the directive, and every file before it
in its list, expands, and so does what the directive is nested in. The chain is the files that are
being included there.
-/

namespace OpenClaw.Config

variable {ν : Type}

/-! ## The reference -/

section

variable (file : String → Option (JsonTree ν))

def namedFile : JsonTree ν → Option (JsonTree ν)
  | .str path => file path
  | _ => none

def expandDirective : JsonTree ν → Option (JsonTree ν)
  | .arr items => (items.mapM (namedFile file)).map (List.foldl deepMerge (.obj []))
  | directive => namedFile file directive

/-- An object with the included content under its other keys. -/
def overlay (fields rest : Fields (JsonTree ν)) (included : JsonTree ν) : Option (JsonTree ν) :=
  if hasSiblings fields = false then some included
  else if included.isPlainObject then some (deepMerge included (.obj rest))
  else none

mutual

def expand : JsonTree ν → Option (JsonTree ν)
  | .arr items => (expandItems items).map .arr
  | .obj fields =>
    match Fields.get includeKey fields with
    | none => (expandFields fields).map .obj
    | some directive =>
      (expandDirective file directive).bind fun included =>
        (expandFields fields).bind fun rest => overlay fields rest included
  | value => some value

def expandItems : List (JsonTree ν) → Option (List (JsonTree ν))
  | [] => some []
  | item :: items => (expand item).bind fun item => (expandItems items).map (item :: ·)

def expandFields : Fields (JsonTree ν) → Option (Fields (JsonTree ν))
  | [] => some []
  | (key, value) :: fields =>
    if key = includeKey then expandFields fields
    else
      (expand value).bind fun value =>
        (expandFields fields).map fun rest =>
          if key = "__proto__" then rest else (key, value) :: rest

end

end

/-- The path and the parsed content of an include, if the file can be read. -/
def includedFile (ctx : IncludeContext ν) (basePath includePath : String) :
    Option (String × JsonTree ν) :=
  (resolvePath ctx basePath includePath).toOption.bind fun found =>
    (readText ctx ⟨includePath, found.1, found.2.rootRealDir⟩).toOption.bind fun raw =>
      (ctx.resolver.parseJson raw).map (found.1, ·)

/-- The value of an included file, of which at most so many levels are nested. -/
def expandFile (ctx : IncludeContext ν) : Nat → String → String → Option (JsonTree ν)
  | 0, _, _ => none
  | levels + 1, basePath, includePath =>
    (includedFile ctx basePath includePath).bind fun f => expand (expandFile ctx levels f.1) f.2

/-! ## Requests -/

/-- The directive asks for the file, after the files before it in a list were loaded. -/
inductive Asks (file : String → Option (JsonTree ν)) (includePath : String) : JsonTree ν → Prop
  | single : Asks file includePath (.str includePath)
  | listed (before after : List (JsonTree ν))
    (hbefore : ∀ item ∈ before, (namedFile file item).isSome) :
    Asks file includePath (.arr (before ++ .str includePath :: after))

/-- What the value of an object is processed after: its directive, if it has one, and the fields
before it. -/
def FieldReached (file : String → Option (JsonTree ν)) (fields before : Fields (JsonTree ν)) :
    Prop :=
  (∀ directive, Fields.get includeKey fields = some directive →
    ∃ included, expandDirective file directive = some (.obj included)) ∧
  ∀ f ∈ before, f.1 ≠ includeKey → (expand file f.2).isSome

/-- A value of the file `basePath`, reached over `chain`, asks for a file while the files of another
chain are being included. -/
inductive Requests (ctx : IncludeContext ν) :
    Nat → String → List String → JsonTree ν → List String → String → Prop
  | item {levels : Nat} {basePath path : String} {chain chain' : List String}
    (before after : List (JsonTree ν)) {item : JsonTree ν}
    (hbefore : ∀ value ∈ before, (expand (expandFile ctx levels basePath) value).isSome)
    (hitem : Requests ctx levels basePath chain item chain' path) :
    Requests ctx levels basePath chain (.arr (before ++ item :: after)) chain' path
  | field {levels : Nat} {basePath path : String} {chain chain' : List String}
    (before after : Fields (JsonTree ν)) {key : String} {value : JsonTree ν}
    (hkey : key ≠ includeKey)
    (hreached : FieldReached (expandFile ctx levels basePath) (before ++ (key, value) :: after)
      before)
    (hvalue : Requests ctx levels basePath chain value chain' path) :
    Requests ctx levels basePath chain (.obj (before ++ (key, value) :: after)) chain' path
  | directive {levels : Nat} {basePath path includePath : String} {chain : List String}
    {fields : Fields (JsonTree ν)} {directive : JsonTree ν} {root : IncludeRoot}
    (hget : Fields.get includeKey fields = some directive)
    (hasks : Asks (expandFile ctx levels basePath) includePath directive)
    (hpath : resolvePath ctx basePath includePath = .ok (path, root)) :
    Requests ctx levels basePath chain (.obj fields) chain path
  | nested {levels : Nat} {basePath path path' includePath : String} {chain chain' : List String}
    {fields : Fields (JsonTree ν)} {directive content : JsonTree ν}
    (hget : Fields.get includeKey fields = some directive)
    (hasks : Asks (expandFile ctx (levels + 1) basePath) includePath directive)
    (hfile : includedFile ctx basePath includePath = some (path, content))
    (hcontent : Requests ctx levels path (chain ++ [path]) content chain' path') :
    Requests ctx (levels + 1) basePath chain (.obj fields) chain' path'

/-- The file is inside an allowed root, with its links resolved, or is not there. -/
def Inside (ctx : IncludeContext ν) (read : IncludeFileReadParams) : Prop :=
  match ctx.host.realpathSync read.resolvedPath with
  | .found real => ∃ root ∈ ctx.roots, root.rootRealDir = read.rootRealDir ∧
      ctx.host.isPathInside root.rootRealDir real = true
  | .notFound => ∃ root ∈ ctx.roots, ctx.host.isPathInside root.rootDir read.resolvedPath = true
  | .failed => False

end OpenClaw.Config
