import OpenClaw.Config.IncludeRuns
import OpenClaw.Lib.Forall2

/-!
# Resolving the includes of a config

**Theorem (`resolveConfigIncludes_spec`).** Resolving fails on a circle exactly when a file is asked
for while it is being included. It reads only files inside the roots. Otherwise it gives what the
reference gives for at most ten levels of files. Part of a list of files may be moved into a file
of its own, where the merges are aligned.
-/

namespace OpenClaw.Config

variable {ν : Type}

/-! ## Expanding with more files -/

theorem mapM_eq_some_iff {α β : Type} {f : α → Option β} {xs : List α} {ys : List β} :
    xs.mapM f = some ys ↔ List.Forall₂ (fun x y => f x = some y) xs ys := by
  induction xs generalizing ys with
  | nil => simp [eq_comm]
  | cons x xs ih =>
    simp only [List.mapM_cons, Option.bind_eq_bind, Option.bind_eq_some_iff, ih,
      List.forall₂_cons_left_iff]
    constructor
    · rintro ⟨y, hy, zs, hzs, h⟩
      cases h
      exact ⟨y, zs, hy, hzs, rfl⟩
    · rintro ⟨y, zs, hy, hzs, rfl⟩
      exact ⟨y, hy, zs, hzs, rfl⟩

section

variable {file file' : String → Option (JsonTree ν)}

variable {value : JsonTree ν}

variable {directive : JsonTree ν}

theorem expandDirective_mono (h : ∀ path value, file path = some value → file' path = some value)
    (hvalue : expandDirective file directive = some value) :
    expandDirective file' directive = some value := by
  have hnamed : ∀ item value, namedFile file item = some value →
      namedFile file' item = some value := by
    intro item value hitem
    cases item with
    | str path => exact h path value hitem
    | _ => cases hitem
  cases directive with
  | arr items =>
    obtain ⟨values, hvalues, rfl⟩ := Option.map_eq_some_iff.1 hvalue
    refine Option.map_eq_some_iff.2 ⟨values, ?_, rfl⟩
    rw [mapM_eq_some_iff] at hvalues ⊢
    exact hvalues.imp fun item value => hnamed item value
  | str path => exact h path value hvalue
  | _ => cases hvalue

variable {tree : JsonTree ν}

theorem expand_mono (h : ∀ path value, file path = some value → file' path = some value)
    (hvalue : expand file tree = some value) : expand file' tree = some value := by
  induction tree using JsonTree.induct generalizing value with
  | harr items ih =>
    obtain ⟨expanded, hexpanded, rfl⟩ := Option.map_eq_some_iff.1 hvalue
    refine Option.map_eq_some_iff.2 ⟨expanded, ?_, rfl⟩
    clear hvalue
    induction items generalizing expanded with
    | nil => exact hexpanded
    | cons item items ihItems =>
      obtain ⟨hitem, hrest⟩ := List.forall_mem_cons.1 ih
      obtain ⟨first, hfirst, hmap⟩ := Option.bind_eq_some_iff.1 hexpanded
      obtain ⟨rest, hitems, rfl⟩ := Option.map_eq_some_iff.1 hmap
      exact Option.bind_eq_some_iff.2 ⟨first, hitem hfirst,
        Option.map_eq_some_iff.2 ⟨rest, ihItems hrest rest hitems, rfl⟩⟩
  | hobj fields ih =>
    have hfields : ∀ rest, expandFields file fields = some rest →
        expandFields file' fields = some rest := by
      clear hvalue
      induction fields with
      | nil => exact fun rest hrest => hrest
      | cons f fields ihFields =>
        obtain ⟨hf, hrest⟩ := List.forall_mem_cons.1 ih
        intro result hresult
        rw [expandFields] at hresult ⊢
        by_cases hkey : f.1 = includeKey
        · rw [if_pos hkey] at hresult ⊢
          exact ihFields hrest result hresult
        · rw [if_neg hkey] at hresult ⊢
          obtain ⟨first, hfirst, hmap⟩ := Option.bind_eq_some_iff.1 hresult
          obtain ⟨rest, hfields, rfl⟩ := Option.map_eq_some_iff.1 hmap
          exact Option.bind_eq_some_iff.2 ⟨first, hf hfirst,
            Option.map_eq_some_iff.2 ⟨rest, ihFields hrest rest hfields, rfl⟩⟩
    rw [expand] at hvalue ⊢
    cases hget : Fields.get includeKey fields with
    | none =>
      rw [hget] at hvalue
      obtain ⟨rest, hrest, rfl⟩ := Option.map_eq_some_iff.1 hvalue
      exact Option.map_eq_some_iff.2 ⟨rest, hfields rest hrest, rfl⟩
    | some directive =>
      rw [hget] at hvalue
      obtain ⟨included, hincluded, hbind⟩ := Option.bind_eq_some_iff.1 hvalue
      obtain ⟨rest, hrest, hoverlay⟩ := Option.bind_eq_some_iff.1 hbind
      exact Option.bind_eq_some_iff.2 ⟨included, expandDirective_mono h hincluded,
        Option.bind_eq_some_iff.2 ⟨rest, hfields rest hrest, hoverlay⟩⟩
  | _ => exact hvalue

/-! ## Distinct names -/

variable {values : List (JsonTree ν)}

theorem distinct_foldl {merged : JsonTree ν} (h : merged.Distinct)
    (hvalues : ∀ value ∈ values, value.Distinct) : (values.foldl deepMerge merged).Distinct := by
  induction values generalizing merged with
  | nil => exact h
  | cons value values ih =>
    obtain ⟨hvalue, hrest⟩ := List.forall_mem_cons.1 hvalues
    exact ih (distinct_deepMerge h hvalue) hrest

section

variable (hfile : ∀ path value, file path = some value → value.Distinct)
include hfile

theorem forall_distinct_of_mapM {items : List (JsonTree ν)}
    (h : items.mapM (namedFile file) = some values) : ∀ value ∈ values, value.Distinct := by
  rw [mapM_eq_some_iff] at h
  intro value hvalue
  obtain ⟨item, _, hitem⟩ := h.exists_left hvalue
  cases item with
  | str path => exact hfile path value hitem
  | _ => cases hitem

theorem distinct_expandDirective (h : expandDirective file directive = some value) :
    value.Distinct := by
  cases directive with
  | arr items =>
    obtain ⟨values, hvalues, rfl⟩ := Option.map_eq_some_iff.1 h
    exact distinct_foldl .emptyObj (forall_distinct_of_mapM hfile hvalues)
  | str path => exact hfile path value h
  | _ => cases h

theorem distinct_expand (htree : tree.Distinct) (h : expand file tree = some value) :
    value.Distinct := by
  induction tree using JsonTree.induct generalizing value with
  | harr items ih =>
    obtain ⟨expanded, hexpanded, rfl⟩ := Option.map_eq_some_iff.1 h
    refine .arr ?_
    clear h
    have hitems := htree.item
    clear htree
    induction items generalizing expanded with
    | nil =>
      cases hexpanded
      exact List.forall_mem_nil _
    | cons item items ihItems =>
      obtain ⟨hitem, hrest⟩ := List.forall_mem_cons.1 ih
      obtain ⟨hdistinct, hdistincts⟩ := List.forall_mem_cons.1 hitems
      obtain ⟨first, hfirst, hmap⟩ := Option.bind_eq_some_iff.1 hexpanded
      obtain ⟨rest, hrest', rfl⟩ := Option.map_eq_some_iff.1 hmap
      exact List.forall_mem_cons.2 ⟨hitem hdistinct hfirst, ihItems hrest rest hrest' hdistincts⟩
  | hobj fields ih =>
    have hfields : ∀ rest, expandFields file fields = some rest →
        rest.names.Sublist fields.names ∧ ∀ f ∈ rest, f.2.Distinct := by
      have hdistinct := htree.fields
      clear h htree
      induction fields with
      | nil =>
        intro rest hrest
        cases hrest
        exact ⟨List.Sublist.refl _, List.forall_mem_nil _⟩
      | cons f fields ihFields =>
        obtain ⟨hf, hrest⟩ := List.forall_mem_cons.1 ih
        obtain ⟨hvalue, hvalues⟩ := List.forall_mem_cons.1 hdistinct
        intro result hresult
        rw [expandFields] at hresult
        by_cases hkey : f.1 = includeKey
        · rw [if_pos hkey] at hresult
          obtain ⟨hnames, hall⟩ := ihFields hrest hvalues result hresult
          exact ⟨hnames.cons f.1, hall⟩
        · rw [if_neg hkey] at hresult
          obtain ⟨first, hfirst, hmap⟩ := Option.bind_eq_some_iff.1 hresult
          obtain ⟨rest, hfields, rfl⟩ := Option.map_eq_some_iff.1 hmap
          obtain ⟨hnames, hall⟩ := ihFields hrest hvalues rest hfields
          by_cases hproto : f.1 = "__proto__"
          · rw [if_pos hproto]
            exact ⟨hnames.cons f.1, hall⟩
          · rw [if_neg hproto]
            exact ⟨hnames.cons_cons f.1, List.forall_mem_cons.2 ⟨hf hvalue hfirst, hall⟩⟩
    rw [expand] at h
    cases hget : Fields.get includeKey fields with
    | none =>
      rw [hget] at h
      obtain ⟨rest, hrest, rfl⟩ := Option.map_eq_some_iff.1 h
      obtain ⟨hnames, hall⟩ := hfields rest hrest
      exact .obj (htree.names.sublist hnames) hall
    | some directive =>
      rw [hget] at h
      obtain ⟨included, hincluded, hbind⟩ := Option.bind_eq_some_iff.1 h
      obtain ⟨rest, hrest, hoverlay⟩ := Option.bind_eq_some_iff.1 hbind
      obtain ⟨hnames, hall⟩ := hfields rest hrest
      have hdistinct := distinct_expandDirective hfile hincluded
      unfold overlay at hoverlay
      split at hoverlay
      · cases hoverlay
        exact hdistinct
      · split at hoverlay
        · cases hoverlay
          exact distinct_deepMerge hdistinct (.obj (htree.names.sublist hnames) hall)
        · cases hoverlay
  | _ =>
    cases h
    exact htree

end

end

section

variable {ctx : IncludeContext ν} {levels : Nat} {basePath includePath : String}

variable {value : JsonTree ν}

theorem expandFile_succ (h : expandFile ctx levels basePath includePath = some value) :
    expandFile ctx (levels + 1) basePath includePath = some value := by
  induction levels generalizing basePath includePath value with
  | zero => cases h
  | succ levels ih =>
    obtain ⟨f, hf, hvalue⟩ := Option.bind_eq_some_iff.1 h
    refine Option.bind_eq_some_iff.2 ⟨f, hf, ?_⟩
    exact expand_mono (fun path inner hinner => ih hinner) hvalue

theorem distinct_expandFile (h : expandFile ctx levels basePath includePath = some value) :
    value.Distinct := by
  induction levels generalizing basePath includePath value with
  | zero => cases h
  | succ levels ih =>
    obtain ⟨f, hf, hvalue⟩ := Option.bind_eq_some_iff.1 h
    obtain ⟨found, _, hread⟩ := Option.bind_eq_some_iff.1 hf
    obtain ⟨raw, _, hparsed⟩ := Option.bind_eq_some_iff.1 hread
    obtain ⟨content, hcontent, rfl⟩ := Option.map_eq_some_iff.1 hparsed
    exact distinct_expand (fun path inner hinner => ih hinner)
      (ctx.resolver.parseJson_distinct hcontent) hvalue

/-! ## Moving files of a list into a file -/

/-- An object with nothing but the directive for these files. -/
def includeOf (paths : List String) : JsonTree ν := .obj [(includeKey, .arr (paths.map .str))]

variable {file : String → Option (JsonTree ν)}

theorem expand_includeOf (paths : List String) :
    expand file (includeOf paths) = (paths.mapM file).map (List.foldl deepMerge (.obj [])) := by
  have hnamed : (paths.map JsonTree.str).mapM (namedFile file) = paths.mapM file := by
    rw [List.mapM_map]
    rfl
  let fields : Fields (JsonTree ν) := [(includeKey, .arr (paths.map .str))]
  have hget : Fields.get includeKey fields = some (.arr (paths.map .str)) := rfl
  have hsiblings : hasSiblings fields = false := by simp [fields, hasSiblings]
  change expand file (.obj fields) = _
  rw [expand, hget]
  dsimp only
  rw [expandDirective, hnamed]
  cases paths.mapM file with
  | none => rfl
  | some values => simp [expandFields_of_no_siblings hsiblings, overlay, hsiblings]

variable {values : List (JsonTree ν)}

theorem mapM_append_eq_some {front back : List String}
    (h : (front ++ back).mapM file = some values) :
    ∃ first last, front.mapM file = some first ∧ back.mapM file = some last ∧
      values = first ++ last := by
  rw [List.mapM_append] at h
  obtain ⟨first, hfirst, hbind⟩ := Option.bind_eq_some_iff.1 h
  obtain ⟨last, hlast, hpure⟩ := Option.bind_eq_some_iff.1 hbind
  cases hpure
  exact ⟨first, last, hfirst, hlast, rfl⟩

variable {paths paths' : List String} {path : String}

theorem values_eq {values' : List (JsonTree ν)}
    (hpaths : List.Forall₂ (fun includePath includePath' =>
      includedFile ctx basePath includePath = includedFile ctx path includePath') paths paths')
    (hvalues : List.Forall₂ (fun includePath value =>
      expandFile ctx (levels + 1) basePath includePath = some value) paths values)
    (hvalues' : List.Forall₂ (fun includePath value =>
      expandFile ctx levels path includePath = some value) paths' values') : values' = values := by
  induction hpaths generalizing values values' with
  | nil =>
    cases hvalues
    cases hvalues'
    rfl
  | cons hsame _ ih =>
    cases hvalues with
    | cons hvalue hrest =>
    cases hvalues' with
    | cons hvalue' hrest' =>
    have hnext := expandFile_succ hvalue'
    rw [expandFile, ← hsame] at hnext
    rw [ih hrest hrest', Option.some_inj.1 (hnext.symm.trans hvalue)]

theorem expand_split {before after : List String} {group : String} {merged : Fields (JsonTree ν)}
    {split joined : JsonTree ν}
    (hgroup : includedFile ctx basePath group = some (path, includeOf paths'))
    (hpaths : List.Forall₂ (fun includePath includePath' =>
      includedFile ctx basePath includePath = includedFile ctx path includePath') paths paths')
    (hmerged : expand (expandFile ctx levels basePath) (includeOf before) = some (.obj merged))
    (hvalues : paths.mapM (expandFile ctx levels basePath) = some values)
    (haligned : AlignedAfter (.obj merged) (.obj []) values)
    (hsplit : expand (expandFile ctx levels basePath) (includeOf (before ++ group :: after)) =
      some split)
    (hjoined : expand (expandFile ctx levels basePath) (includeOf (before ++ paths ++ after)) =
      some joined) : split = joined := by
  rw [expand_includeOf] at hmerged hsplit hjoined
  obtain ⟨first, hfirst, hfold⟩ := Option.map_eq_some_iff.1 hmerged
  obtain ⟨all, hall, rfl⟩ := Option.map_eq_some_iff.1 hsplit
  obtain ⟨all', hall', rfl⟩ := Option.map_eq_some_iff.1 hjoined
  obtain ⟨first', last, hfirst', hlast, rfl⟩ := mapM_append_eq_some hall
  obtain ⟨middle, last', hmiddle, hlast', rfl⟩ := mapM_append_eq_some hall'
  obtain ⟨first'', values', hfirst'', hvalues', rfl⟩ := mapM_append_eq_some hmiddle
  cases hfirst.symm.trans hfirst'
  cases hfirst.symm.trans hfirst''
  cases hvalues.symm.trans hvalues'
  rw [mapM_eq_some_iff] at hlast
  cases hlast with
  | @cons _ moved _ rest hmoved hrest =>
  rw [← mapM_eq_some_iff, hlast', Option.some_inj] at hrest
  subst hrest
  have hmovedFold : moved = values.foldl deepMerge (.obj []) := by
    cases levels with
    | zero => cases hmoved
    | succ levels =>
      obtain ⟨f, hf, hcontent⟩ := Option.bind_eq_some_iff.1 hmoved
      cases hgroup.symm.trans hf
      rw [expand_includeOf] at hcontent
      obtain ⟨inner, hinner, rfl⟩ := Option.map_eq_some_iff.1 hcontent
      exact congrArg (List.foldl deepMerge _)
        (values_eq hpaths (mapM_eq_some_iff.1 hvalues) (mapM_eq_some_iff.1 hinner))
  have hdistinct : ∀ value ∈ values, value.Distinct := by
    intro value hvalue
    obtain ⟨includePath, _, hfile⟩ := (mapM_eq_some_iff.1 hvalues).exists_left hvalue
    exact distinct_expandFile hfile
  have hobject : (JsonTree.obj merged).Distinct := by
    rw [← hfold]
    refine distinct_foldl .emptyObj fun value hvalue => ?_
    obtain ⟨includePath, _, hfile⟩ := (mapM_eq_some_iff.1 hfirst).exists_left hvalue
    exact distinct_expandFile hfile
  rw [List.foldl_append, List.foldl_append, List.foldl_append, hfold, List.foldl_cons, hmovedFold,
    foldl_deepMerge_split hobject hdistinct haligned]

end

/-- **Resolving includes.** -/
theorem resolveConfigIncludes_spec (host : Host) (resolver : IncludeResolver ν)
    (obj : JsonTree ν) (configPath : String) (allowedRoots : List String) :
    let ctx := includeContext host resolver configPath allowedRoots
    let file := expandFile ctx maxIncludeDepth configPath
    let resolve := fun value => resolveConfigIncludes host resolver value configPath allowedRoots
    ((∃ chain, (resolve obj).result = .error (.circular chain)) ↔
      ∃ chain path, Requests ctx maxIncludeDepth configPath [host.normalize configPath] obj chain
        path ∧ path ∈ chain) ∧
    (∀ circle, (resolve obj).result = .error (.circular circle) →
      ∃ chain path, Requests ctx maxIncludeDepth configPath [host.normalize configPath] obj chain
        path ∧ path ∈ chain ∧ circle = chain ++ [path]) ∧
    (∀ read ∈ (resolve obj).log, Inside ctx read) ∧
    ((¬ ∃ chain, (resolve obj).result = .error (.circular chain)) →
      ∀ value, (resolve obj).result = .ok value ↔ expand file obj = some value) ∧
    (∀ a b c : JsonTree ν, a.Distinct → b.Distinct → c.Distinct →
      (deepMerge (deepMerge a b) c = deepMerge a (deepMerge b c) ↔ Aligned a b c)) ∧
    ∀ (before paths paths' after : List String) (group path : String)
      (merged : Fields (JsonTree ν)) (values : List (JsonTree ν)) (split joined : JsonTree ν),
      includedFile ctx configPath group = some (path, includeOf paths') →
      List.Forall₂ (fun includePath includePath' =>
        includedFile ctx configPath includePath = includedFile ctx path includePath')
        paths paths' →
      expand file (includeOf before) = some (.obj merged) → paths.mapM file = some values →
      AlignedAfter (.obj merged) (.obj []) values →
      (resolve (includeOf (before ++ group :: after))).result = .ok split →
      (resolve (includeOf (before ++ paths ++ after))).result = .ok joined → split = joined := by
  intro ctx file resolve
  have hfollows : ∀ value, Follows (resolve value) (expand file value) :=
    process_follows loadFile_follows
  refine ⟨⟨?_, ?_⟩, ?_, ?_, ?_, ?_, ?_⟩
  · intro ⟨circle, hcircle⟩
    obtain ⟨chain, path, hrequests, hmem, _⟩ := requests_of_circular hcircle
    exact ⟨chain, path, hrequests, hmem⟩
  · intro ⟨chain, path, hrequests, hmem⟩
    exact circular_of_requests hrequests hmem
  · intro circle hcircle
    exact requests_of_circular hcircle
  · exact logs_process logs_loadFile obj
  · intro hcircular value
    constructor
    · exact (hfollows obj).sound value
    · intro hvalue
      exact ((hfollows obj).complete value hvalue).resolve_right hcircular
  · intro a b c ha hb hc
    exact deepMerge_assoc_iff ha hb hc
  · intro before paths paths' after group path merged values split joined hgroup hpaths hmerged
      hvalues haligned hsplit hjoined
    exact expand_split hgroup hpaths hmerged hvalues haligned ((hfollows _).sound split hsplit)
      ((hfollows _).sound joined hjoined)

/-- A platform on which every path is absolute, normalized and inside the root, and is no link. -/
def plainHost : Host where
  normalize := id
  resolve _ path := path
  dirname _ := "/"
  isAbsolute _ := true
  realpathSync path := .found path
  isPathInside _ _ := true

theorem distinct_includeOf (paths : List String) : (includeOf paths : JsonTree ν).Distinct := by
  refine .obj (by simp [Fields.names]) ?_
  simp only [List.mem_singleton, forall_eq]
  refine .arr ?_
  intro item hitem
  obtain ⟨path, _, rfl⟩ := List.mem_map.1 hitem
  exact .str path

/-- Files that include the path that is longer by one letter, up to a length. -/
def growingFiles (stop : Nat) : IncludeResolver Nat where
  readFile path := some path
  readFileWithGuards := none
  parseJson raw :=
    some (if raw.toList.length < stop then includeOf [raw ++ "a"] else .obj [])
  parseJson_distinct := by
    intro raw parsed h
    cases h
    split
    · exact distinct_includeOf _
    · exact .emptyObj

/-- A config that includes itself. -/
theorem resolveConfigIncludes_self : ∃ chain,
    (resolveConfigIncludes plainHost (growingFiles 0) (includeOf ["/a"]) "/a" []).result =
      .error (.circular chain) :=
  (resolveConfigIncludes_spec plainHost (growingFiles 0) (includeOf ["/a"]) "/a" []).1.2
    ⟨["/a"], "/a", .directive rfl (.listed [] [] (List.forall_mem_nil _)) rfl, by decide⟩

/-- Merging three objects without blocked keys is not associative, and eleven files that include one
another in a row are not resolved. -/
theorem deepMerge_not_assoc :
    (¬ ∀ xs ys zs : Fields (JsonTree Nat),
      (∀ f ∈ xs ++ ys ++ zs, isBlockedObjectKey f.1 = false) →
        deepMerge (deepMerge (.obj xs) (.obj ys)) (.obj zs) =
          deepMerge (.obj xs) (deepMerge (.obj ys) (.obj zs))) ∧
    (resolveConfigIncludes plainHost (growingFiles 11) (includeOf ["a"]) "" []).result.isOk =
      false ∧
    (expand (expandFile (includeContext plainHost (growingFiles 11) "" []) 11 "")
      (includeOf ["a"])).isSome = true := by
  refine ⟨?_, by decide +kernel, by decide +kernel⟩
  intro h
  have hassoc := h [("k", .arr [.num 1])] [("k", .null)] [("k", .arr [.num 2])] (by decide)
  simp [deepMerge, mergeFields, isBlockedObjectKey, Fields.get, Fields.set, KeyedList.get,
    KeyedList.put] at hassoc

end OpenClaw.Config
