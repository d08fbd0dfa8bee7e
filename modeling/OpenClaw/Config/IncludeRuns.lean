import OpenClaw.Config.IncludeSpec

/-!
# Include runs

* `Follows`: a computation that succeeds gives the value of the reference, and where the reference
  has a value it succeeds or fails on a circle. `process_follows` and `loadFile_follows`: this holds
  of values and of files, whatever files are being included.
* `circular_of_requests` and `requests_of_circular`: processing a value fails on a circle exactly
  when it asks for a file that is being included.
* `logs_process`: only files inside the roots are read.
-/

namespace OpenClaw.Config

variable {ν α β : Type}

/-! ## Following the reference -/

/-- It fails on a circle. -/
def Circular (x : Include ν α) : Prop := ∃ chain, x.result = .error (.circular chain)

structure Follows (x : Include ν α) (value : Option α) : Prop where
  sound : ∀ a, x.result = .ok a → value = some a
  complete : ∀ a, value = some a → x.result = .ok a ∨ Circular x

section

variable {x : Include ν α} {f : α → Include ν β} {value : Option α} {g : α → Option β} {a : α}

theorem Circular.bind (h : Circular x) : Circular (x >>= f) := by
  obtain ⟨chain, h⟩ := h
  exact ⟨chain, Logged.result_bind_of_error h⟩

theorem Circular.bind_of_ok (hx : x.result = .ok a) (h : Circular (f a)) : Circular (x >>= f) := by
  obtain ⟨chain, h⟩ := h
  exact ⟨chain, (Logged.result_bind_of_ok hx).trans h⟩

theorem Follows.circular_bind (hx : Follows x value) (hvalue : value = some a)
    (h : Circular (f a)) : Circular (x >>= f) := by
  obtain hok | hcircular := hx.complete a hvalue
  · exact h.bind_of_ok hok
  · exact hcircular.bind

theorem follows_pure : Follows (pure a : Include ν α) (some a) := by
  constructor
  · intro b hb
    rw [Logged.result_pure, Except.ok.injEq] at hb
    rw [hb]
  · intro b hb
    cases hb
    exact .inl rfl

theorem follows_fail (e : IncludeError ν) : Follows (.fail e : Include ν α) none := by
  constructor
  · intro b hb
    cases hb
  · intro b hb
    cases hb

theorem follows_ofExcept (x : Except (IncludeError ν) α) :
    Follows (.ofExcept x) x.toOption := by
  constructor
  · intro b hb
    rw [Logged.result_ofExcept] at hb
    rw [hb]
    rfl
  · intro b hb
    cases x with
    | ok c =>
      cases hb
      exact .inl rfl
    | error e => cases hb

theorem Follows.bind (hx : Follows x value) (hf : ∀ a, Follows (f a) (g a)) :
    Follows (x >>= f) (value.bind g) := by
  constructor
  · intro b hb
    obtain ⟨a, ha, hb⟩ := Logged.result_bind_eq_ok.1 hb
    rw [hx.sound a ha]
    exact (hf a).sound b hb
  · intro b hb
    obtain ⟨a, ha, hb⟩ := Option.bind_eq_some_iff.1 hb
    obtain hok | hcircular := hx.complete a ha
    · obtain hfok | hfcircular := (hf a).complete b hb
      · exact .inl ((Logged.result_bind_of_ok hok).trans hfok)
      · exact .inr (hfcircular.bind_of_ok hok)
    · exact .inr hcircular.bind

theorem Follows.map (hx : Follows x value) (h : α → β) :
    Follows (x >>= fun a => pure (h a)) (value.map h) := by
  rw [Option.map_eq_bind]
  exact hx.bind fun a => follows_pure

end

/-! ## Values -/

section

variable {load : String → Include ν (JsonTree ν)} {file : String → Option (JsonTree ν)}
  (hload : ∀ includePath, Follows (load includePath) (file includePath))

include hload

theorem includeList_follows (merged : JsonTree ν) (items : List (JsonTree ν)) :
    Follows (includeList load merged items)
      ((items.mapM (namedFile file)).map (List.foldl deepMerge merged)) := by
  induction items generalizing merged with
  | nil => exact follows_pure
  | cons item items ih =>
    rw [List.mapM_cons]
    cases item with
    | str path =>
      have hrest := (hload path).bind fun loaded => ih (deepMerge merged loaded)
      refine cast (congrArg (Follows _) ?_) hrest
      cases hfile : file path with
      | none => simp [namedFile, hfile]
      | some loaded =>
        simp only [namedFile, hfile, Option.bind_some, Option.bind_eq_bind]
        cases items.mapM (namedFile file) <;> rfl
    | _ => exact follows_fail _

theorem resolveInclude_follows (directive : JsonTree ν) :
    Follows (resolveInclude load directive) (expandDirective file directive) := by
  cases directive with
  | str path => exact hload path
  | arr items => exact includeList_follows hload (.obj []) items
  | _ => exact follows_fail _

omit hload in
theorem processItems_follows {items : List (JsonTree ν)}
    (h : ∀ item ∈ items, Follows (process load item) (expand file item)) :
    Follows (processItems load items) (expandItems file items) := by
  induction items with
  | nil =>
    exact follows_pure
  | cons item items ih =>
    obtain ⟨hitem, hitems⟩ := List.forall_mem_cons.1 h
    exact hitem.bind fun value => (ih hitems).map (value :: ·)

variable {fields : Fields (JsonTree ν)}

omit hload in
theorem processFields_follows (h : ∀ f ∈ fields, Follows (process load f.2) (expand file f.2)) :
    Follows (processFields load fields) (expandFields file fields) := by
  induction fields with
  | nil =>
    exact follows_pure
  | cons f fields ih =>
    obtain ⟨key, value⟩ := f
    obtain ⟨hvalue, hfields⟩ := List.forall_mem_cons.1 h
    rw [processFields, expandFields]
    by_cases hkey : key = includeKey
    · rw [if_pos hkey, if_pos hkey]
      exact ih hfields
    · rw [if_neg hkey, if_neg hkey]
      exact hvalue.bind fun value => (ih hfields).map _

omit hload in
theorem expandFields_of_no_siblings (h : hasSiblings fields = false) :
    expandFields file fields = some [] := by
  induction fields with
  | nil => rw [expandFields]
  | cons f fields ih =>
    obtain ⟨key, value⟩ := f
    rw [hasSiblings, List.any_cons, Bool.or_eq_false_iff] at h
    have hkey : key = includeKey := by simpa using h.1
    rw [expandFields, if_pos hkey]
    exact ih h.2

theorem process_follows (value : JsonTree ν) :
    Follows (process load value) (expand file value) := by
  induction value using JsonTree.induct with
  | harr items ih =>
    exact (processItems_follows ih).map _
  | hobj fields ih =>
    have hfields := processFields_follows ih
    rw [process, expand]
    cases Fields.get includeKey fields with
    | none => exact hfields.map _
    | some directive =>
      refine (resolveInclude_follows hload directive).bind fun included => ?_
      cases hsiblings : hasSiblings fields with
      | false =>
        simpa [expandFields_of_no_siblings hsiblings, overlay, hsiblings] using follows_pure
      | true =>
        cases hobject : included.isPlainObject with
        | false => simpa [overlay, hsiblings, hobject] using follows_fail _
        | true =>
          refine hfields.bind fun rest => ?_
          rw [overlay, hsiblings, hobject, if_neg Bool.false_ne_true.symm, if_pos rfl]
          exact follows_pure
  | _ =>
    rw [process, expand] <;> first | exact follows_pure | simp

end

/-! ## Files -/

section

variable {ctx : IncludeContext ν} {levels : Nat} {basePath includePath path : String}
  {visited chain : List String} {root : IncludeRoot}

theorem containingRoot_ne_circular :
    containingRoot ctx includePath path ≠ .error (.circular chain) := by
  unfold containingRoot
  intro h
  repeat' split at h
  all_goals cases h

theorem resolvePath_ne_circular :
    resolvePath ctx basePath includePath ≠ .error (.circular chain) := by
  unfold resolvePath
  dsimp only
  intro h
  split at h
  · cases h
  split at h
  · cases h
  split at h
  · cases h
  cases hroot : containingRoot ctx includePath (normalizedInclude ctx basePath includePath) with
  | ok root =>
    rw [hroot] at h
    cases h
  | error e =>
    rw [hroot] at h
    cases h
    exact containingRoot_ne_circular hroot

theorem readText_ne_circular (params : IncludeFileReadParams) :
    readText ctx params ≠ .error (.circular chain) := by
  unfold readText
  intro h
  repeat' split at h
  all_goals cases h

theorem parseFile_ne_circular (raw : String) :
    parseFile ctx includePath path raw ≠ .error (.circular chain) := by
  unfold parseFile
  intro h
  split at h <;> cases h

theorem toOption_parseFile (raw : String) :
    (parseFile ctx includePath path raw).toOption = ctx.resolver.parseJson raw := by
  unfold parseFile
  split <;> rename_i h <;> rw [h] <;> rfl

theorem checkCircular_of_mem (h : path ∈ visited) :
    (checkCircular visited path : Except (IncludeError ν) Unit) =
      .error (.circular (visited ++ [path])) := if_pos h

theorem checkCircular_of_not_mem (h : path ∉ visited) :
    (checkCircular visited path : Except (IncludeError ν) Unit) = .ok () := if_neg h

/-- What loading does after the path was resolved and is not being included. -/
def loadResolved (ctx : IncludeContext ν) (levels : Nat) (visited : List String)
    (includePath path : String) (root : IncludeRoot) : Include ν (JsonTree ν) :=
  match levels with
  | 0 =>
    .fail (.include ("Maximum include depth (" ++ toString maxIncludeDepth ++ ") exceeded at: " ++
      includePath) includePath)
  | levels + 1 => do
    let raw ← readFile ctx includePath path root
    let parsed ← Logged.ofExcept (parseFile ctx includePath path raw)
    process (loadFile ctx levels path (visited ++ [path])) parsed

theorem loadFile_eq : loadFile ctx levels basePath visited includePath =
    (Logged.ofExcept (resolvePath ctx basePath includePath) >>= fun found =>
      Logged.ofExcept (checkCircular visited found.1) >>= fun _ =>
        loadResolved ctx levels visited includePath found.1 found.2) := by
  cases levels <;> rfl

theorem circular_loadFile_of_mem
    (hpath : resolvePath ctx basePath includePath = .ok (path, root)) (h : path ∈ visited) :
    Circular (loadFile ctx levels basePath visited includePath) := by
  rw [loadFile_eq, hpath]
  refine Circular.bind_of_ok (Logged.result_ofExcept) ?_
  rw [checkCircular_of_mem h]
  exact Circular.bind ⟨_, rfl⟩

theorem readFile_follows (root : IncludeRoot) :
    Follows (readFile ctx includePath path root)
      (readText ctx ⟨includePath, path, root.rootRealDir⟩).toOption := by
  have hperform : Follows (.perform ⟨includePath, path, root.rootRealDir⟩ : Include ν Unit)
      (some ()) := ⟨fun _ _ => rfl, fun _ _ => .inl rfl⟩
  exact hperform.bind fun _ => follows_ofExcept _

theorem loadFile_follows (includePath : String) :
    Follows (loadFile ctx levels basePath visited includePath)
      (expandFile ctx levels basePath includePath) := by
  induction levels generalizing basePath visited includePath with
  | zero =>
    constructor
    · intro value hvalue
      obtain ⟨found, _, hvalue⟩ := Logged.result_bind_eq_ok.1 hvalue
      obtain ⟨_, _, hvalue⟩ := Logged.result_bind_eq_ok.1 hvalue
      cases hvalue
    · intro value hvalue
      cases hvalue
  | succ levels ih =>
    have hresolved : ∀ found : String × IncludeRoot,
        Follows (Logged.ofExcept (checkCircular visited found.1) >>= fun _ =>
            loadResolved ctx (levels + 1) visited includePath found.1 found.2)
          ((readText ctx ⟨includePath, found.1, found.2.rootRealDir⟩).toOption.bind fun raw =>
            (ctx.resolver.parseJson raw).bind (expand (expandFile ctx levels found.1))) := by
      intro found
      have hload : Follows (loadResolved ctx (levels + 1) visited includePath found.1 found.2) _ :=
        (readFile_follows found.2).bind fun raw =>
          (follows_ofExcept (parseFile ctx includePath found.1 raw)).bind fun parsed =>
            process_follows (fun path => ih path) parsed
      simp only [toOption_parseFile] at hload
      by_cases hmem : found.1 ∈ visited
      · rw [checkCircular_of_mem hmem]
        have hcircular : Circular (Logged.ofExcept (.error (.circular (visited ++ [found.1])))
            >>= fun _ : Unit => loadResolved ctx (levels + 1) visited includePath found.1 found.2) :=
          Circular.bind ⟨_, rfl⟩
        refine ⟨fun value hvalue => ?_, fun _ _ => .inr hcircular⟩
        obtain ⟨chain, herror⟩ := hcircular
        cases hvalue
      · rw [checkCircular_of_not_mem hmem]
        exact hload
    refine cast (congrArg (Follows _) ?_) ((follows_ofExcept _).bind hresolved)
    simp [expandFile, includedFile, Option.bind_assoc, Option.map_eq_bind, Function.comp_def]

/-! ## A request for a file that is being included -/

variable {load : String → Include ν (JsonTree ν)} {file : String → Option (JsonTree ν)}
  {directive : JsonTree ν}

theorem circular_resolveInclude (hload : ∀ path, Follows (load path) (file path))
    (hasks : Asks file includePath directive) (h : Circular (load includePath)) :
    Circular (resolveInclude load directive) := by
  cases hasks with
  | single => exact h
  | listed before after hbefore =>
    rw [resolveInclude]
    generalize JsonTree.obj ([] : Fields (JsonTree ν)) = merged
    induction before generalizing merged with
    | nil => exact h.bind
    | cons item before ih =>
      obtain ⟨hitem, hrest⟩ := List.forall_mem_cons.1 hbefore
      obtain ⟨loaded, hloaded⟩ := Option.isSome_iff_exists.1 hitem
      cases item with
      | str path => exact (hload path).circular_bind hloaded (ih hrest _)
      | _ => cases hloaded

theorem circular_processItems (hload : ∀ path, Follows (load path) (file path))
    (before after : List (JsonTree ν)) {item : JsonTree ν}
    (hbefore : ∀ value ∈ before, (expand file value).isSome) (h : Circular (process load item)) :
    Circular (processItems load (before ++ item :: after)) := by
  induction before with
  | nil => exact h.bind
  | cons value before ih =>
    obtain ⟨hvalue, hrest⟩ := List.forall_mem_cons.1 hbefore
    obtain ⟨expanded, hexpanded⟩ := Option.isSome_iff_exists.1 hvalue
    exact (process_follows hload value).circular_bind hexpanded (ih hrest).bind

variable {value : JsonTree ν}

theorem circular_processFields (hload : ∀ path, Follows (load path) (file path))
    (before after : Fields (JsonTree ν)) {key : String} (hkey : key ≠ includeKey)
    (hbefore : ∀ f ∈ before, f.1 ≠ includeKey → (expand file f.2).isSome)
    (h : Circular (process load value)) :
    Circular (processFields load (before ++ (key, value) :: after)) := by
  induction before with
  | nil =>
    rw [List.nil_append, processFields, if_neg hkey]
    exact h.bind
  | cons f before ih =>
    obtain ⟨name, first⟩ := f
    obtain ⟨hfirst, hrest⟩ := List.forall_mem_cons.1 hbefore
    rw [List.cons_append, processFields]
    by_cases hname : name = includeKey
    · rw [if_pos hname]
      exact ih hrest
    · obtain ⟨expanded, hexpanded⟩ := Option.isSome_iff_exists.1 (hfirst hname)
      rw [if_neg hname]
      exact (process_follows hload first).circular_bind hexpanded (ih hrest).bind

variable {fields : Fields (JsonTree ν)}

theorem circular_process_of_directive (hget : Fields.get includeKey fields = some directive)
    (h : Circular (resolveInclude load directive)) : Circular (process load (.obj fields)) := by
  rw [process, hget]
  exact h.bind

theorem circular_of_requests {chain' : List String}
    (h : Requests ctx levels basePath chain value chain' path) (hmem : path ∈ chain') :
    Circular (process (loadFile ctx levels basePath chain) value) := by
  induction h with
  | item before after hbefore _ ih =>
    exact (circular_processItems loadFile_follows before after hbefore (ih hmem)).bind
  | @field levels basePath path chain chain' before after key value hkey hreached _ ih =>
    have hfields := circular_processFields loadFile_follows before after hkey hreached.2 (ih hmem)
    rw [process]
    cases hget : Fields.get includeKey (before ++ (key, value) :: after) with
    | none => exact hfields.bind
    | some directive =>
      obtain ⟨included, hincluded⟩ := hreached.1 directive hget
      refine (resolveInclude_follows loadFile_follows directive).circular_bind hincluded ?_
      have hsiblings : hasSiblings (before ++ (key, value) :: after) = true :=
        List.any_eq_true.2 ⟨(key, value), by simp, by simpa using hkey⟩
      have hobject : (JsonTree.obj included).isPlainObject = true := rfl
      rw [hsiblings, if_neg Bool.false_ne_true.symm, hobject, if_neg Bool.false_ne_true.symm]
      exact hfields.bind
  | directive hget hasks hpath =>
    exact circular_process_of_directive hget
      (circular_resolveInclude loadFile_follows hasks (circular_loadFile_of_mem hpath hmem))
  | @nested levels basePath path path' includePath chain chain' fields directive content hget hasks
      hfile _ ih =>
    refine circular_process_of_directive hget (circular_resolveInclude loadFile_follows hasks ?_)
    obtain ⟨⟨path, root⟩, hpath, hread⟩ := Option.bind_eq_some_iff.1 hfile
    obtain ⟨raw, hraw, hparsed⟩ := Option.bind_eq_some_iff.1 hread
    obtain ⟨content, hparsed, hpair⟩ := Option.map_eq_some_iff.1 hparsed
    cases hpair
    refine (follows_ofExcept _).circular_bind hpath ?_
    by_cases hmem' : path ∈ chain
    · rw [checkCircular_of_mem hmem']
      exact Circular.bind ⟨_, rfl⟩
    · rw [checkCircular_of_not_mem hmem']
      refine Circular.bind_of_ok Logged.result_ofExcept ?_
      refine (readFile_follows root).circular_bind hraw ?_
      refine (follows_ofExcept _).circular_bind ((toOption_parseFile raw).trans hparsed) ?_
      exact ih hmem

/-! ## Where a circle comes from -/

variable {items : List (JsonTree ν)} {e : IncludeError ν}

section

variable (hload : ∀ path, Follows (load path) (file path))
include hload

theorem processItems_error (h : (processItems load items).result = .error e) :
    ∃ before item after, items = before ++ item :: after ∧
      (∀ value ∈ before, (expand file value).isSome) ∧ (process load item).result = .error e := by
  induction items with
  | nil => cases h
  | cons item items ih =>
    obtain h | ⟨value, hvalue, h⟩ := Logged.result_bind_eq_error.1 h
    · exact ⟨[], item, items, rfl, List.forall_mem_nil _, h⟩
    · obtain h | ⟨_, _, h⟩ := Logged.result_bind_eq_error.1 h
      · obtain ⟨before, last, after, rfl, hbefore, hlast⟩ := ih h
        have hitem : (expand file item).isSome := by
          rw [(process_follows hload item).sound value hvalue]
          rfl
        exact ⟨item :: before, last, after, rfl, List.forall_mem_cons.2 ⟨hitem, hbefore⟩, hlast⟩
      · cases h

theorem processFields_error (h : (processFields load fields).result = .error e) :
    ∃ before key value after, fields = before ++ (key, value) :: after ∧ key ≠ includeKey ∧
      (∀ f ∈ before, f.1 ≠ includeKey → (expand file f.2).isSome) ∧
        (process load value).result = .error e := by
  induction fields with
  | nil => cases h
  | cons f fields ih =>
    obtain ⟨name, first⟩ := f
    rw [processFields] at h
    by_cases hname : name = includeKey
    · rw [if_pos hname] at h
      obtain ⟨before, key, value, after, rfl, hkey, hbefore, hvalue⟩ := ih h
      exact ⟨(name, first) :: before, key, value, after, rfl, hkey,
        List.forall_mem_cons.2 ⟨fun hne => absurd hname hne, hbefore⟩, hvalue⟩
    · rw [if_neg hname] at h
      obtain h | ⟨processed, hprocessed, h⟩ := Logged.result_bind_eq_error.1 h
      · exact ⟨[], name, first, fields, rfl, hname, List.forall_mem_nil _, h⟩
      · obtain h | ⟨_, _, h⟩ := Logged.result_bind_eq_error.1 h
        · obtain ⟨before, key, value, after, rfl, hkey, hbefore, hvalue⟩ := ih h
          have hfirst : (expand file first).isSome := by
            rw [(process_follows hload first).sound processed hprocessed]
            rfl
          exact ⟨(name, first) :: before, key, value, after, rfl, hkey,
            List.forall_mem_cons.2 ⟨fun _ => hfirst, hbefore⟩, hvalue⟩
        · cases h

theorem includeList_error {merged : JsonTree ν}
    (h : (includeList load merged items).result = .error (.circular chain)) :
    ∃ before path after, items = before ++ .str path :: after ∧
      (∀ item ∈ before, (namedFile file item).isSome) ∧
        (load path).result = .error (.circular chain) := by
  induction items generalizing merged with
  | nil => cases h
  | cons item items ih =>
    cases item with
    | str path =>
      obtain h | ⟨loaded, hloaded, h⟩ := Logged.result_bind_eq_error.1 h
      · exact ⟨[], path, items, rfl, List.forall_mem_nil _, h⟩
      · obtain ⟨before, last, after, rfl, hbefore, hlast⟩ := ih h
        have hpath : (namedFile file (.str path)).isSome := by
          rw [namedFile, (hload path).sound loaded hloaded]
          rfl
        exact ⟨.str path :: before, last, after, rfl, List.forall_mem_cons.2 ⟨hpath, hbefore⟩,
          hlast⟩
    | _ => cases h

theorem resolveInclude_error
    (h : (resolveInclude load directive).result = .error (.circular chain)) :
    ∃ path, Asks file path directive ∧ (load path).result = .error (.circular chain) := by
  cases directive with
  | str path => exact ⟨path, .single, h⟩
  | arr items =>
    obtain ⟨before, path, after, rfl, hbefore, hpath⟩ := includeList_error hload h
    exact ⟨path, .listed before after hbefore, hpath⟩
  | _ => cases h

end

theorem loadFile_error
    (h : (loadFile ctx levels basePath visited includePath).result = .error (.circular chain)) :
    ∃ path root, resolvePath ctx basePath includePath = .ok (path, root) ∧
      ((path ∈ visited ∧ chain = visited ++ [path]) ∨
        ∃ inner content, levels = inner + 1 ∧
          includedFile ctx basePath includePath = some (path, content) ∧
          (process (loadFile ctx inner path (visited ++ [path])) content).result =
            .error (.circular chain)) := by
  rw [loadFile_eq] at h
  obtain h | ⟨⟨path, root⟩, hpath, h⟩ := Logged.result_bind_eq_error.1 h
  · exact absurd h resolvePath_ne_circular
  refine ⟨path, root, hpath, ?_⟩
  obtain h | ⟨_, _, h⟩ := Logged.result_bind_eq_error.1 h
  · left
    by_cases hmem : path ∈ visited
    · rw [checkCircular_of_mem hmem, Logged.result_ofExcept] at h
      cases h
      exact ⟨hmem, rfl⟩
    · rw [checkCircular_of_not_mem hmem] at h
      cases h
  · right
    cases levels with
    | zero => cases h
    | succ inner =>
      obtain h | ⟨raw, hraw, h⟩ := Logged.result_bind_eq_error.1 h
      · obtain h | ⟨_, _, h⟩ := Logged.result_bind_eq_error.1 h
        · cases h
        · exact absurd h (readText_ne_circular _)
      · obtain h | ⟨content, hcontent, h⟩ := Logged.result_bind_eq_error.1 h
        · exact absurd h (parseFile_ne_circular raw)
        refine ⟨inner, content, rfl, ?_, h⟩
        have hraw' := (readFile_follows root).sound raw hraw
        have hcontent' := (follows_ofExcept _).sound content hcontent
        rw [toOption_parseFile] at hcontent'
        rw [Logged.result_ofExcept] at hpath
        refine Option.bind_eq_some_iff.2 ⟨(path, root), by rw [hpath]; rfl, ?_⟩
        exact Option.bind_eq_some_iff.2 ⟨raw, hraw', by rw [hcontent']; rfl⟩

theorem requests_of_circular
    (h : (process (loadFile ctx levels basePath visited) value).result = .error (.circular chain)) :
    ∃ chain' path, Requests ctx levels basePath visited value chain' path ∧ path ∈ chain' ∧
      chain = chain' ++ [path] := by
  induction levels using Nat.strong_induction_on generalizing basePath visited value with
  | _ levels ihLevels =>
    induction value using JsonTree.induct with
    | harr items ih =>
      obtain h | ⟨_, _, h⟩ := Logged.result_bind_eq_error.1 h
      · obtain ⟨before, item, after, rfl, hbefore, hitem⟩ := processItems_error loadFile_follows h
        obtain ⟨chain', path, hrequests, hcircle⟩ := ih item (by simp) hitem
        exact ⟨chain', path, .item before after hbefore hrequests, hcircle⟩
      · cases h
    | hobj fields ih =>
      have hfields : ∀ hreached : (∀ directive, Fields.get includeKey fields = some directive →
          ∃ included, expandDirective (expandFile ctx levels basePath) directive =
            some (.obj included)),
          (processFields (loadFile ctx levels basePath visited) fields).result =
            .error (.circular chain) →
          ∃ chain' path, Requests ctx levels basePath visited (.obj fields) chain' path ∧
            path ∈ chain' ∧ chain = chain' ++ [path] := by
        intro hreached h
        obtain ⟨before, key, inner, after, rfl, hkey, hbefore, hinner⟩ :=
          processFields_error loadFile_follows h
        obtain ⟨chain', path, hrequests, hcircle⟩ := ih (key, inner) (by simp) hinner
        exact ⟨chain', path, .field before after hkey ⟨hreached, hbefore⟩ hrequests, hcircle⟩
      rw [process] at h
      cases hget : Fields.get includeKey fields with
      | none =>
        rw [hget] at h
        obtain h | ⟨_, _, h⟩ := Logged.result_bind_eq_error.1 h
        · exact hfields (fun directive hsome => nomatch hget.symm.trans hsome) h
        · cases h
      | some directive =>
        rw [hget] at h
        obtain h | ⟨included, hincluded, h⟩ := Logged.result_bind_eq_error.1 h
        · obtain ⟨includePath, hasks, hload⟩ := resolveInclude_error loadFile_follows h
          obtain ⟨path, root, hpath, ⟨hmem, hchain⟩ | ⟨inner, content, rfl, hfile, hcontent⟩⟩ :=
            loadFile_error hload
          · exact ⟨visited, path, .directive hget hasks hpath, hmem, hchain⟩
          · obtain ⟨chain', path', hrequests, hcircle⟩ :=
              ihLevels inner (Nat.lt_succ_self inner) hcontent
            exact ⟨chain', path', .nested hget hasks hfile hrequests, hcircle⟩
        · have hexpanded := (resolveInclude_follows loadFile_follows directive).sound _ hincluded
          cases hsiblings : hasSiblings fields with
          | false =>
            rw [hsiblings, if_pos rfl] at h
            cases h
          | true =>
            rw [hsiblings, if_neg Bool.false_ne_true.symm] at h
            cases hobject : included.isPlainObject with
            | false =>
              rw [hobject, if_pos rfl] at h
              cases directive <;> cases h
            | true =>
              rw [hobject, if_neg Bool.false_ne_true.symm] at h
              obtain h | ⟨_, _, h⟩ := Logged.result_bind_eq_error.1 h
              · refine hfields (fun other hother => ?_) h
                cases hget.symm.trans hother
                cases included with
                | obj merged => exact ⟨merged, hexpanded⟩
                | _ => cases hobject
              · cases h
    | _ => cases h

/-! ## The files that are read -/

variable {P : IncludeFileReadParams → Prop}

open Logged in
theorem logs_includeList (hload : ∀ path, Logs P (load path)) (merged : JsonTree ν)
    (items : List (JsonTree ν)) : Logs P (includeList load merged items) := by
  induction items generalizing merged with
  | nil => exact logs_pure
  | cons item items ih =>
    cases item with
    | str path => exact (hload path).bind fun loaded _ => ih (deepMerge merged loaded)
    | _ => exact logs_fail

open Logged in
theorem logs_resolveInclude (hload : ∀ path, Logs P (load path)) (directive : JsonTree ν) :
    Logs P (resolveInclude load directive) := by
  cases directive with
  | str path => exact hload path
  | arr items => exact logs_includeList hload _ items
  | _ => exact logs_fail

open Logged in
theorem logs_process (hload : ∀ path, Logs P (load path)) (value : JsonTree ν) :
    Logs P (process load value) := by
  induction value using JsonTree.induct with
  | harr items ih =>
    refine Logs.bind ?_ fun _ _ => logs_pure
    induction items with
    | nil => exact logs_pure
    | cons item items ihItems =>
      obtain ⟨hitem, hrest⟩ := List.forall_mem_cons.1 ih
      exact hitem.bind fun _ _ => (ihItems hrest).bind fun _ _ => logs_pure
  | hobj fields ih =>
    have hfields : Logs P (processFields load fields) := by
      induction fields with
      | nil => exact logs_pure
      | cons f fields ihFields =>
        obtain ⟨hfirst, hrest⟩ := List.forall_mem_cons.1 ih
        rw [processFields]
        by_cases hkey : f.1 = includeKey
        · rw [if_pos hkey]
          exact ihFields hrest
        · rw [if_neg hkey]
          exact hfirst.bind fun _ _ => (ihFields hrest).bind fun _ _ => logs_pure
    rw [process]
    cases Fields.get includeKey fields with
    | none => exact hfields.bind fun _ _ => logs_pure
    | some directive =>
      refine (logs_resolveInclude hload directive).bind fun included _ => ?_
      by_cases hsiblings : hasSiblings fields = false
      · rw [if_pos hsiblings]
        exact logs_pure
      · rw [if_neg hsiblings]
        by_cases hobject : included.isPlainObject = false
        · rw [if_pos hobject]
          exact logs_fail
        · rw [if_neg hobject]
          exact hfields.bind fun _ _ => logs_pure
  | _ => exact Logged.logs_pure

theorem mem_roots_of_findContainingRoot {field : IncludeRoot → String} {candidate : String}
    (h : findContainingRoot ctx candidate field = some root) :
    root ∈ ctx.roots ∧ ctx.host.isPathInside (field root) candidate = true := by
  exact ⟨List.mem_of_find?_eq_some h, List.find?_some (p := fun root =>
    ctx.host.isPathInside (field root) candidate) h⟩

theorem inside_of_containingRoot (h : containingRoot ctx includePath path = .ok root) :
    Inside ctx ⟨includePath, path, root.rootRealDir⟩ := by
  unfold containingRoot at h
  cases hlexical : findContainingRoot ctx path IncludeRoot.rootDir with
  | none =>
    rw [hlexical] at h
    cases h
  | some lexicalMatch =>
    rw [hlexical] at h
    obtain ⟨hmem, hinside⟩ := mem_roots_of_findContainingRoot hlexical
    cases hreal : ctx.host.realpathSync path with
    | found real =>
      simp only [hreal] at h
      cases hmatch : findContainingRoot ctx real IncludeRoot.rootRealDir with
      | none =>
        rw [hmatch] at h
        cases h
      | some realMatch =>
        rw [hmatch] at h
        cases h
        obtain ⟨hmem', hinside'⟩ := mem_roots_of_findContainingRoot hmatch
        simp only [Inside, hreal]
        exact ⟨root, hmem', rfl, hinside'⟩
    | notFound =>
      simp only [hreal] at h
      cases h
      simp only [Inside, hreal]
      exact ⟨root, hmem, hinside⟩
    | failed =>
      simp only [hreal] at h
      cases h

theorem inside_of_resolvePath (h : resolvePath ctx basePath includePath = .ok (path, root)) :
    Inside ctx ⟨includePath, path, root.rootRealDir⟩ := by
  unfold resolvePath at h
  dsimp only at h
  split at h
  · cases h
  split at h
  · cases h
  split at h
  · cases h
  cases hroot : containingRoot ctx includePath (normalizedInclude ctx basePath includePath) with
  | ok found =>
    rw [hroot] at h
    cases h
    exact inside_of_containingRoot hroot
  | error e =>
    rw [hroot] at h
    cases h

open Logged in
theorem logs_loadFile (includePath : String) :
    Logs (Inside ctx) (loadFile ctx levels basePath visited includePath) := by
  induction levels generalizing basePath visited includePath with
  | zero =>
    exact logs_ofExcept.bind fun _ _ => logs_ofExcept.bind fun _ _ => logs_fail
  | succ levels ih =>
    refine logs_ofExcept.bind fun found hfound => logs_ofExcept.bind fun _ _ => ?_
    have hread : Logs (Inside ctx) (readFile ctx includePath found.1 found.2) :=
      (logs_perform (inside_of_resolvePath hfound)).bind fun _ _ => logs_ofExcept
    exact hread.bind fun raw _ => logs_ofExcept.bind fun parsed _ =>
      logs_process (fun path => ih path) parsed

end

end OpenClaw.Config
