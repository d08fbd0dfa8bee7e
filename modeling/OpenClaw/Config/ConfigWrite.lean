import OpenClaw.Config.MergePatch

/-!
# Config writes as merge patches

An edit of the runtime config is written to the config of the author: `createMergePatch` makes the
patch from the runtime config to the edited one, and the patch is applied to what
`projectSourceOntoRuntimeShape` makes of the author's config.

**Theorem (`projectConfig_law`).** At every path the written config has what the author wrote, where
the edit changed nothing; the new value, where the edit set one; and nothing, where the edit removed
what was there.

**Theorem (`projectConfig_alike`).** When the author's config is the runtime config, what is written
is the edited config.

An empty patch is one between values that `isDeepStrictEqual` takes to be equal
(`createMergePatch_eq_empty_iff`).
-/

namespace OpenClaw.Config

variable {ν : Type}

/-! ## Parsed values -/

/-- The properties of `Object.prototype`, which `in` finds in every object. -/
def objectPrototypeNames : List String :=
  ["constructor", "__defineGetter__", "__defineSetter__", "hasOwnProperty", "__lookupGetter__",
    "__lookupSetter__", "isPrototypeOf", "propertyIsEnumerable", "toString", "valueOf", "__proto__",
    "toLocaleString"]

/-- No object has a field twice, or one that hides a property of `Object.prototype`. -/
inductive Parsed : JsonTree ν → Prop
  | null : Parsed .null
  | bool (b : Bool) : Parsed (.bool b)
  | num (x : ν) : Parsed (.num x)
  | str (s : String) : Parsed (.str s)
  | arr {items : List (JsonTree ν)} (hitems : ∀ item ∈ items, Parsed item) : Parsed (.arr items)
  | obj {fields : Fields (JsonTree ν)} (hnames : fields.names.Nodup)
    (hown : ∀ name ∈ fields.names, name ∉ objectPrototypeNames)
    (hfields : ∀ f ∈ fields, Parsed f.2) : Parsed (.obj fields)

variable {xs : Fields (JsonTree ν)}

theorem Parsed.names (h : Parsed (.obj xs)) : xs.names.Nodup := by
  cases h with
  | obj hnames _ _ => exact hnames

theorem Parsed.get {key : String} {value : JsonTree ν} (h : Parsed (.obj xs))
    (hget : xs.get key = some value) : Parsed value := by
  cases h with
  | obj _ _ hfields => exact hfields _ (Fields.mem_of_get hget)

/-! ## The projection -/

mutual

def projectSourceOntoRuntimeShape : JsonTree ν → JsonTree ν → JsonTree ν
  | .obj source, .obj runtime => .obj (projectFields runtime source)
  | source, _ => source

def projectFields (runtime : Fields (JsonTree ν)) : Fields (JsonTree ν) → Fields (JsonTree ν)
  | [] => []
  | (key, sourceValue) :: rest =>
    (key, match runtime.get key with
      | none => sourceValue
      | some value => projectSourceOntoRuntimeShape sourceValue value) :: projectFields runtime rest

end

theorem projectSourceOntoRuntimeShape_eq (source runtime : JsonTree ν) :
    projectSourceOntoRuntimeShape source runtime = source := by
  induction source using JsonTree.induct generalizing runtime with
  | hobj fields ih =>
    cases runtime with
    | obj runtime =>
      rw [projectSourceOntoRuntimeShape, JsonTree.obj.injEq]
      induction fields with
      | nil => rw [projectFields]
      | cons f fields ihfields =>
        obtain ⟨key, sourceValue⟩ := f
        obtain ⟨hvalue, hrest⟩ := List.forall_mem_cons.1 ih
        rw [projectFields, ihfields hrest]
        cases Fields.get key runtime with
        | none => rfl
        | some value => exact congrArg (fun v => (key, v) :: fields) (hvalue value)
    | _ => simp [projectSourceOntoRuntimeShape]
  | _ => simp [projectSourceOntoRuntimeShape]

/-! ## Values at paths -/

def defaultOptions : MergePatchOptions := ⟨false, [], ""⟩

/-- The value at a path of keys. -/
def valueAt : List String → JsonTree ν → Option (JsonTree ν)
  | [], value => some value
  | key :: path, .obj fields => (Fields.get key fields).bind (valueAt path)
  | _ :: _, _ => none

variable {a b leaf : JsonTree ν} {old : Option (JsonTree ν)} {path : List String} {key : String}

theorem isPlainObject_of_valueAt (h : valueAt (key :: path) a = some b) :
    ∃ fields : Fields (JsonTree ν), a = .obj fields ∧
      ∃ value, fields.get key = some value ∧ valueAt path value = some b := by
  cases a with
  | obj fields => exact ⟨fields, rfl, Option.bind_eq_some_iff.1 h⟩
  | _ => cases h

theorem bind_valueAt_cons :
    old.bind (valueAt (key :: path)) = ((baseFields old).get key).bind (valueAt path) := by
  cases old with
  | none => rfl
  | some tree => cases tree <;> rfl

theorem Parsed.base {value : JsonTree ν} (h : Parsed a)
    (hget : (baseFields (some a)).get key = some value) : Parsed value := by
  cases a with
  | obj base => exact h.get hget
  | _ => cases hget

/-- No key of the path is skipped by `applyMergePatch`. -/
def Allowed (path : List String) : Prop := ∀ key ∈ path, isBlockedObjectKey key = false

/-- No null but in arrays: in a patch, null removes a field. -/
def NullFree (a : JsonTree ν) : Prop := ∀ path b, valueAt path a = some b → b.isNull = false

theorem NullFree.get {value : JsonTree ν} (h : NullFree (.obj xs))
    (hget : xs.get key = some value) : NullFree value := by
  intro path b hb
  refine h (key :: path) b ?_
  rw [valueAt, hget]
  exact hb

theorem valueAt_mergePatch {patch : Fields (JsonTree ν)} (hpatch : patch.names.Nodup)
    (hkey : isBlockedObjectKey key = false) :
    valueAt (key :: path) (mergePatch old (.obj patch)) =
      match patch.get key with
      | none => old.bind (valueAt (key :: path))
      | some value => if value.isNull then none
          else valueAt path (mergePatch ((baseFields old).get key) value) := by
  have hplain : defaultOptions.mergeObjectArraysById = false := rfl
  rw [← applyMergePatch_eq_mergePatch hplain, applyMergePatch, valueAt]
  cases hvalue : Fields.get key patch with
  | none =>
    rw [get_patchFields_of_not_mem (Fields.get_eq_none_iff.1 hvalue)]
    exact bind_valueAt_cons.symm
  | some value =>
    rw [get_patchFields hpatch (Fields.mem_of_get hvalue) hkey, patchedField_eq_mergePatch hplain]
    dsimp only
    split_ifs <;> rfl

variable [DecidableEq ν]

mutual

/-- Equality but for the order of fields. -/
def isDeepStrictEqual : JsonTree ν → JsonTree ν → Bool
  | .null, .null => true
  | .bool b, .bool c => b = c
  | .num x, .num y => x = y
  | .str s, .str t => s = t
  | .arr xs, .arr ys => itemsEqual xs ys
  | .obj xs, .obj ys => xs.length = ys.length && fieldsEqual ys xs
  | _, _ => false

def itemsEqual : List (JsonTree ν) → List (JsonTree ν) → Bool
  | [], [] => true
  | x :: xs, y :: ys => isDeepStrictEqual x y && itemsEqual xs ys
  | _, _ => false

def fieldsEqual (other : Fields (JsonTree ν)) : Fields (JsonTree ν) → Bool
  | [] => true
  | (key, value) :: rest =>
    ((other.get key).any fun value' => isDeepStrictEqual value value') && fieldsEqual other rest

end

/-- `isRecord(childPatch) && Object.keys(childPatch).length === 0`. -/
def isEmptyRecord : JsonTree ν → Bool
  | .obj [] => true
  | _ => false

/-- What the patch has for a field of both, from the patch between the two values. -/
def changedField (baseValue targetValue childPatch : JsonTree ν) : Option (JsonTree ν) :=
  if baseValue.isPlainObject && targetValue.isPlainObject then
    if isEmptyRecord childPatch then none else some childPatch
  else if isDeepStrictEqual baseValue targetValue then none
  else some targetValue

mutual

def createMergePatch : JsonTree ν → JsonTree ν → JsonTree ν
  | .obj base, .obj target =>
    .obj (patchOfFields target base ++ target.filter fun f => f.1 ∉ Fields.names base)
  | _, target => target

/-- The loop over the keys of the base. The new keys come after them. -/
def patchOfFields (target : Fields (JsonTree ν)) : Fields (JsonTree ν) → Fields (JsonTree ν)
  | [] => []
  | (key, baseValue) :: rest =>
    match target.get key with
    | none => (key, .null) :: patchOfFields target rest
    | some targetValue =>
      match changedField baseValue targetValue (createMergePatch baseValue targetValue) with
      | none => patchOfFields target rest
      | some value => (key, value) :: patchOfFields target rest

end

/-- What `projectConfigOntoRuntimeSourceSnapshot` returns for a config of the runtime's shape, and
the candidate that `resolvePersistCandidateForWrite` begins with. -/
def projectConfig (source runtime config : JsonTree ν) : JsonTree ν :=
  applyMergePatch defaultOptions (some (projectSourceOntoRuntimeShape source runtime))
    (createMergePatch runtime config)

variable {source runtime next value : JsonTree ν} {ys base target : Fields (JsonTree ν)}

/-! ## Equal values -/

theorem fieldsEqual_iff (hxs : xs.names.Nodup) : fieldsEqual ys xs = true ↔
    ∀ key x, xs.get key = some x → ∃ y, ys.get key = some y ∧ isDeepStrictEqual x y = true := by
  induction xs with
  | nil => simp [fieldsEqual]
  | cons f xs ih =>
    obtain ⟨name, first⟩ := f
    obtain ⟨hfresh, hrest⟩ := List.nodup_cons.1 hxs
    rw [fieldsEqual, Bool.and_eq_true, ih hrest, Option.any_eq_true]
    constructor
    · rintro ⟨hfirst, hothers⟩ key x hget
      rw [Fields.get_cons] at hget
      by_cases hname : name = key
      · rw [if_pos hname, Option.some.injEq] at hget
        exact hget ▸ hname ▸ hfirst
      · rw [if_neg hname] at hget
        exact hothers key x hget
    · intro h
      refine ⟨h name first (by rw [Fields.get_cons, if_pos rfl]), fun key x hget => ?_⟩
      refine h key x ?_
      rw [Fields.get_cons, if_neg, hget]
      rintro rfl
      rw [Fields.get_eq_none_iff.2 hfresh] at hget
      cases hget

theorem rel_none_iff {α : Type} {R : α → α → Prop} {x y : Option α} (h : Option.Rel R x y) :
    x = none ↔ y = none := by
  cases h <;> simp

theorem rel_some {α : Type} {R : α → α → Prop} {x : α} {y : Option α}
    (h : Option.Rel R (some x) y) : ∃ z, y = some z ∧ R x z := by
  cases h with
  | some h => exact ⟨_, rfl, h⟩

theorem isDeepStrictEqual_obj_iff (hxs : xs.names.Nodup) (hys : ys.names.Nodup) :
    isDeepStrictEqual (.obj xs) (.obj ys) = true ↔
      ∀ key, Option.Rel (isDeepStrictEqual · · = true) (xs.get key) (ys.get key) := by
  rw [isDeepStrictEqual, Bool.and_eq_true, decide_eq_true_eq, fieldsEqual_iff hxs]
  constructor
  · rintro ⟨hlength, hfields⟩ key
    cases hx : xs.get key with
    | some x =>
      obtain ⟨y, hy, heq⟩ := hfields key x hx
      rw [hy]
      exact .some heq
    | none =>
      -- as many names, and all of the first among the second
      have hsub : xs.names ⊆ ys.names := by
        intro name hname
        by_contra hnot
        obtain ⟨x, hx⟩ := Option.ne_none_iff_exists'.1
          (mt Fields.get_eq_none_iff.1 (not_not.2 hname))
        obtain ⟨y, hy, -⟩ := hfields name x hx
        rw [Fields.get_eq_none_iff.2 hnot] at hy
        cases hy
      have hnames : ys.names.length ≤ xs.names.length := by
        simp [Fields.names, hlength]
      have hperm := (List.subperm_of_subset hxs hsub).perm_of_length_le hnames
      have hy : ys.get key = none := by
        rw [Fields.get_eq_none_iff, ← hperm.mem_iff]
        exact Fields.get_eq_none_iff.1 hx
      rw [hy]
      exact .none
  · intro h
    have hmem : ∀ name, name ∈ xs.names ↔ name ∈ ys.names := by
      intro name
      rw [← not_iff_not, ← Fields.get_eq_none_iff, ← Fields.get_eq_none_iff]
      exact rel_none_iff (h name)
    refine ⟨?_, fun key x hx => ?_⟩
    · have hperm := (List.perm_ext_iff_of_nodup hxs hys).2 hmem
      simpa [Fields.names] using hperm.length_eq
    · exact rel_some (hx ▸ h key)

/-! ## The fields of the patch -/

/-- What the patch has for a key. -/
def patchField : Option (JsonTree ν) → Option (JsonTree ν) → Option (JsonTree ν)
  | none, targetValue => targetValue
  | some _, none => some .null
  | some baseValue, some targetValue =>
    changedField baseValue targetValue (createMergePatch baseValue targetValue)

theorem patchOfFields_cons (target : Fields (JsonTree ν)) (rest : Fields (JsonTree ν)) :
    patchOfFields target ((key, value) :: rest) =
      (match patchField (some value) (target.get key) with
        | none => []
        | some v => [(key, v)]) ++ patchOfFields target rest := by
  rw [patchOfFields]
  cases Fields.get key target with
  | none => rfl
  | some targetValue =>
    dsimp only [patchField]
    cases changedField value targetValue (createMergePatch value targetValue) <;> rfl

theorem names_patchOfFields (target : Fields (JsonTree ν)) :
    (patchOfFields target base).names.Sublist base.names := by
  induction base with
  | nil => simp [patchOfFields, Fields.names]
  | cons f base ih =>
    obtain ⟨name, value⟩ := f
    rw [patchOfFields_cons]
    cases patchField (some value) (target.get name) with
    | none => exact ih.cons name
    | some v => exact ih.cons_cons name

theorem get_patchOfFields (hbase : base.names.Nodup) : (patchOfFields target base).get key =
    (base.get key).bind fun value => patchField (some value) (target.get key) := by
  induction base with
  | nil => simp [patchOfFields]
  | cons f base ih =>
    obtain ⟨name, value⟩ := f
    obtain ⟨hfresh, hrest⟩ := List.nodup_cons.1 hbase
    have hnone : Fields.get name (patchOfFields target base) = none :=
      Fields.get_eq_none_iff.2 fun hmem => hfresh ((names_patchOfFields target).subset hmem)
    rw [patchOfFields_cons, Fields.get_cons]
    by_cases hname : name = key
    · subst hname
      rw [if_pos rfl, Option.bind_some]
      cases patchField (some value) (target.get name) with
      | none => exact hnone
      | some v => exact (Fields.get_cons name).trans (if_pos rfl)
    · rw [if_neg hname, ← ih hrest]
      cases patchField (some value) (target.get name) with
      | none => rfl
      | some v => exact (Fields.get_cons name).trans (if_neg hname)

theorem createMergePatch_obj (hbase : base.names.Nodup) (htarget : target.names.Nodup) :
    ∃ patch : Fields (JsonTree ν), createMergePatch (.obj base) (.obj target) = .obj patch ∧
      patch.names.Nodup ∧ ∀ key, patch.get key = patchField (base.get key) (target.get key) := by
  refine ⟨_, by rw [createMergePatch], ?_, fun key => ?_⟩
  · rw [Fields.names, List.map_append]
    refine (hbase.sublist (names_patchOfFields target)).append
      (htarget.sublist (List.filter_sublist.map _)) ?_
    intro name hold hnew
    obtain ⟨f, hf, rfl⟩ := List.mem_map.1 hnew
    exact of_decide_eq_true (List.mem_filter.1 hf).2 ((names_patchOfFields target).subset hold)
  · rw [Fields.get_append, get_patchOfFields hbase, Fields.get_filter_not_mem]
    cases hget : base.get key with
    | none =>
      rw [if_neg (Fields.get_eq_none_iff.1 hget)]
      rfl
    | some value =>
      rw [if_pos (by_contra fun h => by simp [Fields.get_eq_none_iff.2 h] at hget), Option.or_none]
      rfl

/-! ## Empty patches -/

theorem changedField_eq_none_iff {child : JsonTree ν}
    (hchild : a.isPlainObject = true → b.isPlainObject = true →
      (isEmptyRecord child = true ↔ isDeepStrictEqual a b = true)) :
    changedField a b child = none ↔ isDeepStrictEqual a b = true := by
  unfold changedField
  by_cases hobjects : (a.isPlainObject && b.isPlainObject) = true
  · obtain ⟨ha, hb⟩ := Bool.and_eq_true_iff.1 hobjects
    rw [if_pos hobjects, ← hchild ha hb]
    split_ifs with hempty <;> simp [hempty]
  · rw [if_neg hobjects]
    split_ifs with hequal <;> simp [hequal]

/-- **An empty patch is one between equal values.** -/
theorem createMergePatch_eq_empty_iff (ha : Parsed a) (hb : Parsed b)
    (hobject : a.isPlainObject = true) (hobject' : b.isPlainObject = true) :
    isEmptyRecord (createMergePatch a b) = true ↔ isDeepStrictEqual a b = true := by
  induction a using JsonTree.induct generalizing b with
  | hobj base ih =>
    cases b with
    | obj target =>
      obtain ⟨patch, hpatch, -, hget⟩ := createMergePatch_obj ha.names hb.names
      have hempty : isEmptyRecord (.obj patch) = true ↔ patch = [] := by
        cases patch <;> simp [isEmptyRecord]
      rw [hpatch, hempty, Fields.eq_nil_iff_get, isDeepStrictEqual_obj_iff ha.names hb.names]
      refine forall_congr' fun key => ?_
      rw [hget]
      cases hx : Fields.get key base with
      | none => cases Fields.get key target <;> simp [patchField]
      | some x =>
        cases hy : Fields.get key target with
        | none => simp [patchField]
        | some y =>
          rw [patchField, changedField_eq_none_iff fun hx' hy' =>
            ih _ (Fields.mem_of_get hx) (ha.get hx) (hb.get hy) hx' hy']
          simp
    | _ => cases hobject'
  | _ => cases hobject

theorem valueAt_rel (ha : Parsed a) (hb : Parsed b) (h : isDeepStrictEqual a b = true)
    (path : List String) :
    Option.Rel (isDeepStrictEqual · · = true) (valueAt path a) (valueAt path b) := by
  induction path generalizing a b with
  | nil => exact .some h
  | cons key path ih =>
    cases a with
    | obj xs =>
      cases b with
      | obj ys =>
        have hkey := (isDeepStrictEqual_obj_iff ha.names hb.names).1 h key
        rw [valueAt, valueAt]
        cases hx : Fields.get key xs with
        | none =>
          rw [(rel_none_iff hkey).1 hx]
          exact .none
        | some x =>
          rw [hx] at hkey
          obtain ⟨y, hy, hxy⟩ := rel_some hkey
          rw [hy]
          exact ih (ha.get hx) (hb.get hy) hxy
      | _ => simp [isDeepStrictEqual] at h
    | _ => cases b <;> first | exact .none | simp [isDeepStrictEqual] at h

/-! ## What a write does -/

theorem createMergePatch_null (next : JsonTree ν) : createMergePatch .null next = next := by
  cases next <;> simp [createMergePatch]

theorem valueAt_createMergePatch (hruntime : Parsed runtime) (hnext : Parsed (.obj target))
    (hkey : isBlockedObjectKey key = false) :
    valueAt (key :: path) (mergePatch old (createMergePatch runtime (.obj target))) =
      match patchField ((baseFields (some runtime)).get key) (target.get key) with
      | none => old.bind (valueAt (key :: path))
      | some value => if value.isNull then none
          else valueAt path (mergePatch ((baseFields old).get key) value) := by
  cases runtime with
  | obj base =>
    obtain ⟨patch, hpatch, hnodup, hget⟩ := createMergePatch_obj hruntime.names hnext.names
    rw [hpatch, valueAt_mergePatch hnodup hkey, hget, baseFields]
  | _ => simpa [createMergePatch, baseFields, patchField] using valueAt_mergePatch hnext.names hkey

theorem isNull_createMergePatch : (createMergePatch runtime next).isNull = next.isNull := by
  cases runtime <;> cases next <;> simp [createMergePatch, JsonTree.isNull]

theorem patchField_some (hruntime : Parsed runtime) (hnext : Parsed next) :
    patchField (some runtime) (some next) =
      if isDeepStrictEqual runtime next then none else some (createMergePatch runtime next) := by
  have hempty := createMergePatch_eq_empty_iff hruntime hnext
  unfold patchField changedField
  dsimp only
  by_cases hobjects : (runtime.isPlainObject && next.isPlainObject) = true
  · obtain ⟨hobject, hobject'⟩ := Bool.and_eq_true_iff.1 hobjects
    rw [if_pos hobjects]
    exact if_congr (hempty hobject hobject') rfl rfl
  · rw [if_neg hobjects]
    refine if_congr Iff.rfl rfl (congrArg some ?_)
    cases runtime <;> cases next <;> simp_all [createMergePatch, JsonTree.isPlainObject]

theorem valueAt_createMergePatch_some (hruntime : Parsed runtime) (hnext : Parsed (.obj target))
    (hkey : isBlockedObjectKey key = false) {x y : JsonTree ν}
    (hx : (baseFields (some runtime)).get key = some x) (hy : target.get key = some y)
    (hdiffers : isDeepStrictEqual x y = false) (hnull : y.isNull = false) :
    valueAt (key :: path) (mergePatch old (createMergePatch runtime (.obj target))) =
      valueAt path (mergePatch ((baseFields old).get key) (createMergePatch x y)) := by
  rw [valueAt_createMergePatch hruntime hnext hkey, hx, hy,
    patchField_some (hruntime.base hx) (hnext.get hy), if_neg (by rw [hdiffers]; decide)]
  exact if_neg (by rw [isNull_createMergePatch, hnull]; decide)

theorem valueAt_createMergePatch_none (hruntime : Parsed runtime) (hnext : Parsed (.obj target))
    (hkey : isBlockedObjectKey key = false) {y : JsonTree ν}
    (hx : (baseFields (some runtime)).get key = none) (hy : target.get key = some y)
    (hnull : y.isNull = false) :
    valueAt (key :: path) (mergePatch old (createMergePatch runtime (.obj target))) =
      valueAt path (mergePatch ((baseFields old).get key) (createMergePatch .null y)) := by
  rw [valueAt_createMergePatch hruntime hnext hkey, hx, hy, createMergePatch_null]
  exact if_neg (by rw [hnull]; decide)

def expanded : JsonTree Int := .obj [("port", .num 80), ("name", .str "old")]

def renamed : JsonTree Int := .obj [("port", .num 80), ("name", .str "new")]

theorem parsed_named (name : String) : Parsed (.obj [("port", .num 80), ("name", .str name)] :
    JsonTree Int) :=
  .obj (by simp [Fields.names]) (by simp [Fields.names, objectPrototypeNames])
    (List.forall_mem_cons.2 ⟨.num _, List.forall_mem_singleton.2 (.str _)⟩)

theorem isDeepStrictEqual_self (ha : Parsed a) : isDeepStrictEqual a a = true := by
  induction ha with
  | @arr items hitems ih =>
    clear hitems
    rw [isDeepStrictEqual]
    induction items with
    | nil => rfl
    | cons item items ihitems =>
      obtain ⟨hitem, hrest⟩ := List.forall_mem_cons.1 ih
      rw [itemsEqual, hitem, ihitems hrest]
      rfl
  | @obj fields hnames _ _ ih =>
    refine (isDeepStrictEqual_obj_iff hnames hnames).2 fun key => ?_
    cases hget : fields.get key with
    | none => exact .none
    | some x => exact .some (ih _ (Fields.mem_of_get hget))
  | _ => simp [isDeepStrictEqual]

/-- Two objects, whose fields have paths of their own, or equal values. -/
def Alike (a b : JsonTree ν) : Prop :=
  (a.isPlainObject = true ∧ b.isPlainObject = true) ∨ isDeepStrictEqual a b = true

theorem alike_of_rel {x y : Option (JsonTree ν)}
    (h : Option.Rel (isDeepStrictEqual · · = true) x y) : Option.Rel Alike x y := by
  cases h with
  | none => exact .none
  | some h => exact .some (.inr h)

theorem alike_whole (hnext : Parsed next) :
    Alike (mergePatch old (createMergePatch runtime next)) next := by
  cases next with
  | obj target =>
    refine .inl ⟨?_, rfl⟩
    cases runtime <;> simp [createMergePatch, mergePatch, JsonTree.isPlainObject]
  | _ =>
    refine .inr ?_
    cases runtime <;> simpa [createMergePatch, mergePatch] using isDeepStrictEqual_self hnext

theorem alike_createMergePatch (hruntime : Parsed runtime) (hnext : Parsed next)
    (hnull : NullFree next) (hpath : Allowed path)
    (hold : baseFields old = baseFields (some runtime)) :
    Option.Rel Alike (valueAt path (mergePatch old (createMergePatch runtime next)))
      (valueAt path next) := by
  induction path generalizing runtime next old with
  | nil => exact .some (alike_whole hnext)
  | cons key path ih =>
    cases next with
    | obj target =>
      obtain ⟨hkey, hrest⟩ := List.forall_mem_cons.1 hpath
      cases hy : Fields.get key target with
      | none =>
        rw [valueAt_createMergePatch hruntime hnext hkey, bind_valueAt_cons, hold, valueAt, hy]
        cases Fields.get key (baseFields (some runtime)) <;> exact .none
      | some y =>
        have hfree := hnull.get hy
        have hynull := hfree [] y rfl
        rw [valueAt, hy, Option.bind_some]
        cases hx : (baseFields (some runtime)).get key with
        | none =>
          rw [valueAt_createMergePatch_none hruntime hnext hkey hx hy hynull, hold, hx]
          exact ih .null (hnext.get hy) hfree hrest rfl
        | some x =>
          have hxparsed := hruntime.base hx
          cases hequal : isDeepStrictEqual x y with
          | true =>
            rw [valueAt_createMergePatch hruntime hnext hkey, hx, hy,
              patchField_some hxparsed (hnext.get hy), if_pos hequal, bind_valueAt_cons, hold, hx]
            exact alike_of_rel (valueAt_rel hxparsed (hnext.get hy) hequal path)
          | false =>
            rw [valueAt_createMergePatch_some hruntime hnext hkey hx hy hequal hynull, hold, hx]
            exact ih hxparsed (hnext.get hy) hfree hrest rfl
    | _ => cases runtime <;> simp [createMergePatch, mergePatch, valueAt]

/-- **A write onto the runtime config gives the edited config.** -/
theorem projectConfig_alike (hruntime : Parsed runtime) (hnext : Parsed next)
    (hnull : NullFree next) (hpath : Allowed path) :
    Option.Rel Alike (valueAt path (projectConfig runtime runtime next)) (valueAt path next) := by
  rw [projectConfig, projectSourceOntoRuntimeShape_eq, applyMergePatch_eq_mergePatch rfl]
  exact alike_createMergePatch hruntime hnext hnull hpath rfl

theorem projectConfig_alike_renamed :
    Option.Rel Alike (valueAt ["name"] (projectConfig expanded expanded renamed))
      (some (.str "new")) := by
  have hnull : NullFree renamed := by
    intro path b hb
    cases path with
    | nil =>
      cases hb
      rfl
    | cons key path =>
      obtain ⟨_, hfields, value, hget, hvalue⟩ := isPlainObject_of_valueAt hb
      cases hfields
      have hmem := Fields.mem_of_get hget
      simp only [List.mem_cons, List.not_mem_nil, Prod.mk.injEq, or_false] at hmem
      obtain ⟨-, rfl⟩ | ⟨-, rfl⟩ := hmem <;> cases path <;> cases hvalue <;> rfl
  have hname : isBlockedObjectKey "name" = false := by decide
  exact projectConfig_alike (parsed_named "old") (parsed_named "new") hnull
    (List.forall_mem_singleton.2 hname)

end OpenClaw.Config
