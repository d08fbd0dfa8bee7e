import OpenClaw.Lib.JsonTree

/-!
# Deep merge of configs

`deepMerge` joins arrays, merges objects field by field and otherwise takes the second value.

**Theorem (`deepMerge_assoc_iff`).** Merging is associative on three values exactly when they are
`Aligned`: wherever the first and the third are both arrays, or both objects, the second is of that
kind too, or the first adds nothing to the third.

**Theorem (`foldl_deepMerge_split`).** Under this condition the values of a list may be merged on
their own first.
-/

namespace OpenClaw.Config

variable {ν : Type}

def isBlockedObjectKey (key : String) : Bool := key ∈ ["__proto__", "prototype", "constructor"]

mutual

/-- Arrays are joined, objects are merged field by field, otherwise the source wins. -/
def deepMerge : JsonTree ν → JsonTree ν → JsonTree ν
  | .arr target, .arr source => .arr (target ++ source)
  | .obj target, .obj source => .obj (mergeFields target source)
  | _, source => source

/-- The loop over the fields of the source. -/
def mergeFields (result : Fields (JsonTree ν)) : Fields (JsonTree ν) → Fields (JsonTree ν)
  | [] => result
  | (key, value) :: rest =>
    if isBlockedObjectKey key then mergeFields result rest
    else
      mergeFields (result.set key
        (match result.get key with
          | some old => deepMerge old value
          | none => value)) rest

end

/-- What a field is after the merge, from what it was and what the source has. -/
def mergedField : Option (JsonTree ν) → Option (JsonTree ν) → Option (JsonTree ν)
  | some old, some value => some (deepMerge old value)
  | none, value => value
  | old, none => old

@[simp] theorem mergedField_none (old : Option (JsonTree ν)) : mergedField old none = old := by
  cases old <;> rfl

@[simp] theorem none_mergedField (value : Option (JsonTree ν)) : mergedField none value = value := by
  cases value <;> rfl

variable {a b c : JsonTree ν} {xs ys zs : Fields (JsonTree ν)} {key : String}

@[simp] theorem mergeFields_nil : mergeFields xs [] = xs := by rw [mergeFields]

example : deepMerge (.obj xs) (.obj []) = .obj xs := by simp [deepMerge]

theorem mergeFields_cons (value : JsonTree ν) : mergeFields xs ((key, value) :: ys) =
    if isBlockedObjectKey key then mergeFields xs ys
    else mergeFields (xs.set key ((mergedField (xs.get key) (some value)).getD value)) ys := by
  rw [mergeFields]
  cases xs.get key <;> rfl

theorem get_mergeFields (hys : ys.names.Nodup) : (mergeFields xs ys).get key =
    if isBlockedObjectKey key then xs.get key else mergedField (xs.get key) (ys.get key) := by
  induction ys generalizing xs with
  | nil => simp
  | cons f ys ih =>
    obtain ⟨name, value⟩ := f
    obtain ⟨hfresh, hrest⟩ := List.nodup_cons.1 hys
    rw [mergeFields_cons, Fields.get_cons]
    by_cases hblocked : isBlockedObjectKey name = true
    · rw [if_pos hblocked, ih hrest]
      by_cases hname : name = key
      · subst hname
        simp [hblocked]
      · rw [if_neg hname]
    · rw [if_neg hblocked, ih hrest]
      by_cases hname : name = key
      · subst hname
        have hnone : Fields.get name ys = none := Fields.get_eq_none_iff.2 hfresh
        rw [Fields.get_set_self, hnone]
        cases xs.get name <;> simp [hblocked, mergedField]
      · rw [if_neg hname, Fields.get_set_of_ne (Ne.symm hname)]

theorem names_mergeFields (hys : ys.names.Nodup) : (mergeFields xs ys).names =
    xs.names ++ ys.names.filter fun name => !isBlockedObjectKey name && name ∉ xs.names := by
  induction ys generalizing xs with
  | nil => simp [Fields.names]
  | cons f ys ih =>
    obtain ⟨name, value⟩ := f
    obtain ⟨hfresh, hrest⟩ := List.nodup_cons.1 hys
    have hnames : Fields.names ((name, value) :: ys) = name :: Fields.names ys := rfl
    rw [mergeFields_cons, hnames]
    by_cases hblocked : isBlockedObjectKey name = true
    · rw [if_pos hblocked, ih hrest, List.filter_cons_of_neg (by simp [hblocked])]
    · rw [if_neg hblocked, ih hrest, Fields.names_set]
      by_cases hmem : name ∈ xs.names
      · rw [if_pos hmem, List.filter_cons_of_neg (by simp [hmem])]
      · rw [if_neg hmem, List.filter_cons_of_pos (by simp [hmem, hblocked]), List.append_assoc]
        refine congrArg (xs.names ++ name :: ·) (List.filter_congr ?_)
        intro other hother
        have hne : other ≠ name := fun h => hfresh (h ▸ hother)
        simp [hne]

theorem nodup_mergeFields (hxs : xs.names.Nodup) (hys : ys.names.Nodup) :
    (mergeFields xs ys).names.Nodup := by
  rw [names_mergeFields hys]
  refine hxs.append (hys.filter _) ?_
  intro name hx hy
  simp [hx] at hy

/-! ## Values of other kinds -/

theorem deepMerge_arr_of_not_array (h : a.isArray = false) (items : List (JsonTree ν)) :
    deepMerge a (.arr items) = .arr items := by
  cases a with
  | arr _ => cases h
  | _ => simp [deepMerge]

theorem deepMerge_obj_of_not_object (h : a.isPlainObject = false) :
    deepMerge a (.obj ys) = .obj ys := by
  cases a with
  | obj _ => cases h
  | _ => simp [deepMerge]

theorem isArray_deepMerge : (deepMerge a b).isArray = b.isArray := by
  cases a <;> cases b <;> simp [deepMerge, JsonTree.isArray]

theorem isPlainObject_deepMerge : (deepMerge a b).isPlainObject = b.isPlainObject := by
  cases a <;> cases b <;> simp [deepMerge, JsonTree.isPlainObject]

theorem arr_deepMerge_of_not_array (h : b.isArray = false) (items : List (JsonTree ν)) :
    deepMerge (.arr items) b = b := by
  cases b with
  | arr _ => cases h
  | _ => simp [deepMerge]

theorem obj_deepMerge_of_not_object (h : b.isPlainObject = false) :
    deepMerge (.obj xs) b = b := by
  cases b with
  | obj _ => cases h
  | _ => simp [deepMerge]

theorem deepMerge_of_scalar (harr : c.isArray = false) (hobj : c.isPlainObject = false) :
    deepMerge a c = c := by
  cases a with
  | arr items => exact arr_deepMerge_of_not_array harr items
  | obj fields => exact obj_deepMerge_of_not_object hobj
  | _ => cases c <;> simp [deepMerge]

/-! ## Distinct names stay distinct -/

theorem distinct_deepMerge (ha : a.Distinct) (hb : b.Distinct) : (deepMerge a b).Distinct := by
  induction b using JsonTree.induct generalizing a with
  | harr source _ =>
    cases a with
    | arr target =>
      refine .arr fun item hitem => ?_
      obtain h | h := List.mem_append.1 hitem
      · exact ha.item item h
      · exact hb.item item h
    | _ =>
      exact hb
  | hobj source ih =>
    cases a with
    | obj target =>
      have hnodup := nodup_mergeFields ha.names hb.names
      refine .obj hnodup ?_
      intro f hf
      have hget := Fields.get_of_mem hnodup hf
      rw [get_mergeFields hb.names] at hget
      by_cases hblocked : isBlockedObjectKey f.1 = true
      · rw [if_pos hblocked] at hget
        exact ha.get hget
      · rw [if_neg hblocked] at hget
        cases hold : Fields.get f.1 target with
        | none =>
          rw [hold, none_mergedField] at hget
          exact hb.get hget
        | some old =>
          cases hnew : Fields.get f.1 source with
          | none =>
            rw [hold, hnew, mergedField_none, Option.some_inj] at hget
            exact hget ▸ ha.get hold
          | some value =>
            rw [hold, hnew, mergedField, Option.some_inj] at hget
            exact hget ▸ ih _ (Fields.mem_of_get hnew) (ha.get hold) (hb.get hnew)
    | _ =>
      exact hb
  | _ => cases a <;> exact hb

/-! ## Associativity -/

mutual

/-- Where the first and the third are of one kind that merges, the second is of it too, or the first
adds nothing to the third. -/
def Aligned : JsonTree ν → JsonTree ν → JsonTree ν → Prop
  | .arr first, second, .arr _ => second.isArray = true ∨ first = []
  | .obj first, .obj second, .obj third => AlignedFields first second third
  | .obj first, _, .obj third => mergeFields first third = third
  | _, _, _ => True

/-- `Aligned` at every field that all three have. -/
def AlignedFields (first second : Fields (JsonTree ν)) : Fields (JsonTree ν) → Prop
  | [] => True
  | (key, value) :: third =>
    (isBlockedObjectKey key = false → ∀ a ∈ first.get key, ∀ b ∈ second.get key,
      Aligned a b value) ∧ AlignedFields first second third

end

theorem alignedFields_iff : AlignedFields xs ys zs ↔
    ∀ f ∈ zs, isBlockedObjectKey f.1 = false → ∀ a ∈ xs.get f.1, ∀ b ∈ ys.get f.1,
      Aligned a b f.2 := by
  induction zs with
  | nil => simp [AlignedFields]
  | cons f zs ih =>
    rw [AlignedFields, ih, List.forall_mem_cons]

theorem mergeFields_assoc_iff (hxs : xs.names.Nodup) (hys : ys.names.Nodup)
    (hzs : zs.names.Nodup) :
    mergeFields (mergeFields xs ys) zs = mergeFields xs (mergeFields ys zs) ↔
      ∀ f ∈ zs, isBlockedObjectKey f.1 = false → ∀ a ∈ xs.get f.1, ∀ b ∈ ys.get f.1,
        deepMerge (deepMerge a b) f.2 = deepMerge a (deepMerge b f.2) := by
  have hyzs := nodup_mergeFields hys hzs
  constructor
  · intro h f hf hblocked a ha b hb
    have hget := congrArg (Fields.get f.1) h
    rw [get_mergeFields hzs, get_mergeFields hys, get_mergeFields hyzs, get_mergeFields hzs, ha, hb,
      Fields.get_of_mem hzs hf] at hget
    simpa [hblocked, mergedField] using hget
  · intro h
    refine Fields.ext (nodup_mergeFields (nodup_mergeFields hxs hys) hzs) ?_ ?_
    · rw [names_mergeFields hzs, names_mergeFields hys, names_mergeFields hyzs,
        names_mergeFields hzs, List.append_assoc, List.filter_append, List.filter_filter]
      refine congrArg (fun rest => xs.names ++ (_ ++ rest)) (List.filter_congr ?_)
      intro name _
      by_cases hx : name ∈ xs.names <;> by_cases hy : name ∈ ys.names <;>
        by_cases hblocked : isBlockedObjectKey name = true <;> simp [hx, hy, hblocked]
    · intro key
      rw [get_mergeFields hzs, get_mergeFields hys, get_mergeFields hyzs, get_mergeFields hzs]
      by_cases hblocked : isBlockedObjectKey key = true
      · simp [hblocked]
      · rw [if_neg hblocked, if_neg hblocked, if_neg hblocked, if_neg hblocked]
        cases hx : xs.get key with
        | none => simp
        | some a =>
          cases hy : ys.get key with
          | none => simp
          | some b =>
            cases hz : zs.get key with
            | none => simp
            | some c =>
              exact congrArg some
                (h _ (Fields.mem_of_get hz) (Bool.eq_false_iff.2 hblocked) a hx b hy)

theorem aligned_of_first_not_array (h : a.isArray = false) (items : List (JsonTree ν)) :
    Aligned a b (.arr items) := by
  cases a with
  | arr _ => cases h
  | _ => cases b <;> exact trivial

theorem aligned_of_first_not_object (h : a.isPlainObject = false) : Aligned a b (.obj zs) := by
  cases a with
  | obj _ => cases h
  | _ => cases b <;> exact trivial

theorem aligned_of_scalar (harr : c.isArray = false) (hobj : c.isPlainObject = false) :
    Aligned a b c := by
  cases c with
  | arr _ => cases harr
  | obj _ => cases hobj
  | _ => cases a <;> cases b <;> exact trivial

variable {first third : List (JsonTree ν)}

theorem aligned_arr_iff : Aligned (.arr first) b (.arr third) ↔ b.isArray = true ∨ first = [] := by
  rw [Aligned]

theorem aligned_obj_of_not_object (h : b.isPlainObject = false) :
    Aligned (.obj xs) b (.obj zs) ↔ mergeFields xs zs = zs := by
  cases b with
  | obj _ => cases h
  | _ => exact Iff.rfl

theorem deepMerge_assoc_arr (h : a.isArray = false) (items : List (JsonTree ν)) :
    deepMerge (deepMerge a b) (.arr items) = deepMerge a (deepMerge b (.arr items)) := by
  cases b with
  | arr second =>
    rw [deepMerge_arr_of_not_array h, deepMerge, deepMerge_arr_of_not_array h]
  | _ =>
    rw [deepMerge_arr_of_not_array (isArray_deepMerge.trans rfl), deepMerge_arr_of_not_array rfl,
      deepMerge_arr_of_not_array h]

theorem deepMerge_assoc_obj (h : a.isPlainObject = false) :
    deepMerge (deepMerge a b) (.obj zs) = deepMerge a (deepMerge b (.obj zs)) := by
  cases b with
  | obj second =>
    rw [deepMerge_obj_of_not_object h, deepMerge, deepMerge_obj_of_not_object h]
  | _ =>
    rw [deepMerge_obj_of_not_object (isPlainObject_deepMerge.trans rfl),
      deepMerge_obj_of_not_object rfl, deepMerge_obj_of_not_object h]

theorem deepMerge_assoc_arr_iff : deepMerge (deepMerge (.arr first) b) (.arr third) =
      deepMerge (.arr first) (deepMerge b (.arr third)) ↔
        Aligned (.arr first) b (.arr third) := by
  rw [aligned_arr_iff]
  cases hkind : b.isArray with
  | false =>
    rw [deepMerge_arr_of_not_array hkind,
      deepMerge_arr_of_not_array (isArray_deepMerge.trans hkind)]
    simp [deepMerge]
  | true =>
    cases b with
    | arr second => simp [deepMerge]
    | _ => cases hkind

theorem deepMerge_assoc_of_not_object (h : b.isPlainObject = false) :
    deepMerge (deepMerge (.obj xs) b) (.obj zs) = deepMerge (.obj xs) (deepMerge b (.obj zs)) ↔
      Aligned (.obj xs) b (.obj zs) := by
  rw [aligned_obj_of_not_object h, deepMerge_obj_of_not_object h,
    deepMerge_obj_of_not_object (isPlainObject_deepMerge.trans h)]
  simp [deepMerge, eq_comm]

theorem deepMerge_assoc_iff (ha : a.Distinct) (hb : b.Distinct) (hc : c.Distinct) :
    deepMerge (deepMerge a b) c = deepMerge a (deepMerge b c) ↔ Aligned a b c := by
  induction c using JsonTree.induct generalizing a b with
  | harr items _ =>
    cases a with
    | arr first => exact deepMerge_assoc_arr_iff
    | _ =>
      exact iff_of_true (deepMerge_assoc_arr rfl items) (aligned_of_first_not_array rfl items)
  | hobj third ih =>
    cases a with
    | obj first =>
      cases b with
      | obj second =>
        simp only [deepMerge, Aligned, JsonTree.obj.injEq, alignedFields_iff]
        rw [mergeFields_assoc_iff ha.names hb.names hc.names]
        refine forall₂_congr fun f hf => forall_congr' fun _ => ?_
        refine forall₂_congr fun x hx => forall₂_congr fun y hy => ?_
        exact ih f hf (ha.get hx) (hb.get hy) (hc.fields f hf)
      | _ => exact deepMerge_assoc_of_not_object rfl
    | _ => exact iff_of_true (deepMerge_assoc_obj rfl) (aligned_of_first_not_object rfl)
  | _ =>
    refine iff_of_true ?_ (aligned_of_scalar rfl rfl)
    rw [deepMerge_of_scalar rfl rfl, deepMerge_of_scalar (a := b) rfl rfl,
      deepMerge_of_scalar rfl rfl]

/-! ## Merging a list in two parts -/

/-- Each value of the list is aligned with the first value and with what the values before it
give. -/
def AlignedAfter (first merged : JsonTree ν) : List (JsonTree ν) → Prop
  | [] => True
  | value :: values =>
    Aligned first merged value ∧ AlignedAfter first (deepMerge merged value) values

variable {values : List (JsonTree ν)}

theorem foldl_deepMerge (ha : a.Distinct) (hb : b.Distinct)
    (hvalues : ∀ value ∈ values, value.Distinct) (h : AlignedAfter a b values) :
    values.foldl deepMerge (deepMerge a b) = deepMerge a (values.foldl deepMerge b) := by
  induction values generalizing b with
  | nil => rfl
  | cons value values ih =>
    obtain ⟨hvalue, hrest⟩ := List.forall_mem_cons.1 hvalues
    rw [List.foldl_cons, List.foldl_cons, (deepMerge_assoc_iff ha hb hvalue).2 h.1]
    exact ih (distinct_deepMerge hb hvalue) hrest h.2

theorem foldl_deepMerge_split (hxs : (JsonTree.obj xs).Distinct)
    (hvalues : ∀ value ∈ values, value.Distinct) (h : AlignedAfter (.obj xs) (.obj []) values) :
    values.foldl deepMerge (.obj xs) = deepMerge (.obj xs) (values.foldl deepMerge (.obj [])) := by
  have hnil : deepMerge (.obj xs) (.obj []) = .obj xs := by simp [deepMerge]
  have hfold := foldl_deepMerge hxs .emptyObj hvalues h
  rwa [hnil] at hfold

end OpenClaw.Config
