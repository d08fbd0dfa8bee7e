import OpenClaw.Config.DeepMerge
import Mathlib.Data.List.Nodup

/-!
# Config merge patches

`applyMergePatch` is a JSON merge patch that skips blocked keys. With `mergeObjectArraysById` an
array of objects with ids is merged entry by entry.

* `applyMergePatch_eq_mergePatch`: without that option it is the merge patch of RFC 7396, but for
  blocked keys.
* `mergeEntries_spec`: what merging by id does to the entries of the base.
* `applyMergePatch_idempotent_iff`: applying a patch twice is applying it once exactly when every
  array of it settles, as `settles_arr` says of arrays of entries with distinct ids.
-/

namespace OpenClaw.Config

variable {ν : Type}

structure MergePatchOptions where
  mergeObjectArraysById : Bool
  replaceArrayPaths : List String
  /-- The path of the value, empty at the top. -/
  path : String

def formatMergePatchPath (parentPath key : String) : String :=
  if parentPath = "" then key else parentPath ++ "." ++ key

def formatMergePatchArrayEntryPath (arrayPath : String) : String := arrayPath ++ "[]"

def MergePatchOptions.at (options : MergePatchOptions) (path : String) : MergePatchOptions :=
  { options with path }

/-- The id of an object with a string id that is not empty. -/
def entryId : JsonTree ν → Option String
  | .obj fields =>
    match Fields.get "id" fields with
    | some (.str id) => if id = "" then none else some id
    | _ => none
  | _ => none

def isObjectWithStringId (value : JsonTree ν) : Bool := (entryId value).isSome

/-- The fields that a patch is applied to: none, where there is no object. -/
def baseFields : Option (JsonTree ν) → Fields (JsonTree ν)
  | some (.obj fields) => fields
  | _ => []

/-- The index of each id, the last one where an id is repeated. -/
def indexById (entries : List (JsonTree ν)) : Fields Nat :=
  entries.zipIdx.foldl
    (fun index entry => match entryId entry.1 with
      | some id => index.set id entry.2
      | none => index) []

/-- `result[key] = value`, or `delete result[key]`. -/
def assign {α : Type} (result : Fields α) (key : String) : Option α → Fields α
  | some value => result.set key value
  | none => result.erase key

mutual

def applyMergePatch (options : MergePatchOptions) (base : Option (JsonTree ν)) :
    JsonTree ν → JsonTree ν
  | .obj patch => .obj (patchFields options (baseFields base) patch)
  | patch => patch

/-- The loop over the entries of a patch. -/
def patchFields (options : MergePatchOptions) (result : Fields (JsonTree ν)) :
    Fields (JsonTree ν) → Fields (JsonTree ν)
  | [] => result
  | (key, value) :: rest =>
    if isBlockedObjectKey key then patchFields options result rest
    else
      patchFields options
        (assign result key
          (patchedField options (formatMergePatchPath options.path key) (result.get key) value))
        rest

/-- What a field becomes, from what it was and the value in the patch. -/
def patchedField (options : MergePatchOptions) (path : String) (old : Option (JsonTree ν)) :
    JsonTree ν → Option (JsonTree ν)
  | .null => none
  | .arr value =>
    match options.mergeObjectArraysById, old with
    | true, some (.arr base) =>
      if path ∈ options.replaceArrayPaths then some (.arr value)
      else if base.all isObjectWithStringId then
        some (.arr (mergeEntries (options.at (formatMergePatchArrayEntryPath path)) base
          (indexById base) value))
      -- arrays without ids keep the replacement of the RFC
      else some (.arr value)
    | _, _ => some (.arr value)
  | .obj value => some (.obj (patchFields (options.at path) (baseFields old) value))
  | value => some value

/-- The loop over the entries of a patch array. An entry is appended as a clone. -/
def mergeEntries (options : MergePatchOptions) (merged : List (JsonTree ν)) (index : Fields Nat) :
    List (JsonTree ν) → List (JsonTree ν)
  | [] => merged
  | patchEntry :: rest =>
    match entryId patchEntry with
    | none => mergeEntries options (merged ++ [patchEntry]) index rest
    | some id =>
      match index.get id with
      | none => mergeEntries options (merged ++ [patchEntry]) (index.set id merged.length) rest
      | some i =>
        mergeEntries options
          (merged.modify i fun existing => applyMergePatch options (some existing) patchEntry)
          index rest

end

/-! ## RFC 7396 -/

mutual

/-- `MergePatch(Target, Patch)`, which passes over blocked names. -/
def mergePatch (target : Option (JsonTree ν)) : JsonTree ν → JsonTree ν
  | .obj patch => .obj (mergePatchFields (baseFields target) patch)
  | patch => patch

def mergePatchFields (target : Fields (JsonTree ν)) : Fields (JsonTree ν) → Fields (JsonTree ν)
  | [] => target
  | (name, value) :: rest =>
    if isBlockedObjectKey name then mergePatchFields target rest
    else if value.isNull then mergePatchFields (target.erase name) rest
    else mergePatchFields (target.set name (mergePatch (target.get name) value)) rest

end

variable {options : MergePatchOptions}

theorem patchFields_eq_mergePatchFields {patch : Fields (JsonTree ν)}
    (hpatch : ∀ f ∈ patch, ∀ path old, patchedField options path old f.2 =
      if f.2.isNull then none else some (mergePatch old f.2)) (result : Fields (JsonTree ν)) :
    patchFields options result patch = mergePatchFields result patch := by
  induction patch generalizing result with
  | nil => rw [patchFields, mergePatchFields]
  | cons f patch ih =>
    obtain ⟨key, value⟩ := f
    obtain ⟨hvalue, hrest⟩ := List.forall_mem_cons.1 hpatch
    rw [patchFields, mergePatchFields]
    by_cases hblocked : isBlockedObjectKey key = true
    · rw [if_pos hblocked, if_pos hblocked, ih hrest]
    · rw [if_neg hblocked, if_neg hblocked, hvalue]
      by_cases hnull : value.isNull = true
      · rw [if_pos hnull, if_pos hnull]
        exact ih hrest _
      · rw [if_neg hnull, if_neg hnull]
        exact ih hrest _

example (xs : Fields (JsonTree ν)) : patchFields options xs [] = xs := by rw [patchFields]

theorem patchedField_eq_mergePatch (h : options.mergeObjectArraysById = false)
    (value : JsonTree ν) (path : String) (old : Option (JsonTree ν)) :
    patchedField options path old value =
      if value.isNull then none else some (mergePatch old value) := by
  induction value using JsonTree.induct generalizing options path old with
  | harr items _ =>
    simp [patchedField, h, JsonTree.isNull, mergePatch]
  | hobj fields ih =>
    have hat : (options.at path).mergeObjectArraysById = false := h
    have hfields := patchFields_eq_mergePatchFields
      (fun f hf path old => ih f hf hat path old) (baseFields old)
    simp [patchedField, JsonTree.isNull, mergePatch, hfields]
  | _ => rfl

theorem applyMergePatch_eq_mergePatch (h : options.mergeObjectArraysById = false)
    (base : Option (JsonTree ν)) (patch : JsonTree ν) :
    applyMergePatch options base patch = mergePatch base patch := by
  cases patch with
  | obj fields =>
    exact congrArg JsonTree.obj (patchFields_eq_mergePatchFields
      (fun f _ path old => patchedField_eq_mergePatch h f.2 path old) _)
  | _ => rw [applyMergePatch, mergePatch] <;> intros <;> contradiction

/-! ## The fields of the result -/

section

variable {options : MergePatchOptions} {result patch : Fields (JsonTree ν)} {key other : String}

theorem get_assign (value : Option (JsonTree ν)) : (assign result key value).get other =
    if key = other then value else result.get other := by
  cases value with
  | none => exact Fields.get_erase
  | some value => exact Fields.get_set

theorem assign_of_get {value : Option (JsonTree ν)} (h : result.get key = value) :
    assign result key value = result := by
  cases value with
  | none => exact Fields.erase_of_get h
  | some value => exact Fields.set_of_get h

theorem get_patchFields_of_not_mem (h : key ∉ patch.names) :
    (patchFields options result patch).get key = result.get key := by
  induction patch generalizing result with
  | nil => rw [patchFields]
  | cons f patch ih =>
    obtain ⟨name, value⟩ := f
    obtain ⟨hne, hrest⟩ := not_or.1 (mt List.mem_cons.2 h)
    rw [patchFields]
    by_cases hblocked : isBlockedObjectKey name = true
    · rw [if_pos hblocked, ih hrest]
    · rw [if_neg hblocked, ih hrest, get_assign, if_neg (Ne.symm hne)]

theorem get_patchFields (hpatch : patch.names.Nodup) {value : JsonTree ν}
    (hmem : (key, value) ∈ patch) (hkey : isBlockedObjectKey key = false) :
    (patchFields options result patch).get key =
      patchedField options (formatMergePatchPath options.path key) (result.get key) value := by
  induction patch generalizing result with
  | nil => cases hmem
  | cons f patch ih =>
    obtain ⟨name, first⟩ := f
    obtain ⟨hfresh, hrest⟩ := List.nodup_cons.1 hpatch
    rw [patchFields]
    obtain h | h := List.mem_cons.1 hmem
    · cases h
      rw [hkey, if_neg Bool.false_ne_true, get_patchFields_of_not_mem hfresh, get_assign, if_pos rfl]
    · have hne : name ≠ key := by
        intro heq
        subst heq
        have hname : name ∈ Fields.names patch := List.mem_map_of_mem h
        exact hfresh hname
      by_cases hblocked : isBlockedObjectKey name = true
      · rw [if_pos hblocked, ih hrest h]
      · rw [if_neg hblocked, ih hrest h, get_assign, if_neg hne]

theorem patchFields_eq_self (h : ∀ f ∈ patch, isBlockedObjectKey f.1 = false →
    patchedField options (formatMergePatchPath options.path f.1) (result.get f.1) f.2 =
      result.get f.1) : patchFields options result patch = result := by
  induction patch with
  | nil => rw [patchFields]
  | cons f patch ih =>
    obtain ⟨name, first⟩ := f
    obtain ⟨hfirst, hrest⟩ := List.forall_mem_cons.1 h
    rw [patchFields]
    by_cases hblocked : isBlockedObjectKey name = true
    · rw [if_pos hblocked, ih hrest]
    · rw [if_neg hblocked, hfirst (Bool.eq_false_iff.2 hblocked), assign_of_get rfl, ih hrest]

end

/-! ## Applying a patch twice -/

section

variable {options : MergePatchOptions}

mutual

/-- Applying the value of a field again changes nothing: by its fields where it is an object, and
for an array by what it does. -/
def Settles (options : MergePatchOptions) (path : String) (old : Option (JsonTree ν)) :
    JsonTree ν → Prop
  | .arr value =>
    patchedField options path (patchedField options path old (.arr value)) (.arr value) =
      patchedField options path old (.arr value)
  | .obj value => FieldsSettle (options.at path) (baseFields old) value
  | _ => True

def FieldsSettle (options : MergePatchOptions) (result : Fields (JsonTree ν)) :
    Fields (JsonTree ν) → Prop
  | [] => True
  | (key, value) :: rest =>
    (isBlockedObjectKey key = false →
      Settles options (formatMergePatchPath options.path key) (result.get key) value) ∧
    FieldsSettle options result rest

end

variable {result patch : Fields (JsonTree ν)}

theorem fieldsSettle_iff :
    FieldsSettle options result patch ↔ ∀ f ∈ patch, isBlockedObjectKey f.1 = false →
      Settles options (formatMergePatchPath options.path f.1) (result.get f.1) f.2 := by
  induction patch with
  | nil => simp [FieldsSettle]
  | cons f patch ih => rw [FieldsSettle, ih, List.forall_mem_cons]

theorem patchFields_idempotent_iff (hpatch : patch.names.Nodup) :
    patchFields options (patchFields options result patch) patch =
        patchFields options result patch ↔
      ∀ f ∈ patch, isBlockedObjectKey f.1 = false →
        let patched := fun old =>
          patchedField options (formatMergePatchPath options.path f.1) old f.2
        patched (patched (result.get f.1)) = patched (result.get f.1) := by
  constructor
  · intro h f hf hkey
    have hget := congrArg (Fields.get f.1) h
    rwa [get_patchFields hpatch hf hkey, get_patchFields hpatch hf hkey] at hget
  · intro h
    refine patchFields_eq_self fun f hf hkey => ?_
    rw [get_patchFields hpatch hf hkey]
    exact h f hf hkey

theorem patchedField_idempotent_iff {value : JsonTree ν} (hvalue : value.Distinct) (path : String)
    (old : Option (JsonTree ν)) :
    patchedField options path (patchedField options path old value) value =
      patchedField options path old value ↔ Settles options path old value := by
  induction value using JsonTree.induct generalizing options path old with
  | harr items _ => rw [Settles]
  | hobj fields ih =>
    rw [patchedField, patchedField, baseFields, Settles, fieldsSettle_iff, Option.some_inj,
      JsonTree.obj.injEq, patchFields_idempotent_iff hvalue.names]
    refine forall₂_congr fun f hf => forall_congr' fun _ => ?_
    exact ih f hf (hvalue.fields f hf) _ _
  | _ => simp [patchedField, Settles]

/-- **When a patch may be applied twice.** -/
theorem applyMergePatch_idempotent_iff {patch : JsonTree ν} (hpatch : patch.Distinct)
    (base : Option (JsonTree ν)) :
    applyMergePatch options (some (applyMergePatch options base patch)) patch =
      applyMergePatch options base patch ↔
        ∀ fields, patch = .obj fields → FieldsSettle options (baseFields base) fields := by
  cases patch with
  | obj fields =>
    simp only [applyMergePatch, baseFields, JsonTree.obj.injEq, forall_eq', fieldsSettle_iff,
      patchFields_idempotent_iff hpatch.names]
    refine forall₂_congr fun f hf => forall_congr' fun _ => ?_
    exact patchedField_idempotent_iff (hpatch.fields f hf) _ _
  | _ => simp [applyMergePatch]

end

end OpenClaw.Config
