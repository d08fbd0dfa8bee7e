import OpenClaw.Config.MergePatch

/-!
# What a merge patch writes to

The same loops over objects that know who made them. Writing to an object or an array records its
maker, a spread and a clone make new ones.

**Theorem (`held_spec`).** A merge patch writes only to what it has made itself, and the value
is the one of `applyMergePatch`.
-/

namespace OpenClaw.Config

variable {ν : Type}

/-- Who made an object: the caller, as a part of the base or of the patch, or the call. -/
inductive Maker
  | base
  | patch
  | call
deriving DecidableEq

inductive Held (ν : Type)
  | leaf (value : JsonTree ν) (hvalue : (value.isArray || value.isPlainObject) = false)
  | arr (maker : Maker) (items : List (Held ν))
  | obj (maker : Maker) (fields : List (String × Held ν))

namespace Held

mutual

/-- The value as such. -/
def value : Held ν → JsonTree ν
  | .leaf value _ => value
  | .arr _ items => .arr (itemValues items)
  | .obj _ fields => .obj (fieldValues fields)

def itemValues : List (Held ν) → List (JsonTree ν)
  | [] => []
  | item :: items => value item :: itemValues items

def fieldValues : Fields (Held ν) → Fields (JsonTree ν)
  | [] => []
  | (key, field) :: fields => (key, value field) :: fieldValues fields

end

mutual

/-- `structuredClone`. -/
def clone : Held ν → Held ν
  | .leaf value hvalue => .leaf value hvalue
  | .arr _ items => .arr .call (cloneItems items)
  | .obj _ fields => .obj .call (cloneFields fields)

def cloneItems : List (Held ν) → List (Held ν)
  | [] => []
  | item :: items => clone item :: cloneItems items

def cloneFields : Fields (Held ν) → Fields (Held ν)
  | [] => []
  | (key, field) :: fields => (key, clone field) :: cloneFields fields

end

theorem itemValues_eq_map (items : List (Held ν)) : itemValues items = items.map value := by
  induction items with
  | nil => rw [itemValues, List.map_nil]
  | cons item items ih => rw [itemValues, ih, List.map_cons]

theorem fieldValues_eq_map (fields : Fields (Held ν)) :
    fieldValues fields = fields.map fun f => (f.1, f.2.value) := by
  induction fields with
  | nil => rw [fieldValues, List.map_nil]
  | cons f fields ih => rw [fieldValues, ih, List.map_cons]

end Held

/-! ## The loops -/

/-- A new object with the fields of the base, if that is an object. -/
def heldFields : Option (Held ν) → Fields (Held ν)
  | some (.obj _ fields) => fields
  | _ => []

mutual

/-- The value, and the makers of the objects that were written to. -/
def applyHeld (options : MergePatchOptions) (base : Option (Held ν)) :
    Held ν → Held ν × List Maker
  | .obj _ patch =>
    let (result, writes) := patchHeldFields options .call (heldFields base) patch
    (.obj .call result, writes)
  | patch => (patch, [])

/-- The loop that writes to an object of this maker. -/
def patchHeldFields (options : MergePatchOptions) (maker : Maker) (result : Fields (Held ν)) :
    Fields (Held ν) → Fields (Held ν) × List Maker
  | [] => (result, [])
  | (key, value) :: rest =>
    if isBlockedObjectKey key then patchHeldFields options maker result rest
    else
      let (field, writes) := patchedHeldField options (formatMergePatchPath options.path key)
        (result.get key) value
      let (result, later) := patchHeldFields options maker (assign result key field) rest
      (result, writes ++ maker :: later)

def patchedHeldField (options : MergePatchOptions) (path : String) (old : Option (Held ν)) :
    Held ν → Option (Held ν) × List Maker
  | .leaf value hvalue => (if value.isNull then none else some (.leaf value hvalue), [])
  | .arr maker value =>
    match options.mergeObjectArraysById, old with
    | true, some (.arr _ base) =>
      if path ∈ options.replaceArrayPaths then (some (.arr maker value), [])
      else if (Held.itemValues base).all isObjectWithStringId then
        let (merged, writes) := mergeHeldEntries
          (options.at (formatMergePatchArrayEntryPath path)) .call base
          (indexById (Held.itemValues base)) value
        (some (.arr .call merged), writes)
      else (some (.arr maker value), [])
    | _, _ => (some (.arr maker value), [])
  | .obj _ value =>
    let (result, writes) := patchHeldFields (options.at path) .call (heldFields old) value
    (some (.obj .call result), writes)

/-- The loop that writes to an array of this maker. -/
def mergeHeldEntries (options : MergePatchOptions) (maker : Maker) (merged : List (Held ν))
    (index : Fields Nat) : List (Held ν) → List (Held ν) × List Maker
  | [] => (merged, [])
  | patchEntry :: rest =>
    match entryId patchEntry.value with
    | none =>
      let (merged, later) := mergeHeldEntries options maker (merged ++ [patchEntry.clone]) index rest
      (merged, maker :: later)
    | some id =>
      match index.get id with
      | none =>
        let (merged, later) := mergeHeldEntries options maker (merged ++ [patchEntry.clone])
          (index.set id merged.length) rest
        (merged, maker :: later)
      | some i =>
        let writes := (merged[i]?.map fun existing =>
          (applyHeld options (some existing) patchEntry).2).getD []
        let (merged, later) := mergeHeldEntries options maker
          (merged.modify i fun existing => (applyHeld options (some existing) patchEntry).1) index
          rest
        (merged, writes ++ maker :: later)

end

/-! ## The values -/

namespace Held

@[elab_as_elim]
theorem induct {P : Held ν → Prop} (hleaf : ∀ value hvalue, P (.leaf value hvalue))
    (harr : ∀ maker items, (∀ item ∈ items, P item) → P (.arr maker items))
    (hobj : ∀ maker (fields : Fields (Held ν)), (∀ f ∈ fields, P f.2) → P (.obj maker fields))
    (held : Held ν) : P held :=
  @Held.rec ν P (fun items => ∀ item ∈ items, P item) (fun fields => ∀ f ∈ fields, P f.2)
    (fun f => P f.2) hleaf harr hobj (List.forall_mem_nil _)
    (fun _ _ hitem hitems => List.forall_mem_cons.2 ⟨hitem, hitems⟩) (List.forall_mem_nil _)
    (fun _ _ hf hfields => List.forall_mem_cons.2 ⟨hf, hfields⟩) (fun _ _ hvalue => hvalue) held

theorem value_clone (held : Held ν) : held.clone.value = held.value := by
  induction held using Held.induct with
  | hleaf value hvalue => rw [clone]
  | harr maker items ih =>
    rw [clone, value, value]
    congr 1
    induction items with
    | nil => rfl
    | cons item items ihItems =>
      obtain ⟨hitem, hrest⟩ := List.forall_mem_cons.1 ih
      rw [cloneItems, itemValues, itemValues, hitem, ihItems hrest]
  | hobj maker fields ih =>
    rw [clone, value, value]
    congr 1
    induction fields with
    | nil => rfl
    | cons f fields ihFields =>
      obtain ⟨hf, hrest⟩ := List.forall_mem_cons.1 ih
      rw [cloneFields, fieldValues, fieldValues, hf, ihFields hrest]

theorem get_fieldValues (key : String) (fields : Fields (Held ν)) :
    (fieldValues fields).get key = (Fields.get key fields).map value := by
  induction fields with
  | nil => rfl
  | cons f fields ih =>
    obtain ⟨name, field⟩ := f
    rw [fieldValues, Fields.get_cons, Fields.get_cons, ih]
    by_cases h : name = key <;> simp [h]

theorem fieldValues_set (key : String) (fields : Fields (Held ν)) (field : Held ν) :
    fieldValues (fields.set key field) = (fieldValues fields).set key field.value := by
  induction fields with
  | nil => rfl
  | cons f fields ih =>
    obtain ⟨name, old⟩ := f
    have ih' : fieldValues (KeyedList.put Prod.fst (key, field) fields) = _ := ih
    by_cases h : name = key <;>
      simp [Fields.set, KeyedList.put, fieldValues, h, ih']

theorem fieldValues_assign (key : String) (fields : Fields (Held ν)) (field : Option (Held ν)) :
    fieldValues (assign fields key field) = assign (fieldValues fields) key (field.map value) := by
  cases field with
  | none =>
    simp only [fieldValues_eq_map, assign, Fields.erase, List.filter_map, Option.map_none]
    rfl
  | some field => exact fieldValues_set key fields field

theorem fieldValues_heldFields (base : Option (Held ν)) :
    fieldValues (heldFields base) = baseFields (base.map value) := by
  cases base with
  | none => rfl
  | some held =>
    cases held with
    | leaf value hvalue => cases value <;> first | rfl | cases hvalue
    | arr maker items => rfl
    | obj maker fields => rfl

end Held

section

variable {options : MergePatchOptions}

/-- The value is the given one, and all writes are to what the call made. -/
def Gives {α : Type} (run : α × List Maker) (same : α → Prop) : Prop :=
  same run.1 ∧ ∀ maker ∈ run.2, maker = .call

variable (options) in
theorem patchHeldFields_gives {patch : Fields (Held ν)}
    (hpatch : ∀ f ∈ patch, ∀ options path old, Gives (patchedHeldField options path old f.2)
      (fun field => field.map Held.value =
        patchedField options path (old.map Held.value) f.2.value))
    (result : Fields (Held ν)) :
    Gives (patchHeldFields options .call result patch) (fun fields => Held.fieldValues fields =
      patchFields options (Held.fieldValues result) (Held.fieldValues patch)) := by
  induction patch generalizing result with
  | nil =>
    exact ⟨rfl, List.forall_mem_nil _⟩
  | cons f patch ih =>
    obtain ⟨key, field⟩ := f
    obtain ⟨hfirst, hrest⟩ := List.forall_mem_cons.1 hpatch
    rw [patchHeldFields, Held.fieldValues, patchFields]
    by_cases hblocked : isBlockedObjectKey key = true
    · rw [if_pos hblocked, if_pos hblocked]
      exact ih hrest result
    · rw [if_neg hblocked, if_neg hblocked]
      obtain ⟨hvalue, hwrites⟩ := hfirst options (formatMergePatchPath options.path key)
        (result.get key)
      obtain ⟨hfields, hlater⟩ := ih hrest (assign result key (patchedHeldField options
        (formatMergePatchPath options.path key) (result.get key) field).1)
      refine ⟨?_, ?_⟩
      · rw [Held.fieldValues_assign, hvalue] at hfields
        rw [Held.get_fieldValues]
        exact hfields
      · intro maker hmaker
        obtain h | h := List.mem_append.1 hmaker
        · exact hwrites maker h
        · obtain rfl | h := List.mem_cons.1 h
          · rfl
          · exact hlater maker h

variable (options) in
theorem mergeHeldEntries_gives {patch : List (Held ν)}
    (hpatch : ∀ entry ∈ patch, ∀ options base, Gives (applyHeld options base entry)
      (fun held => held.value = applyMergePatch options (base.map Held.value) entry.value))
    (merged : List (Held ν)) (index : Fields Nat) :
    Gives (mergeHeldEntries options .call merged index patch) (fun entries =>
      Held.itemValues entries =
        mergeEntries options (Held.itemValues merged) index (Held.itemValues patch)) := by
  induction patch generalizing merged index with
  | nil =>
    exact ⟨rfl, List.forall_mem_nil _⟩
  | cons entry patch ih =>
    obtain ⟨hentry, hrest⟩ := List.forall_mem_cons.1 hpatch
    have happend : Held.itemValues (merged ++ [entry.clone]) =
        Held.itemValues merged ++ [entry.value] := by
      simp [Held.itemValues_eq_map, Held.value_clone]
    have hlength : (Held.itemValues merged).length = merged.length := by
      simp [Held.itemValues_eq_map]
    rw [mergeHeldEntries, Held.itemValues, mergeEntries, hlength]
    cases hid : entryId entry.value with
    | none =>
      obtain ⟨hentries, hlater⟩ := ih hrest (merged ++ [entry.clone]) index
      rw [happend] at hentries
      exact ⟨hentries, List.forall_mem_cons.2 ⟨rfl, hlater⟩⟩
    | some id =>
      dsimp only
      cases hget : index.get id with
      | none =>
        obtain ⟨hentries, hlater⟩ := ih hrest (merged ++ [entry.clone]) (index.set id merged.length)
        rw [happend] at hentries
        exact ⟨hentries, List.forall_mem_cons.2 ⟨rfl, hlater⟩⟩
      | some i =>
        obtain ⟨hentries, hlater⟩ := ih hrest (merged.modify i fun existing =>
          (applyHeld options (some existing) entry).1) index
        have hmodify : Held.itemValues (merged.modify i fun existing =>
            (applyHeld options (some existing) entry).1) =
            (Held.itemValues merged).modify i fun existing =>
              applyMergePatch options (some existing) entry.value := by
          simp only [Held.itemValues_eq_map]
          refine List.ext_getElem? fun j => ?_
          simp only [List.getElem?_map, List.getElem?_modify, Option.map_eq_map, Option.map_map]
          refine congrArg (Option.map · merged[j]?) (funext fun existing => ?_)
          by_cases hij : i = j
          · simpa [hij] using (hentry options (some existing)).1
          · simp [hij]
        rw [hmodify] at hentries
        refine ⟨hentries, fun maker hmaker => ?_⟩
        obtain h | h := List.mem_append.1 hmaker
        · cases hi : merged[i]? with
          | none => simp [hi] at h
          | some existing =>
            rw [hi] at h
            exact (hentry options (some existing)).2 maker h
        · obtain rfl | h := List.mem_cons.1 h
          · rfl
          · exact hlater maker h

/-- **A merge patch writes only to what it has made itself.** -/
theorem held_spec (patch : Held ν) :
    (∀ options base, Gives (applyHeld options base patch) (fun held =>
      held.value = applyMergePatch options (base.map Held.value) patch.value)) ∧
    ∀ options path old, Gives (patchedHeldField options path old patch) (fun field =>
      field.map Held.value = patchedField options path (old.map Held.value) patch.value) := by
  induction patch using Held.induct with
  | hleaf value hvalue =>
    refine ⟨fun options base => ?_, fun options path old => ?_⟩
    · rw [applyHeld]
      · refine ⟨?_, List.forall_mem_nil _⟩
        cases value <;> first | rfl | cases hvalue
      · intro maker fields h
        cases h
    · rw [patchedHeldField]
      refine ⟨?_, List.forall_mem_nil _⟩
      cases value <;> first | rfl | cases hvalue
  | harr maker items ih =>
    refine ⟨fun options base => ⟨rfl, List.forall_mem_nil _⟩, fun options path old => ?_⟩
    have hkept : Gives (some (Held.arr maker items), []) fun field =>
        field.map Held.value = some (.arr (Held.itemValues items)) := ⟨rfl, List.forall_mem_nil _⟩
    have hentries := mergeHeldEntries_gives (options.at (formatMergePatchArrayEntryPath path))
      fun item hitem => (ih item hitem).1
    cases hmerge : options.mergeObjectArraysById with
    | false =>
      simpa only [patchedHeldField, patchedField, Held.value, hmerge] using hkept
    | true =>
      cases old with
      | none =>
        simpa only [patchedHeldField, patchedField, Held.value, hmerge, Option.map_none] using hkept
      | some held =>
        cases held with
        | arr _ base =>
          simp only [patchedHeldField, patchedField, Held.value, hmerge, Option.map_some]
          by_cases hpath : path ∈ options.replaceArrayPaths
          · rw [if_pos hpath, if_pos hpath]
            exact hkept
          · rw [if_neg hpath, if_neg hpath]
            by_cases hall : (Held.itemValues base).all isObjectWithStringId = true
            · rw [if_pos hall, if_pos hall]
              obtain ⟨hvalue, hwrites⟩ := hentries base (indexById (Held.itemValues base))
              exact ⟨congrArg (fun items => some (JsonTree.arr items)) hvalue, hwrites⟩
            · rw [if_neg hall, if_neg hall]
              exact hkept
        | leaf value hvalue =>
          cases value with
          | arr _ => cases hvalue
          | _ =>
            simpa only [patchedHeldField, patchedField, Held.value, hmerge, Option.map_some]
              using hkept
        | obj _ fields =>
          simpa only [patchedHeldField, patchedField, Held.value, hmerge, Option.map_some]
            using hkept
  | hobj maker fields ih =>
    have hfields := fun options => patchHeldFields_gives options
      (fun f hf => (ih f hf).2)
    refine ⟨fun options base => ?_, fun options path old => ?_⟩
    · obtain ⟨hvalue, hwrites⟩ := hfields options (heldFields base)
      rw [Held.fieldValues_heldFields] at hvalue
      exact ⟨congrArg JsonTree.obj hvalue, hwrites⟩
    · obtain ⟨hvalue, hwrites⟩ := hfields (options.at path) (heldFields old)
      rw [Held.fieldValues_heldFields] at hvalue
      exact ⟨congrArg (fun fields => some (JsonTree.obj fields)) hvalue, hwrites⟩

end

end OpenClaw.Config
