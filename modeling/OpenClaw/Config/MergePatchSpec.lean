import OpenClaw.Config.MergeById
import OpenClaw.Config.MergePatchWrites

/-!
# Config merge patches: what they promise

**Theorem (`applyMergePatch_spec`).** Without merging by id a patch is the one of RFC 7396 but for
blocked keys, and it writes only to what it has made. Merging by id keeps the entries of the base
in place and merges the patch entries with their ids into them. A patch may be applied twice exactly
when its arrays settle, and arrays of entries with distinct ids do.
-/

namespace OpenClaw.Config

variable {ν : Type}

theorem applyMergePatch_spec (options : MergePatchOptions) :
    (options.mergeObjectArraysById = false → ∀ (base : Option (JsonTree ν)) (patch : JsonTree ν),
      applyMergePatch options base patch = mergePatch base patch) ∧
    (∀ base patch : Held ν,
      (applyHeld options (some base) patch).1.value =
        applyMergePatch options (some base.value) patch.value ∧
      ∀ maker ∈ (applyHeld options (some base) patch).2, maker = .call) ∧
    (∀ (base : Option (JsonTree ν)) (patch : Fields (JsonTree ν)) (key : String)
      (value : JsonTree ν), patch.names.Nodup → (key, value) ∈ patch →
      isBlockedObjectKey key = false →
      (baseFields (some (applyMergePatch options base (.obj patch)))).get key =
        patchedField options (formatMergePatchPath options.path key)
          ((baseFields base).get key) value) ∧
    (options.mergeObjectArraysById = true → ∀ (path : String) (base patch : List (JsonTree ν)),
      path ∉ options.replaceArrayPaths → (∀ v ∈ base, isObjectWithStringId v = true) →
      DistinctIds base → (∀ entry ∈ patch, entry.Distinct) →
      ∃ merged, patchedField options path (some (.arr base)) (.arr patch) = some (.arr merged) ∧
        DistinctIds merged ∧ ∀ (i : Nat) (v : JsonTree ν), base[i]? = some v →
          merged[i]? = some (mergedEntry (options.at (formatMergePatchArrayEntryPath path)) patch v) ∧
          ((∀ entry ∈ patch, entryId entry ≠ entryId v) → merged[i]? = some v)) ∧
    (∀ (base : Option (JsonTree ν)) (patch : JsonTree ν), patch.Distinct →
      (applyMergePatch options (some (applyMergePatch options base patch)) patch =
        applyMergePatch options base patch ↔
          ∀ fields, patch = .obj fields → FieldsSettle options (baseFields base) fields)) ∧
    (∀ (path : String) (old : Option (JsonTree ν)) (patch : List (JsonTree ν)),
      options.mergeObjectArraysById = false ∨ path ∈ options.replaceArrayPaths →
        Settles options path old (.arr patch)) ∧
    ∀ (path : String) (old : Option (JsonTree ν)) (patch : List (JsonTree ν)),
      options.mergeObjectArraysById = true → path ∉ options.replaceArrayPaths →
      (∀ entry ∈ patch, entry.Distinct) → DistinctIds (keyedEntries old) →
      (∀ entry ∈ patch, (entryId entry).isSome) → (patch.map entryId).Nodup →
      (∀ entry ∈ patch,
        EntrySettles (options.at (formatMergePatchArrayEntryPath path)) (keyedEntries old) entry) →
      Settles options path old (.arr patch) := by
  refine ⟨?_, ?_, ?_, ?_, ?_, ?_, ?_⟩
  · intro h base patch
    exact applyMergePatch_eq_mergePatch h base patch
  · intro base patch
    exact (held_spec patch).1 options (some base)
  · intro base patch key value hpatch hmem hkey
    exact get_patchFields hpatch hmem hkey
  · intro hmerge path base patch hpath hids hdistinct hpatch
    obtain ⟨hmerged, hkept⟩ := mergeEntries_spec
      (options.at (formatMergePatchArrayEntryPath path)) hpatch (indexed_indexById hdistinct)
    refine ⟨_, ?_, hmerged, fun i v hv => ⟨hkept i v hv, fun hne => ?_⟩⟩
    · simp only [patchedField, hmerge]
      rw [if_neg hpath, if_pos (List.all_eq_true.2 hids)]
    · rw [hkept i v hv, mergedEntry_of_forall_ne hne]
  · intro base patch hpatch
    exact applyMergePatch_idempotent_iff hpatch base
  · intro path old patch h
    exact settles_arr_of_replaced h
  · intro path old patch hmerge hreplace hpatch hold hids hnodup hsettles
    exact settles_arr hmerge hreplace hpatch hold hids hnodup hsettles

def byId : MergePatchOptions := ⟨true, [], ""⟩

def agent (id : String) (rest : Fields (JsonTree Nat)) : JsonTree Nat :=
  .obj (("id", .str id) :: rest)

/-- An entry without a patch entry stays. -/
theorem patchedField_agents : ∃ merged,
    patchedField byId "agents" (some (.arr [agent "a" [], agent "b" []]))
      (.arr [agent "a" [("name", .num 1)]]) = some (.arr merged) ∧
    merged[1]? = some (agent "b" []) := by
  have hids : ∀ v ∈ [agent "a" [], agent "b" []], isObjectWithStringId v = true := by decide
  have hdistinct : DistinctIds [agent "a" [], agent "b" []] := by
    intro i j v w id hv hw hidv hidw
    match i, j with
    | 0, 0 | 1, 1 => rfl
    | 0, 1 =>
      cases hv
      cases hw
      exact absurd (hidv.trans hidw.symm) (by decide)
    | 1, 0 =>
      cases hv
      cases hw
      exact absurd (hidv.trans hidw.symm) (by decide)
    | i + 2, _ => cases hv
    | _, j + 2 => cases hw
  have hpatch : ∀ entry ∈ [agent "a" [("name", .num 1)]], entry.Distinct := by
    simp only [List.mem_singleton, forall_eq]
    refine .obj (by decide) fun f hf => ?_
    simp only [List.mem_cons, List.not_mem_nil, or_false] at hf
    obtain rfl | rfl := hf
    · exact .str "a"
    · exact .num 1
  obtain ⟨merged, hmerged, _, hkept⟩ := (applyMergePatch_spec byId).2.2.2.1 rfl "agents" _ _
    (by decide) hids hdistinct hpatch
  exact ⟨merged, hmerged, (hkept 1 (agent "b" []) rfl).2 (by decide)⟩

/-- A patch entry without an id is appended, and replaces the array the second time. -/
theorem applyMergePatch_not_idempotent :
    ¬ ∀ base patch : List (JsonTree Nat), (∀ v ∈ base, isObjectWithStringId v = true) →
      DistinctIds base →
      let apply := fun old => applyMergePatch byId (some old) (.obj [("list", .arr patch)])
      apply (apply (.obj [("list", .arr base)])) = apply (.obj [("list", .arr base)]) := by
  intro h
  have hdistinct : DistinctIds [agent "a" []] := by
    intro i j v w id hv hw _ _
    match i, j with
    | 0, 0 => rfl
    | i + 1, _ => cases hv
    | _, j + 1 => cases hw
  have hsame := h [agent "a" []] [.str "s"] (by decide) hdistinct
  simp [applyMergePatch, patchFields, patchedField, mergeEntries, byId, agent, baseFields, assign,
    isBlockedObjectKey, entryId, isObjectWithStringId, Fields.get, Fields.set, KeyedList.get,
    KeyedList.put] at hsame

end OpenClaw.Config
