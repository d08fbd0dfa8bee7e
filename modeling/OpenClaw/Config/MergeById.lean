import OpenClaw.Config.MergePatch
import Mathlib.Data.List.Induction

/-!
# Merging arrays by id

The loop over a patch array keeps an index of the ids (`Indexed`).

* `mergeEntries_spec`: an entry of the base becomes the merge of the patch entries with its id, and
  stays where it is.
* `settles_arr`: where all entries of the patch have ids, no two the same, each of them may be merged
  again.
-/

namespace OpenClaw.Config

variable {ν : Type}

/-- No two entries have the same id. -/
def DistinctIds (entries : List (JsonTree ν)) : Prop :=
  ∀ (i j : Nat) (v w : JsonTree ν) (id : String), entries[i]? = some v → entries[j]? = some w →
    entryId v = some id → entryId w = some id → i = j

/-- The index has the place of every id. -/
def Indexed (entries : List (JsonTree ν)) (index : Fields Nat) : Prop :=
  ∀ (id : String) (i : Nat), index.get id = some i ↔
    ∃ v, entries[i]? = some v ∧ entryId v = some id

section

variable {options : MergePatchOptions} {merged : List (JsonTree ν)} {index : Fields Nat}
  {entry : JsonTree ν} {id : String}

theorem Indexed.distinctIds (h : Indexed merged index) : DistinctIds merged := by
  intro i j v w id hv hw hidv hidw
  have hi := (h id i).2 ⟨v, hv, hidv⟩
  have hj := (h id j).2 ⟨w, hw, hidw⟩
  exact Option.some_inj.1 (hi.symm.trans hj)

theorem getElem?_snoc {α : Type} {xs : List α} {x y : α} {i : Nat} :
    (xs ++ [x])[i]? = some y ↔ xs[i]? = some y ∨ i = xs.length ∧ x = y := by
  rw [List.getElem?_append]
  by_cases h : i < xs.length
  · simp [h, Nat.ne_of_lt h]
  · have hnone : xs[i]? = none := List.getElem?_eq_none (Nat.le_of_not_lt h)
    rw [if_neg h, hnone, List.getElem?_singleton]
    by_cases heq : i = xs.length
    · simp [heq]
    · have hsub : i - xs.length ≠ 0 := by omega
      simp [heq, hsub]

theorem Indexed.append_none (h : Indexed merged index) (hentry : entryId entry = none) :
    Indexed (merged ++ [entry]) index := by
  intro id i
  rw [h id i]
  constructor
  · intro ⟨v, hv, hid⟩
    exact ⟨v, getElem?_snoc.2 (.inl hv), hid⟩
  · intro ⟨v, hv, hid⟩
    obtain hv | ⟨_, rfl⟩ := getElem?_snoc.1 hv
    · exact ⟨v, hv, hid⟩
    · cases hentry.symm.trans hid

theorem Indexed.append_new (h : Indexed merged index) (hentry : entryId entry = some id)
    (hnew : index.get id = none) : Indexed (merged ++ [entry]) (index.set id merged.length) := by
  intro other i
  rw [Fields.get_set]
  by_cases hother : id = other
  · subst hother
    rw [if_pos rfl, Option.some_inj]
    constructor
    · intro hi
      exact ⟨entry, getElem?_snoc.2 (.inr ⟨hi.symm, rfl⟩), hentry⟩
    · intro ⟨v, hv, hid⟩
      obtain hv | ⟨hi, _⟩ := getElem?_snoc.1 hv
      · cases hnew.symm.trans ((h id i).2 ⟨v, hv, hid⟩)
      · exact hi.symm
  · rw [if_neg hother, h other i]
    constructor
    · intro ⟨v, hv, hid⟩
      exact ⟨v, getElem?_snoc.2 (.inl hv), hid⟩
    · intro ⟨v, hv, hid⟩
      obtain hv | ⟨_, rfl⟩ := getElem?_snoc.1 hv
      · exact ⟨v, hv, hid⟩
      · exact absurd (Option.some_inj.1 (hentry.symm.trans hid)) hother

theorem Indexed.modify (h : Indexed merged index) {i : Nat} {f : JsonTree ν → JsonTree ν}
    (hf : ∀ v, merged[i]? = some v → entryId (f v) = entryId v) :
    Indexed (merged.modify i f) index := by
  intro id j
  rw [h id j, List.getElem?_modify]
  by_cases hij : i = j
  · subst hij
    cases hv : merged[i]? with
    | none => simp
    | some v => simp [hf v hv]
  · simp [hij]

theorem indexById_append : indexById (merged ++ [entry]) =
    match entryId entry with
    | some id => (indexById merged).set id merged.length
    | none => indexById merged := by
  simp only [indexById, List.zipIdx_append, List.foldl_append, List.zipIdx_singleton,
    List.foldl_cons, List.foldl_nil, Nat.zero_add] <;> rfl

theorem indexed_indexById (h : DistinctIds merged) : Indexed merged (indexById merged) := by
  induction merged using List.reverseRecOn with
  | nil =>
    intro id i
    simp [indexById]
  | append_singleton merged entry ih =>
    have hprev : DistinctIds merged := by
      intro i j v w id hv hw
      exact h i j v w id (getElem?_snoc.2 (.inl hv)) (getElem?_snoc.2 (.inl hw))
    rw [indexById_append]
    cases hentry : entryId entry with
    | none => exact (ih hprev).append_none hentry
    | some id =>
      refine (ih hprev).append_new hentry (Option.eq_none_iff_forall_ne_some.2 fun i hi => ?_)
      obtain ⟨v, hv, hid⟩ := (ih hprev id i).1 hi
      have hlast := h i merged.length v entry id (getElem?_snoc.2 (.inl hv))
        (getElem?_snoc.2 (.inr ⟨rfl, rfl⟩)) hid hentry
      have hlt := (List.getElem?_eq_some_iff.1 hv).1
      omega

/-! ## What becomes of the entries -/

variable (options) in
theorem entryId_applyMergePatch (hentry : entry.Distinct) (hid : entryId entry = some id)
    (base : Option (JsonTree ν)) : entryId (applyMergePatch options base entry) = some id := by
  cases entry with
  | obj fields =>
    have hget : Fields.get "id" fields = some (.str id) ∧ id ≠ "" := by
      unfold entryId at hid
      cases hfield : Fields.get "id" fields with
      | none => simp [hfield] at hid
      | some value =>
        simp only [hfield] at hid
        cases value with
        | str text =>
          by_cases hempty : text = ""
          · simp [hempty] at hid
          · simp only [hempty, if_false, Option.some_inj] at hid
            exact ⟨by rw [hid], hid ▸ hempty⟩
        | _ => cases hid
    rw [applyMergePatch, entryId,
      get_patchFields hentry.names (Fields.mem_of_get hget.1) (by decide)]
    simp [patchedField, hget.2]
  | _ => cases hid

/-- The object after the patch entries with its id. -/
def mergedEntry (options : MergePatchOptions) (patch : List (JsonTree ν)) (existing : JsonTree ν) :
    JsonTree ν :=
  (patch.filter fun entry => isObjectWithStringId entry && entryId entry == entryId existing).foldl
    (fun value entry => applyMergePatch options (some value) entry) existing

variable {patch : List (JsonTree ν)} {existing : JsonTree ν}

theorem mergedEntry_cons_of_ne (h : ∀ id, entryId entry = some id → entryId existing ≠ some id) :
    mergedEntry options (entry :: patch) existing = mergedEntry options patch existing := by
  unfold mergedEntry
  rw [List.filter_cons_of_neg]
  intro hmatch
  rw [Bool.and_eq_true, beq_iff_eq] at hmatch
  obtain ⟨id, hid⟩ := Option.isSome_iff_exists.1 hmatch.1
  exact h id hid (hmatch.2 ▸ hid)

theorem mergedEntry_cons_of_eq (hentry : entry.Distinct) (hid : entryId entry = some id)
    (h : entryId existing = some id) : mergedEntry options (entry :: patch) existing =
      mergedEntry options patch (applyMergePatch options (some existing) entry) := by
  unfold mergedEntry
  rw [entryId_applyMergePatch options hentry hid, h, List.filter_cons_of_pos, List.foldl_cons]
  simp [isObjectWithStringId, hid]

section

variable {patch : List (JsonTree ν)}

theorem mergeEntries_none (hid : entryId entry = none) :
    mergeEntries options merged index (entry :: patch) =
      mergeEntries options (merged ++ [entry]) index patch := by
  rw [mergeEntries]
  simp only [hid]

example : mergeEntries options merged index [] = merged := by rw [mergeEntries]

theorem mergeEntries_new (hid : entryId entry = some id) (hget : index.get id = none) :
    mergeEntries options merged index (entry :: patch) =
      mergeEntries options (merged ++ [entry]) (index.set id merged.length) patch := by
  rw [mergeEntries]
  simp only [hid, hget]

theorem mergeEntries_existing {i : Nat} (hid : entryId entry = some id)
    (hget : index.get id = some i) :
    mergeEntries options merged index (entry :: patch) =
      mergeEntries options
        (merged.modify i fun existing => applyMergePatch options (some existing) entry) index
        patch := by
  rw [mergeEntries]
  simp only [hid, hget]

end

variable (options) in
/-- **Merging by id.** The ids stay distinct. Every entry stays where it is and becomes the merge of
the patch entries with its id, itself if there are none. -/
theorem mergeEntries_spec (hpatch : ∀ entry ∈ patch, entry.Distinct) (h : Indexed merged index) :
    DistinctIds (mergeEntries options merged index patch) ∧
    ∀ (i : Nat) (v : JsonTree ν), merged[i]? = some v →
      (mergeEntries options merged index patch)[i]? = some (mergedEntry options patch v) := by
  induction patch generalizing merged index with
  | nil =>
    rw [mergeEntries]
    exact ⟨h.distinctIds, fun i v hv => hv⟩
  | cons entry patch ih =>
    obtain ⟨hentry, hrest⟩ := List.forall_mem_cons.1 hpatch
    cases hid : entryId entry with
    | none =>
      rw [mergeEntries_none hid]
      obtain ⟨hdistinct, hkept⟩ := ih hrest (h.append_none hid)
      refine ⟨hdistinct, fun i v hv => ?_⟩
      rw [mergedEntry_cons_of_ne fun id hsome => nomatch hid.symm.trans hsome]
      exact hkept i v (getElem?_snoc.2 (.inl hv))
    | some id =>
      cases hget : index.get id with
      | none =>
        rw [mergeEntries_new hid hget]
        obtain ⟨hdistinct, hkept⟩ := ih hrest (h.append_new hid hget)
        refine ⟨hdistinct, fun i v hv => ?_⟩
        rw [mergedEntry_cons_of_ne]
        · exact hkept i v (getElem?_snoc.2 (.inl hv))
        · intro other hother hv'
          cases hid.symm.trans hother
          cases hget.symm.trans ((h id i).2 ⟨v, hv, hv'⟩)
      | some j =>
        rw [mergeEntries_existing hid hget]
        obtain ⟨w, hw, hidw⟩ := (h id j).1 hget
        have hmodify := h.modify (i := j) (f := fun existing =>
          applyMergePatch options (some existing) entry) fun v hv => by
            cases hw.symm.trans hv
            rw [entryId_applyMergePatch options hentry hid, hidw]
        obtain ⟨hdistinct, hkept⟩ := ih hrest hmodify
        refine ⟨hdistinct, fun i v hv => ?_⟩
        by_cases hij : j = i
        · subst hij
          cases hw.symm.trans hv
          rw [mergedEntry_cons_of_eq hentry hid hidw]
          exact hkept j _ (by simp [hw])
        · rw [mergedEntry_cons_of_ne]
          · exact hkept i v (by simp [hij, hv])
          · intro other hother hv'
            cases hid.symm.trans hother
            exact hij (h.distinctIds j i w v id hw hv hidw hv')

/-! ## Merging again -/

/-- An entry that is merged into where it is, and changes nothing there. -/
def Absorbed (options : MergePatchOptions) (merged : List (JsonTree ν)) (entry : JsonTree ν) :
    Prop :=
  ∃ (i : Nat) (v : JsonTree ν), merged[i]? = some v ∧ (entryId entry).isSome ∧
    entryId v = entryId entry ∧ applyMergePatch options (some v) entry = v

theorem mergeEntries_of_absorbed (h : Indexed merged index)
    (hpatch : ∀ entry ∈ patch, Absorbed options merged entry) :
    mergeEntries options merged index patch = merged := by
  induction patch with
  | nil => rw [mergeEntries]
  | cons entry patch ih =>
    obtain ⟨⟨i, v, hv, hsome, hid, happly⟩, hrest⟩ := List.forall_mem_cons.1 hpatch
    obtain ⟨id, hentry⟩ := Option.isSome_iff_exists.1 hsome
    have hmodify : (merged.modify i fun existing =>
        applyMergePatch options (some existing) entry) = merged := by
      refine List.ext_getElem? fun j => ?_
      rw [List.getElem?_modify]
      by_cases hij : i = j
      · subst hij
        simp [hv, happly]
      · simp [hij]
    rw [mergeEntries_existing hentry ((h id i).2 ⟨v, hv, hid.trans hentry⟩), hmodify, ih hrest]

/-- What the entry of the array with the same id says of a patch entry: that it may be merged into
that object twice, or into itself if there is none. -/
def EntrySettles (options : MergePatchOptions) (base : List (JsonTree ν)) (entry : JsonTree ν) :
    Prop :=
  (∀ v ∈ base, entryId v = entryId entry →
    applyMergePatch options (some (applyMergePatch options (some v) entry)) entry =
      applyMergePatch options (some v) entry) ∧
  ((∀ v ∈ base, entryId v ≠ entryId entry) → applyMergePatch options (some entry) entry = entry)

theorem mergedEntry_of_forall_ne (h : ∀ entry ∈ patch, entryId entry ≠ entryId existing) :
    mergedEntry options patch existing = existing := by
  unfold mergedEntry
  rw [List.filter_eq_nil_iff.2, List.foldl_nil]
  intro entry hentry hmatch
  exact h entry hentry (by simpa using (Bool.and_eq_true_iff.1 hmatch).2)

theorem absorbed_mergeEntries (hpatch : ∀ entry ∈ patch, entry.Distinct)
    (hids : ∀ entry ∈ patch, (entryId entry).isSome) (hnodup : (patch.map entryId).Nodup)
    (h : Indexed merged index) (hsettles : ∀ entry ∈ patch, EntrySettles options merged entry) :
    ∀ entry ∈ patch, Absorbed options (mergeEntries options merged index patch) entry := by
  induction patch generalizing merged index with
  | nil => exact List.forall_mem_nil _
  | cons first patch ih =>
    obtain ⟨hfirst, hrest⟩ := List.forall_mem_cons.1 hpatch
    obtain ⟨hsome, hsomes⟩ := List.forall_mem_cons.1 hids
    obtain ⟨hsettle, hsettles⟩ := List.forall_mem_cons.1 hsettles
    obtain ⟨hfresh, hnodup⟩ := List.nodup_cons.1 hnodup
    obtain ⟨id, hid⟩ := Option.isSome_iff_exists.1 hsome
    have hother : ∀ entry ∈ patch, entryId entry ≠ some id := by
      intro entry hentry heq
      exact hfresh (List.mem_map.2 ⟨entry, hentry, heq.trans hid.symm⟩)
    cases hget : index.get id with
    | none =>
      rw [mergeEntries_new hid hget]
      have hindexed := h.append_new hid hget
      refine List.forall_mem_cons.2 ⟨?_, ih hrest hsomes hnodup hindexed fun entry hentry => ?_⟩
      · have hkept := (mergeEntries_spec options hrest hindexed).2 merged.length first
          (getElem?_snoc.2 (.inr ⟨rfl, rfl⟩))
        rw [mergedEntry_of_forall_ne fun entry hentry => hid ▸ hother entry hentry] at hkept
        refine ⟨merged.length, first, hkept, hsome, rfl, hsettle.2 fun v hv heq => ?_⟩
        obtain ⟨i, hi⟩ := List.mem_iff_getElem?.1 hv
        cases hget.symm.trans ((h id i).2 ⟨v, hi, heq.trans hid⟩)
      · refine ⟨fun v hv heq => ?_, fun hne => ?_⟩
        · obtain hv | hv := List.mem_append.1 hv
          · exact (hsettles entry hentry).1 v hv heq
          · rw [List.mem_singleton.1 hv, hid] at heq
            exact absurd heq.symm (hother entry hentry)
        · exact (hsettles entry hentry).2 fun v hv => hne v (List.mem_append_left _ hv)
    | some j =>
      rw [mergeEntries_existing hid hget]
      obtain ⟨w, hw, hidw⟩ := (h id j).1 hget
      have happlied := entryId_applyMergePatch options hfirst hid (some w)
      have hindexed := h.modify (i := j) (f := fun existing =>
        applyMergePatch options (some existing) first) fun v hv => by
          cases hw.symm.trans hv
          rw [happlied, hidw]
      refine List.forall_mem_cons.2 ⟨?_, ih hrest hsomes hnodup hindexed fun entry hentry => ?_⟩
      · have hkept := (mergeEntries_spec options hrest hindexed).2 j
          (applyMergePatch options (some w) first) (by simp [hw])
        rw [mergedEntry_of_forall_ne fun entry hentry => happlied ▸ hother entry hentry] at hkept
        exact ⟨j, _, hkept, hsome, happlied.trans hid.symm,
          hsettle.1 w (List.mem_of_getElem? hw) (hidw.trans hid.symm)⟩
      · have hmem : ∀ v, entryId v = entryId entry → (v ∈ merged ↔
            v ∈ merged.modify j fun existing => applyMergePatch options (some existing) first) := by
          intro v heq
          have hne : entryId v ≠ some id := heq ▸ hother entry hentry
          simp only [List.mem_iff_getElem?, List.getElem?_modify]
          refine exists_congr fun i => ?_
          by_cases hij : j = i
          · subst hij
            simp only [hw, if_true, Option.map_eq_map, Option.map_some, Option.some_inj]
            refine iff_of_false (fun heq' => hne (heq' ▸ hidw)) fun heq' => hne (heq' ▸ happlied)
          · simp [hij]
        refine ⟨fun v hv heq => ?_, fun hne => ?_⟩
        · exact (hsettles entry hentry).1 v ((hmem v heq).2 hv) heq
        · refine (hsettles entry hentry).2 fun v hv heq => hne v ((hmem v heq).1 hv) heq

theorem all_ids_mergeEntries (hpatch : ∀ entry ∈ patch, entry.Distinct)
    (hids : ∀ entry ∈ patch, (entryId entry).isSome) (h : ∀ v ∈ merged, (entryId v).isSome) :
    ∀ v ∈ mergeEntries options merged index patch, (entryId v).isSome := by
  induction patch generalizing merged index with
  | nil =>
    rw [mergeEntries]
    exact h
  | cons entry patch ih =>
    obtain ⟨hentry, hrest⟩ := List.forall_mem_cons.1 hpatch
    obtain ⟨hsome, hsomes⟩ := List.forall_mem_cons.1 hids
    obtain ⟨id, hid⟩ := Option.isSome_iff_exists.1 hsome
    cases hget : index.get id with
    | none =>
      rw [mergeEntries_new hid hget]
      refine ih hrest hsomes fun v hv => ?_
      obtain hv | hv := List.mem_append.1 hv
      · exact h v hv
      · exact List.mem_singleton.1 hv ▸ hsome
    | some j =>
      rw [mergeEntries_existing hid hget]
      refine ih hrest hsomes fun v hv => ?_
      obtain ⟨i, hi⟩ := List.mem_iff_getElem?.1 hv
      rw [List.getElem?_modify] at hi
      obtain ⟨w, hw, heq⟩ := Option.map_eq_some_iff.1 hi
      by_cases hij : j = i
      · rw [if_pos hij] at heq
        rw [← heq, entryId_applyMergePatch options hentry hid]
        rfl
      · rw [if_neg hij] at heq
        exact heq ▸ h w (List.mem_of_getElem? hw)

theorem mergeEntries_eq_append (hids : ∀ entry ∈ patch, (entryId entry).isSome)
    (hnodup : (patch.map entryId).Nodup)
    (hnew : ∀ entry ∈ patch, ∀ id, entryId entry = some id → index.get id = none) :
    mergeEntries options merged index patch = merged ++ patch := by
  induction patch generalizing merged index with
  | nil => rw [mergeEntries, List.append_nil]
  | cons entry patch ih =>
    obtain ⟨hsome, hsomes⟩ := List.forall_mem_cons.1 hids
    obtain ⟨hfresh, hnodup⟩ := List.nodup_cons.1 hnodup
    obtain ⟨hfirst, hrest⟩ := List.forall_mem_cons.1 hnew
    obtain ⟨id, hid⟩ := Option.isSome_iff_exists.1 hsome
    rw [mergeEntries_new hid (hfirst id hid), ih hsomes hnodup, List.append_assoc,
      List.singleton_append]
    intro other hother id' hid'
    rw [Fields.get_set]
    by_cases heq : id = id'
    · subst heq
      exact absurd (List.mem_map.2 ⟨other, hother, hid'.trans hid.symm⟩) hfresh
    · rw [if_neg heq]
      exact hrest other hother id' hid'

/-- The entries that a patch array is merged into by id. -/
def keyedEntries : Option (JsonTree ν) → List (JsonTree ν)
  | some (.arr base) => if base.all isObjectWithStringId then base else []
  | _ => []

variable {old : Option (JsonTree ν)}

theorem isSome_of_mem_keyedEntries : ∀ v ∈ keyedEntries old, (entryId v).isSome := by
  intro v hv
  unfold keyedEntries at hv
  split at hv
  · split at hv
    · rename_i hall
      exact List.all_eq_true.1 hall v hv
    · cases hv
  · cases hv

variable {path : String}

theorem patchedField_arr (hmerge : options.mergeObjectArraysById = true)
    (hreplace : path ∉ options.replaceArrayPaths) (hids : ∀ entry ∈ patch, (entryId entry).isSome)
    (hnodup : (patch.map entryId).Nodup) : patchedField options path old (.arr patch) =
      some (.arr (mergeEntries (options.at (formatMergePatchArrayEntryPath path))
        (keyedEntries old) (indexById (keyedEntries old)) patch)) := by
  have happend : mergeEntries (options.at (formatMergePatchArrayEntryPath path)) []
      (indexById ([] : List (JsonTree ν))) patch = patch :=
    mergeEntries_eq_append hids hnodup fun _ _ _ _ => rfl
  simp only [patchedField, hmerge]
  cases old with
  | none => simp [keyedEntries, happend]
  | some value =>
    cases value with
    | arr base => by_cases hall : base.all isObjectWithStringId = true <;>
        simp [keyedEntries, hall, hreplace, happend]
    | _ => simp [keyedEntries, happend]

/-- **An array of entries with distinct ids settles**, if its entries do. -/
theorem settles_arr (hmerge : options.mergeObjectArraysById = true)
    (hreplace : path ∉ options.replaceArrayPaths) (hpatch : ∀ entry ∈ patch, entry.Distinct)
    (hold : DistinctIds (keyedEntries old)) (hids : ∀ entry ∈ patch, (entryId entry).isSome)
    (hnodup : (patch.map entryId).Nodup) (hsettles : ∀ entry ∈ patch,
      EntrySettles (options.at (formatMergePatchArrayEntryPath path)) (keyedEntries old) entry) :
    Settles options path old (.arr patch) := by
  let merged := mergeEntries (options.at (formatMergePatchArrayEntryPath path)) (keyedEntries old)
    (indexById (keyedEntries old)) patch
  have hindexed := indexed_indexById hold
  have hdistinct : DistinctIds merged := (mergeEntries_spec _ hpatch hindexed).1
  have hall : keyedEntries (some (.arr merged)) = merged :=
    if_pos (List.all_eq_true.2 (all_ids_mergeEntries hpatch hids isSome_of_mem_keyedEntries))
  have hagain := mergeEntries_of_absorbed (indexed_indexById hdistinct)
    (absorbed_mergeEntries hpatch hids hnodup hindexed hsettles)
  rw [Settles, patchedField_arr hmerge hreplace hids hnodup,
    patchedField_arr hmerge hreplace hids hnodup]
  rw [hall, hagain]

theorem settles_arr_of_replaced
    (h : options.mergeObjectArraysById = false ∨ path ∈ options.replaceArrayPaths) :
    Settles options path old (.arr patch) := by
  have hreplaced : ∀ old : Option (JsonTree ν),
      patchedField options path old (.arr patch) = some (.arr patch) := by
    intro old
    cases hmerge : options.mergeObjectArraysById with
    | false => simp [patchedField, hmerge]
    | true =>
      have hpath := h.resolve_left (hmerge ▸ Bool.false_ne_true.symm)
      simp only [patchedField, hmerge]
      cases old with
      | none => rfl
      | some value => cases value <;> simp [hpath]
  rw [Settles, hreplaced, hreplaced]

end

end OpenClaw.Config
