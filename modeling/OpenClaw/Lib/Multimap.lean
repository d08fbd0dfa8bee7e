import OpenClaw.Lib.KeyedList

/-!
# Maps from keys to sets, and indexes kept with them

A map whose values are sets, as the pairs of a key and a member in the order they were added: what
is under one key is a set in the order of insertion, and a key with no member is not in the map.

An *index* of a keyed list files the name of every entry under each of the entry's keys.

* `Indexes.put`, `Indexes.insert`, `Indexes.delete`, `indexes_rebuild`: an index stays one when the
  pairs of the entry that changes are taken out and put in by hand.
* `Indexes.lookup_perm`: reading through an index finds what a scan of all entries finds.
-/

namespace Multimap

variable {κ α β : Type*}

section Values

variable [DecidableEq κ] {m : List (κ × α)} {k : κ} {a : α}

/-- The set under a key. -/
def values (m : List (κ × α)) (k : κ) : List α := (m.filter fun p => p.1 = k).map Prod.snd

theorem mem_values : a ∈ values m k ↔ (k, a) ∈ m := by
  simp [values]

theorem nodup_values (h : m.Nodup) (k : κ) : (values m k).Nodup := by
  refine (List.nodup_map_iff_inj_on (h.filter _)).2 ?_
  intro p hp q hq heq
  have hpk : p.1 = k := by simpa using (List.mem_filter.1 hp).2
  have hqk : q.1 = k := by simpa using (List.mem_filter.1 hq).2
  exact Prod.ext (hpk.trans hqk.symm) heq

end Values

variable [DecidableEq κ] [DecidableEq α]

def add (a : α) (m : List (κ × α)) (k : κ) : List (κ × α) := if (k, a) ∈ m then m else m ++ [(k, a)]

def remove (a : α) (m : List (κ × α)) (k : κ) : List (κ × α) := m.filter (· ≠ (k, a))

/-- A member is filed under every key of a list. -/
def addAll (ks : List κ) (a : α) (m : List (κ × α)) : List (κ × α) := ks.foldl (add a) m

def removeAll (ks : List κ) (a : α) (m : List (κ × α)) : List (κ × α) := ks.foldl (remove a) m

variable {m : List (κ × α)} {ks : List κ} {a b : α} {k : κ}

variable {p : κ × α}

theorem mem_add : p ∈ add a m k ↔ p ∈ m ∨ p = (k, a) := by
  unfold add
  split
  · rename_i hmem
    exact ⟨.inl, fun h => h.elim id fun heq => heq ▸ hmem⟩
  · simp

theorem nodup_add (h : m.Nodup) : (add a m k).Nodup := by
  unfold add
  split
  · exact h
  · rename_i hnot
    rw [List.nodup_append]
    refine ⟨h, List.nodup_singleton _, ?_⟩
    intro p hp q hq heq
    rw [List.mem_singleton] at hq
    exact hnot (hq ▸ heq ▸ hp)

theorem mem_addAll : p ∈ addAll ks a m ↔ p ∈ m ∨ p.2 = a ∧ p.1 ∈ ks := by
  induction ks generalizing m with
  | nil => simp [addAll]
  | cons k ks ih =>
    have hstep : p ∈ addAll (k :: ks) a m ↔ p ∈ add a m k ∨ p.2 = a ∧ p.1 ∈ ks := ih
    rw [hstep, mem_add, List.mem_cons]
    obtain ⟨k', a'⟩ := p
    simp only [Prod.mk.injEq]
    tauto

theorem nodup_addAll (h : m.Nodup) : (addAll ks a m).Nodup := by
  induction ks generalizing m with
  | nil => exact h
  | cons k ks ih => exact ih (nodup_add h)

theorem mem_removeAll : p ∈ removeAll ks a m ↔ p ∈ m ∧ ¬ (p.2 = a ∧ p.1 ∈ ks) := by
  induction ks generalizing m with
  | nil => simp [removeAll]
  | cons k ks ih =>
    have hstep : p ∈ removeAll (k :: ks) a m ↔ p ∈ remove a m k ∧ ¬ (p.2 = a ∧ p.1 ∈ ks) := ih
    rw [hstep, remove, List.mem_filter, List.mem_cons]
    obtain ⟨k', a'⟩ := p
    simp only [ne_eq, decide_eq_true_eq, Prod.mk.injEq]
    tauto

theorem nodup_removeAll (h : m.Nodup) : (removeAll ks a m).Nodup := by
  induction ks generalizing m with
  | nil => exact h
  | cons k ks ih => exact ih (h.filter _)

/-! ## Indexes -/

section Indexes

variable {keys : β → List κ} {name : β → α} {xs : List β} {x y : β}

/-- Every entry is filed by name under each of its keys, and nothing else is. -/
def Indexes (keys : β → List κ) (name : β → α) (xs : List β) (m : List (κ × α)) : Prop :=
  m.Nodup ∧ ∀ p, p ∈ m ↔ ∃ x ∈ xs, name x = p.2 ∧ p.1 ∈ keys x

/-- The index is built anew from the entries. -/
def rebuild (keys : β → List κ) (name : β → α) (xs : List β) : List (κ × α) :=
  xs.foldl (fun m x => addAll (keys x) (name x) m) []

variable {ys : List β}

theorem indexes_foldl (h : Indexes keys name ys m) (xs : List β) :
    Indexes keys name (ys ++ xs) (xs.foldl (fun m x => addAll (keys x) (name x) m) m) := by
  induction xs generalizing ys m with
  | nil => exact (List.append_nil ys).symm ▸ h
  | cons x xs ih =>
    have hstep : Indexes keys name (ys ++ [x]) (addAll (keys x) (name x) m) := by
      refine ⟨nodup_addAll h.1, fun p => ?_⟩
      rw [mem_addAll, h.2]
      grind
    exact List.append_cons ys x xs ▸ ih hstep

omit [DecidableEq κ] [DecidableEq α] in
theorem indexes_nil : Indexes keys name [] ([] : List (κ × α)) :=
  ⟨List.nodup_nil, fun p => by simp⟩

theorem indexes_rebuild : Indexes keys name xs (rebuild keys name xs) :=
  indexes_foldl indexes_nil xs

omit [DecidableEq κ] [DecidableEq α] in
theorem Indexes.congr (h : Indexes keys name xs m)
    (hkeys : ∀ a k, (∃ y ∈ ys, name y = a ∧ k ∈ keys y) ↔ ∃ x ∈ xs, name x = a ∧ k ∈ keys x) :
    Indexes keys name ys m :=
  ⟨h.1, fun p => (h.2 p).trans (hkeys p.2 p.1).symm⟩

theorem Indexes.insert (h : Indexes keys name xs m) (hnew : KeyedList.get name (name x) xs = none) :
    Indexes keys name (KeyedList.put name x xs) (addAll (keys x) (name x) m) := by
  rw [KeyedList.put_of_get_eq_none hnew]
  exact indexes_foldl h [x]

theorem Indexes.put (h : Indexes keys name xs m) (hnodup : (xs.map name).Nodup)
    (hold : KeyedList.get name (name x) xs = some y) :
    Indexes keys name (KeyedList.put name x xs)
      (addAll (keys x) (name x) (removeAll (keys y) (name x) m)) := by
  refine ⟨nodup_addAll (nodup_removeAll h.1), fun p => ?_⟩
  have hunique : ∀ z ∈ xs, name z = name x → z = y :=
    fun z hz hname => KeyedList.eq_of_get hnodup hold hz hname
  rw [mem_addAll, mem_removeAll, h.2]
  simp only [KeyedList.mem_put_iff hnodup]
  grind

omit [DecidableEq κ] in
theorem Indexes.put_of_keys_eq (h : Indexes keys name xs m) (hnodup : (xs.map name).Nodup)
    (hold : KeyedList.get name (name x) xs = some y) (hkeys : keys x = keys y) :
    Indexes keys name (KeyedList.put name x xs) m := by
  have hy := KeyedList.key_of_get hold
  have hymem := KeyedList.mem_of_get hold
  have hunique : ∀ z ∈ xs, name z = name x → z = y :=
    fun z hz hname => KeyedList.eq_of_get hnodup hold hz hname
  refine h.congr fun a k => ?_
  simp only [KeyedList.mem_put_iff hnodup]
  grind

theorem Indexes.delete (h : Indexes keys name xs m) (hnodup : (xs.map name).Nodup)
    (hold : KeyedList.get name a xs = some y) :
    Indexes keys name (xs.filter fun x => name x ≠ a) (removeAll (keys y) a m) := by
  refine ⟨nodup_removeAll h.1, fun p => ?_⟩
  have hunique : ∀ z ∈ xs, name z = a → z = y :=
    fun z hz hname => KeyedList.eq_of_get hnodup hold hz hname
  rw [mem_removeAll, h.2]
  grind

/-- **Reading through an index.** The entries filed under a key are those a scan finds. -/
theorem Indexes.lookup_perm (h : Indexes keys name xs m) (hnodup : (xs.map name).Nodup) (k : κ) :
    List.Perm ((values m k).filterMap fun a => KeyedList.get name a xs)
      (xs.filter fun x => k ∈ keys x) := by
  have hxs : xs.Nodup := List.Nodup.of_map name hnodup
  rw [List.perm_ext_iff_of_nodup]
  · intro x
    rw [List.mem_filterMap, List.mem_filter]
    simp only [mem_values, h.2, decide_eq_true_eq]
    constructor
    · intro ⟨a, ⟨z, hz, hname, hk⟩, hget⟩
      have hx := KeyedList.get_eq_some_of_mem hnodup hz
      rw [hname, hget] at hx
      cases hx
      exact ⟨hz, hk⟩
    · intro ⟨hx, hk⟩
      exact ⟨name x, ⟨x, hx, rfl, hk⟩, KeyedList.get_eq_some_of_mem hnodup hx⟩
  · refine (nodup_values h.1 k).filterMap ?_
    intro a b x ha hb
    rw [← KeyedList.key_of_get (Option.mem_def.1 ha), ← KeyedList.key_of_get (Option.mem_def.1 hb)]
  · exact hxs.filter _

end Indexes

end Multimap
