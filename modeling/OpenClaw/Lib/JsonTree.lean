import OpenClaw.Lib.KeyedList

/-!
# JSON trees

JSON values over any type of numbers. An object is the list of its fields, in their order.

* `Fields`: reading, setting and deleting a field. `Fields.ext`: the names in their order and the
  value of each determine the fields.
* `JsonTree.induct`: induction over trees, with a hypothesis for every element and every field.
* `JsonTree.Distinct`: no object has a field twice. Every value that a program holds is such a tree.
-/

/-- The fields of an object, in their order. -/
abbrev Fields (α : Type) := List (String × α)

namespace Fields

variable {α β : Type}

def get (key : String) (fields : Fields α) : Option α :=
  (KeyedList.get Prod.fst key fields).map Prod.snd

/-- The field gets the value in its place, or comes last. -/
def set (key : String) (value : α) (fields : Fields α) : Fields α :=
  KeyedList.put Prod.fst (key, value) fields

def erase (key : String) (fields : Fields α) : Fields α := fields.filter fun f => f.1 ≠ key

def names (fields : Fields α) : List String := fields.map Prod.fst

variable {key other : String} {value : α} {fields fields' : Fields α}

@[simp] theorem get_nil : get key ([] : Fields α) = none := rfl

theorem get_cons (name : String) :
    get key ((name, value) :: fields) = if name = key then some value else get key fields := by
  by_cases h : name = key <;> simp [get, KeyedList.get, h]

theorem get_set : (fields.set key value).get other =
    if key = other then some value else fields.get other := by
  by_cases h : key = other <;> simp [get, set, KeyedList.get_put, h]

@[simp] theorem get_set_self : (fields.set key value).get key = some value := by simp [get_set]

theorem get_set_of_ne (h : other ≠ key) : (fields.set key value).get other = fields.get other := by
  simp [get_set, h.symm]

theorem get_erase : (fields.erase key).get other =
    if key = other then none else fields.get other := by
  rw [get, erase, KeyedList.get_filter_ne]
  by_cases h : key = other
  · simp [h]
  · simp [h, get, Ne.symm h]

theorem get_eq_none_iff : fields.get key = none ↔ key ∉ fields.names := by
  rw [get, Option.map_eq_none_iff, KeyedList.get_eq_none_iff]
  simp only [names, List.mem_map, not_exists, not_and, ne_eq]

theorem mem_of_get (h : fields.get key = some value) : (key, value) ∈ fields := by
  obtain ⟨⟨name, found⟩, hget, rfl⟩ := Option.map_eq_some_iff.1 h
  have hname : name = key := KeyedList.key_of_get hget
  exact hname ▸ KeyedList.mem_of_get hget

theorem get_of_mem (h : fields.names.Nodup) (hmem : (key, value) ∈ fields) :
    fields.get key = some value := by
  rw [get, KeyedList.get_eq_some_of_mem h hmem]
  rfl

theorem names_set : (fields.set key value).names =
    if key ∈ fields.names then fields.names else fields.names ++ [key] := by
  induction fields with
  | nil => simp [set, names, KeyedList.put]
  | cons f fields ih =>
    obtain ⟨name, old⟩ := f
    by_cases h : name = key
    · simp [set, names, KeyedList.put, h]
    · have ih' : (KeyedList.put Prod.fst (key, value) fields).map Prod.fst = _ := ih
      simp only [set, names, KeyedList.put, h, if_false, List.map_cons, List.mem_cons, Ne.symm h,
        false_or, ih']
      by_cases hmem : key ∈ fields.map Prod.fst <;> simp [hmem]

theorem set_of_get (h : fields.get key = some value) : fields.set key value = fields := by
  obtain ⟨⟨name, found⟩, hget, rfl⟩ := Option.map_eq_some_iff.1 h
  obtain rfl : name = key := KeyedList.key_of_get hget
  exact KeyedList.put_eq_self hget

theorem erase_of_get (h : fields.get key = none) : fields.erase key = fields := by
  rw [get_eq_none_iff] at h
  refine List.filter_eq_self.2 ?_
  intro f hf
  simpa using fun hname : f.1 = key => h (hname ▸ List.mem_map_of_mem hf)

theorem get_append : get key (fields ++ fields') = (fields.get key).or (fields'.get key) := by
  induction fields with
  | nil => rfl
  | cons f fields ih =>
    obtain ⟨name, value⟩ := f
    rw [List.cons_append, get_cons, get_cons, ih]
    split_ifs <;> rfl

theorem get_filter_not_mem {keys : List String} :
    get key (fields.filter fun f => f.1 ∉ keys) = if key ∈ keys then none else fields.get key := by
  induction fields with
  | nil => simp
  | cons f fields ih =>
    obtain ⟨name, value⟩ := f
    by_cases hmem : name ∈ keys
    · rw [List.filter_cons_of_neg (by simpa using hmem), ih, get_cons]
      by_cases hname : name = key
      · rw [if_pos (hname ▸ hmem), if_pos (hname ▸ hmem)]
      · rw [if_neg hname]
    · rw [List.filter_cons_of_pos (by simpa using hmem), get_cons, ih, get_cons]
      by_cases hname : name = key
      · rw [if_pos hname, if_pos hname, if_neg (hname ▸ hmem)]
      · rw [if_neg hname, if_neg hname]

theorem eq_nil_iff_get : fields = [] ↔ ∀ key, fields.get key = none := by
  refine ⟨fun h key => by rw [h]; rfl, fun h => ?_⟩
  cases fields with
  | nil => rfl
  | cons f fields =>
    obtain ⟨name, value⟩ := f
    have hhead := h name
    rw [get_cons, if_pos rfl] at hhead
    cases hhead

theorem ext (hnodup : fields.names.Nodup) (hnames : fields.names = fields'.names)
    (hget : ∀ key, fields.get key = fields'.get key) : fields = fields' := by
  induction fields generalizing fields' with
  | nil =>
    cases fields' with
    | nil => rfl
    | cons f' fields' => cases hnames
  | cons f fields ih =>
    obtain ⟨name, value⟩ := f
    cases fields' with
    | nil => cases hnames
    | cons f' fields' =>
      obtain ⟨name', value'⟩ := f'
      obtain ⟨rfl, hrest⟩ := List.cons.inj hnames
      have hvalue := hget name
      rw [get_cons, get_cons, if_pos rfl, if_pos rfl, Option.some_inj] at hvalue
      obtain ⟨hfresh, hnodup⟩ := List.nodup_cons.1 hnodup
      rw [hvalue, ih hnodup hrest]
      intro key
      by_cases hkey : name = key
      · subst hkey
        have hfresh' : name ∉ fields'.map Prod.fst := hrest ▸ hfresh
        rw [get_eq_none_iff.2 hfresh, get_eq_none_iff.2 hfresh']
      · have hkeep := hget key
        rwa [get_cons, get_cons, if_neg hkey, if_neg hkey] at hkeep

end Fields

/-- A JSON value with numbers of any type. -/
inductive JsonTree (ν : Type)
  | null
  | bool (b : Bool)
  | num (x : ν)
  | str (s : String)
  | arr (items : List (JsonTree ν))
  | obj (fields : List (String × JsonTree ν))

namespace JsonTree

variable {ν : Type}

def isArray : JsonTree ν → Bool
  | .arr _ => true
  | _ => false

/-- An object that is no array, and not `null`. -/
def isPlainObject : JsonTree ν → Bool
  | .obj _ => true
  | _ => false

def isNull : JsonTree ν → Bool
  | .null => true
  | _ => false

/-! ## Induction -/

@[elab_as_elim]
theorem induct {P : JsonTree ν → Prop} (hnull : P .null) (hbool : ∀ b, P (.bool b))
    (hnum : ∀ x, P (.num x)) (hstr : ∀ s, P (.str s))
    (harr : ∀ items, (∀ item ∈ items, P item) → P (.arr items))
    (hobj : ∀ fields : Fields (JsonTree ν), (∀ f ∈ fields, P f.2) → P (.obj fields))
    (tree : JsonTree ν) : P tree :=
  @JsonTree.rec ν P (fun items => ∀ item ∈ items, P item) (fun fields => ∀ f ∈ fields, P f.2)
    (fun f => P f.2) hnull hbool hnum hstr harr hobj (List.forall_mem_nil _)
    (fun _ _ hitem hitems => List.forall_mem_cons.2 ⟨hitem, hitems⟩) (List.forall_mem_nil _)
    (fun _ _ hf hfields => List.forall_mem_cons.2 ⟨hf, hfields⟩) (fun _ _ hvalue => hvalue) tree

/-! ## Distinct field names -/

/-- No object has a field twice. -/
inductive Distinct : JsonTree ν → Prop
  | null : Distinct .null
  | bool (b : Bool) : Distinct (.bool b)
  | num (x : ν) : Distinct (.num x)
  | str (s : String) : Distinct (.str s)
  | arr {items : List (JsonTree ν)} (hitems : ∀ item ∈ items, Distinct item) :
    Distinct (.arr items)
  | obj {fields : Fields (JsonTree ν)} (hnames : fields.names.Nodup)
    (hfields : ∀ f ∈ fields, Distinct f.2) : Distinct (.obj fields)

theorem Distinct.item {items : List (JsonTree ν)} (h : Distinct (.arr items)) :
    ∀ item ∈ items, Distinct item := by
  cases h with
  | arr hitems => exact hitems

theorem Distinct.names {fields : Fields (JsonTree ν)} (h : Distinct (.obj fields)) :
    fields.names.Nodup := by
  cases h with
  | obj hnames _ => exact hnames

theorem Distinct.fields {fields : Fields (JsonTree ν)} (h : Distinct (.obj fields)) :
    ∀ f ∈ fields, Distinct f.2 := by
  cases h with
  | obj _ hfields => exact hfields

theorem Distinct.get {fields : Fields (JsonTree ν)} (h : Distinct (.obj fields)) {key : String}
    {value : JsonTree ν} (hget : fields.get key = some value) : Distinct value :=
  h.fields _ (Fields.mem_of_get hget)

theorem Distinct.emptyObj : Distinct (.obj [] : JsonTree ν) :=
  .obj List.nodup_nil (List.forall_mem_nil _)

end JsonTree
