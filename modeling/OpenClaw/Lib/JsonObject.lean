import OpenClaw.Lib.Json

/-!
# The fields of JSON objects

Reading a field gives `none` for a field that is not there, as reading a field of a value that is no
object does. Setting a field leaves the others as they are.
-/

namespace Json

def lookup (key : String) : List (String × Json) → Option Json
  | [] => none
  | (name, value) :: fields => if name = key then some value else lookup key fields

def field (key : String) : Json → Option Json
  | .obj fields => lookup key fields
  | _ => none

/-- The field, if it is a string. -/
def strField (key : String) (j : Json) : Option String :=
  match j.field key with
  | some (.str s) => some s
  | _ => none

def setFields (key : String) (value : Json) : List (String × Json) → List (String × Json)
  | [] => [(key, value)]
  | (name, old) :: fields =>
    if name = key then (key, value) :: fields else (name, old) :: setFields key value fields

/-- `{ ...j, [key]: value }` for an object `j`. -/
def setField (j : Json) (key : String) (value : Json) : Json :=
  match j with
  | .obj fields => .obj (setFields key value fields)
  | j => j

/-- `delete j[key]`. -/
def eraseField (j : Json) (key : String) : Json :=
  match j with
  | .obj fields => .obj (fields.filter fun f => f.1 ≠ key)
  | j => j

/-- The object without its fields of these names. -/
def eraseFields (j : Json) (keys : List String) : Json :=
  match j with
  | .obj fields => .obj (fields.filter fun f => f.1 ∉ keys)
  | j => j

def isObj : Json → Bool
  | .obj _ => true
  | _ => false

/-- The boolean that the value is in a condition. -/
def truthy : Json → Bool
  | .null => false
  | .bool b => b
  | .num n => n ≠ 0
  | .str s => s ≠ ""
  | .arr _ | .obj _ => true

/-! ## Reading what was set -/

theorem lookup_setFields_self (key : String) (value : Json) (fields : List (String × Json)) :
    lookup key (setFields key value fields) = some value := by
  induction fields with
  | nil => exact if_pos rfl
  | cons f fields ih =>
    obtain ⟨name, old⟩ := f
    rw [setFields]
    by_cases h : name = key
    · rw [if_pos h]
      exact if_pos rfl
    · rw [if_neg h, lookup, if_neg h, ih]

example (value : Json) : setFields "id" value [] = [("id", value)] := by rw [setFields]

variable {key other : String}

theorem lookup_setFields_of_ne (h : other ≠ key) (value : Json) (fields : List (String × Json)) :
    lookup other (setFields key value fields) = lookup other fields := by
  induction fields with
  | nil => exact if_neg h.symm
  | cons f fields ih =>
    obtain ⟨name, old⟩ := f
    rw [setFields]
    by_cases hname : name = key
    · rw [if_pos hname, lookup, if_neg h.symm, lookup, hname, if_neg h.symm]
    · rw [if_neg hname, lookup, lookup, ih]

variable {j : Json}

theorem field_setField_self (h : j.isObj = true) (key : String) (value : Json) :
    (j.setField key value).field key = some value := by
  cases j with
  | obj fields => exact lookup_setFields_self key value fields
  | _ => cases h

theorem field_setField_of_ne (h : other ≠ key) (value j : Json) :
    (j.setField key value).field other = j.field other := by
  cases j with
  | obj fields => exact lookup_setFields_of_ne h value fields
  | _ => rfl

theorem strField_setField_self (h : j.isObj = true) (key s : String) :
    (j.setField key (.str s)).strField key = some s := by
  rw [strField, field_setField_self h]

theorem strField_setField_of_ne (h : other ≠ key) (value j : Json) :
    (j.setField key value).strField other = j.strField other := by
  rw [strField, strField, field_setField_of_ne h]

theorem isObj_setField (key : String) (value j : Json) :
    (j.setField key value).isObj = j.isObj := by
  cases j <;> rfl

theorem isObj_of_strField {s : String} (h : j.strField key = some s) : j.isObj = true := by
  cases j with
  | obj fields => rfl
  | _ => cases h

/-! ## Setting a field again -/

variable {value : Json}

theorem setFields_of_lookup {fields : List (String × Json)} (h : lookup key fields = some value) :
    setFields key value fields = fields := by
  induction fields with
  | nil => cases h
  | cons f fields ih =>
    obtain ⟨name, old⟩ := f
    rw [lookup] at h
    rw [setFields]
    by_cases hname : name = key
    · rw [if_pos hname] at h ⊢
      rw [hname, Option.some_inj.1 h]
    · rw [if_neg hname] at h ⊢
      rw [ih h]

theorem setField_of_field (h : j.field key = some value) : j.setField key value = j := by
  cases j with
  | obj fields => exact congrArg Json.obj (setFields_of_lookup h)
  | _ => rfl

theorem setFields_setFields (key : String) (value value' : Json) (fields : List (String × Json)) :
    setFields key value (setFields key value' fields) = setFields key value fields := by
  induction fields with
  | nil => simp [setFields]
  | cons f fields ih =>
    obtain ⟨name, old⟩ := f
    by_cases h : name = key <;> simp [setFields, h, ih]

theorem setField_setField (key : String) (value value' j : Json) :
    (j.setField key value').setField key value = j.setField key value := by
  cases j with
  | obj fields => exact congrArg Json.obj (setFields_setFields key value value' fields)
  | _ => rfl

/-! ## Reading after a field was deleted -/

theorem lookup_filter_self (key : String) (fields : List (String × Json)) :
    lookup key (fields.filter fun f => f.1 ≠ key) = none := by
  induction fields with
  | nil => rfl
  | cons f fields ih =>
    obtain ⟨name, value⟩ := f
    by_cases h : name = key
    · rw [List.filter_cons_of_neg (by simp [h]), ih]
    · rw [List.filter_cons_of_pos (by simp [h]), lookup, if_neg h, ih]

theorem lookup_filter_of_ne (h : other ≠ key) (fields : List (String × Json)) :
    lookup other (fields.filter fun f => f.1 ≠ key) = lookup other fields := by
  induction fields with
  | nil => rfl
  | cons f fields ih =>
    obtain ⟨name, value⟩ := f
    rw [lookup]
    by_cases hname : name = key
    · rw [List.filter_cons_of_neg (by simp [hname]), ih, if_neg (hname ▸ h.symm)]
    · rw [List.filter_cons_of_pos (by simp [hname]), lookup, ih]

theorem field_eraseField_self (key : String) (j : Json) : (j.eraseField key).field key = none := by
  cases j with
  | obj fields => exact lookup_filter_self key fields
  | _ => rfl

theorem field_eraseField_of_ne (h : other ≠ key) (j : Json) :
    (j.eraseField key).field other = j.field other := by
  cases j with
  | obj fields => exact lookup_filter_of_ne h fields
  | _ => rfl

variable {keys : List String}

theorem filter_setFields (h : key ∈ keys) (value : Json) (fields : List (String × Json)) :
    (setFields key value fields).filter (fun f => f.1 ∉ keys) =
      fields.filter fun f => f.1 ∉ keys := by
  induction fields with
  | nil => simp [setFields, h]
  | cons f fields ih =>
    obtain ⟨name, old⟩ := f
    rw [setFields]
    by_cases hname : name = key
    · subst hname
      rw [if_pos rfl, List.filter_cons_of_neg (by simp [h]), List.filter_cons_of_neg (by simp [h])]
    · rw [if_neg hname, List.filter_cons, List.filter_cons, ih]

theorem eraseFields_setField (h : key ∈ keys) (value j : Json) :
    (j.setField key value).eraseFields keys = j.eraseFields keys := by
  cases j with
  | obj fields => exact congrArg Json.obj (filter_setFields h value fields)
  | _ => rfl

end Json
