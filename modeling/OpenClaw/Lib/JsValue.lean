import OpenClaw.Lib.JsString

/-!
# Values with strings of UTF-16 code units

A string of the language is a list of code units, so it may be cut anywhere, also within a
character. Objects are lists of fields. Numbers are integers.
-/

namespace Js

/-! ## Strings -/

/-- A string: its UTF-16 code units. -/
abbrev Str := List Nat

/-- The code units of a text. -/
abbrev units (text : String) : Str := JsString.codeUnits text

/-- `/\s/`. -/
def isSpace (u : Nat) : Bool :=
  u ∈ [0x09, 0x0A, 0x0B, 0x0C, 0x0D, 0x20, 0xA0, 0x1680, 0x2028, 0x2029, 0x202F, 0x205F, 0x3000,
    0xFEFF] || (0x2000 ≤ u && u ≤ 0x200A)

def isDigit (u : Nat) : Bool := 0x30 ≤ u && u ≤ 0x39

def isUpper (u : Nat) : Bool := 0x41 ≤ u && u ≤ 0x5A

def isLower (u : Nat) : Bool := 0x61 ≤ u && u ≤ 0x7A

/-- `/[A-Za-z0-9]/`. -/
def isAlphanum (u : Nat) : Bool := isDigit u || isUpper u || isLower u

/-- A code unit with an ASCII capital as its small letter. -/
def lowerUnit (u : Nat) : Nat := if isUpper u then u + 0x20 else u

def trimStart (s : Str) : Str := s.dropWhile isSpace

def trimEnd (s : Str) : Str := (s.reverse.dropWhile isSpace).reverse

def trim (s : Str) : Str := trimEnd (trimStart s)

def includes (s part : Str) : Bool := s.tails.any part.isPrefixOf

/-- `slice(-n)`, for `n` that is not 0. -/
def lastUnits (n : Nat) (s : Str) : Str := s.drop (s.length - n)

/-! ## Values -/

inductive Value
  | undefined
  | null
  | bool (b : Bool)
  | num (n : Int)
  | str (s : Str)
  | arr (items : List Value)
  | obj (fields : List (String × Value))

namespace Value

def lookup (key : String) : List (String × Value) → Value
  | [] => .undefined
  | (name, value) :: fields => if name = key then value else lookup key fields

/-- The field of a record, `undefined` when it is not there. -/
def field (key : String) : Value → Value
  | .obj fields => lookup key fields
  | _ => .undefined

/-- `value && typeof value === "object"`. -/
def isRecord : Value → Bool
  | .arr _ | .obj _ => true
  | _ => false

def asStr : Value → Option Str
  | .str s => some s
  | _ => none

def setFields (key : String) (value : Value) :
    List (String × Value) → List (String × Value)
  | [] => [(key, value)]
  | (name, old) :: fields =>
    if name = key then (key, value) :: fields else (name, old) :: setFields key value fields

/-- `{ ...record, [key]: value }`. -/
def setField (record : Value) (key : String) (value : Value) : Value :=
  match record with
  | .obj fields => .obj (setFields key value fields)
  | _ => .obj [(key, value)]

/-- `delete record[key]`. -/
def eraseField (record : Value) (key : String) : Value :=
  match record with
  | .obj fields => .obj (fields.filter fun f => f.1 ≠ key)
  | record => record

mutual

/-- `===`, where objects are one when they have the same fields. -/
def same : Value → Value → Bool
  | .undefined, .undefined => true
  | .null, .null => true
  | .bool a, .bool b => a == b
  | .num a, .num b => a == b
  | .str a, .str b => a == b
  | .arr a, .arr b => sameItems a b
  | .obj a, .obj b => sameFields a b
  | _, _ => false

def sameItems : List Value → List Value → Bool
  | [], [] => true
  | a :: as, b :: bs => same a b && sameItems as bs
  | _, _ => false

def sameFields : List (String × Value) → List (String × Value) → Bool
  | [], [] => true
  | (k, a) :: as, (l, b) :: bs => k == l && same a b && sameFields as bs
  | _, _ => false

end

end Value

end Js
