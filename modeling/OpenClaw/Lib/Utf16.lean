import Mathlib.Algebra.GroupWithZero.Nat
import Mathlib.Data.List.Infix
import Mathlib.Data.String.Defs

/-!
# UTF-16 strings

A string of a language with UTF-16 strings is a list of code units, surrogates and all. Its code
points are the surrogate pairs and the units left over. `scalars` is what an encoder makes of
them: a lone surrogate becomes U+FFFD.

* `codePoints_append`: a string is cut at a boundary of code points unless a pair is cut.
* `toWellFormed_utf8Length`: replacing the lone surrogates does not change the UTF-8 length.
-/

abbrev Utf16 := List UInt16

namespace Utf16

def isHighSurrogate (unit : UInt16) : Bool := 0xD800 ≤ unit && unit ≤ 0xDBFF

def isLowSurrogate (unit : UInt16) : Bool := 0xDC00 ≤ unit && unit ≤ 0xDFFF

theorem not_isHighSurrogate_of_isLowSurrogate {unit : UInt16} (h : isLowSurrogate unit = true) :
    isHighSurrogate unit = false := by
  simp [isLowSurrogate, isHighSurrogate, UInt16.le_iff_toNat_le] at h ⊢
  omega

/-- The replacement character. -/
def replacementUnit : UInt16 := 0xFFFD

inductive CodePoint
  | unit (code : UInt16)
  | pair (high low : UInt16)
  deriving DecidableEq, Repr

def codePoints : Utf16 → List CodePoint
  | [] => []
  | [code] => [.unit code]
  | code :: next :: rest =>
    if isHighSurrogate code && isLowSurrogate next then .pair code next :: codePoints rest
    else .unit code :: codePoints (next :: rest)

namespace CodePoint

def units : CodePoint → Utf16
  | .unit code => [code]
  | .pair high low => [high, low]

def IsLone : CodePoint → Prop
  | .unit code => isHighSurrogate code ∨ isLowSurrogate code
  | .pair _ _ => False

instance : DecidablePred IsLone
  | .unit code => inferInstanceAs (Decidable (isHighSurrogate code ∨ isLowSurrogate code))
  | .pair _ _ => inferInstanceAs (Decidable False)

/-- The units with a lone surrogate replaced. -/
def wellFormedUnits (point : CodePoint) : Utf16 :=
  if point.IsLone then [replacementUnit] else point.units

/-- The Unicode scalar value. -/
def scalar : CodePoint → Char
  | .unit code =>
    if isHighSurrogate code || isLowSurrogate code then '\uFFFD' else .ofNat code.toNat
  | .pair high low => .ofNat (0x10000 + (high.toNat - 0xD800) * 0x400 + (low.toNat - 0xDC00))

/-- The length of the UTF-8 encoding. -/
def utf8Size (point : CodePoint) : Nat := (String.utf8EncodeChar point.scalar).length

end CodePoint

/-- The UTF-8 encoding, in which a lone surrogate is a replacement character. -/
def encodeUtf8 (content : Utf16) : List UInt8 :=
  (codePoints content).flatMap fun point => String.utf8EncodeChar point.scalar

/-- The length of the UTF-8 encoding. -/
def utf8Length (content : Utf16) : Nat := (encodeUtf8 content).length

def pointsLength (points : List CodePoint) : Nat := (points.map CodePoint.utf8Size).sum

theorem utf8Length_eq (content : Utf16) :
    utf8Length content = pointsLength (codePoints content) := by
  unfold utf8Length encodeUtf8 pointsLength
  rw [List.length_flatMap]
  rfl

@[simp] theorem pointsLength_nil : pointsLength [] = 0 := rfl

@[simp] theorem pointsLength_cons (point : CodePoint) (points : List CodePoint) :
    pointsLength (point :: points) = point.utf8Size + pointsLength points := by
  simp [pointsLength]

@[simp] theorem pointsLength_append (left right : List CodePoint) :
    pointsLength (left ++ right) = pointsLength left + pointsLength right := by
  simp [pointsLength]

theorem wellFormedUnits_unit (code : UInt16) :
    (CodePoint.unit code).wellFormedUnits =
      if isHighSurrogate code || isLowSurrogate code then [replacementUnit] else [code] := by
  unfold CodePoint.wellFormedUnits
  by_cases hlone : (CodePoint.unit code).IsLone
  · have hor : (isHighSurrogate code || isLowSurrogate code) = true := by
      simpa [CodePoint.IsLone] using hlone
    rw [if_pos hlone, if_pos hor]
  · have hor : ¬ (isHighSurrogate code || isLowSurrogate code) = true := by
      simpa [CodePoint.IsLone] using hlone
    rw [if_neg hlone, if_neg hor]
    rfl

theorem wellFormedUnits_pair (high low : UInt16) :
    (CodePoint.pair high low).wellFormedUnits = [high, low] := by
  simp [CodePoint.wellFormedUnits, CodePoint.IsLone, CodePoint.units]

/-! ## Where a string can be cut -/

/-- The last unit of the one string and the first of the other are no pair. -/
def CutsNoPair (left right : Utf16) : Prop :=
  ∀ high ∈ left.getLast?, ∀ low ∈ right.head?, ¬ (isHighSurrogate high ∧ isLowSurrogate low)

theorem cutsNoPair_concat {left : Utf16} {unit : UInt16} (h : isHighSurrogate unit = false)
    (right : Utf16) : CutsNoPair (left ++ [unit]) right := by
  intro high hhigh low _ hpair
  rw [List.getLast?_concat, Option.mem_some_iff] at hhigh
  rw [← hhigh, h] at hpair
  exact Bool.false_ne_true hpair.1

theorem cutsNoPair_cons {right : Utf16} {unit : UInt16} (h : isLowSurrogate unit = false)
    (left : Utf16) : CutsNoPair left (unit :: right) := by
  intro high _ low hlow hpair
  rw [List.head?_cons, Option.mem_some_iff] at hlow
  rw [← hlow, h] at hpair
  exact Bool.false_ne_true hpair.2

theorem codePoints_append {left right : Utf16} (h : CutsNoPair left right) :
    codePoints (left ++ right) = codePoints left ++ codePoints right := by
  induction left using codePoints.induct with
  | case1 => rfl
  | case2 code =>
    cases right with
    | nil => simp [codePoints]
    | cons low rest =>
      have hcut := h code rfl low rfl
      simp only [List.cons_append, List.nil_append, codePoints]
      rw [if_neg (by simpa using hcut)]
  | case3 code next rest hpair ih =>
    have hrest : CutsNoPair rest right := by
      intro high hhigh
      refine h high ?_
      cases rest with
      | nil => cases hhigh
      | cons unit units => simpa using hhigh
    simp only [List.cons_append, codePoints]
    rw [if_pos hpair, if_pos hpair, ih hrest, List.cons_append]
  | case4 code next rest hpair ih =>
    have hrest : CutsNoPair (next :: rest) right := by
      intro high hhigh
      exact h high (by simpa using hhigh)
    have happend := ih hrest
    simp only [List.cons_append] at happend
    simp only [List.cons_append, codePoints]
    rw [if_neg hpair, if_neg hpair, happend, List.cons_append]

theorem flatMap_units_codePoints (content : Utf16) :
    (codePoints content).flatMap CodePoint.units = content := by
  induction content using codePoints.induct with
  | case1 => rfl
  | case2 code => rfl
  | case3 code next rest hpair ih =>
    rw [codePoints, if_pos hpair, List.flatMap_cons, ih]
    rfl
  | case4 code next rest hpair ih =>
    rw [codePoints, if_neg hpair, List.flatMap_cons, ih]
    rfl

/-! ## Lengths -/

/-- The length of the encoding of a scalar value that is given as a number. -/
theorem utf8Size_ofNat {n : Nat} (h : n.isValidChar) :
    (Char.ofNat n).utf8Size =
      if n ≤ 0x7F then 1 else if n ≤ 0x7FF then 2 else if n ≤ 0xFFFF then 3 else 4 := by
  rw [Char.ofNat, dif_pos h]
  rfl

theorem utf8Size_unit (code : UInt16) :
    (CodePoint.unit code).utf8Size =
      if code.toNat ≤ 0x7F then 1 else if code.toNat ≤ 0x7FF then 2 else 3 := by
  have hlt := code.toNat_lt
  simp only [CodePoint.utf8Size, CodePoint.scalar, String.length_utf8EncodeChar]
  by_cases hlone : (isHighSurrogate code || isLowSurrogate code) = true
  · rw [if_pos hlone]
    simp [isHighSurrogate, isLowSurrogate, UInt16.le_iff_toNat_le] at hlone
    rw [if_neg (by omega), if_neg (by omega)]
    rfl
  · rw [if_neg hlone]
    simp [isHighSurrogate, isLowSurrogate, UInt16.le_iff_toNat_le] at hlone
    have hvalid : code.toNat.isValidChar := by
      omega
    have hmax : code.toNat ≤ 0xFFFF := by omega
    rw [utf8Size_ofNat hvalid]
    simp [hmax]

theorem utf8Size_pair {high low : UInt16} (hhigh : isHighSurrogate high = true)
    (hlow : isLowSurrogate low = true) : (CodePoint.pair high low).utf8Size = 4 := by
  unfold CodePoint.utf8Size CodePoint.scalar
  rw [String.length_utf8EncodeChar]
  simp only [isHighSurrogate, isLowSurrogate, UInt16.le_iff_toNat_le, Bool.and_eq_true,
    decide_eq_true_eq, UInt16.reduceToNat] at hhigh hlow
  have hvalid : (0x10000 + (high.toNat - 0xD800) * 0x400 + (low.toNat - 0xDC00)).isValidChar := by
    omega
  rw [utf8Size_ofNat hvalid, if_neg (by omega), if_neg (by omega), if_neg (by omega)]

theorem utf8Length_append {left right : Utf16} (h : CutsNoPair left right) :
    utf8Length (left ++ right) = utf8Length left + utf8Length right := by
  rw [utf8Length_eq, utf8Length_eq, utf8Length_eq, codePoints_append h, pointsLength_append]

theorem utf8Length_cons {unit : UInt16} (h : isHighSurrogate unit = false) (rest : Utf16) :
    utf8Length (unit :: rest) = utf8Length [unit] + utf8Length rest :=
  utf8Length_append (@cutsNoPair_concat [] unit h rest)

theorem utf8Length_singleton (unit : UInt16) :
    utf8Length [unit] = (CodePoint.unit unit).utf8Size := by
  rw [utf8Length_eq]
  simp [codePoints]

theorem utf8Size_pos (point : CodePoint) : 0 < point.utf8Size := by
  unfold CodePoint.utf8Size
  rw [String.length_utf8EncodeChar]
  exact Char.utf8Size_pos _

/-! ## Ends of a string -/

theorem codePoints_eq_cons {content : Utf16} {point : CodePoint} {points : List CodePoint}
    (h : codePoints content = point :: points) :
    ∃ rest, content = point.units ++ rest ∧ codePoints rest = points := by
  cases content using codePoints.induct with
  | case1 => cases h
  | case2 code =>
    cases h
    exact ⟨[], rfl, rfl⟩
  | case3 code next rest hpair ih =>
    rw [codePoints, if_pos hpair] at h
    cases h
    exact ⟨rest, rfl, rfl⟩
  | case4 code next rest hpair ih =>
    rw [codePoints, if_neg hpair] at h
    cases h
    exact ⟨next :: rest, rfl, rfl⟩

theorem codePoints_suffix {content : Utf16} {left right : List CodePoint}
    (h : codePoints content = left ++ right) : codePoints (right.flatMap CodePoint.units) = right := by
  induction left generalizing content with
  | nil =>
    rw [List.nil_append] at h
    rw [← h, flatMap_units_codePoints]
  | cons point left ih =>
    obtain ⟨rest, _, hrest⟩ := codePoints_eq_cons h
    exact ih hrest

/-! ## Lone surrogates replaced -/

def toWellFormed (content : Utf16) : Utf16 :=
  (codePoints content).flatMap CodePoint.wellFormedUnits

theorem toWellFormed_of_codePoints {content rest : Utf16} {point : CodePoint}
    (h : codePoints content = point :: codePoints rest) :
    toWellFormed content = point.wellFormedUnits ++ toWellFormed rest := by
  unfold toWellFormed
  rw [h, List.flatMap_cons]

theorem utf8Length_wellFormedUnits_unit (code : UInt16) (rest : Utf16) :
    utf8Length ((CodePoint.unit code).wellFormedUnits ++ rest) =
      (CodePoint.unit code).utf8Size + utf8Length rest := by
  rw [wellFormedUnits_unit, utf8Size_unit]
  by_cases hlone : (isHighSurrogate code || isLowSurrogate code) = true
  · rw [if_pos hlone, List.singleton_append, utf8Length_cons rfl]
    simp [isHighSurrogate, isLowSurrogate, UInt16.le_iff_toNat_le] at hlone
    rw [if_neg (by omega), if_neg (by omega)]
    rfl
  · have hhigh : isHighSurrogate code = false := by
      simp at hlone
      exact hlone.1
    rw [if_neg hlone, List.singleton_append, utf8Length_cons hhigh, utf8Length_singleton,
      utf8Size_unit]

/-- **Replacing lone surrogates keeps the length of the encoding.** -/
theorem toWellFormed_utf8Length (content : Utf16) :
    utf8Length (toWellFormed content) = utf8Length content := by
  induction content using codePoints.induct with
  | case1 => rfl
  | case2 code =>
    have hpoints : codePoints [code] = .unit code :: codePoints [] := rfl
    rw [toWellFormed_of_codePoints hpoints, utf8Length_wellFormedUnits_unit,
      utf8Length_eq [code], hpoints, pointsLength_cons]
    rfl
  | case3 code next rest hpair ih =>
    have hpoints (tail : Utf16) :
        codePoints (code :: next :: tail) = .pair code next :: codePoints tail := by
      simp [codePoints, hpair]
    rw [toWellFormed_of_codePoints (hpoints rest)]
    rw [wellFormedUnits_pair, utf8Length_eq, utf8Length_eq (code :: next :: rest), hpoints rest]
    simp only [List.cons_append, List.nil_append]
    rw [hpoints, pointsLength_cons, pointsLength_cons, ← utf8Length_eq, ih, utf8Length_eq]
  | case4 code next rest hpair ih =>
    have hpoints :
        codePoints (code :: next :: rest) = .unit code :: codePoints (next :: rest) := by
      simp [codePoints, hpair]
    rw [toWellFormed_of_codePoints hpoints, utf8Length_wellFormedUnits_unit, ih,
      utf8Length_eq (code :: next :: rest), hpoints, pointsLength_cons, utf8Length_eq]

end Utf16
