import Mathlib.Data.List.DropRight
import Mathlib.Order.Bounds.Basic
import OpenClaw.Harness.Truncate

/-!
# Truncation is exact and maximal

The lines that a truncation keeps are the most that fit (`FitsHead`, `FitsTail`): each loop goes on
until the next line would pass a limit, and more lines never take fewer bytes. The end of a line
that is too long by itself is the longest run of whole code points that fits (`scanFromEnd_spec`).
-/

namespace OpenClaw.Harness.Truncate

open Utf16

variable {runtimeBuffer : Bool} {content : Utf16} {options : TruncationOptions}
  {maxLines maxBytes : Nat} {kept : KeptLines}

/-! ## Bytes -/

theorem countUtf8Bytes_eq (content : Utf16) : countUtf8Bytes content = utf8Length content := by
  rw [utf8Length_eq]
  induction content using codePoints.induct with
  | case1 => rfl
  | case2 code =>
    simp [countUtf8Bytes, codePoints, utf8Size_unit, UInt16.le_iff_toNat_le]
  | case3 code next rest hpair ih =>
    have hpoints : codePoints (code :: next :: rest) = .pair code next :: codePoints rest := by
      simp [codePoints, hpair]
    have hsurrogates := hpair
    simp only [Bool.and_eq_true] at hsurrogates
    obtain ⟨hhigh, hlow⟩ := hsurrogates
    have hcode : 0xD800 ≤ code.toNat := by
      simp [isHighSurrogate, UInt16.le_iff_toNat_le] at hhigh
      exact hhigh.1
    rw [hpoints, pointsLength_cons, utf8Size_pair hhigh hlow, ← ih, countUtf8Bytes]
    have hascii : ¬ code ≤ 0x7F := by simp [UInt16.le_iff_toNat_le]; omega
    have htwo : ¬ code ≤ 0x7FF := by simp [UInt16.le_iff_toNat_le]; omega
    rw [if_neg hascii, if_neg htwo, if_pos hpair]
  | case4 code next rest hpair ih =>
    have hpoints :
        codePoints (code :: next :: rest) = .unit code :: codePoints (next :: rest) := by
      simp [codePoints, hpair]
    rw [hpoints, pointsLength_cons, utf8Size_unit, ← ih, countUtf8Bytes, if_neg hpair]
    show (if code.toNat ≤ 127 then _ else if code.toNat ≤ 2047 then _ else _) = _
    split
    · rfl
    · split <;> rfl

theorem utf8Length_ascii_append {ascii : Utf16} (rest : Utf16) (h : ∀ code ∈ ascii, ¬ 0x7F < code) :
    utf8Length (ascii ++ rest) = ascii.length + utf8Length rest := by
  induction ascii with
  | nil => simp
  | cons code ascii ih =>
    have hcode : code.toNat ≤ 0x7F := by
      simpa [UInt16.lt_iff_toNat_lt] using h code List.mem_cons_self
    have hhigh : isHighSurrogate code = false := by
      simp [isHighSurrogate, UInt16.le_iff_toNat_le]
      omega
    have hrest := ih fun unit hunit => h unit (List.mem_cons_of_mem code hunit)
    rw [List.cons_append, utf8Length_cons hhigh, utf8Length_singleton, utf8Size_unit,
      if_pos hcode, hrest, List.length_cons]
    omega

/-- **The hand-written count is the length of the UTF-8 encoding.** -/
theorem utf8ByteLength_eq (runtimeBuffer : Bool) (content : Utf16) :
    utf8ByteLength runtimeBuffer content = utf8Length content := by
  unfold utf8ByteLength
  by_cases hbuffer : runtimeBuffer = true
  · rw [if_pos hbuffer]
  · rw [if_neg hbuffer]
    cases hfirst : findFirstNonAscii content with
    | none =>
      have hascii : ∀ code ∈ content, ¬ 0x7F < code := by
        simpa [findFirstNonAscii] using hfirst
      have hlength := utf8Length_ascii_append [] hascii
      simpa [utf8Length, encodeUtf8, codePoints] using hlength.symm
    | some first =>
      dsimp only
      rw [countUtf8Bytes_eq]
      have hascii : ∀ code ∈ content.take first, ¬ 0x7F < code := by
        intro code hcode
        obtain ⟨i, hi, rfl⟩ := List.mem_take_iff_getElem.1 hcode
        have hspec := (List.findIdx?_eq_some_iff_getElem.1 hfirst).2.2 i (by omega)
        simpa using hspec
      have hbound := (List.findIdx?_eq_some_iff_getElem.1 hfirst).1
      have hlength := utf8Length_ascii_append (content.drop first) hascii
      rw [List.take_append_drop, List.length_take, min_eq_left hbound.le] at hlength
      exact hlength.symm

/-! ## Lines -/

theorem joinLines_splitLinesForCounting (h : content ≠ []) :
    content = joinLines (splitLinesForCounting content) ++
      if content.getLast? = some newline then [newline] else [] := by
  have hjoin := @List.intercalate_splitOn _ content _ _ newline
  unfold splitLinesForCounting joinLines
  rw [if_neg h]
  by_cases hends : content.getLast? = some newline
  · obtain ⟨front, rfl⟩ := List.getLast?_eq_some_iff.1 hends
    have hfront : [newline].intercalate (front.splitOn newline) = front :=
      List.intercalate_splitOn newline
    simp [hends, List.splitOn_append_cons_self, hfront]
  · simp [hends, hjoin]

def joinedBytes (lines : List Utf16) : Nat := (lines.map utf8Length).sum + (lines.length - 1)

@[simp] theorem joinedBytes_nil : joinedBytes [] = 0 := rfl

@[simp] theorem joinedBytes_singleton (line : Utf16) : joinedBytes [line] = utf8Length line := by
  simp [joinedBytes]

theorem joinedBytes_append (front back : List Utf16) :
    joinedBytes (front ++ back) =
      joinedBytes front + joinedBytes back + if front ≠ [] ∧ back ≠ [] then 1 else 0 := by
  unfold joinedBytes
  cases front with
  | nil => simp
  | cons line front =>
    cases back with
    | nil => simp
    | cons line' back =>
      simp
      omega

variable {lines : List Utf16}

variable {front : List Utf16}

theorem joinedBytes_prefix_le (h : front <+: lines) : joinedBytes front ≤ joinedBytes lines := by
  obtain ⟨back, rfl⟩ := h
  rw [joinedBytes_append]
  omega

variable {back : List Utf16}

theorem joinedBytes_suffix_le (h : back <:+ lines) : joinedBytes back ≤ joinedBytes lines := by
  obtain ⟨front, rfl⟩ := h
  rw [joinedBytes_append]
  omega

theorem utf8Length_append_newline (left right : Utf16) :
    utf8Length (left ++ newline :: right) = utf8Length left + 1 + utf8Length right := by
  have hright : utf8Length (newline :: right) = 1 + utf8Length right :=
    utf8Length_cons rfl right
  rw [utf8Length_append (cutsNoPair_cons rfl left), hright]
  omega

theorem utf8Length_joinLines (lines : List Utf16) :
    utf8Length (joinLines lines) = joinedBytes lines := by
  unfold joinLines
  induction lines with
  | nil => rfl
  | cons line lines ih =>
    cases lines with
    | nil => simp
    | cons line' lines =>
      rw [List.intercalate_cons_cons]
      have hcut := utf8Length_append_newline line ([newline].intercalate (line' :: lines))
      have hjoined := joinedBytes_append [line] (line' :: lines)
      simp only [List.append_assoc, List.singleton_append] at hcut hjoined ⊢
      rw [hcut, hjoined]
      simp
      omega

theorem lineBytes_eq (runtimeBuffer : Bool)
    (hcount : kept.outputBytesCount = joinedBytes kept.outputLinesArr)
    (line : Utf16) :
    kept.outputBytesCount + lineBytes runtimeBuffer kept line =
        joinedBytes (kept.outputLinesArr ++ [line]) ∧
      kept.outputBytesCount + lineBytes runtimeBuffer kept line =
        joinedBytes (line :: kept.outputLinesArr) := by
  have hcons := joinedBytes_append [line] kept.outputLinesArr
  rw [List.singleton_append] at hcons
  unfold lineBytes
  rw [utf8ByteLength_eq, hcount, joinedBytes_append, hcons]
  cases kept.outputLinesArr with
  | nil => simp
  | cons line' lines =>
    simp
    omega

/-! ## The most lines that fit -/

/-- The numbers of lines at the beginning that are within the limits. -/
def FitsHead (lines : List Utf16) (maxLines maxBytes : Nat) : Set Nat :=
  {k | k ≤ lines.length ∧ k ≤ maxLines ∧ utf8Length (joinLines (lines.take k)) ≤ maxBytes}

/-- The numbers of lines at the end that are within the limits. -/
def FitsTail (lines : List Utf16) (maxLines maxBytes : Nat) : Set Nat :=
  {k | k ≤ lines.length ∧ k ≤ maxLines ∧ utf8Length (joinLines (lines.rtake k)) ≤ maxBytes}

variable {k : Nat}

theorem isGreatest_fitsHead (hk : k ∈ FitsHead lines maxLines maxBytes)
    (hstop : k = lines.length ∨ k = maxLines ∨ maxBytes < joinedBytes (lines.take (k + 1))) :
    IsGreatest (FitsHead lines maxLines maxBytes) k := by
  refine ⟨hk, fun j hj => ?_⟩
  obtain ⟨hlength, hlines, hbytes⟩ := hj
  by_contra hlt
  rcases hstop with rfl | rfl | hover
  · omega
  · omega
  · have hprefix : lines.take (k + 1) <+: lines.take j := List.take_prefix_take_left (by omega)
    rw [utf8Length_joinLines] at hbytes
    exact absurd (joinedBytes_prefix_le hprefix) (by omega)

theorem rtake_suffix {j : Nat} (h : j ≤ k) : lines.rtake j <:+ lines.rtake k := by
  unfold List.rtake
  have hdrop : lines.drop (lines.length - j) =
      (lines.drop (lines.length - k)).drop (lines.length - j - (lines.length - k)) := by
    rw [List.drop_drop]
    congr 1
    omega
  rw [hdrop]
  exact List.drop_suffix _ _

theorem isGreatest_fitsTail (hk : k ∈ FitsTail lines maxLines maxBytes)
    (hstop : k = lines.length ∨ k = maxLines ∨ maxBytes < joinedBytes (lines.rtake (k + 1))) :
    IsGreatest (FitsTail lines maxLines maxBytes) k := by
  refine ⟨hk, fun j hj => ?_⟩
  obtain ⟨hlength, hlines, hbytes⟩ := hj
  by_contra hlt
  rcases hstop with rfl | rfl | hover
  · omega
  · omega
  · rw [utf8Length_joinLines] at hbytes
    have hsuffix : lines.rtake (k + 1) <:+ lines.rtake j := rtake_suffix (by omega)
    exact absurd (joinedBytes_suffix_le hsuffix) (by omega)

theorem take_append_length (front back : List Utf16) : (front ++ back).take front.length = front :=
  List.take_left

theorem rtake_append_length (front back : List Utf16) :
    (front ++ back).rtake back.length = back := by
  unfold List.rtake
  rw [List.length_append, Nat.add_sub_cancel]
  exact List.drop_left

variable {rest : List Utf16}

theorem kept_fitsHead (hsplit : kept.outputLinesArr ++ rest = lines)
    (hcount : kept.outputBytesCount = joinedBytes kept.outputLinesArr)
    (hbytes : kept.outputBytesCount ≤ maxBytes) (hlines : kept.outputLinesArr.length ≤ maxLines) :
    kept.outputLinesArr = lines.take kept.outputLinesArr.length ∧
      kept.outputLinesArr.length ∈ FitsHead lines maxLines maxBytes := by
  subst hsplit
  refine ⟨(take_append_length _ _).symm, by simp, hlines, ?_⟩
  rw [take_append_length, utf8Length_joinLines, ← hcount]
  exact hbytes

theorem kept_fitsTail (hsplit : rest.reverse ++ kept.outputLinesArr = lines)
    (hcount : kept.outputBytesCount = joinedBytes kept.outputLinesArr)
    (hbytes : kept.outputBytesCount ≤ maxBytes) (hlines : kept.outputLinesArr.length ≤ maxLines) :
    kept.outputLinesArr = lines.rtake kept.outputLinesArr.length ∧
      kept.outputLinesArr.length ∈ FitsTail lines maxLines maxBytes := by
  subst hsplit
  refine ⟨(rtake_append_length _ _).symm, by simp, hlines, ?_⟩
  rw [rtake_append_length, utf8Length_joinLines, ← hcount]
  exact hbytes

/-- **The loop of `truncateHead`** keeps the most lines that fit. -/
theorem headLoop_spec (hsplit : kept.outputLinesArr ++ rest = lines)
    (hcount : kept.outputBytesCount = joinedBytes kept.outputLinesArr)
    (hbytes : kept.outputBytesCount ≤ maxBytes) (hlines : kept.outputLinesArr.length ≤ maxLines) :
    let after := headLoop runtimeBuffer maxLines maxBytes rest kept
    after.outputLinesArr = lines.take after.outputLinesArr.length ∧
      IsGreatest (FitsHead lines maxLines maxBytes) after.outputLinesArr.length := by
  induction rest generalizing kept with
  | nil =>
    obtain ⟨htake, hfits⟩ := kept_fitsHead hsplit hcount hbytes hlines
    rw [List.append_nil] at hsplit
    exact ⟨htake, isGreatest_fitsHead hfits (.inl (congrArg List.length hsplit))⟩
  | cons line rest ih =>
    intro after
    obtain ⟨htake, hfits⟩ := kept_fitsHead hsplit hcount hbytes hlines
    have hnext := (lineBytes_eq runtimeBuffer hcount line).1
    by_cases hroom : kept.outputLinesArr.length < maxLines
    · by_cases hover : maxBytes < kept.outputBytesCount + lineBytes runtimeBuffer kept line
      · have hafter : after = { kept with truncatedBy := .bytes } := by
          show headLoop _ _ _ _ _ = _
          simp [headLoop, hroom, hover]
        rw [hafter]
        refine ⟨htake, isGreatest_fitsHead hfits (.inr (.inr ?_))⟩
        have hone : lines.take (kept.outputLinesArr.length + 1) =
            kept.outputLinesArr ++ [line] := by
          rw [← hsplit, List.take_append]
          simp
        rw [hone, ← hnext]
        exact hover
      · have hafter : after = headLoop runtimeBuffer maxLines maxBytes rest
            { kept with
              outputLinesArr := kept.outputLinesArr ++ [line]
              outputBytesCount := kept.outputBytesCount + lineBytes runtimeBuffer kept line } := by
          show headLoop _ _ _ _ _ = _
          simp [headLoop, hroom, hover]
        rw [hafter]
        refine ih ?_ hnext (Nat.le_of_not_lt hover) ?_
        · simpa using hsplit
        · simp
          omega
    · have hafter : after = kept := by
        show headLoop _ _ _ _ _ = _
        simp [headLoop, hroom]
      rw [hafter]
      exact ⟨htake, isGreatest_fitsHead hfits (.inr (.inl (by omega)))⟩

/-- **The loop of `truncateTail`** keeps the most lines that fit, unless the last one alone is too
long. -/
theorem tailLoop_spec (hsplit : rest.reverse ++ kept.outputLinesArr = lines)
    (hcount : kept.outputBytesCount = joinedBytes kept.outputLinesArr)
    (hbytes : kept.outputBytesCount ≤ maxBytes) (hlines : kept.outputLinesArr.length ≤ maxLines)
    (hshort : kept.outputLinesArr = [] → ∀ line ∈ rest.head?, utf8Length line ≤ maxBytes) :
    let after := tailLoop runtimeBuffer maxLines maxBytes rest kept
    after.outputLinesArr = lines.rtake after.outputLinesArr.length ∧
      IsGreatest (FitsTail lines maxLines maxBytes) after.outputLinesArr.length ∧
      after.lastLinePartial = kept.lastLinePartial := by
  induction rest generalizing kept with
  | nil =>
    obtain ⟨htake, hfits⟩ := kept_fitsTail hsplit hcount hbytes hlines
    exact ⟨htake, isGreatest_fitsTail hfits (.inl (congrArg List.length hsplit)), rfl⟩
  | cons line rest ih =>
    intro after
    obtain ⟨htake, hfits⟩ := kept_fitsTail hsplit hcount hbytes hlines
    have hnext := (lineBytes_eq runtimeBuffer hcount line).2
    by_cases hroom : kept.outputLinesArr.length < maxLines
    · by_cases hover : maxBytes < kept.outputBytesCount + lineBytes runtimeBuffer kept line
      · have hsome : kept.outputLinesArr ≠ [] := by
          intro hnone
          have hline := hshort hnone line rfl
          rw [hnext, hnone, joinedBytes_singleton] at hover
          omega
        have hafter : after = { kept with truncatedBy := .bytes } := by
          show tailLoop _ _ _ _ _ = _
          simp [tailLoop, hroom, hover, hsome]
        rw [hafter]
        refine ⟨htake, isGreatest_fitsTail hfits (.inr (.inr ?_)), rfl⟩
        have hone : lines.rtake (kept.outputLinesArr.length + 1) =
            line :: kept.outputLinesArr := by
          rw [← hsplit, List.reverse_cons, List.append_assoc, List.singleton_append]
          exact rtake_append_length rest.reverse (line :: kept.outputLinesArr)
        rw [hone, ← hnext]
        exact hover
      · have hafter : after = tailLoop runtimeBuffer maxLines maxBytes rest
            { kept with
              outputLinesArr := line :: kept.outputLinesArr
              outputBytesCount := kept.outputBytesCount + lineBytes runtimeBuffer kept line } := by
          show tailLoop _ _ _ _ _ = _
          simp [tailLoop, hroom, hover]
        rw [hafter]
        refine ih ?_ hnext (Nat.le_of_not_lt hover) ?_ nofun
        · simpa using hsplit
        · simp
          omega
    · have hafter : after = kept := by
        show tailLoop _ _ _ _ _ = _
        simp [tailLoop, hroom]
      rw [hafter]
      exact ⟨htake, isGreatest_fitsTail hfits (.inr (.inl (by omega))), rfl⟩

theorem headLoop_start (runtimeBuffer : Bool) (lines : List Utf16) (maxLines maxBytes : Nat)
    (truncatedBy : TruncatedBy) :
    let after := headLoop runtimeBuffer maxLines maxBytes lines { truncatedBy }
    after.outputLinesArr = lines.take after.outputLinesArr.length ∧
      IsGreatest (FitsHead lines maxLines maxBytes) after.outputLinesArr.length :=
  headLoop_spec rfl rfl (Nat.zero_le _) (Nat.zero_le _)

theorem tailLoop_start (runtimeBuffer : Bool) (maxLines : Nat) (truncatedBy : TruncatedBy)
    (hshort : ∀ last ∈ lines.getLast?, utf8Length last ≤ maxBytes) :
    let after := tailLoop runtimeBuffer maxLines maxBytes lines.reverse { truncatedBy }
    after.outputLinesArr = lines.rtake after.outputLinesArr.length ∧
      IsGreatest (FitsTail lines maxLines maxBytes) after.outputLinesArr.length ∧
      after.lastLinePartial = false := by
  refine tailLoop_spec (by simp) rfl (Nat.zero_le _) (Nat.zero_le _) fun _ line hline => ?_
  rw [List.head?_reverse] at hline
  exact hshort line hline

/-! ## The end of a line -/

theorem unitBytes_eq (code : UInt16) :
    unitBytes code = ((CodePoint.unit code).utf8Size, decide (CodePoint.unit code).IsLone) := by
  rw [utf8Size_unit]
  unfold unitBytes
  by_cases hlone : (isHighSurrogate code || isLowSurrogate code) = true
  · have hunit : (CodePoint.unit code).IsLone := by simpa [CodePoint.IsLone] using hlone
    have hlarge : 0x7FF < code.toNat := by
      simp [isHighSurrogate, isLowSurrogate, UInt16.le_iff_toNat_le] at hlone
      omega
    rw [if_pos hlone, if_neg (by omega), if_neg (by omega)]
    simp [hunit]
  · have hunit : ¬ (CodePoint.unit code).IsLone := by simpa [CodePoint.IsLone] using hlone
    rw [if_neg hlone]
    simp [hunit, UInt16.le_iff_toNat_le]

/-- What the scan has found of the end of a string, in code points. -/
structure Scanned (maxBytes : Nat) (before : Utf16) (scan after : CutScan) : Prop where
  exists_points : ∃ left taken, codePoints before = left ++ taken ∧
    scan.outputBytes + pointsLength taken ≤ maxBytes ∧
    (∀ point ∈ left.getLast?,
      maxBytes < scan.outputBytes + pointsLength (point :: taken)) ∧
    after.start = (left.flatMap CodePoint.units).length ∧
    (after.needsReplacement = true ↔
      scan.needsReplacement = true ∨ ∃ point ∈ taken, point.IsLone)

variable {before : Utf16} {scan : CutScan}

theorem scanned_stop (left : List CodePoint) (point : CodePoint)
    (hpoints : codePoints before = left ++ [point]) (hstart : scan.start = before.length)
    (hbytes : scan.outputBytes ≤ maxBytes) (hover : maxBytes < scan.outputBytes + point.utf8Size) :
    Scanned maxBytes before scan scan := by
  refine ⟨left ++ [point], [], by simpa using hpoints, by simpa using hbytes, ?_, ?_, by simp⟩
  · intro last hlast
    rw [List.getLast?_concat, Option.mem_some_iff] at hlast
    simpa [← hlast] using hover
  · rw [hstart, ← hpoints, flatMap_units_codePoints]

theorem scanned_take (front : Utf16) {next after : CutScan} (point : CodePoint)
    (hpoints : codePoints before = codePoints front ++ [point])
    (hbytes : next.outputBytes = scan.outputBytes + point.utf8Size)
    (hreplace : next.needsReplacement = true ↔ scan.needsReplacement = true ∨ point.IsLone)
    (h : Scanned maxBytes front next after) : Scanned maxBytes before scan after := by
  obtain ⟨left, taken, hfront, hfits, hover, hstart, hlone⟩ := h
  refine ⟨left, taken ++ [point], ?_, ?_, ?_, hstart, ?_⟩
  · rw [hpoints, hfront, List.append_assoc]
  · rw [hbytes] at hfits
    simp
    omega
  · intro last hlast
    have hlast := hover last hlast
    simp at hlast ⊢
    omega
  · rw [hlone, hreplace]
    grind

theorem scanned_nil (hbytes : scan.outputBytes ≤ maxBytes) (hstart : scan.start = 0) :
    Scanned maxBytes [] scan scan :=
  ⟨[], [], rfl, by simpa using hbytes, nofun, by simpa using hstart, by simp⟩

theorem codePoints_concat_unit {code : UInt16}
    (h : ∀ previous ∈ before.getLast?, ¬ (isHighSurrogate previous ∧ isLowSurrogate code)) :
    codePoints (before ++ [code]) = codePoints before ++ [.unit code] := by
  refine codePoints_append fun high hhigh low hlow hpair => ?_
  rw [List.head?_cons, Option.mem_some_iff] at hlow
  exact h high hhigh (hlow ▸ hpair)

theorem codePoints_concat_pair {high low : UInt16} (hhigh : isHighSurrogate high = true)
    (hlow : isLowSurrogate low = true) :
    codePoints (before ++ [high, low]) = codePoints before ++ [.pair high low] := by
  have hstart : isLowSurrogate high = false := by
    by_contra hboth
    simp only [Bool.not_eq_false] at hboth
    rw [not_isHighSurrogate_of_isLowSurrogate hboth] at hhigh
    exact Bool.false_ne_true hhigh
  rw [codePoints_append (cutsNoPair_cons hstart before)]
  simp [codePoints, hhigh, hlow]

/-- **The scan from the end** takes the most code points that fit. -/
theorem scanFromEnd_spec (maxBytes : Nat) (reversed : Utf16) (scan : CutScan)
    (hbytes : scan.outputBytes ≤ maxBytes) (hstart : scan.start = reversed.length) :
    Scanned maxBytes reversed.reverse scan (scanFromEnd maxBytes reversed scan) := by
  induction reversed, scan using scanFromEnd.induct maxBytes with
  | case1 scan => exact scanned_nil hbytes hstart
  | case2 code scan characterBytes unpaired hunit hover =>
    rw [scanFromEnd, hunit]
    dsimp only
    rw [if_pos hover]
    rw [unitBytes_eq] at hunit
    cases hunit
    exact scanned_stop [] _ rfl hstart hbytes hover
  | case3 code scan characterBytes unpaired hunit hfits =>
    rw [scanFromEnd, hunit]
    dsimp only
    rw [if_neg hfits]
    rw [unitBytes_eq] at hunit
    cases hunit
    exact scanned_take [] _ rfl rfl (by simp)
      (scanned_nil (Nat.le_of_not_lt hfits) rfl)
  | case4 code previous before scan hpair hover =>
    rw [scanFromEnd, if_pos hpair, if_pos hover]
    simp only [Bool.and_eq_true] at hpair
    refine scanned_stop (codePoints before.reverse) (.pair previous code) ?_ ?_
      hbytes ?_
    · simpa using codePoints_concat_pair hpair.2 hpair.1
    · simpa using hstart
    · rw [utf8Size_pair hpair.2 hpair.1]
      exact hover
  | case5 code previous before scan hpair hfits ih =>
    rw [scanFromEnd, if_pos hpair, if_neg hfits]
    simp only [Bool.and_eq_true] at hpair
    refine scanned_take before.reverse (.pair previous code) ?_ ?_ (by simp [CodePoint.IsLone])
      (ih (Nat.le_of_not_lt hfits) rfl)
    · simpa using codePoints_concat_pair hpair.2 hpair.1
    · rw [utf8Size_pair hpair.2 hpair.1]
  | case6 code previous before scan hpair characterBytes unpaired hunit hover =>
    rw [scanFromEnd, if_neg hpair, hunit]
    dsimp only
    rw [if_pos hover]
    rw [unitBytes_eq] at hunit
    cases hunit
    refine scanned_stop (codePoints (previous :: before).reverse) (.unit code) ?_ ?_ hbytes hover
    · rw [List.reverse_cons]
      refine codePoints_concat_unit fun last hlast => ?_
      rw [List.getLast?_reverse, List.head?_cons, Option.mem_some_iff] at hlast
      simpa [← hlast, and_comm] using hpair
    · simpa using hstart
  | case7 code previous before scan hpair characterBytes unpaired hunit hfits ih =>
    rw [scanFromEnd, if_neg hpair, hunit]
    dsimp only
    rw [if_neg hfits]
    rw [unitBytes_eq] at hunit
    cases hunit
    refine scanned_take (previous :: before).reverse (.unit code) ?_ rfl (by simp)
      (ih (Nat.le_of_not_lt hfits) rfl)
    rw [List.reverse_cons]
    refine codePoints_concat_unit fun last hlast => ?_
    rw [List.getLast?_reverse, List.head?_cons, Option.mem_some_iff] at hlast
    simpa [← hlast, and_comm] using hpair

theorem replaceUnpairedSurrogates_eq (content : Utf16) :
    replaceUnpairedSurrogates content = toWellFormed content := by
  induction content using codePoints.induct with
  | case1 => rfl
  | case2 code =>
    simp [replaceUnpairedSurrogates, toWellFormed, codePoints, wellFormedUnits_unit]
  | case3 code next rest hpair ih =>
    have hpoints : codePoints (code :: next :: rest) = .pair code next :: codePoints rest := by
      simp [codePoints, hpair]
    rw [toWellFormed_of_codePoints hpoints, ← ih, wellFormedUnits_pair, replaceUnpairedSurrogates]
    simp only [Bool.and_eq_true] at hpair
    simp [hpair]
  | case4 code next rest hpair ih =>
    have hpoints :
        codePoints (code :: next :: rest) = .unit code :: codePoints (next :: rest) := by
      simp [codePoints, hpair]
    rw [toWellFormed_of_codePoints hpoints, ← ih, wellFormedUnits_unit, replaceUnpairedSurrogates]
    simp only [Bool.and_eq_true, not_and] at hpair
    by_cases hhigh : isHighSurrogate code = true
    · simp [hhigh, hpair hhigh]
    · by_cases hlow : isLowSurrogate code = true
      · simp [hhigh, hlow]
      · simp [hhigh, hlow]

theorem flatMap_wellFormedUnits {points : List CodePoint}
    (h : ¬ ∃ point ∈ points, point.IsLone) :
    points.flatMap CodePoint.wellFormedUnits = points.flatMap CodePoint.units := by
  refine List.flatMap_congr fun point hpoint => ?_
  unfold CodePoint.wellFormedUnits
  rw [if_neg fun hlone => h ⟨point, hpoint, hlone⟩]

/-- The end of a line that is too long: the longest run of whole code points that fits. -/
def LongestEnd (line : Utf16) (maxBytes : Nat) (output : Utf16) : Prop :=
  ∃ k, IsLeast {k | pointsLength ((codePoints line).drop k) ≤ maxBytes} k ∧
    output = ((codePoints line).drop k).flatMap CodePoint.wellFormedUnits

theorem isLeast_drop {left taken : List CodePoint} (hfits : pointsLength taken ≤ maxBytes)
    (hover : ∀ point ∈ left.getLast?, maxBytes < pointsLength (point :: taken)) :
    IsLeast {k | pointsLength ((left ++ taken).drop k) ≤ maxBytes} left.length := by
  refine ⟨by simpa using hfits, fun j hj => ?_⟩
  by_contra hlt
  rcases List.eq_nil_or_concat left with rfl | ⟨front, last, rfl⟩
  · simp at hlt
  · have hlast := hover last (by simp)
    rw [List.concat_eq_append, List.length_append, List.length_singleton] at hlt
    have hdrop : (front ++ [last] ++ taken).drop j = front.drop j ++ last :: taken := by
      rw [List.append_assoc, List.singleton_append, List.drop_append_of_le_length (by omega)]
    rw [List.concat_eq_append, Set.mem_ofPred_eq, hdrop, pointsLength_append] at hj
    omega

/-- **The end of a line is cut at the longest run of code points that fits.** -/
theorem truncateStringToBytesFromEnd_spec (line : Utf16) (maxBytes : Nat) :
    LongestEnd line maxBytes (truncateStringToBytesFromEnd line maxBytes) := by
  unfold truncateStringToBytesFromEnd
  by_cases hzero : maxBytes = 0
  · rw [if_pos hzero]
    refine ⟨(codePoints line).length, ⟨by simp [hzero], fun j hj => ?_⟩, by simp⟩
    by_contra hlt
    rw [Set.mem_ofPred_eq, List.drop_eq_getElem_cons (by omega), pointsLength_cons] at hj
    have hpos := utf8Size_pos (codePoints line)[j]
    omega
  · rw [if_neg hzero]
    obtain ⟨left, taken, hpoints, hfits, hover, hstart, hlone⟩ :=
      scanFromEnd_spec maxBytes line.reverse
        { outputBytes := 0, start := line.length, needsReplacement := false }
        (Nat.zero_le _) (by simp)
    rw [List.reverse_reverse] at hpoints
    simp only [Nat.zero_add] at hfits hover
    have hline : line = left.flatMap CodePoint.units ++ taken.flatMap CodePoint.units := by
      rw [← List.flatMap_append, ← hpoints, flatMap_units_codePoints]
    refine ⟨left.length, hpoints ▸ isLeast_drop hfits hover, ?_⟩
    have hdrop : (codePoints line).drop left.length = taken := by
      rw [hpoints]
      exact List.drop_left
    dsimp only
    rw [hdrop, hstart]
    have houtput : line.drop (left.flatMap CodePoint.units).length =
        taken.flatMap CodePoint.units := by
      conv_lhs => rw [hline]
      exact List.drop_left
    rw [houtput]
    by_cases hreplace : ∃ point ∈ taken, point.IsLone
    · rw [if_pos (hlone.2 (.inr hreplace)), replaceUnpairedSurrogates_eq, toWellFormed,
        codePoints_suffix hpoints]
    · have hno : ¬ (scanFromEnd maxBytes line.reverse
          { outputBytes := 0, start := line.length, needsReplacement := false }).needsReplacement =
            true := by
        rw [hlone]
        simpa using hreplace
      rw [if_neg hno, flatMap_wellFormedUnits hreplace]

theorem longestEnd_bytes {line output : Utf16} (h : LongestEnd line maxBytes output) :
    utf8Length output ≤ maxBytes := by
  obtain ⟨k, hleast, rfl⟩ := h
  have hpoints : codePoints line = (codePoints line).take k ++ (codePoints line).drop k :=
    (List.take_append_drop k _).symm
  have hend := toWellFormed_utf8Length (((codePoints line).drop k).flatMap CodePoint.units)
  unfold toWellFormed at hend
  rw [codePoints_suffix hpoints] at hend
  rw [hend, utf8Length_eq, codePoints_suffix hpoints]
  exact hleast.1

/-! ## The results -/

/-- What `truncateHead` returns: the most first lines that fit. -/
structure HeadExact (content : Utf16) (maxLines maxBytes : Nat) (result : TruncationResult) :
    Prop where
  most : IsGreatest (FitsHead (splitLinesForCounting content) maxLines maxBytes)
    result.outputLines
  kept : result.content =
    if result.truncated then joinLines ((splitLinesForCounting content).take result.outputLines)
    else content
  unchanged : result.truncated = false ↔ result.content = content
  bytes : result.outputBytes = utf8Length result.content

/-- What `truncateTail` returns: the most last lines that fit, or the end of the last one. -/
structure TailExact (content : Utf16) (maxLines maxBytes : Nat) (result : TruncationResult) :
    Prop where
  most : (∀ last ∈ (splitLinesForCounting content).getLast?, utf8Length last ≤ maxBytes) →
    IsGreatest (FitsTail (splitLinesForCounting content) maxLines maxBytes) result.outputLines ∧
      result.content =
        (if result.truncated then
          joinLines ((splitLinesForCounting content).rtake result.outputLines)
        else content) ∧
      result.lastLinePartial = false
  cut : ∀ last ∈ (splitLinesForCounting content).getLast?, maxBytes < utf8Length last →
    LongestEnd last maxBytes result.content ∧ result.outputLines = 1 ∧
      result.lastLinePartial = true ∧ result.truncatedBy = some .bytes
  unchanged : result.truncated = false ↔ result.content = content
  bytes : result.outputBytes = utf8Length result.content

/-- The last line is too long by itself, and there is no line left for it, or only one of several. -/
def CutMeetsLineLimit (content : Utf16) (maxLines maxBytes : Nat) : Prop :=
  ∃ last ∈ (splitLinesForCounting content).getLast?, maxBytes < utf8Length last ∧
    (maxLines = 0 ∨ (maxLines = 1 ∧ 1 < (splitLinesForCounting content).length))

theorem joinedBytes_splitLinesForCounting_le (content : Utf16) :
    joinedBytes (splitLinesForCounting content) ≤ utf8Length content := by
  by_cases hempty : content = []
  · simp [hempty, splitLinesForCounting]
  · have hsplit := joinLines_splitLinesForCounting hempty
    by_cases hends : content.getLast? = some newline
    · rw [if_pos hends] at hsplit
      conv_rhs => rw [hsplit, utf8Length_append_newline, utf8Length_joinLines]
      omega
    · rw [if_neg hends, List.append_nil] at hsplit
      conv_rhs => rw [hsplit, utf8Length_joinLines]

theorem withinLimits_eq_true :
    withinLimits (resolveTruncationInput runtimeBuffer content options) = true ↔
      (splitLinesForCounting content).length ≤ options.maxLines.getD defaultMaxLines ∧
        utf8Length content ≤ options.maxBytes.getD defaultMaxBytes := by
  simp [withinLimits, resolveTruncationInput, utf8ByteLength_eq]

theorem joinLines_ne (hsplit : splitLinesForCounting content = front ++ back ∨
      splitLinesForCounting content = back ++ front)
    (hover : ¬ ((splitLinesForCounting content).length ≤ maxLines ∧ utf8Length content ≤ maxBytes))
    (hlines : front.length ≤ maxLines) (hbytes : utf8Length (joinLines front) ≤ maxBytes) :
    joinLines front ≠ content := by
  intro heq
  have hlength : maxLines < (splitLinesForCounting content).length := by
    by_contra hle
    exact hover ⟨Nat.le_of_not_lt hle, heq ▸ hbytes⟩
  have hback : back ≠ [] := by
    intro hnil
    rcases hsplit with hsplit | hsplit
    · simp [hsplit, hnil] at hlength
      omega
    · simp [hsplit, hnil] at hlength
      omega
  by_cases hfront : front = []
  · rw [hfront] at heq
    rw [← heq] at hlength
    simp [joinLines, splitLinesForCounting] at hlength
  · have htotal := joinedBytes_splitLinesForCounting_le content
    have hjoined : joinedBytes (splitLinesForCounting content) =
        joinedBytes front + joinedBytes back + 1 := by
      rcases hsplit with hsplit | hsplit
      · rw [hsplit, joinedBytes_append, if_pos ⟨hfront, hback⟩]
      · rw [hsplit, joinedBytes_append, if_pos ⟨hback, hfront⟩]
        omega
    have hwhole := congrArg utf8Length heq
    rw [utf8Length_joinLines] at hwhole
    omega

theorem unchanged_exact (hlines : lines.length ≤ maxLines) (hbytes : joinedBytes lines ≤ maxBytes) :
    IsGreatest (FitsHead lines maxLines maxBytes) lines.length ∧
      IsGreatest (FitsTail lines maxLines maxBytes) lines.length := by
  constructor
  · refine isGreatest_fitsHead ⟨le_rfl, hlines, ?_⟩ (.inl rfl)
    rw [List.take_length, utf8Length_joinLines]
    exact hbytes
  · refine isGreatest_fitsTail ⟨le_rfl, hlines, ?_⟩ (.inl rfl)
    rw [List.rtake, Nat.sub_self, List.drop_zero, utf8Length_joinLines]
    exact hbytes

section

variable (hover : ¬ withinLimits (resolveTruncationInput runtimeBuffer content options) = true)
include hover

theorem keptResult_head
    (htake : kept.outputLinesArr = (splitLinesForCounting content).take kept.outputLinesArr.length)
    (hmost : IsGreatest (FitsHead (splitLinesForCounting content)
      (options.maxLines.getD defaultMaxLines) (options.maxBytes.getD defaultMaxBytes))
        kept.outputLinesArr.length) : HeadExact content (options.maxLines.getD defaultMaxLines)
      (options.maxBytes.getD defaultMaxBytes)
      (keptResult runtimeBuffer (resolveTruncationInput runtimeBuffer content options) kept) := by
  refine ⟨hmost, congrArg joinLines htake, iff_of_false Bool.noConfusion ?_,
    utf8ByteLength_eq _ _⟩
  obtain ⟨hlength, hlines, hbytes⟩ := hmost.1
  have hsplit : splitLinesForCounting content = kept.outputLinesArr ++
      (splitLinesForCounting content).drop kept.outputLinesArr.length := by
    conv_rhs => rw [htake, List.length_take, min_eq_left hlength]
    exact (List.take_append_drop _ _).symm
  rw [← htake] at hbytes
  exact joinLines_ne (.inl hsplit) (mt withinLimits_eq_true.2 hover) hlines hbytes

theorem keptResult_tail (htake : kept.outputLinesArr =
      (splitLinesForCounting content).rtake kept.outputLinesArr.length)
    (hmost : IsGreatest (FitsTail (splitLinesForCounting content)
      (options.maxLines.getD defaultMaxLines) (options.maxBytes.getD defaultMaxBytes))
        kept.outputLinesArr.length) : joinLines kept.outputLinesArr ≠ content := by
  obtain ⟨hlength, hlines, hbytes⟩ := hmost.1
  have hsplit : splitLinesForCounting content =
      (splitLinesForCounting content).take
        ((splitLinesForCounting content).length - kept.outputLinesArr.length) ++
          kept.outputLinesArr := by
    conv_rhs => rw [htake]
    simp only [List.rtake, List.length_drop]
    rw [Nat.sub_sub_self hlength]
    exact (List.take_append_drop _ _).symm
  rw [← htake] at hbytes
  exact joinLines_ne (.inr hsplit) (mt withinLimits_eq_true.2 hover) hlines hbytes

end

/-- **`truncateHead` is exact**, for all limits. -/
theorem truncateHead_exact (runtimeBuffer : Bool) (content : Utf16) (options : TruncationOptions) :
    HeadExact content (options.maxLines.getD defaultMaxLines)
      (options.maxBytes.getD defaultMaxBytes) (truncateHead runtimeBuffer content options) := by
  unfold truncateHead
  by_cases hwithin : withinLimits (resolveTruncationInput runtimeBuffer content options) = true
  · rw [if_pos hwithin]
    obtain ⟨hlines, hbytes⟩ := withinLimits_eq_true.1 hwithin
    have hjoined := (joinedBytes_splitLinesForCounting_le content).trans hbytes
    exact ⟨(unchanged_exact hlines hjoined).1, rfl, iff_of_true rfl rfl, utf8ByteLength_eq _ _⟩
  · rw [if_neg hwithin]
    have hover := mt withinLimits_eq_true.2 hwithin
    by_cases hfirst : (resolveTruncationInput runtimeBuffer content options).maxBytes <
        utf8ByteLength runtimeBuffer
          ((resolveTruncationInput runtimeBuffer content options).lines.headD [])
    · rw [if_pos hfirst]
      rw [utf8ByteLength_eq] at hfirst
      have hnone : joinLines [] ≠ content :=
        joinLines_ne (.inl rfl) hover (Nat.zero_le _) (Nat.zero_le _)
      refine ⟨isGreatest_fitsHead ⟨Nat.zero_le _, Nat.zero_le _, Nat.zero_le _⟩ (.inr (.inr ?_)),
        rfl, iff_of_false Bool.noConfusion hnone, rfl⟩
      replace hfirst : options.maxBytes.getD defaultMaxBytes <
        utf8Length ((splitLinesForCounting content).headD []) := hfirst
      cases hlines : splitLinesForCounting content with
      | nil =>
        rw [hlines] at hfirst
        exact absurd hfirst (Nat.not_lt_zero _)
      | cons line lines =>
        rw [hlines] at hfirst
        simpa using hfirst
    · rw [if_neg hfirst]
      obtain ⟨htake, hmost⟩ := headLoop_start runtimeBuffer (splitLinesForCounting content)
        (options.maxLines.getD defaultMaxLines) (options.maxBytes.getD defaultMaxBytes)
        (initialTruncatedBy (resolveTruncationInput runtimeBuffer content options))
      exact keptResult_head hwithin htake hmost

variable {last : Utf16}

theorem tailLoop_cut (runtimeBuffer : Bool) (truncatedBy : TruncatedBy)
    (hlast : lines.getLast? = some last) (hlong : maxBytes < utf8Length last)
    (hroom : 0 < maxLines) :
    tailLoop runtimeBuffer maxLines maxBytes lines.reverse { truncatedBy } =
      { outputLinesArr := [truncateStringToBytesFromEnd last maxBytes]
        outputBytesCount := utf8Length (truncateStringToBytesFromEnd last maxBytes)
        truncatedBy := .bytes
        lastLinePartial := true } := by
  obtain ⟨front, rfl⟩ := List.getLast?_eq_some_iff.1 hlast
  simp [tailLoop, lineBytes, utf8ByteLength_eq, hroom, hlong]

theorem utf8Length_last_le (hlast : (splitLinesForCounting content).getLast? = some last) :
    utf8Length last ≤ utf8Length content := by
  obtain ⟨front, hfront⟩ := List.getLast?_eq_some_iff.1 hlast
  have hsuffix : [last] <:+ splitLinesForCounting content := ⟨front, hfront.symm⟩
  have hjoined := joinedBytes_suffix_le hsuffix
  exact hjoined.trans (joinedBytes_splitLinesForCounting_le content)

theorem finalTruncatedBy_cut {input : ResolvedTruncationInput} {cutLine : Utf16}
    (hbytes : utf8Length cutLine ≤ input.maxBytes) :
    finalTruncatedBy input
        { outputLinesArr := [cutLine], outputBytesCount := utf8Length cutLine
          truncatedBy := .bytes, lastLinePartial := true } =
      if input.maxLines < input.totalLines ∧ input.maxLines ≤ 1 then .lines else .bytes := by
  simp [finalTruncatedBy, hbytes]

theorem keptResult_cut (hlast : (splitLinesForCounting content).getLast? = some last)
    (hlong : options.maxBytes.getD defaultMaxBytes < utf8Length last) :
    let input := resolveTruncationInput runtimeBuffer content options
    TailExact content input.maxLines input.maxBytes (keptResult runtimeBuffer input
        (tailLoop runtimeBuffer input.maxLines input.maxBytes input.lines.reverse
          { truncatedBy := initialTruncatedBy input })) ↔
      ¬ CutMeetsLineLimit content input.maxLines input.maxBytes := by
  intro input
  have hmeets : CutMeetsLineLimit content input.maxLines input.maxBytes ↔
      (input.maxLines = 0 ∨ (input.maxLines = 1 ∧ 1 < input.totalLines)) := by
    refine ⟨?_, fun hlimit => ⟨last, hlast, hlong, hlimit⟩⟩
    rintro ⟨last', hlast', _, hlimit⟩
    exact hlimit
  rw [hmeets]
  by_cases hroom : 0 < input.maxLines
  · have hend := truncateStringToBytesFromEnd_spec last input.maxBytes
    have hbytes := longestEnd_bytes hend
    have hkept := tailLoop_cut runtimeBuffer (initialTruncatedBy input)
      (show input.lines.getLast? = some last from hlast)
      (show input.maxBytes < utf8Length last from hlong) hroom
    rw [hkept]
    have hne : truncateStringToBytesFromEnd last input.maxBytes ≠ content := by
      intro heq
      have hle := utf8Length_last_le hlast
      rw [heq] at hbytes
      replace hlong : input.maxBytes < utf8Length last := hlong
      omega
    generalize truncateStringToBytesFromEnd last input.maxBytes = cutLine at *
    have hcontent : joinLines [cutLine] = cutLine := List.intercalate_singleton
    have hby := finalTruncatedBy_cut hbytes
    constructor
    · intro hexact hlimit
      have hbytesLimit := (hexact.cut last hlast hlong).2.2.2
      rw [if_pos (by omega)] at hby
      cases hby.symm.trans (Option.some.inj hbytesLimit)
    · intro hlimit
      rw [if_neg (by omega)] at hby
      refine ⟨fun hshort => absurd (hshort last hlast) (Nat.not_le_of_lt hlong), ?_, ?_,
        utf8ByteLength_eq _ _⟩
      · intro last' hlast' _
        rw [Option.mem_def, hlast, Option.some_inj] at hlast'
        subst hlast'
        refine ⟨?_, rfl, rfl, congrArg some hby⟩
        show LongestEnd last input.maxBytes (joinLines [cutLine])
        rw [hcontent]
        exact hend
      · refine iff_of_false Bool.noConfusion ?_
        show joinLines [cutLine] ≠ content
        rw [hcontent]
        exact hne
  · have hzero : input.maxLines = 0 := by omega
    refine iff_of_false ?_ (by simp [hzero])
    intro hexact
    have hpartial := (hexact.cut last hlast hlong).2.2.1
    obtain ⟨front, hfront⟩ := List.getLast?_eq_some_iff.1 hlast
    have hlines : input.lines = front ++ [last] := hfront
    simp [keptResult, hlines, tailLoop, hzero] at hpartial

/-- **`truncateTail` is exact**, unless the end of a line is kept where the line limit is met. -/
theorem truncateTail_exact_iff (runtimeBuffer : Bool) (content : Utf16)
    (options : TruncationOptions) :
    TailExact content (options.maxLines.getD defaultMaxLines)
        (options.maxBytes.getD defaultMaxBytes) (truncateTail runtimeBuffer content options) ↔
      ¬ CutMeetsLineLimit content (options.maxLines.getD defaultMaxLines)
        (options.maxBytes.getD defaultMaxBytes) := by
  unfold truncateTail
  by_cases hwithin : withinLimits (resolveTruncationInput runtimeBuffer content options) = true
  · rw [if_pos hwithin]
    obtain ⟨hlength, hbytes⟩ := withinLimits_eq_true.1 hwithin
    have hjoined := (joinedBytes_splitLinesForCounting_le content).trans hbytes
    have hfits : ∀ last ∈ (splitLinesForCounting content).getLast?,
        ¬ options.maxBytes.getD defaultMaxBytes < utf8Length last := by
      intro last hlast
      have hle := utf8Length_last_le hlast
      omega
    refine iff_of_true ⟨fun _ => ⟨(unchanged_exact hlength hjoined).2, rfl, rfl⟩,
      fun last hlast hlong => absurd hlong (hfits last hlast), iff_of_true rfl rfl,
      utf8ByteLength_eq _ _⟩ ?_
    intro hcut
    obtain ⟨last, hlast, hlong, _⟩ := hcut
    exact hfits last hlast hlong
  · rw [if_neg hwithin]
    by_cases hshort : ∀ last ∈ (splitLinesForCounting content).getLast?,
        utf8Length last ≤ options.maxBytes.getD defaultMaxBytes
    · obtain ⟨htake, hmost, hwhole⟩ := tailLoop_start runtimeBuffer
        (options.maxLines.getD defaultMaxLines)
        (initialTruncatedBy (resolveTruncationInput runtimeBuffer content options)) hshort
      have hne := keptResult_tail hwithin htake hmost
      refine iff_of_true ⟨fun _ => ⟨hmost, congrArg joinLines htake, hwhole⟩,
        fun last hlast hlong => absurd (hshort last hlast) (Nat.not_le_of_lt hlong),
        iff_of_false Bool.noConfusion hne, utf8ByteLength_eq _ _⟩ ?_
      intro hcut
      obtain ⟨last, hlast, hlong, _⟩ := hcut
      exact absurd (hshort last hlast) (Nat.not_le_of_lt hlong)
    · push Not at hshort
      obtain ⟨last, hlast, hlong⟩ := hshort
      exact keptResult_cut hlast hlong

/-- **Truncation is exact and maximal** exactly where the end of a last line that is too long does
not meet the line limit. -/
theorem truncation_exact_iff (runtimeBuffer : Bool) (content : Utf16)
    (options : TruncationOptions) :
    ((∀ text, utf8ByteLength runtimeBuffer text = utf8Length text) ∧
      HeadExact content (options.maxLines.getD defaultMaxLines)
        (options.maxBytes.getD defaultMaxBytes) (truncateHead runtimeBuffer content options) ∧
      TailExact content (options.maxLines.getD defaultMaxLines)
        (options.maxBytes.getD defaultMaxBytes) (truncateTail runtimeBuffer content options)) ↔
      ¬ CutMeetsLineLimit content (options.maxLines.getD defaultMaxLines)
        (options.maxBytes.getD defaultMaxBytes) := by
  rw [← truncateTail_exact_iff runtimeBuffer content options]
  exact ⟨fun h => h.2.2, fun h =>
    ⟨utf8ByteLength_eq runtimeBuffer, truncateHead_exact runtimeBuffer content options, h⟩⟩

/-- Of the lines `a` and `bb` one line of one byte is kept: the end of the second one, and the
limit that is reported is that of lines. -/
theorem cut_line_reported_as_lines :
    ¬ ∀ (runtimeBuffer : Bool) (content : Utf16) (options : TruncationOptions),
      TailExact content (options.maxLines.getD defaultMaxLines)
        (options.maxBytes.getD defaultMaxBytes) (truncateTail runtimeBuffer content options) := by
  intro hall
  have hcut := (hall false [0x61, 0x0A, 0x62, 0x62] { maxLines := some 1, maxBytes := some 1 }).cut
    [0x62, 0x62] (by decide) (by decide)
  exact absurd hcut.2.2.2 (by decide)

end OpenClaw.Harness.Truncate
