import OpenClaw.Exec.CommandAnalysis
import OpenClaw.Lib.PosixWords

/-!
# Rendering an authorized command

`applyReplacements`, `validateSpan` and the quoting of `infra/exec-authorization-render.ts`. The
spans of the replacements are validated one by one when they are collected; `applyReplacements`
checks only that they do not overlap.

**Main results.** Validated spans are replaced if and only if they are disjoint, in whatever order
they are listed, and nothing else changes; an argv that is rendered is split to the same argv by the
quoting rules of the shell (`authorizedRender_spec`).
-/

namespace OpenClaw.Exec

open Js PosixWords

/-! ## Tokens -/

/-- `SHELL_BARE_TOKEN_PATTERN`, for one code unit. -/
def isShellBareUnit (u : Nat) : Bool :=
  isAlphanum u || u ∈ [0x5F, 0x40, 0x25, 0x2B, 0x3D, 0x3A, 0x2C, 0x2E, 0x2F, 0x2D]

def shellEscapeSingleArg (value : Str) : Str := singleQuoted value

def renderBareShellToken (value : Str) : Str :=
  if 0 < value.length && value.all isShellBareUnit then value else shellEscapeSingleArg value

def renderSourcePreservingArgv (argv : List Str) : Str :=
  [0x20].intercalate (argv.map renderBareShellToken)

/-! ## Replacements -/

structure SourceReplacement where
  startIndex : Nat
  endIndex : Nat
  text : Str
  deriving DecidableEq

/-- `slice(start, end)`, for offsets that are not negative. -/
def sliceUnits (s : Str) (start stop : Nat) : Str := (s.take stop).drop start

/-- Offsets are integers and not negative here, so those two checks are left out. -/
def validateSpan (command : Str) (span : SourceSpan) (expectedText : Str) : Except String Unit :=
  if command.length < span.endIndex || span.endIndex ≤ span.startIndex then
    .error "invalid source span"
  else if sliceUnits command span.startIndex span.endIndex ≠ expectedText then
    .error "source span mismatch"
  else .ok ()

/-- The first loop of `applyReplacements`. -/
def overlaps : Nat → List SourceReplacement → Bool
  | _, [] => false
  | previousEnd, replacement :: rest =>
    replacement.startIndex < previousEnd || overlaps replacement.endIndex rest

def replaceSpan (command : Str) (replacement : SourceReplacement) : Str :=
  command.take replacement.startIndex ++ replacement.text ++ command.drop replacement.endIndex

def sortedReplacements (replacements : List SourceReplacement) : List SourceReplacement :=
  replacements.mergeSort fun left right => decide (left.startIndex ≤ right.startIndex)

/-- No start is negative, so the first `previousEnd`, which is -1, may as well be 0. -/
def applyReplacements (command : Str) (replacements : List SourceReplacement) :
    Except String Str :=
  let sorted := sortedReplacements replacements
  if overlaps 0 sorted then .error "overlapping replacement ranges"
  else .ok (sorted.reverse.foldl replaceSpan command)

/-! ## The argv -/

theorem isOrdinary_of_bare {u : Nat} (h : isShellBareUnit u = true) : isOrdinary u = true := by
  simp only [isShellBareUnit, isAlphanum, isDigit, isUpper, isLower, List.mem_cons,
    List.not_mem_nil, or_false, Bool.or_eq_true, Bool.and_eq_true, decide_eq_true_eq] at h
  simp only [isOrdinary, isBlank, isSpecial, List.mem_cons, List.not_mem_nil, or_false,
    Bool.and_eq_true, Bool.not_eq_true', decide_eq_true_eq, decide_eq_false_iff_not]
  omega

theorem splitWords_renderBareShellToken (value rest : Str) :
    splitWords .plain none (renderBareShellToken value ++ rest) =
      splitWords .plain (some value) rest := by
  rw [renderBareShellToken]
  by_cases hbare : (0 < value.length && value.all isShellBareUnit) = true
  · rw [if_pos hbare]
    rw [Bool.and_eq_true, decide_eq_true_eq, List.length_pos_iff] at hbare
    apply splitWords_bare hbare.1
    rw [List.all_eq_true]
    intro u hu
    exact isOrdinary_of_bare (List.all_eq_true.1 hbare.2 u hu)
  · rw [if_neg hbare]
    exact splitWords_singleQuoted value rest

theorem words_renderSourcePreservingArgv (argv : List Str) :
    words (renderSourcePreservingArgv argv) = some argv :=
  words_intercalate splitWords_renderBareShellToken argv

/-! ## Disjoint spans -/

/-- What `validateSpan` accepts. -/
def SourceReplacement.Valid (command : Str) (r : SourceReplacement) : Prop :=
  ∃ expectedText, validateSpan command ⟨r.startIndex, r.endIndex⟩ expectedText = .ok ()

def SourceReplacement.Disjoint (a b : SourceReplacement) : Prop :=
  a.endIndex ≤ b.startIndex ∨ b.endIndex ≤ a.startIndex

/-- The command with the spans replaced: `gap` is what is kept before the first of them, and
`offset` is where the command begins. -/
inductive Replaced : Nat → Str → List SourceReplacement → Str → Prop
  | done {offset : Nat} {command : Str} : Replaced offset command [] command
  | span {offset : Nat} {gap old command result : Str} {r : SourceReplacement}
      {rs : List SourceReplacement} (hgap : offset + gap.length = r.startIndex)
      (hold : r.startIndex + old.length = r.endIndex) (h : Replaced r.endIndex command rs result) :
      Replaced offset (gap ++ (old ++ command)) (r :: rs) (gap ++ (r.text ++ result))

variable {command : Str} {rs : List SourceReplacement}

theorem SourceReplacement.valid_iff {r : SourceReplacement} :
    r.Valid command ↔ r.startIndex < r.endIndex ∧ r.endIndex ≤ command.length := by
  unfold SourceReplacement.Valid validateSpan
  constructor
  · rintro ⟨expectedText, h⟩
    split at h
    · cases h
    · rename_i hrange
      simp only [Bool.or_eq_true, decide_eq_true_eq, not_or, Nat.not_lt, Nat.not_le] at hrange
      exact ⟨hrange.2, hrange.1⟩
  · rintro ⟨hlt, hle⟩
    refine ⟨sliceUnits command r.startIndex r.endIndex, ?_⟩
    rw [if_neg (by simp; omega), if_neg (by simp)]

theorem SourceReplacement.Disjoint.symm {a b : SourceReplacement} (h : a.Disjoint b) :
    b.Disjoint a := Or.symm h

theorem overlaps_eq_false_iff {previousEnd : Nat} (hvalid : ∀ r ∈ rs, r.startIndex < r.endIndex) :
    overlaps previousEnd rs = false ↔
      (∀ r ∈ rs, previousEnd ≤ r.startIndex) ∧ rs.Pairwise fun a b => a.endIndex ≤ b.startIndex := by
  induction rs generalizing previousEnd with
  | nil => simp [overlaps]
  | cons r rs ih =>
    rw [List.forall_mem_cons] at hvalid
    rw [overlaps, Bool.or_eq_false_iff, decide_eq_false_iff_not, Nat.not_lt, ih hvalid.2,
      List.forall_mem_cons, List.pairwise_cons]
    constructor
    · rintro ⟨hstart, hbehind, hpairwise⟩
      refine ⟨⟨hstart, ?_⟩, hbehind, hpairwise⟩
      intro s hs
      have hafter := hbehind s hs
      omega
    · rintro ⟨⟨hstart, -⟩, hbehind, hpairwise⟩
      exact ⟨hstart, hbehind, hpairwise⟩

theorem sortedReplacements_perm (rs : List SourceReplacement) : (sortedReplacements rs).Perm rs :=
  List.mergeSort_perm rs _

theorem sortedReplacements_ordered (rs : List SourceReplacement) :
    (sortedReplacements rs).Pairwise fun a b => a.startIndex ≤ b.startIndex := by
  have h : (sortedReplacements rs).Pairwise fun a b =>
      decide (a.startIndex ≤ b.startIndex) = true := by
    apply List.pairwise_mergeSort
    · intro a b c hab hbc
      rw [decide_eq_true_eq] at hab hbc ⊢
      omega
    · intro a b
      rw [Bool.or_eq_true, decide_eq_true_eq, decide_eq_true_eq]
      omega
  exact h.imp fun hle => of_decide_eq_true hle

theorem sortedReplacements_apart_iff (hvalid : ∀ r ∈ rs, r.startIndex < r.endIndex) :
    (sortedReplacements rs).Pairwise (fun a b => a.endIndex ≤ b.startIndex) ↔
      rs.Pairwise SourceReplacement.Disjoint := by
  have hperm := (sortedReplacements_perm rs).pairwise_iff
    (R := SourceReplacement.Disjoint) SourceReplacement.Disjoint.symm
  rw [← hperm]
  have hvalid' : ∀ r ∈ sortedReplacements rs, r.startIndex < r.endIndex := by
    intro r hr
    exact hvalid r ((sortedReplacements_perm rs).mem_iff.1 hr)
  constructor
  · intro h
    exact h.imp fun hab => .inl hab
  · intro h
    apply List.Pairwise.imp_of_mem _ (h.and (sortedReplacements_ordered rs))
    rintro a b ha hb ⟨hdisjoint, hle⟩
    rcases hdisjoint with hab | hba
    · exact hab
    · have hlt := hvalid' b hb
      omega

/-! ## The replaced command -/

theorem replaced_foldr {offset : Nat} {front : Str} (hfront : front.length = offset)
    (hstart : ∀ r ∈ rs, offset ≤ r.startIndex)
    (happart : rs.Pairwise fun a b => a.endIndex ≤ b.startIndex)
    (hvalid : ∀ r ∈ rs, r.startIndex < r.endIndex ∧ r.endIndex ≤ (front ++ command).length) :
    ∃ result, rs.foldr (fun r command => replaceSpan command r) (front ++ command) =
      front ++ result ∧ Replaced offset command rs result := by
  induction rs generalizing offset front command with
  | nil => exact ⟨command, rfl, .done⟩
  | cons r rs ih =>
    rw [List.forall_mem_cons] at hstart hvalid
    rw [List.pairwise_cons] at happart
    obtain ⟨⟨hlt, hle⟩, hvalid'⟩ := hvalid
    rw [List.length_append] at hle
    -- the command is what is kept before the span, the span and the rest
    obtain ⟨gap, old, rest, rfl, hgap, hold⟩ : ∃ gap old rest, command = gap ++ (old ++ rest) ∧
        offset + gap.length = r.startIndex ∧ r.startIndex + old.length = r.endIndex := by
      refine ⟨command.take (r.startIndex - offset), (command.drop (r.startIndex - offset)).take
        (r.endIndex - r.startIndex), (command.drop (r.startIndex - offset)).drop
          (r.endIndex - r.startIndex), ?_, ?_, ?_⟩
      · rw [List.take_append_drop, List.take_append_drop]
      · rw [List.length_take]
        omega
      · rw [List.length_take, List.length_drop]
        omega
    have hbefore : (front ++ (gap ++ old)).length = r.endIndex := by
      rw [List.length_append, List.length_append]
      omega
    have hsplit : front ++ (gap ++ (old ++ rest)) = front ++ (gap ++ old) ++ rest := by
      simp only [List.append_assoc]
    rw [hsplit] at hvalid'
    obtain ⟨result, hfold, hreplaced⟩ := ih hbefore happart.1 happart.2 hvalid'
    refine ⟨gap ++ (r.text ++ result), ?_, .span hgap hold hreplaced⟩
    have htake : (front ++ (gap ++ old) ++ result).take r.startIndex = front ++ gap := by
      rw [show front ++ (gap ++ old) ++ result = front ++ gap ++ (old ++ result) by
        simp only [List.append_assoc]]
      apply List.take_left'
      rw [List.length_append]
      omega
    have hdrop : (front ++ (gap ++ old) ++ result).drop r.endIndex = result :=
      List.drop_left' hbefore
    rw [List.foldr_cons, hsplit, hfold, replaceSpan, htake, hdrop]
    simp only [List.append_assoc]

section

variable (hvalid : ∀ r ∈ rs, r.Valid command)
include hvalid

theorem applyReplacements_error (h : ¬ rs.Pairwise SourceReplacement.Disjoint) :
    applyReplacements command rs = .error "overlapping replacement ranges" := by
  have hlt : ∀ r ∈ rs, r.startIndex < r.endIndex := fun r hr =>
    (SourceReplacement.valid_iff.1 (hvalid r hr)).1
  rw [← sortedReplacements_apart_iff hlt] at h
  unfold applyReplacements
  rw [if_pos]
  rw [← Bool.not_eq_false, overlaps_eq_false_iff]
  · intro hno
    exact h hno.2
  · intro r hr
    exact hlt r ((sortedReplacements_perm rs).mem_iff.1 hr)

theorem applyReplacements_ok (h : rs.Pairwise SourceReplacement.Disjoint) :
    ∃ result, applyReplacements command rs = .ok result ∧
      Replaced 0 command (sortedReplacements rs) result := by
  have hvalid' : ∀ r ∈ sortedReplacements rs, r.startIndex < r.endIndex ∧
      r.endIndex ≤ ([] ++ command).length := by
    intro r hr
    exact SourceReplacement.valid_iff.1 (hvalid r ((sortedReplacements_perm rs).mem_iff.1 hr))
  rw [← sortedReplacements_apart_iff fun r hr =>
    (SourceReplacement.valid_iff.1 (hvalid r hr)).1] at h
  obtain ⟨result, hfold, hreplaced⟩ := replaced_foldr rfl (fun _ _ => Nat.zero_le _) h hvalid'
  refine ⟨result, ?_, hreplaced⟩
  unfold applyReplacements
  rw [if_neg, List.foldl_reverse]
  · rw [List.nil_append, List.nil_append] at hfold
    rw [hfold]
  · rw [Bool.not_eq_true, overlaps_eq_false_iff fun r hr => (hvalid' r hr).1]
    exact ⟨fun _ _ => Nat.zero_le _, h⟩

theorem applyReplacements_perm {rs' : List SourceReplacement} (hperm : rs.Perm rs') :
    applyReplacements command rs = applyReplacements command rs' := by
  have hvalid' : ∀ r ∈ rs', r.Valid command := fun r hr => hvalid r (hperm.mem_iff.2 hr)
  have hlt : ∀ r ∈ rs, r.startIndex < r.endIndex := fun r hr =>
    (SourceReplacement.valid_iff.1 (hvalid r hr)).1
  have hlt' : ∀ r ∈ rs', r.startIndex < r.endIndex := fun r hr =>
    (SourceReplacement.valid_iff.1 (hvalid' r hr)).1
  have hdisjoint : rs.Pairwise SourceReplacement.Disjoint ↔
      rs'.Pairwise SourceReplacement.Disjoint := hperm.pairwise_iff fun h => h.symm
  by_cases h : rs.Pairwise SourceReplacement.Disjoint
  · have hsorted : sortedReplacements rs = sortedReplacements rs' := by
      apply List.Perm.eq_of_pairwise _ ((sortedReplacements_apart_iff hlt).2 h)
        ((sortedReplacements_apart_iff hlt').2 (hdisjoint.1 h))
        (((sortedReplacements_perm rs).trans hperm).trans (sortedReplacements_perm rs').symm)
      intro a b ha _ hab hba
      have ha' := hlt a ((sortedReplacements_perm rs).mem_iff.1 ha)
      have hb' : b.startIndex < b.endIndex := by
        apply hlt'
        exact (sortedReplacements_perm rs').mem_iff.1 ‹_›
      omega
    rw [applyReplacements, applyReplacements, hsorted]
  · rw [applyReplacements_error hvalid h,
      applyReplacements_error hvalid' fun h' => h (hdisjoint.2 h')]

end

/-- Validated spans are replaced exactly when they are disjoint, in any order and with nothing else
changed, and a rendered argv is split to itself. -/
theorem authorizedRender_spec :
    (∀ (command : Str) (rs : List SourceReplacement), (∀ r ∈ rs, r.Valid command) →
      ((∃ result, applyReplacements command rs = .ok result) ↔
        rs.Pairwise SourceReplacement.Disjoint) ∧
      (∀ rs' : List SourceReplacement, rs.Perm rs' →
        applyReplacements command rs = applyReplacements command rs') ∧
      ∀ result, applyReplacements command rs = .ok result →
        ∃ sorted : List SourceReplacement, sorted.Perm rs ∧ Replaced 0 command sorted result) ∧
    ∀ argv : List Str, words (renderSourcePreservingArgv argv) = some argv := by
  refine ⟨?_, words_renderSourcePreservingArgv⟩
  intro command rs hvalid
  have hok : ∀ result, applyReplacements command rs = .ok result →
      rs.Pairwise SourceReplacement.Disjoint := by
    intro result hresult
    by_contra h
    rw [applyReplacements_error hvalid h] at hresult
    cases hresult
  refine ⟨⟨?_, ?_⟩, fun rs' => applyReplacements_perm hvalid, ?_⟩
  · rintro ⟨result, hresult⟩
    exact hok result hresult
  · intro h
    obtain ⟨result, hresult, -⟩ := applyReplacements_ok hvalid h
    exact ⟨result, hresult⟩
  · intro result hresult
    obtain ⟨result', hresult', hreplaced⟩ := applyReplacements_ok hvalid (hok result hresult)
    rw [hresult, Except.ok.injEq] at hresult'
    rw [hresult']
    exact ⟨_, sortedReplacements_perm rs, hreplaced⟩

/-- A span that reaches beyond the command is replaced all the same. -/
theorem span_beyond_command :
    ¬ ∀ (command : Str) (rs : List SourceReplacement),
      (∃ result, applyReplacements command rs = .ok result) ↔
        (∀ r ∈ rs, r.startIndex ≤ r.endIndex ∧ r.endIndex ≤ command.length) ∧
          rs.Pairwise SourceReplacement.Disjoint := by
  intro h
  have hok : applyReplacements (units "ls") [⟨0, 9, units "id"⟩] = .ok (units "id") := by
    decide +kernel
  obtain ⟨hrange, -⟩ := (h (units "ls") [⟨0, 9, units "id"⟩]).1 ⟨_, hok⟩
  have hlength : (units "ls").length = 2 := by decide +kernel
  have hend : 9 ≤ (units "ls").length := (hrange _ List.mem_cons_self).2
  omega

end OpenClaw.Exec
