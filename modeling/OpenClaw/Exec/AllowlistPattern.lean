import OpenClaw.Lib.RegExp

/-!
# `infra/exec-allowlist-pattern.ts`

A pattern is translated, character by character, into a regular expression between the anchors. The
cache of the expressions is not modelled: they are read from the platform and the pattern alone,
which are its key.

**Main results.** The expression accepts what `*`, `**` and `?` mean (`test_compileGlobRegex`), and
what a pattern accepts lies under the directory before its first wildcard
(`matchesExecAllowlistPattern_spec`).
-/

namespace OpenClaw.Exec

open Js RegExp

/-! ## The platform -/

inductive NodePlatform
  | win32 | darwin | other
  deriving DecidableEq

structure PatternHost where
  /-- `process.platform`. -/
  platform : NodePlatform
  /-- `String.prototype.toLowerCase`. -/
  toLowerCase : Str → Str
  /-- What the flag `i` compares instead of a code unit. -/
  canonicalize : Nat → Nat
  /-- `path.win32.normalize` on Windows, and else `path.posix.normalize`. -/
  normalizePath : Str → Str
  tryRealpath : Str → Option Str
  expandHomePrefix : Str → Str

variable (host : PatternHost)

/-- `new RegExp(regex, process.platform === "win32" ? "i" : "")`. -/
def PatternHost.canon : Nat → Nat := if host.platform = .win32 then host.canonicalize else id

/-! ## Targets -/

/-- `value.replace(/^\\\\[?.]\\/, "")`. -/
def stripDevicePrefix : Str → Str
  | 0x5C :: 0x5C :: 0x3F :: 0x5C :: rest => rest
  | 0x5C :: 0x5C :: 0x2E :: 0x5C :: rest => rest
  | value => value

/-- `replace(/\\/g, "/")`. -/
def forwardSlashes (value : Str) : Str := value.map fun u => if u = 0x5C then 0x2F else u

/-- `replace(/\\\\/g, "/")`: a slash for two backslashes. -/
def forwardDoubleSlashes : Str → Str
  | 0x5C :: 0x5C :: rest => 0x2F :: forwardDoubleSlashes rest
  | u :: rest => u :: forwardDoubleSlashes rest
  | [] => []

def normalizeMatchTarget (value : Str) : Str :=
  match host.platform with
  | .win32 => host.toLowerCase (Js.trim (forwardSlashes (stripDevicePrefix value)))
  | .darwin =>
    let normalized := forwardDoubleSlashes value
    if normalized = units "/private/var" then units "/var"
    else if (units "/private/var/").isPrefixOf normalized then
      normalized.drop (units "/private").length
    else normalized
  | .other => forwardDoubleSlashes value

/-- `split("/")`. -/
def splitSlash : Str → List Str
  | [] => [[]]
  | u :: rest =>
    if u = 0x2F then [] :: splitSlash rest
    else
      match splitSlash rest with
      | [] => [[u]]
      | segment :: segments => (u :: segment) :: segments

def hasDotPathSegment (value : Str) : Bool :=
  (splitSlash (forwardSlashes value)).any fun segment => segment = units "." || segment = units ".."

def normalizeDotPathSegments (value : Str) : Str :=
  normalizeMatchTarget host (host.normalizePath value)

/-! ## Patterns -/

/-- The loop of `compileGlobRegex`. -/
def globBody : Str → Str
  | 0x2A :: 0x2A :: rest => [0x2E, 0x2A] ++ globBody rest
  | 0x2A :: rest => [0x5B, 0x5E, 0x2F, 0x5D, 0x2A] ++ globBody rest
  | 0x3F :: rest => [0x5B, 0x5E, 0x2F, 0x5D] ++ globBody rest
  | ch :: rest => escapeLiteral [ch] ++ globBody rest
  | [] => []

def compileGlobRegex (pattern : Str) : Str := 0x5E :: (globBody pattern ++ [0x24])

/-- `compileGlobRegex(pattern).test(target)`; the expression is in the fragment. -/
def globTest (pattern target : Str) : Bool :=
  match compile host.canon (compileGlobRegex pattern) with
  | some terms => test terms target
  | none => false

/-- `/[*?]/`. -/
def isWildcard (u : Nat) : Bool := u = 0x2A || u = 0x3F

/-- The pattern and the target that are compared, for a pattern that is trimmed and not empty. -/
def comparedPattern (expanded : Str) : Str :=
  normalizeMatchTarget host
    (if host.platform = .win32 && !expanded.any isWildcard then
      (host.tryRealpath expanded).getD expanded
    else expanded)

def comparedTarget (expanded target : Str) : Str :=
  let normalizedTarget := normalizeMatchTarget host
    (if host.platform = .win32 && !expanded.any isWildcard then
      (host.tryRealpath target).getD target
    else target)
  if expanded.any isWildcard && hasDotPathSegment normalizedTarget then
    normalizeDotPathSegments host normalizedTarget
  else normalizedTarget

def expandPattern (trimmed : Str) : Str :=
  if (units "~").isPrefixOf trimmed then host.expandHomePrefix trimmed else trimmed

def matchesExecAllowlistPattern (pattern target : Str) : Bool :=
  let trimmed := Js.trim pattern
  if trimmed.isEmpty then false
  else
    globTest host (comparedPattern host (expandPattern host trimmed))
      (comparedTarget host (expandPattern host trimmed) target)

/-! ## What a pattern means -/

/-- `**` is any text, `*` any text within a segment and `?` any character within a segment. Every
other character is itself, as far as `same` tells. -/
inductive GlobAccepts (same : Nat → Nat → Prop) : Str → Str → Prop
  | nil : GlobAccepts same [] []
  | crossing {run p t : Str} (h : GlobAccepts same p t) :
      GlobAccepts same (0x2A :: 0x2A :: p) (run ++ t)
  | segment {run p t : Str} (hp : p.head? ≠ some 0x2A) (hrun : 0x2F ∉ run)
      (h : GlobAccepts same p t) : GlobAccepts same (0x2A :: p) (run ++ t)
  | question {v : Nat} {p t : Str} (hv : v ≠ 0x2F) (h : GlobAccepts same p t) :
      GlobAccepts same (0x3F :: p) (v :: t)
  | literal {u v : Nat} {p t : Str} (hstar : u ≠ 0x2A) (hquestion : u ≠ 0x3F) (huv : same u v)
      (h : GlobAccepts same p t) : GlobAccepts same (u :: p) (v :: t)

section Terms

variable (canon : Nat → Nat)

/-- The terms that `globBody` writes. -/
def globTerms : Str → List Term
  | 0x2A :: 0x2A :: rest => .many (fun v => !isLineTerminator v) :: globTerms rest
  | 0x2A :: rest => .many (notSlash canon) :: globTerms rest
  | 0x3F :: rest => .one (notSlash canon) :: globTerms rest
  | ch :: rest => .one (literal canon ch) :: globTerms rest
  | [] => []

end Terms

variable {canon : Nat → Nat}

theorem read_globBody (pattern : Str) (terms : List Term) (rest : Str) :
    RegExp.read canon terms (globBody pattern ++ rest) =
      RegExp.read canon ((globTerms canon pattern).reverse ++ terms) rest := by
  fun_induction globBody pattern generalizing terms with
  | case1 p ih =>
    rw [globTerms, List.reverse_cons, List.append_assoc, List.append_assoc]
    show RegExp.read canon (.many (fun v => !isLineTerminator v) :: terms) (globBody p ++ rest) = _
    exact ih _
  | case2 p hp ih =>
    rw [globTerms, List.reverse_cons, List.append_assoc, List.append_assoc]
    · show read canon (.many (notSlash canon) :: terms) (globBody p ++ rest) = _
      exact ih _
    · exact hp
  | case3 p ih =>
    rw [globTerms, List.reverse_cons, List.append_assoc, List.append_assoc]
    show RegExp.read canon (.one (notSlash canon) :: terms) (globBody p ++ rest) = _
    exact ih _
  | case4 ch p hcrossing hstar hquestion ih =>
    rw [globTerms, List.reverse_cons, List.append_assoc, List.append_assoc, read_escapeLiteral]
    · exact ih _
    · exact hcrossing
    · exact hstar
    · exact hquestion
  | case5 => rfl

theorem compile_compileGlobRegex (pattern : Str) :
    compile canon (compileGlobRegex pattern) =
      some (.start :: (globTerms canon pattern ++ [.stop])) := by
  rw [compile, compileGlobRegex, RegExp.read, read_globBody, RegExp.read, RegExp.read]
  simp

theorem globTerms_no_anchor (pattern : Str) :
    ∀ term ∈ globTerms canon pattern, ¬ term.IsAnchor := by
  fun_induction globTerms canon pattern with
  | case1 p ih => exact List.forall_mem_cons.2 ⟨id, ih⟩
  | case2 p _ ih => exact List.forall_mem_cons.2 ⟨id, ih⟩
  | case3 p ih => exact List.forall_mem_cons.2 ⟨id, ih⟩
  | case4 ch p _ _ _ ih => exact List.forall_mem_cons.2 ⟨id, ih⟩
  | case5 => simp

theorem globTest_eq (pattern target : Str) :
    globTest host pattern target = test (.start :: (globTerms host.canon pattern ++ [.stop])) target := by
  rw [globTest, compile_compileGlobRegex]

/-! ## What the terms spell -/

theorem notSlash_iff (hslash : ∀ v, canon v = canon 0x2F → v = 0x2F) (v : Nat) :
    notSlash canon v = true ↔ v ≠ 0x2F := by
  rw [notSlash, decide_eq_true_eq]
  constructor
  · intro h hv
    exact h (by rw [hv])
  · intro h hv
    exact h (hslash v hv)

/-- `**` is read as `.*`, which does not reach over the end of a line. -/
def StaysInLines (pattern target : Str) : Prop :=
  (∀ u ∈ target, isLineTerminator u = false) ∨ ¬ [0x2A, 0x2A] <:+: pattern

variable {t : Str}

theorem StaysInLines.of_suffix {p p' t' : Str} (h : StaysInLines p' t') (hp : p <:+ p')
    (ht : t <:+ t') : StaysInLines p t := by
  rcases h with h | h
  · exact .inl fun u hu => h u (ht.subset hu)
  · exact .inr fun hstars => h (hstars.trans hp.isInfix)

variable {pattern : Str}

theorem spells_globTerms_iff (hslash : ∀ v, canon v = canon 0x2F → v = 0x2F)
    (hlines : StaysInLines pattern t) : Spells (globTerms canon pattern) t ↔
      GlobAccepts (fun u v => canon u = canon v) pattern t := by
  fun_induction globTerms canon pattern generalizing t with
  | case1 p ih =>
    have hp : p <:+ 0x2A :: 0x2A :: p := ⟨[0x2A, 0x2A], rfl⟩
    rw [spells_many_iff]
    constructor
    · rintro ⟨run, rest, rfl, -, h⟩
      exact .crossing ((ih (hlines.of_suffix hp (List.suffix_append run rest))).1 h)
    · intro h
      have hclear : ∀ u ∈ t, isLineTerminator u = false :=
        hlines.resolve_right fun hno => hno ⟨[], p, rfl⟩
      cases h with
      | @crossing run _ t h =>
        refine ⟨run, t, rfl, ?_, ?_⟩
        · intro u hu
          rw [hclear u (List.mem_append_left t hu)]
          rfl
        · exact (ih (hlines.of_suffix hp (List.suffix_append run t))).2 h
      | segment hnext => exact absurd rfl hnext
      | literal hstar => exact absurd rfl hstar
  | case2 p hnext ih =>
    have hp : p <:+ 0x2A :: p := List.suffix_cons _ p
    have hhead : p.head? ≠ some 0x2A := by
      intro h
      cases p with
      | nil => cases h
      | cons u p =>
        rw [List.head?_cons, Option.some.injEq] at h
        exact hnext p (by rw [h])
    have hrun : ∀ run : Str, (∀ u ∈ run, notSlash canon u = true) ↔ 0x2F ∉ run := by
      intro run
      simp only [notSlash_iff hslash]
      constructor
      · intro h hmem
        exact h _ hmem rfl
      · intro h u hu heq
        exact h (heq ▸ hu)
    rw [spells_many_iff]
    constructor
    · rintro ⟨run, rest, rfl, hset, h⟩
      exact .segment hhead ((hrun run).1 hset)
        ((ih (hlines.of_suffix hp (List.suffix_append run rest))).1 h)
    · intro h
      cases h with
      | crossing => exact absurd rfl hhead
      | @segment run _ t _ hset h =>
        exact ⟨run, t, rfl, (hrun run).2 hset,
          (ih (hlines.of_suffix hp (List.suffix_append run t))).2 h⟩
      | literal hstar => exact absurd rfl hstar
  | case3 p ih =>
    have hp : p <:+ 0x3F :: p := List.suffix_cons _ p
    constructor
    · intro h
      cases h with
      | @one _ u _ t hu h =>
        exact .question ((notSlash_iff hslash u).1 hu)
          ((ih (hlines.of_suffix hp (List.suffix_cons u t))).1 h)
    · intro h
      cases h with
      | @question v _ t hv h =>
        exact .one ((notSlash_iff hslash v).2 hv)
          ((ih (hlines.of_suffix hp (List.suffix_cons v t))).2 h)
      | literal _ hquestion => exact absurd rfl hquestion
  | case4 ch p hcrossing hstar hquestion ih =>
    have hp : p <:+ ch :: p := List.suffix_cons _ p
    constructor
    · intro h
      cases h with
      | @one _ u _ t hu h =>
        exact .literal hstar hquestion (of_decide_eq_true hu)
          ((ih (hlines.of_suffix hp (List.suffix_cons u t))).1 h)
    · intro h
      cases h with
      | crossing => exact absurd rfl hstar
      | segment => exact absurd rfl hstar
      | question => exact absurd rfl hquestion
      | @literal _ v _ t _ _ huv h =>
        exact .one (decide_eq_true huv) ((ih (hlines.of_suffix hp (List.suffix_cons v t))).2 h)
  | case5 =>
    constructor
    · intro h
      cases h
      exact .nil
    · intro h
      cases h
      exact .nil

theorem test_compileGlobRegex (hslash : ∀ v, host.canon v = host.canon 0x2F → v = 0x2F)
    {target : Str} (hlines : StaysInLines pattern target) : globTest host pattern target = true ↔
      GlobAccepts (fun u v => host.canon u = host.canon v) pattern target := by
  rw [globTest_eq, test_anchored (globTerms_no_anchor pattern), spells_globTerms_iff hslash hlines]

/-! ## The literal directory of a pattern -/

/-- Before the first wildcard. -/
def literalPart (pattern : Str) : Str := pattern.takeWhile fun u => !isWildcard u

/-- `literalPart`, up to its last slash. -/
def literalDirectory (pattern : Str) : Str :=
  ((literalPart pattern).reverse.dropWhile fun u => u ≠ 0x2F).reverse

theorem literalDirectory_isPrefix (pattern : Str) :
    literalDirectory pattern <+: literalPart pattern := by
  rw [literalDirectory, ← List.reverse_suffix, List.reverse_reverse]
  exact List.dropWhile_suffix _

/-- The target begins with the text before the first wildcard, whatever the target is. -/
theorem spells_literalPart (h : Spells (globTerms canon pattern) t) :
    ∃ front back, t = front ++ back ∧ front.map canon = (literalPart pattern).map canon := by
  fun_induction globTerms canon pattern generalizing t with
  | case1 p => exact ⟨[], t, rfl, rfl⟩
  | case2 p => exact ⟨[], t, rfl, rfl⟩
  | case3 p => exact ⟨[], t, rfl, rfl⟩
  | case4 ch p hcrossing hstar hquestion ih =>
    cases h with
    | @one _ u _ t hu h =>
      obtain ⟨front, back, rfl, hfront⟩ := ih h
      have hplain : isWildcard ch = false := by
        rw [isWildcard, Bool.or_eq_false_iff]
        exact ⟨decide_eq_false hstar, decide_eq_false hquestion⟩
      refine ⟨u :: front, back, rfl, ?_⟩
      rw [literalPart, List.takeWhile_cons_of_pos (by rw [hplain]; rfl), List.map_cons,
        List.map_cons, hfront, of_decide_eq_true hu]
      rfl
  | case5 => exact ⟨[], t, rfl, rfl⟩

theorem globTest_literalDirectory (h : globTest host pattern t = true) :
    ∃ front back, t = front ++ back ∧
      front.map host.canon = (literalDirectory pattern).map host.canon := by
  rw [globTest_eq, test_anchored (globTerms_no_anchor pattern)] at h
  obtain ⟨front, back, rfl, hfront⟩ := spells_literalPart h
  obtain ⟨name, hname⟩ := literalDirectory_isPrefix pattern
  rw [← hname, List.map_append] at hfront
  obtain ⟨directory, rest, rfl, hdirectory, -⟩ := List.map_eq_append_iff.1 hfront
  exact ⟨directory, rest ++ back, List.append_assoc _ _ _, hdirectory⟩

/-! ## What a pattern accepts -/

/-- The target as it is matched, its dot segments resolved. -/
def dotNormalizedTarget (target : Str) : Str :=
  if hasDotPathSegment (normalizeMatchTarget host target) then
    normalizeDotPathSegments host (normalizeMatchTarget host target)
  else normalizeMatchTarget host target

theorem comparedTarget_of_wildcard {expanded : Str} (h : expanded.any isWildcard = true)
    (target : Str) : comparedTarget host expanded target = dotNormalizedTarget host target := by
  simp [comparedTarget, dotNormalizedTarget, h]

/-- The target lies under the directory that the pattern names before its first wildcard. -/
def UnderLiteralDirectory (pattern target : Str) : Prop :=
  ∃ front back, target = front ++ back ∧
    front.map host.canon = (literalDirectory pattern).map host.canon

/-- A pattern is matched as it is meant, where `**` need not cross the end of a line. With a
wildcard it accepts only targets that are under its literal directory, when their dot segments are
resolved. -/
theorem matchesExecAllowlistPattern_spec
    (hslash : ∀ v, host.canonicalize v = host.canonicalize 0x2F → v = 0x2F) :
    (∀ pattern target, StaysInLines pattern target →
      (globTest host pattern target = true ↔
        GlobAccepts (fun u v => host.canon u = host.canon v) pattern target)) ∧
    ∀ pattern target, matchesExecAllowlistPattern host pattern target = true →
      (expandPattern host (Js.trim pattern)).any isWildcard = true →
      UnderLiteralDirectory host (comparedPattern host (expandPattern host (Js.trim pattern)))
        (dotNormalizedTarget host target) := by
  have hcanon : ∀ v, host.canon v = host.canon 0x2F → v = 0x2F := by
    intro v hv
    rw [PatternHost.canon] at hv
    by_cases hplatform : host.platform = .win32
    · rw [if_pos hplatform] at hv
      exact hslash v hv
    · rwa [if_neg hplatform] at hv
  constructor
  · intro pattern target hlines
    exact test_compileGlobRegex host hcanon hlines
  · intro pattern target h hwildcard
    unfold matchesExecAllowlistPattern at h
    by_cases hempty : (Js.trim pattern).isEmpty = true
    · rw [if_pos hempty] at h
      cases h
    · rw [if_neg hempty, comparedTarget_of_wildcard host hwildcard] at h
      exact globTest_literalDirectory host h

/-- A host on Linux; of the paths, it knows `/a/./b`. -/
def linuxHost : PatternHost where
  platform := .other
  toLowerCase := id
  canonicalize := id
  normalizePath value := if value = units "/a/./b" then units "/a/b" else value
  tryRealpath _ := none
  expandHomePrefix := id

/-- `*` within a segment. -/
theorem glob_star_segment :
    globTest linuxHost (units "/usr/*/ls") (units "/usr/bin/ls") = true ↔
      GlobAccepts (fun u v => linuxHost.canon u = linuxHost.canon v) (units "/usr/*/ls")
        (units "/usr/bin/ls") :=
  (matchesExecAllowlistPattern_spec linuxHost fun _ h => h).1 _ _ (.inl (by decide +kernel))

/-- A pattern without a wildcard is compared with the target as it is. -/
theorem dot_segment_accepted :
    ¬ ∀ host pattern target, matchesExecAllowlistPattern host pattern target = true →
      UnderLiteralDirectory host (comparedPattern host (expandPattern host (Js.trim pattern)))
        (dotNormalizedTarget host target) := by
  intro h
  obtain ⟨front, back, htarget, hfront⟩ :=
    h linuxHost (units "/a/./b") (units "/a/./b") (by decide +kernel)
  have hnormalized : dotNormalizedTarget linuxHost (units "/a/./b") = units "/a/b" := by
    decide +kernel
  have hdirectory : (literalDirectory (comparedPattern linuxHost
      (expandPattern linuxHost (Js.trim (units "/a/./b"))))).map linuxHost.canon =
        units "/a/./" := by
    decide +kernel
  have hcanon : front.map linuxHost.canon = front := List.map_id front
  rw [hnormalized] at htarget
  rw [hdirectory, hcanon] at hfront
  rw [hfront] at htarget
  have hlength := congrArg List.length htarget
  rw [List.length_append] at hlength
  have hfront : (units "/a/./").length = 5 := by decide +kernel
  have htext : (units "/a/b").length = 4 := by decide +kernel
  omega

end OpenClaw.Exec
