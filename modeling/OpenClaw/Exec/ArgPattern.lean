import OpenClaw.Exec.CommandAnalysis
import OpenClaw.Lib.Fields
import OpenClaw.Lib.RegExp

/-!
# Argument patterns of allow-always entries

The argument patterns of `infra/exec-approvals-allowlist.ts` and `matchArgPattern` of
`infra/exec-command-resolution.ts`. The arguments of the approved command are written into one
pattern, with a NUL behind each and two NULs for no argument; the matcher joins the arguments of a
command in the same way and searches for the pattern.

**Main result (`argPattern_exact_iff`).** The pattern accepts exactly the approved arguments, up to
`/` and `\`, unless the two NULs of no argument meet those of two empty arguments, or a NUL within
an argument passes for the end of one.
-/

namespace OpenClaw.Exec

open Js Fields

/-! ## Building a pattern -/

/-- `replace(/\//g, "\\")`. -/
def backslashes (value : Str) : Str := value.map fun u => if u = 0x2F then 0x5C else u

/-- The pattern between the anchors, for these arguments. -/
def argPatternOf (args : List Str) : Str :=
  let normalized := args.map backslashes
  if normalized.isEmpty then units "^\x00\x00$"
  else 0x5E :: (RegExp.escapeLiteral ([0].intercalate normalized) ++ [0, 0x24])

section Build

variable (host : Host)

def buildArgPatternFromArgv (argv : List Str) (platform : Option String) : Option Str :=
  if !isWindowsPlatform host (some (platform.getD host.processPlatform)) then none
  else some (argPatternOf (argv.drop 1))

/-- What `buildScriptArgPatternFromArgv` asks of `node:path` and of the working directory. -/
structure ScriptPaths where
  /-- `path.isAbsolute(arg) ? arg : path.resolve(base, arg)`. -/
  resolveArgPath : Str → Str
  /-- `normalizeLowercaseStringOrEmpty(path.basename(arg))`. -/
  lowerBasename : Str → Str

/-- The arguments behind the script, which is found by its path or else by its name. -/
def scriptArgs (paths : ScriptPaths) (argv : List Str) (scriptPath : Str) : List Str :=
  match argv.findIdx? fun arg => paths.resolveArgPath arg = scriptPath with
  | some scriptIdx => argv.drop (scriptIdx + 1)
  | none =>
    match argv.findIdx? fun arg => paths.lowerBasename arg = paths.lowerBasename scriptPath with
    | some scriptIdx => argv.drop (scriptIdx + 1)
    | none => []

def buildScriptArgPatternFromArgv (paths : ScriptPaths) (argv : List Str) (scriptPath : Str)
    (platform : Option String) : Option Str :=
  if !isWindowsPlatform host (some (platform.getD host.processPlatform)) then none
  else
    let normalized := (scriptArgs paths argv scriptPath).map backslashes
    if normalized.isEmpty then some (units "^\x00\x00$")
    else some (0x5E :: ([0].intercalate (normalized.map RegExp.escapeLiteral) ++ [0, 0x24]))

/-! ## Matching a pattern -/

def redirections : List Str :=
  ["1>&1", "1>&2", "2>&1", "2>&2", "1>/dev/null", "2>/dev/null"].map units

/-- `prev.replace(TRAILING_SHELL_REDIRECTIONS_RE, "")`. -/
def stripRedirection (value : Str) : Str :=
  let body := Js.trimEnd value
  match redirections.find? fun r =>
    r.isSuffixOf body && (body.take (body.length - r.length)).getLast?.any isSpace with
  | some r => Js.trimEnd (body.take (body.length - r.length))
  | none => value

/-- The loop of `stripTrailingRedirections`; each round but the last removes something. -/
def stripTrailingRedirections : Nat → Str → Str
  | 0, value => value
  | fuel + 1, value =>
    if stripRedirection value = value then value
    else stripTrailingRedirections fuel (stripRedirection value)

/-- `new RegExp(pattern)` and `test`; `other` is for what the fragment does not cover. -/
def regExpTest (other : Str → Option (Str → Bool)) (pattern : Str) : Option (Str → Bool) :=
  match RegExp.compile id pattern with
  | some terms => some (RegExp.test terms)
  | none => other pattern

/-- `argsString`: the arguments in the style of the pattern. -/
def argsString (argPattern : Str) (args : List Str) : Str :=
  if 0 ∈ argPattern then
    if args.isEmpty then [0, 0] else [0].intercalate args ++ [0]
  else [0x20].intercalate args

def matchArgPattern (other : Str → Option (Str → Bool)) (argPattern : Str) (argv : List Str)
    (platform : Option String) : Bool :=
  let joined := argsString argPattern (argv.drop 1)
  match regExpTest other argPattern with
  | none => false
  | some test =>
    test joined ||
      (isWindowsPlatform host (some (platform.getD host.processPlatform)) &&
        (backslashes joined ≠ joined && test (backslashes joined))) ||
      (!decide (0 ∈ argPattern) &&
        (stripTrailingRedirections joined.length joined ≠ joined &&
          test (stripTrailingRedirections joined.length joined)))

end Build

/-! ## The text of the arguments -/

/-- What a pattern for these arguments accepts, before the separators are normalized. -/
def encodeArgs (args : List Str) : Str := if args = [] then [0, 0] else terminated 0 args

theorem encodeArgs_eq (args : List Str) :
    encodeArgs args = if args.isEmpty then [0, 0] else [0].intercalate args ++ [0] := by
  unfold encodeArgs
  by_cases hargs : args = []
  · simp [hargs]
  · rw [if_neg hargs, if_neg (by simpa using hargs), intercalate_append_singleton hargs]

theorem backslash_eq_zero (u : Nat) : (if u = 0x2F then 0x5C else u) = 0 ↔ u = 0 := by
  by_cases hu : u = 0x2F
  · rw [if_pos hu, hu]
    decide
  · rw [if_neg hu]

theorem backslashes_terminated (args : List Str) :
    backslashes (terminated 0 args) = terminated 0 (args.map backslashes) := by
  induction args with
  | nil => rfl
  | cons arg args ih =>
    rw [List.map_cons, terminated_cons, terminated_cons, ← ih, backslashes, List.map_append]
    rfl

theorem backslashes_encodeArgs (args : List Str) :
    backslashes (encodeArgs args) = encodeArgs (args.map backslashes) := by
  unfold encodeArgs
  by_cases hargs : args = []
  · rw [if_pos hargs, if_pos (by rw [hargs]; rfl)]
    rfl
  · rw [if_neg hargs, if_neg (by simpa using hargs), backslashes_terminated]

@[simp] theorem backslashes_backslashes (value : Str) :
    backslashes (backslashes value) = backslashes value := by
  rw [backslashes, backslashes, List.map_map]
  congr 1
  funext u
  by_cases hu : u = 0x2F <;> simp [hu]

theorem escapeLiteral_intercalate (args : List Str) :
    [0].intercalate (args.map RegExp.escapeLiteral) =
      RegExp.escapeLiteral ([0].intercalate args) := by
  induction args with
  | nil => rfl
  | cons arg args ih =>
    cases args with
    | nil => simp
    | cons next args =>
      rw [List.map_cons, List.map_cons, List.intercalate_cons_cons, List.intercalate_cons_cons,
        RegExp.escapeLiteral_append, RegExp.escapeLiteral_append, ← ih]
      rfl

theorem buildScriptArgPatternFromArgv_eq (host : Host) (paths : ScriptPaths) (argv : List Str)
    (scriptPath : Str) (platform : Option String) :
    buildScriptArgPatternFromArgv host paths argv scriptPath platform =
      if !isWindowsPlatform host (some (platform.getD host.processPlatform)) then none
      else some (argPatternOf (scriptArgs paths argv scriptPath)) := by
  unfold buildScriptArgPatternFromArgv argPatternOf
  dsimp only
  rw [escapeLiteral_intercalate]
  split
  · rfl
  · split <;> rfl

section

variable (args : List Str)

theorem argPatternOf_eq : argPatternOf args =
      0x5E :: (RegExp.escapeLiteral (encodeArgs (args.map backslashes)) ++ [0x24]) := by
  rw [encodeArgs_eq]
  unfold argPatternOf
  dsimp only
  split
  · rfl
  · rw [RegExp.escapeLiteral_append, List.append_assoc]
    rfl

theorem zero_mem_argPatternOf : 0 ∈ argPatternOf args := by
  unfold argPatternOf
  dsimp only
  split
  · decide
  · simp

theorem compile_argPatternOf : RegExp.compile id (argPatternOf args) =
      some (.start :: (((encodeArgs (args.map backslashes)).map fun u =>
        .one (RegExp.literal id u)) ++ [.stop])) := by
  rw [argPatternOf_eq, RegExp.compile, RegExp.read, RegExp.read_escapeLiteral, RegExp.read,
    RegExp.read]
  simp

theorem test_argPatternOf (s : Str) :
    RegExp.test (.start :: (((encodeArgs (args.map backslashes)).map fun u =>
        .one (RegExp.literal id u)) ++ [.stop])) s = true ↔
      s = encodeArgs (args.map backslashes) := by
  rw [RegExp.test_anchored, RegExp.spells_literals_iff, List.map_id, List.map_id, eq_comm]
  intro term hterm
  obtain ⟨u, -, rfl⟩ := List.mem_map.1 hterm
  exact id

end

variable {host : Host} {platform : Option String}

theorem matchArgPattern_iff
    (hwindows : isWindowsPlatform host (some (platform.getD host.processPlatform)) = true)
    (other : Str → Option (Str → Bool)) (args argv : List Str) :
    matchArgPattern host other (argPatternOf args) argv platform = true ↔
      encodeArgs ((argv.drop 1).map backslashes) = encodeArgs (args.map backslashes) := by
  have hjoined : argsString (argPatternOf args) (argv.drop 1) = encodeArgs (argv.drop 1) := by
    rw [argsString, if_pos (zero_mem_argPatternOf args), encodeArgs_eq]
  have hfixed : backslashes (encodeArgs (args.map backslashes)) =
      encodeArgs (args.map backslashes) := by
    rw [← backslashes_encodeArgs, backslashes_backslashes]
  rw [← backslashes_encodeArgs]
  unfold matchArgPattern regExpTest
  rw [compile_argPatternOf, hjoined, hwindows]
  rw [Bool.or_eq_true, Bool.or_eq_true, Bool.true_and, Bool.and_eq_true, Bool.and_eq_true,
    test_argPatternOf, test_argPatternOf]
  constructor
  · intro h
    rcases h with (h | h) | h
    · rw [h, hfixed]
    · exact h.2
    · have hstyle := h.1
      rw [decide_eq_true (zero_mem_argPatternOf args)] at hstyle
      cases hstyle
  · intro h
    by_cases hsame : backslashes (encodeArgs (argv.drop 1)) = encodeArgs (argv.drop 1)
    · rw [hsame] at h
      exact .inl (.inl h)
    · exact .inl (.inr ⟨decide_eq_true hsame, h⟩)

/-! ## Which arguments are accepted -/

/-- Arguments whose texts are equal although they are not: no argument and two empty ones, or
arguments with a NUL that stands for the end of one. -/
def Confused (args given : List Str) : Prop :=
  (args = [[], []] ∧ given = []) ∨ (args = [] ∧ cutAll 0 given = [[], []]) ∨
    ((∃ arg ∈ given, 0 ∈ arg) ∧ (cutAll 0 given).map backslashes = args.map backslashes)

theorem zero_mem_backslashes {arg : Str} : 0 ∈ backslashes arg ↔ 0 ∈ arg := by
  rw [backslashes, List.mem_map]
  constructor
  · rintro ⟨u, hu, hzero⟩
    rw [backslash_eq_zero] at hzero
    rwa [hzero] at hu
  · intro h
    exact ⟨0, h, rfl⟩

variable {args : List Str}

theorem map_backslashes_eq_empties : args.map backslashes = [[], []] ↔ args = [[], []] := by
  constructor
  · intro h
    cases args with
    | nil => simp at h
    | cons first args =>
      cases args with
      | nil => simp at h
      | cons second args => simpa [backslashes] using h
  · intro h
    rw [h]
    rfl

theorem cutAll_backslashes (args : List Str) :
    cutAll 0 (args.map backslashes) = (cutAll 0 args).map backslashes :=
  cutAll_map backslash_eq_zero args

theorem encodeArgs_eq_iff {given : List Str} (hargs : ∀ arg ∈ args, 0 ∉ arg) :
    (encodeArgs (given.map backslashes) = encodeArgs (args.map backslashes) ↔
      given.map backslashes = args.map backslashes) ↔ ¬ Confused args given := by
  have hfree : ∀ arg ∈ args.map backslashes, 0 ∉ arg := by
    intro arg harg hzero
    obtain ⟨whole, hwhole, rfl⟩ := List.mem_map.1 harg
    exact hargs whole hwhole (zero_mem_backslashes.1 hzero)
  have hempty : ([0, 0] : Str) = terminated 0 [[], []] := rfl
  unfold Confused encodeArgs
  by_cases hgiven : given = []
  · -- no argument is given
    rw [hgiven, List.map_nil, if_pos rfl]
    by_cases ha : args = []
    · simp [ha, cutAll]
    · rw [if_neg (by simpa using ha), hempty, eq_comm, terminated_eq_iff (by simp),
        cutAll_eq_self hfree, map_backslashes_eq_empties]
      simp [cutAll, ha]
  · rw [if_neg (by simpa using hgiven)]
    by_cases ha : args = []
    · -- the pattern is that of no argument
      rw [ha, List.map_nil, if_pos rfl, hempty, terminated_eq_iff (by simp), cutAll_backslashes,
        map_backslashes_eq_empties]
      simp [hgiven, cutAll_eq_nil]
    · rw [if_neg (by simpa using ha), terminated_eq_iff hfree, cutAll_backslashes]
      by_cases hnul : ∃ arg ∈ given, 0 ∈ arg
      · -- an argument has a NUL, so the given ones are not the approved ones
        have hne : given.map backslashes ≠ args.map backslashes := by
          intro h
          obtain ⟨arg, harg, hzero⟩ := hnul
          exact hfree (backslashes arg) (h ▸ List.mem_map_of_mem harg)
            (zero_mem_backslashes.2 hzero)
        simp [hgiven, ha, hnul, hne]
      · have hself : cutAll 0 given = given := by
          apply cutAll_eq_self
          intro arg harg hzero
          exact hnul ⟨arg, harg, hzero⟩
        simp [hgiven, ha, hnul, hself]

/-- The pattern that is written for an allow-always entry, and the arguments it is for. -/
inductive WritesArgPattern (host : Host) (platform : Option String) : List Str → Str → Prop
  | argv {argv : List Str} {pattern : Str}
      (h : buildArgPatternFromArgv host argv platform = some pattern) :
      WritesArgPattern host platform (argv.drop 1) pattern
  | script {paths : ScriptPaths} {argv : List Str} {scriptPath pattern : Str}
      (h : buildScriptArgPatternFromArgv host paths argv scriptPath platform = some pattern) :
      WritesArgPattern host platform (scriptArgs paths argv scriptPath) pattern

theorem WritesArgPattern.eq {pattern : Str} (h : WritesArgPattern host platform args pattern) :
    isWindowsPlatform host (some (platform.getD host.processPlatform)) = true ∧
      pattern = argPatternOf args := by
  cases h with
  | argv h =>
    rw [buildArgPatternFromArgv] at h
    cases hwindows : isWindowsPlatform host (some (platform.getD host.processPlatform)) with
    | false => simp [hwindows] at h
    | true =>
      simp only [hwindows, Bool.not_true, Bool.false_eq_true, if_false, Option.some.injEq] at h
      exact ⟨rfl, h.symm⟩
  | script h =>
    rw [buildScriptArgPatternFromArgv_eq] at h
    cases hwindows : isWindowsPlatform host (some (platform.getD host.processPlatform)) with
    | false => simp [hwindows] at h
    | true =>
      simp only [hwindows, Bool.not_true, Bool.false_eq_true, if_false, Option.some.injEq] at h
      exact ⟨rfl, h.symm⟩

/-- A pattern accepts exactly the arguments it was written for, up to the separators, if and only if
the given arguments are not confused with them. -/
theorem argPattern_exact_iff {host : Host} {platform : Option String} {args : List Str}
    {pattern : Str} (hwrites : WritesArgPattern host platform args pattern)
    (hargs : ∀ arg ∈ args, 0 ∉ arg) (other : Str → Option (Str → Bool)) (argv : List Str) :
    (matchArgPattern host other pattern argv platform = true ↔
      (argv.drop 1).map backslashes = args.map backslashes) ↔ ¬ Confused args (argv.drop 1) := by
  obtain ⟨hwindows, hpattern⟩ := hwrites.eq
  rw [hpattern, matchArgPattern_iff hwindows, encodeArgs_eq_iff hargs]

/-! ## Two empty arguments -/

def windowsHost : Host where
  toLowerCase := id
  processPlatform := "win32"
  resolveCommandResolutionFromArgv _ _ := none
  resolveExecutableTrustPath _ := none
  resolvePath := id
  explainShellCommand _ := .error "no parser"
  analyzeWindowsShellCommand _ _ := ⟨false, none, [], none⟩
  extractBindableShellWrapperInlineCommand _ := none
  isDispatchWrapperExecutable _ := false

/-- `tool a/b`, and `tool a\b`. -/
theorem argPattern_exact_tool :
    matchArgPattern windowsHost (fun _ => none) (argPatternOf [units "a/b"])
      [units "tool", units "a\\b"] none = true ↔
      [units "a\\b"].map backslashes = [units "a/b"].map backslashes :=
  have hwrites : WritesArgPattern windowsHost none ([units "tool", units "a/b"].drop 1)
      (argPatternOf [units "a/b"]) := .argv (by decide +kernel)
  (argPattern_exact_iff hwrites (by decide +kernel) (fun _ => none)
    [units "tool", units "a\\b"]).2 (by unfold Confused; decide +kernel)

/-- The pattern of a command without arguments accepts two empty arguments. -/
theorem two_empty_arguments_accepted :
    ¬ ∀ host platform args pattern, WritesArgPattern host platform args pattern →
      (∀ arg ∈ args, 0 ∉ arg) → ∀ other argv,
        (matchArgPattern host other pattern argv platform = true ↔
          (argv.drop 1).map backslashes = args.map backslashes) := by
  intro h
  have hwrites : WritesArgPattern windowsHost none ([units "tool"].drop 1) (argPatternOf []) :=
    .argv (by decide +kernel)
  have hiff := h _ _ _ _ hwrites (by simp) (fun _ => none) [units "tool", [], []]
  exact absurd (hiff.1 (by decide +kernel)) (by decide +kernel)

end OpenClaw.Exec
