import Mathlib.Data.List.Nodup

/-!
# The arguments of a command, read as `getopt_long` reads them

Long options are given by their name or by a prefix of it that no other option has, with their value
after `=` or in the next word. Short options stand one after the other in a cluster, up to the first
that takes a value, which is the rest of the cluster or the next word. Options may follow operands;
after `--` every word is an operand.
-/

namespace Getopt

/-- The options a command knows. A short option that is not declared takes no value. -/
structure Spec where
  /-- The names of the long options, without dashes. -/
  long : List (List Char)
  longTakesValue : List Char → Bool
  shortTakesValue : Char → Bool

inductive Item
  | long (name : List Char) (value : Option (List Char))
  | short (name : Char) (value : Option (List Char))
  | operand (word : List Char)
  /-- An unknown or ambiguous long option, a value for an option that takes none, or a missing
  value. -/
  | invalid (word : List Char)
  deriving DecidableEq

/-- The long option that a word names. -/
def Spec.resolve (spec : Spec) (name : List Char) : Option (List Char) :=
  if name ∈ spec.long then some name
  else
    match spec.long.filter fun long => name.isPrefixOf long with
    | [long] => some long
    | _ => none

/-- The text before and after the first `=`. -/
def splitValue : List Char → List Char × Option (List Char)
  | [] => ([], none)
  | '=' :: cs => ([], some cs)
  | c :: cs => ((c :: (splitValue cs).1), (splitValue cs).2)

/-- The options of a cluster, and the last of them if its value is in the next word. -/
def Spec.cluster (spec : Spec) : List Char → List Item × Option Char
  | [] => ([], none)
  | c :: cs =>
    if spec.shortTakesValue c then
      match cs with
      | [] => ([], some c)
      | cs => ([.short c (some cs)], none)
    else (.short c none :: (spec.cluster cs).1, (spec.cluster cs).2)

def Spec.parse (spec : Spec) : List (List Char) → List Item
  | [] => []
  | ['-', '-'] :: words => words.map .operand
  | ('-' :: '-' :: text) :: words =>
    match spec.resolve (splitValue text).1, (splitValue text).2 with
    | none, _ => .invalid ('-' :: '-' :: text) :: spec.parse words
    | some name, some value =>
      if spec.longTakesValue name then .long name (some value) :: spec.parse words
      else .invalid ('-' :: '-' :: text) :: spec.parse words
    | some name, none =>
      if spec.longTakesValue name then
        match words with
        | [] => [.invalid ('-' :: '-' :: text)]
        | value :: words => .long name (some value) :: spec.parse words
      else .long name none :: spec.parse words
  | ('-' :: c :: cs) :: words =>
    match (spec.cluster (c :: cs)).2 with
    | none => (spec.cluster (c :: cs)).1 ++ spec.parse words
    | some last =>
      match words with
      | [] => (spec.cluster (c :: cs)).1 ++ [.invalid ('-' :: c :: cs)]
      | value :: words =>
        (spec.cluster (c :: cs)).1 ++ .short last (some value) :: spec.parse words
  | word :: words => .operand word :: spec.parse words

/-! ## One word at a time -/

theorem Spec.parse_terminator (spec : Spec) (words : List (List Char)) :
    spec.parse (['-', '-'] :: words) = words.map .operand := by
  rw [Spec.parse]

example (spec : Spec) : spec.parse [['-']] = [.operand ['-']] := by simp [Spec.parse]

variable {spec : Spec} {text name : List Char}

theorem Spec.parse_long_value {value : List Char}
    (hresolve : spec.resolve (splitValue text).1 = some name)
    (hvalue : (splitValue text).2 = some value) (htakes : spec.longTakesValue name = true)
    (words : List (List Char)) : spec.parse (('-' :: '-' :: text) :: words) =
      .long name (some value) :: spec.parse words := by
  cases text with
  | nil => cases hvalue
  | cons c text =>
    rw [Spec.parse, hresolve, hvalue]
    · exact if_pos htakes
    · exact List.cons_ne_nil c text

theorem Spec.parse_long_next (htext : text ≠ [])
    (hresolve : spec.resolve (splitValue text).1 = some name)
    (hvalue : (splitValue text).2 = none) (htakes : spec.longTakesValue name = true)
    (value : List Char) (words : List (List Char)) :
    spec.parse (('-' :: '-' :: text) :: value :: words) =
      .long name (some value) :: spec.parse words := by
  rw [Spec.parse, hresolve, hvalue]
  · exact if_pos htakes
  · exact htext

theorem Spec.parse_long_flag (htext : text ≠ [])
    (hresolve : spec.resolve (splitValue text).1 = some name)
    (hvalue : (splitValue text).2 = none) (htakes : spec.longTakesValue name = false)
    (words : List (List Char)) :
    spec.parse (('-' :: '-' :: text) :: words) = .long name none :: spec.parse words := by
  rw [Spec.parse, hresolve, hvalue]
  · dsimp only
    rw [if_neg (Bool.eq_false_iff.mp htakes)]
  · exact htext

variable {c : Char} {cs : List Char}

theorem Spec.parse_cluster (hc : c ≠ '-') (hlast : (spec.cluster (c :: cs)).2 = none)
    (words : List (List Char)) :
    spec.parse (('-' :: c :: cs) :: words) = (spec.cluster (c :: cs)).1 ++ spec.parse words := by
  rw [Spec.parse, hlast]
  · exact fun h _ => hc h
  · exact hc

theorem Spec.parse_cluster_next {last : Char} (hc : c ≠ '-')
    (hlast : (spec.cluster (c :: cs)).2 = some last) (value : List Char)
    (words : List (List Char)) : spec.parse (('-' :: c :: cs) :: value :: words) =
      (spec.cluster (c :: cs)).1 ++ .short last (some value) :: spec.parse words := by
  rw [Spec.parse, hlast]
  · exact fun h _ => hc h
  · exact hc

theorem Spec.parse_operand {word : List Char} (hword : word = ['-'] ∨ ∀ cs, word ≠ '-' :: cs)
    (words : List (List Char)) :
    spec.parse (word :: words) = .operand word :: spec.parse words := by
  rcases hword with rfl | hword
  · rw [Spec.parse]
    · exact fun h => by cases h
    · exact fun text h => by cases h
    · exact fun c cs h => by cases h
  · rw [Spec.parse]
    · exact fun h => hword _ h
    · exact fun text h => hword _ h
    · exact fun c cs h => hword _ h

/-! ## Resolution -/

theorem Spec.resolve_of_unique (hnodup : spec.long.Nodup) {long : List Char}
    (hlong : long ∈ spec.long) (hstarts : name <+: long)
    (hunique : ∀ other ∈ spec.long, name <+: other → other = long) :
    spec.resolve name = some long := by
  rw [Spec.resolve]
  by_cases hmem : name ∈ spec.long
  · rw [if_pos hmem, hunique name hmem List.prefix_rfl]
  · have hfilter : spec.long.filter (fun long => name.isPrefixOf long) = [long] := by
      refine List.perm_singleton.mp ((List.perm_ext_iff_of_nodup (hnodup.filter _)
        (List.nodup_singleton long)).mpr fun other => ?_)
      rw [List.mem_filter, List.isPrefixOf_iff_prefix, List.mem_singleton]
      constructor
      · rintro ⟨hother, hpre⟩
        exact hunique other hother hpre
      · rintro rfl
        exact ⟨hlong, hstarts⟩
    rw [if_neg hmem, hfilter]

theorem Spec.resolve_of_mem (h : name ∈ spec.long) : spec.resolve name = some name := if_pos h

end Getopt
