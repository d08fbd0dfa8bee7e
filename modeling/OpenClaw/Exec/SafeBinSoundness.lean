import Mathlib.Data.List.Dedup
import Mathlib.Data.List.Infix
import Mathlib.Data.List.TakeWhile
import OpenClaw.Exec.SafeBins
import OpenClaw.Lib.Getopt

/-!
# Safe-bin validation and `getopt_long`

The validator reads the arguments in its own loop. Here they are also read by `Getopt.Spec.parse`,
with the profile's value flags as the options that take a value.

* `Reads` — both readings of some arguments agree, and what they find is safe. One lemma for each
  kind of token extends it by the token.
* **`validateSafeBinArgv_sound`** — accepted arguments have no denied option, only literals, and an
  allowed number of operands.
-/

namespace OpenClaw.Exec

/-! ## The prefix map -/

theorem mem_longPrefixes {flag key : String} :
    key ∈ longPrefixes flag ↔ key.toList <+: flag.toList ∧ 2 < key.toList.length := by
  rw [longPrefixes, List.mem_map]
  constructor
  · rintro ⟨cs, hcs, rfl⟩
    rw [List.mem_filter, List.mem_inits, decide_eq_true_eq] at hcs
    rw [String.toList_ofList]
    exact hcs
  · rintro ⟨hstarts, hlen⟩
    refine ⟨key.toList, ?_, String.ofList_toList⟩
    rw [List.mem_filter, List.mem_inits, decide_eq_true_eq]
    exact ⟨hstarts, hlen⟩

/-- A long flag that takes part in abbreviations. -/
def IsLong (flag : String) : Prop :=
  JsString.startsWith flag "--" = true ∧ 2 < flag.toList.length

/-- What the entries of a map say of the flags it was built from. -/
structure Indexes (prefixMap : LongFlagPrefixMap) (flags : List String) : Prop where
  missing : ∀ key, prefixMap key = none →
    ∀ flag ∈ flags, IsLong flag → key ∉ longPrefixes flag
  single : ∀ key flag, prefixMap key = some (some flag) →
    flag ∈ flags ∧ IsLong flag ∧ key ∈ longPrefixes flag ∧
      ∀ other ∈ flags, IsLong other → key ∈ longPrefixes other → other = flag

theorem mergeFlag_idem (flag : String) (entry : Option (Option String)) :
    mergeFlag flag (mergeFlag flag entry) = mergeFlag flag entry := by
  cases entry with
  | none => exact if_pos rfl
  | some existing =>
    rw [mergeFlag]
    split
    · rename_i hsame
      exact if_pos hsame
    · rfl

theorem foldl_setPrefix (flag : String) (keys : List String) (prefixMap : LongFlagPrefixMap)
    (key : String) : keys.foldl (setPrefix flag) prefixMap key =
      if key ∈ keys then mergeFlag flag (prefixMap key) else prefixMap key := by
  induction keys generalizing prefixMap with
  | nil => rfl
  | cons head keys ih =>
    rw [List.foldl_cons, ih, setPrefix]
    by_cases hhead : key = head
    · subst hhead
      rw [Function.update_self, mergeFlag_idem, ite_self, if_pos List.mem_cons_self]
    · rw [Function.update_of_ne hhead]
      simp only [List.mem_cons, hhead, false_or]

theorem Indexes.add {prefixMap : LongFlagPrefixMap} {flags : List String}
    (h : Indexes prefixMap flags) {flag : String} (hlong : IsLong flag) :
    Indexes ((longPrefixes flag).foldl (setPrefix flag) prefixMap) (flags ++ [flag]) where
  missing key hkey other hother hisLong := by
    rw [foldl_setPrefix] at hkey
    split at hkey
    · cases hentry : prefixMap key with
      | none =>
        rw [hentry] at hkey
        cases hkey
      | some existing =>
        rw [hentry, mergeFlag] at hkey
        split at hkey <;> cases hkey
    · rename_i hnot
      rcases List.mem_append.mp hother with hold | hnew
      · exact h.missing key hkey other hold hisLong
      · rw [List.mem_singleton.mp hnew]
        exact hnot
  single key found hkey := by
    rw [foldl_setPrefix] at hkey
    split at hkey
    · rename_i hmem
      cases hentry : prefixMap key with
      | none =>
        rw [hentry] at hkey
        cases hkey
        refine ⟨List.mem_append_right _ List.mem_cons_self, hlong, hmem, ?_⟩
        intro other hother hisLong hpre
        rcases List.mem_append.mp hother with hold | hnew
        · exact absurd hpre (h.missing key hentry other hold hisLong)
        · exact List.mem_singleton.mp hnew
      | some existing =>
        rw [hentry, mergeFlag] at hkey
        split at hkey
        · rename_i hsame
          cases hkey
          cases hsame
          obtain ⟨hold, -, -, hunique⟩ := h.single key _ hentry
          refine ⟨List.mem_append_left _ hold, hlong, hmem, ?_⟩
          intro other hother hisLong hpre
          rcases List.mem_append.mp hother with hold | hnew
          · exact hunique other hold hisLong hpre
          · exact List.mem_singleton.mp hnew
        · cases hkey
    · rename_i hnot
      obtain ⟨hold, hfound, hpre, hunique⟩ := h.single key found hkey
      refine ⟨List.mem_append_left _ hold, hfound, hpre, ?_⟩
      intro other hother hisLong hpre'
      rcases List.mem_append.mp hother with hold | hnew
      · exact hunique other hold hisLong hpre'
      · rw [List.mem_singleton.mp hnew] at hpre'
        exact absurd hpre' hnot

theorem Indexes.skip {prefixMap : LongFlagPrefixMap} {flags : List String}
    (h : Indexes prefixMap flags) {flag : String} (hlong : ¬ IsLong flag) :
    Indexes prefixMap (flags ++ [flag]) where
  missing key hkey other hother hisLong := by
    rcases List.mem_append.mp hother with hold | hnew
    · exact h.missing key hkey other hold hisLong
    · rw [List.mem_singleton.mp hnew] at hisLong
      exact absurd hisLong hlong
  single key found hkey := by
    obtain ⟨hold, hfound, hpre, hunique⟩ := h.single key found hkey
    refine ⟨List.mem_append_left _ hold, hfound, hpre, ?_⟩
    intro other hother hisLong hpre'
    rcases List.mem_append.mp hother with hold | hnew
    · exact hunique other hold hisLong hpre'
    · rw [List.mem_singleton.mp hnew] at hisLong
      exact absurd hisLong hlong

theorem indexes_buildLongFlagPrefixMap (flags : List String) :
    Indexes (buildLongFlagPrefixMap flags) flags := by
  induction flags using List.reverseRecOn with
  | nil => exact ⟨fun _ _ _ h => absurd h List.not_mem_nil, fun _ _ h => by cases h⟩
  | append_singleton flags flag ih =>
    rw [buildLongFlagPrefixMap, List.foldl_append, List.foldl_cons, List.foldl_nil]
    split
    · rename_i hlong
      rw [Bool.and_eq_true, decide_eq_true_eq] at hlong
      exact ih.add hlong
    · rename_i hlong
      rw [Bool.and_eq_true, decide_eq_true_eq] at hlong
      exact ih.skip hlong

/-! ## The profile as options of a command -/

/-- The precomputed fields, where a profile has them, are those that would be computed. -/
structure SafeBinProfile.Consistent (profile : SafeBinProfile) : Prop where
  known : profile.known = collectKnownLongFlags profile.allowed profile.denied
  knownSet : profile.knownSet = profile.known
  prefixMap : profile.prefixMap = buildLongFlagPrefixMap profile.known

theorem compileSafeBinProfile_consistent (fixture : SafeBinProfileFixture) :
    (compileSafeBinProfile fixture).Consistent := ⟨rfl, rfl, rfl⟩

/-- The flag of a long option. -/
def longFlag (name : List Char) : String := .ofList ('-' :: '-' :: name)

/-- The options of the command, as far as the profile tells. -/
def SafeBinProfile.getopt (profile : SafeBinProfile) : Getopt.Spec where
  long := (profile.known.filter fun flag => 2 < flag.toList.length).map fun flag =>
    flag.toList.drop 2
  longTakesValue name := decide (longFlag name ∈ profile.allowed)
  shortTakesValue c := isShortFlagIn profile.allowed c

theorem startsWith_dashes {flag : String} (h : JsString.startsWith flag "--" = true) :
    flag = longFlag (flag.toList.drop 2) := by
  have hstarts : ['-', '-'] <+: flag.toList := List.isPrefixOf_iff_prefix.mp h
  obtain ⟨rest, hrest⟩ := hstarts
  rw [longFlag, ← String.toList_inj, String.toList_ofList, ← hrest]
  rfl

theorem startsWith_longFlag (name : List Char) :
    JsString.startsWith (longFlag name) "--" = true := by
  have hlist : (longFlag name).toList = '-' :: '-' :: name := String.toList_ofList
  rw [JsString.startsWith, hlist]
  exact List.isPrefixOf_iff_prefix.mpr ⟨name, rfl⟩

theorem drop_longFlag (name : List Char) : (longFlag name).toList.drop 2 = name := by
  rw [longFlag, String.toList_ofList]
  rfl

theorem length_longFlag (name : List Char) :
    (longFlag name).toList.length = name.length + 2 := by
  rw [longFlag, String.toList_ofList]
  rfl

theorem known_startsWith {profile : SafeBinProfile} (hprofile : profile.Consistent)
    {flag : String} (h : flag ∈ profile.known) : JsString.startsWith flag "--" = true := by
  rw [hprofile.known, collectKnownLongFlags, List.mem_dedup, List.mem_filter] at h
  exact h.2

theorem mem_long {profile : SafeBinProfile} (hprofile : profile.Consistent) {name : List Char} :
    name ∈ profile.getopt.long ↔ name ≠ [] ∧ longFlag name ∈ profile.known := by
  show name ∈ (profile.known.filter _).map _ ↔ _
  rw [List.mem_map]
  constructor
  · rintro ⟨flag, hflag, rfl⟩
    rw [List.mem_filter, decide_eq_true_eq] at hflag
    rw [← startsWith_dashes (known_startsWith hprofile hflag.1)]
    refine ⟨fun hempty => ?_, hflag.1⟩
    rw [List.drop_eq_nil_iff] at hempty
    omega
  · rintro ⟨hname, hmem⟩
    refine ⟨longFlag name, ?_, ?_⟩
    · rw [List.mem_filter, decide_eq_true_eq]
      refine ⟨hmem, ?_⟩
      have hpos := List.length_pos_iff.mpr hname
      rw [length_longFlag]
      omega
    · exact drop_longFlag name

theorem long_nodup {profile : SafeBinProfile} (hprofile : profile.Consistent) :
    profile.getopt.long.Nodup := by
  refine List.Nodup.map_on ?_ (List.Nodup.filter _ ?_)
  · intro a ha b hb hab
    rw [List.mem_filter] at ha hb
    rw [startsWith_dashes (known_startsWith hprofile ha.1),
      startsWith_dashes (known_startsWith hprofile hb.1), hab]
  · rw [hprofile.known]
    exact List.nodup_dedup _

theorem resolve_of_canonical {profile : SafeBinProfile} (hprofile : profile.Consistent)
    {name : List Char} {flag : String}
    (h : resolveCanonicalLongFlag profile (longFlag name) = some flag) :
    flag = longFlag (flag.toList.drop 2) ∧
      profile.getopt.resolve name = some (flag.toList.drop 2) := by
  rw [resolveCanonicalLongFlag] at h
  split at h
  · cases h
  · rename_i hlen
    have hname : name ≠ [] := by
      rintro rfl
      exact hlen (by decide)
    split at h
    · rename_i hmem
      cases h
      rw [hprofile.knownSet] at hmem
      rw [drop_longFlag]
      exact ⟨rfl, Getopt.Spec.resolve_of_mem ((mem_long hprofile).mpr ⟨hname, hmem⟩)⟩
    · rw [hprofile.prefixMap, Option.join_eq_some_iff] at h
      obtain ⟨hmem, hlong, hpre, hunique⟩ :=
        (indexes_buildLongFlagPrefixMap profile.known).single _ _ h
      have hflag := startsWith_dashes hlong.1
      have hstarts : ∀ other : String, JsString.startsWith other "--" = true →
          (longFlag name ∈ longPrefixes other ↔ name <+: other.toList.drop 2) := by
        intro other hstart
        rw [mem_longPrefixes, startsWith_dashes hstart, longFlag, longFlag, String.toList_ofList,
          String.toList_ofList, List.cons_prefix_cons, List.cons_prefix_cons]
        have hpos := List.length_pos_iff.mpr hname
        have hlength : 2 < ('-' :: '-' :: name).length := by
          rw [List.length_cons, List.length_cons]
          omega
        exact ⟨fun hpre => hpre.1.2.2, fun hpre => ⟨⟨rfl, rfl, hpre⟩, hlength⟩⟩
      have hnonempty : flag.toList.drop 2 ≠ [] := by
        rw [ne_eq, List.drop_eq_nil_iff]
        exact not_le.mpr hlong.2
      refine ⟨hflag, Getopt.Spec.resolve_of_unique (long_nodup hprofile) ?_ ?_ ?_⟩
      · exact (mem_long hprofile).mpr ⟨hnonempty, hflag ▸ hmem⟩
      · exact (hstarts flag hlong.1).mp hpre
      · intro other hother hpre'
        obtain ⟨hother, hknown⟩ := (mem_long hprofile).mp hother
        have hstart := startsWith_longFlag other
        have hdrop := drop_longFlag other
        have hisLong : IsLong (longFlag other) := by
          refine ⟨hstart, ?_⟩
          have hpos := List.length_pos_iff.mpr hother
          rw [length_longFlag]
          omega
        rw [← hdrop, hunique _ hknown hisLong ((hstarts _ hstart).mpr (hdrop.symm ▸ hpre'))]

/-! ## Tokens -/

theorem splitValue_eq (text : List Char) : Getopt.splitValue text =
    (text.takeWhile fun c => c ≠ '=',
      if '=' ∈ text then some ((text.dropWhile fun c => c ≠ '=').drop 1) else none) := by
  induction text with
  | nil => rfl
  | cons c text ih =>
    by_cases hc : c = '='
    · subst hc
      rfl
    · rw [Getopt.splitValue]
      · rw [ih, List.takeWhile_cons_of_pos (by simpa using hc),
          List.dropWhile_cons_of_pos (by simpa using hc)]
        simp only [List.mem_cons, Ne.symm hc, false_or]
      · exact hc

/-- What a token says of its word. -/
def ExecArgvToken.Of (raw : String) : ExecArgvToken → Prop
  | .empty => raw.toList = []
  | .stdin => raw.toList = ['-']
  | .terminator => raw.toList = ['-', '-']
  | .positional => ∀ cs, raw.toList ≠ '-' :: cs
  | .long flag inlineValue => ∃ text, text ≠ [] ∧ raw.toList = '-' :: '-' :: text ∧
      flag = longFlag (Getopt.splitValue text).1 ∧
      inlineValue = (Getopt.splitValue text).2.map String.ofList
  | .shortCluster cluster => ∃ c cs, c ≠ '-' ∧ cluster = c :: cs ∧ raw.toList = '-' :: c :: cs

theorem parseExecArgvToken_of (raw : String) : (parseExecArgvToken raw).Of raw := by
  rw [parseExecArgvToken]
  split
  · assumption
  · assumption
  · assumption
  · rename_i text htext hraw
    split
    · rename_i hmem
      refine ⟨text, htext, hraw, ?_, ?_⟩
      · rw [splitValue_eq]
        rfl
      · rw [splitValue_eq, if_pos hmem]
        rfl
    · rename_i hmem
      refine ⟨text, htext, hraw, ?_, ?_⟩
      · have hall : (text.takeWhile fun c => c ≠ '=') = text := by
          rw [List.takeWhile_eq_self_iff]
          intro c hc
          exact decide_eq_true fun heq => hmem (heq ▸ hc)
        rw [splitValue_eq]
        show raw = longFlag (text.takeWhile fun c => c ≠ '=')
        rw [hall, longFlag, ← hraw, String.ofList_toList]
      · rw [splitValue_eq, if_neg hmem]
        rfl
  · rename_i cluster hterminator hstdin hlong hraw
    cases cluster with
    | nil => exact absurd rfl hstdin
    | cons c cs =>
      refine ⟨c, cs, ?_, rfl, hraw⟩
      rintro rfl
      exact hlong cs rfl
  · rename_i hnot
    exact fun cs hcs => hnot cs hcs

/-! ## Items -/

/-- No denied option, and only literals. -/
def SafeBinProfile.SafeItem (profile : SafeBinProfile) : Getopt.Item → Prop
  | .long name value => longFlag name ∉ profile.denied ∧
      ∀ text ∈ value, isSafeLiteralToken (.ofList text) = true
  | .short name value => isShortFlagIn profile.denied name = false ∧
      ∀ text ∈ value, isSafeLiteralToken (.ofList text) = true
  | .operand word => isSafeLiteralToken (.ofList word) = true
  | .invalid _ => False

/-- The operand that an item counts as. Empty operands and `-` do not count. -/
def countedOperand : Getopt.Item → Option String
  | .operand word => if word = [] ∨ word = ['-'] then none else some (.ofList word)
  | _ => none

/-- The validator's operands are those of `getopt_long`, and all that this finds is safe. -/
structure Reads (profile : SafeBinProfile) (args positional : List String) : Prop where
  safe : ∀ item ∈ profile.getopt.parse (args.map String.toList), profile.SafeItem item
  operands : (profile.getopt.parse (args.map String.toList)).filterMap countedOperand = positional

theorem Reads.extend {profile : SafeBinProfile} {args rest new positional : List String}
    (h : Reads profile rest positional) (items : List Getopt.Item)
    (hparse : profile.getopt.parse (args.map String.toList) =
      items ++ profile.getopt.parse (rest.map String.toList))
    (hsafe : ∀ item ∈ items, profile.SafeItem item) (hnew : items.filterMap countedOperand = new) :
    Reads profile args (new ++ positional) where
  safe := by
    rw [hparse]
    exact fun item hitem => (List.mem_append.mp hitem).elim (hsafe item) (h.safe item)
  operands := by
    rw [hparse, List.filterMap_append, hnew, h.operands]

theorem isSafeLiteralToken_ofList (raw : String) :
    isSafeLiteralToken (.ofList raw.toList) = isSafeLiteralToken raw := by
  rw [String.ofList_toList]

theorem valid_of_value {value : String} (h : isInvalidValueToken (some value) = false) :
    isSafeLiteralToken value = true := by
  rw [isInvalidValueToken, Bool.or_eq_false_iff] at h
  simpa using h.2

/-! ### Operands -/

theorem reads_nil (profile : SafeBinProfile) : Reads profile [] [] :=
  ⟨fun _ h => absurd h List.not_mem_nil, rfl⟩

theorem Reads.skip {profile : SafeBinProfile} {raw : String} {args positional : List String}
    (h : Reads profile args positional) (hraw : raw.toList = [] ∨ raw.toList = ['-']) :
    Reads profile (raw :: args) positional := by
  have hcount : countedOperand (.operand raw.toList) = none := if_pos hraw
  show Reads profile (raw :: args) ([] ++ positional)
  refine h.extend [.operand raw.toList] ?_ (fun item hitem => ?_) ?_
  · rw [List.map_cons]
    refine Getopt.Spec.parse_operand ?_ _
    rcases hraw with hraw | hraw
    · exact .inr fun cs hcs => by rw [hraw] at hcs; cases hcs
    · exact .inl hraw
  · rw [List.mem_singleton.mp hitem]
    show isSafeLiteralToken (.ofList raw.toList) = true
    rcases hraw with hraw | hraw
    · rw [hraw]
      rfl
    · rw [hraw]
      rfl
  · rw [List.filterMap_cons_none hcount, List.filterMap_nil]

theorem Reads.positional {profile : SafeBinProfile} {raw : String} {args positional : List String}
    (h : Reads profile args positional) (hraw : ∀ cs, raw.toList ≠ '-' :: cs)
    (hempty : raw.toList ≠ []) (hsafe : isSafeLiteralToken raw = true) :
    Reads profile (raw :: args) (raw :: positional) := by
  have hcount : countedOperand (.operand raw.toList) = some raw := by
    rw [countedOperand, if_neg, String.ofList_toList]
    exact fun h => h.elim hempty (hraw [])
  show Reads profile (raw :: args) ([raw] ++ positional)
  refine h.extend [.operand raw.toList] ?_ (fun item hitem => ?_) ?_
  · rw [List.map_cons]
    exact Getopt.Spec.parse_operand (.inr hraw) _
  · rw [List.mem_singleton.mp hitem]
    exact (isSafeLiteralToken_ofList raw).trans hsafe
  · rw [List.filterMap_cons_some hcount, List.filterMap_nil]

theorem collectRest_eq {args positional : List String} (h : collectRest args = some positional) :
    (∀ arg ∈ args, isSafeLiteralToken arg = true) ∧
      (args.map fun arg => Getopt.Item.operand arg.toList).filterMap countedOperand =
        positional := by
  induction args generalizing positional with
  | nil =>
    cases h
    exact ⟨fun _ h => absurd h List.not_mem_nil, rfl⟩
  | cons arg args ih =>
    rw [collectRest] at h
    split at h
    · rename_i harg
      obtain ⟨hsafe, hoperands⟩ := ih h
      rw [Bool.or_eq_true, decide_eq_true_eq, decide_eq_true_eq] at harg
      have hcount : countedOperand (.operand arg.toList) = none := by
        rcases harg with rfl | rfl
        · rfl
        · rfl
      refine ⟨List.forall_mem_cons.mpr ⟨?_, hsafe⟩, ?_⟩
      · rcases harg with rfl | rfl
        · rfl
        · rfl
      · rw [List.map_cons, List.filterMap_cons_none hcount, hoperands]
    · rename_i harg
      split at h
      · rename_i hliteral
        obtain ⟨rest, hrest, rfl⟩ := Option.map_eq_some_iff.mp h
        obtain ⟨hsafe, hoperands⟩ := ih hrest
        rw [Bool.or_eq_true, decide_eq_true_eq, decide_eq_true_eq, not_or] at harg
        have hcount : countedOperand (.operand arg.toList) = some arg := by
          rw [countedOperand, if_neg, String.ofList_toList]
          rintro (hnil | hdash)
          · exact harg.1 (String.toList_inj.mp hnil)
          · exact harg.2 (String.toList_inj.mp hdash)
        refine ⟨List.forall_mem_cons.mpr ⟨hliteral, hsafe⟩, ?_⟩
        rw [List.map_cons, List.filterMap_cons_some hcount, hoperands]
      · cases h

theorem reads_terminator {profile : SafeBinProfile} {raw : String} {args positional : List String}
    (hraw : raw.toList = ['-', '-']) (h : collectRest args = some positional) :
    Reads profile (raw :: args) positional := by
  obtain ⟨hsafe, hoperands⟩ := collectRest_eq h
  have hparse : profile.getopt.parse ((raw :: args).map String.toList) =
      args.map fun arg => Getopt.Item.operand arg.toList := by
    rw [List.map_cons, hraw, Getopt.Spec.parse_terminator, List.map_map]
    rfl
  refine ⟨?_, by rw [hparse, hoperands]⟩
  rw [hparse]
  intro item hitem
  obtain ⟨arg, harg, rfl⟩ := List.mem_map.mp hitem
  exact (isSafeLiteralToken_ofList arg).trans (hsafe arg harg)

/-! ### Options -/

/-- An accepted option: the items `getopt_long` finds in its word, and in the next word if that is
its value. -/
def OptionReads (profile : SafeBinProfile) (word : List Char) (next : Option String) :
    Consumed → Prop
  | .one => ∃ items, (∀ item ∈ items, profile.SafeItem item) ∧
      items.filterMap countedOperand = [] ∧
      ∀ words, profile.getopt.parse (word :: words) = items ++ profile.getopt.parse words
  | .two => ∃ value items, next = some value ∧ (∀ item ∈ items, profile.SafeItem item) ∧
      items.filterMap countedOperand = [] ∧
      ∀ words, profile.getopt.parse (word :: value.toList :: words) =
        items ++ profile.getopt.parse words

theorem forall_mem_single {α : Type} {p : α → Prop} {a : α} (h : p a) : ∀ b ∈ [a], p b :=
  fun _ hb => List.mem_singleton.mp hb ▸ h

theorem consumeLongOptionToken_reads {profile : SafeBinProfile} (hprofile : profile.Consistent)
    {next : Option String} {text : List Char} (htext : text ≠ []) {consumed : Consumed}
    (h : consumeLongOptionToken profile next (longFlag (Getopt.splitValue text).1)
      ((Getopt.splitValue text).2.map String.ofList) = some consumed) :
    OptionReads profile ('-' :: '-' :: text) next consumed := by
  rw [consumeLongOptionToken] at h
  split at h
  · cases h
  · rename_i canonicalFlag hcanonical
    obtain ⟨hflag, hresolve⟩ := resolve_of_canonical hprofile hcanonical
    split at h
    · cases h
    · rename_i hdenied
      rw [hflag] at hdenied
      split at h
      · rename_i inlineValue hinline
        obtain ⟨value, hvalue, rfl⟩ := Option.map_eq_some_iff.mp hinline
        split at h
        · cases h
        · rename_i hallowed
          rw [not_not, hflag] at hallowed
          split at h
          · rename_i hsafe
            cases h
            refine ⟨[.long (canonicalFlag.toList.drop 2) (some value)],
              forall_mem_single ⟨hdenied, ?_⟩, rfl, ?_⟩
            · intro text htext
              cases htext
              exact hsafe
            · exact Getopt.Spec.parse_long_value hresolve hvalue (decide_eq_true hallowed)
          · cases h
      · rename_i hinline
        rw [Option.map_eq_none_iff] at hinline
        split at h
        · rename_i hallowed
          rw [hflag] at hallowed
          cases h
          refine ⟨[.long (canonicalFlag.toList.drop 2) none],
            forall_mem_single ⟨hdenied, nofun⟩, rfl, ?_⟩
          exact Getopt.Spec.parse_long_flag htext hresolve hinline (decide_eq_false hallowed)
        · rename_i hallowed
          rw [not_not, hflag] at hallowed
          split at h
          · cases h
          · rename_i hvalid
            cases h
            cases next with
            | none => exact absurd rfl hvalid
            | some value =>
              refine ⟨value, [.long (canonicalFlag.toList.drop 2) (some value.toList)], rfl,
                forall_mem_single ⟨hdenied, ?_⟩, rfl, ?_⟩
              · intro text htext
                cases htext
                rw [String.ofList_toList]
                exact valid_of_value (Bool.eq_false_iff.mpr hvalid)
              · exact fun words => Getopt.Spec.parse_long_next htext hresolve hinline
                  (decide_eq_true hallowed) value.toList words

/-- The items of an accepted cluster. With `two`, the next word is the value of the last option. -/
def ClusterReads (profile : SafeBinProfile) (next : Option String) (cluster : List Char) :
    Consumed → Prop
  | .one => (profile.getopt.cluster cluster).2 = none
  | .two => ∃ value last, next = some value ∧ (profile.getopt.cluster cluster).2 = some last ∧
      profile.SafeItem (.short last (some value.toList))

theorem consumeShortOptionClusterToken_cluster {profile : SafeBinProfile} {next : Option String}
    {cluster : List Char} {consumed : Consumed}
    (h : consumeShortOptionClusterToken profile next cluster = some consumed) :
    (∀ item ∈ (profile.getopt.cluster cluster).1, profile.SafeItem item) ∧
    (profile.getopt.cluster cluster).1.filterMap countedOperand = [] ∧
    ClusterReads profile next cluster consumed := by
  induction cluster with
  | nil => cases h
  | cons c inlineValue ih =>
    rw [consumeShortOptionClusterToken] at h
    split at h
    · cases h
    · rename_i hdenied
      rw [Bool.not_eq_true] at hdenied
      split at h
      · rename_i hallowed
        rw [Bool.not_eq_true'] at hallowed
        obtain ⟨hsafe, hoperands, hrest⟩ := ih h
        have hcluster : profile.getopt.cluster (c :: inlineValue) =
            (.short c none :: (profile.getopt.cluster inlineValue).1,
              (profile.getopt.cluster inlineValue).2) :=
          if_neg (Bool.eq_false_iff.mp hallowed)
        refine ⟨?_, ?_, ?_⟩
        · rw [hcluster]
          exact List.forall_mem_cons.mpr ⟨⟨hdenied, nofun⟩, hsafe⟩
        · rw [hcluster]
          exact hoperands
        · cases consumed with
          | one => exact (congrArg Prod.snd hcluster).trans hrest
          | two =>
            obtain ⟨value, last, hnext, hlast, hitem⟩ := hrest
            exact ⟨value, last, hnext, (congrArg Prod.snd hcluster).trans hlast, hitem⟩
      · rename_i hallowed
        rw [Bool.not_eq_true', Bool.not_eq_false] at hallowed
        cases inlineValue with
        | nil =>
          have hcluster : profile.getopt.cluster [c] = ([], some c) := if_pos hallowed
          rw [if_neg (not_not_intro rfl)] at h
          split at h
          · cases h
          · rename_i hvalid
            cases h
            cases next with
            | none => exact absurd rfl hvalid
            | some value =>
              rw [hcluster]
              refine ⟨fun _ h => absurd h List.not_mem_nil, rfl, value, c, rfl,
                congrArg Prod.snd hcluster, hdenied, ?_⟩
              intro text htext
              cases htext
              rw [String.ofList_toList]
              exact valid_of_value (Bool.eq_false_iff.mpr hvalid)
        | cons d rest =>
          have hcluster : profile.getopt.cluster (c :: d :: rest) =
              ([.short c (some (d :: rest))], none) := if_pos hallowed
          rw [if_pos (List.cons_ne_nil d rest)] at h
          split at h
          · rename_i hliteral
            cases h
            rw [hcluster]
            refine ⟨forall_mem_single ⟨hdenied, fun text htext => ?_⟩, rfl,
              congrArg Prod.snd hcluster⟩
            cases htext
            exact hliteral
          · cases h

theorem consumeShortOptionClusterToken_reads {profile : SafeBinProfile} {next : Option String}
    {c : Char} {cs : List Char} (hc : c ≠ '-') {consumed : Consumed}
    (h : consumeShortOptionClusterToken profile next (c :: cs) = some consumed) :
    OptionReads profile ('-' :: c :: cs) next consumed := by
  obtain ⟨hsafe, hoperands, hcluster⟩ := consumeShortOptionClusterToken_cluster h
  cases consumed with
  | one => exact ⟨_, hsafe, hoperands, Getopt.Spec.parse_cluster hc hcluster⟩
  | two =>
    obtain ⟨value, last, hnext, hlast, hitem⟩ := hcluster
    refine ⟨value, (profile.getopt.cluster (c :: cs)).1 ++ [.short last (some value.toList)], hnext,
      ?_, ?_, fun words => ?_⟩
    · exact fun item hmem => (List.mem_append.mp hmem).elim (hsafe item)
        (forall_mem_single hitem item)
    · rw [List.filterMap_append, hoperands]
      rfl
    · rw [Getopt.Spec.parse_cluster_next hc hlast, List.append_assoc]
      rfl

/-! ### The loop -/

theorem Reads.option {profile : SafeBinProfile} {raw : String} {args positional : List String}
    {consumed : Consumed} (hoption : OptionReads profile raw.toList args.head? consumed)
    (hone : consumed = .one → Reads profile args positional)
    (htwo : consumed = .two → ∀ value rest, args = value :: rest →
      Reads profile rest positional) : Reads profile (raw :: args) positional := by
  cases consumed with
  | one =>
    obtain ⟨items, hsafe, hoperands, hparse⟩ := hoption
    have hword : profile.getopt.parse ((raw :: args).map String.toList) =
      items ++ profile.getopt.parse (args.map String.toList) := hparse (args.map String.toList)
    exact (hone rfl).extend items hword hsafe hoperands
  | two =>
    obtain ⟨value, items, hnext, hsafe, hoperands, hparse⟩ := hoption
    obtain ⟨rest, rfl⟩ := List.head?_eq_some_iff.mp hnext
    have hwords : profile.getopt.parse ((raw :: value :: rest).map String.toList) =
      items ++ profile.getopt.parse (rest.map String.toList) := hparse (rest.map String.toList)
    exact (htwo rfl value rest rfl).extend items hwords hsafe hoperands

theorem reads_of_collect {profile : SafeBinProfile} (hprofile : profile.Consistent) :
    ∀ (args positional : List String), collectPositionalTokens profile args = some positional →
      Reads profile args positional
  | [], positional, h => by
    cases h
    exact reads_nil profile
  | raw :: args, positional, h => by
    have htoken := parseExecArgvToken_of raw
    rw [collectPositionalTokens] at h
    cases hparse : parseExecArgvToken raw with
    | empty =>
      rw [hparse] at h htoken
      exact (reads_of_collect hprofile args positional h).skip (.inl htoken)
    | stdin =>
      rw [hparse] at h htoken
      exact (reads_of_collect hprofile args positional h).skip (.inr htoken)
    | terminator =>
      rw [hparse] at h htoken
      exact reads_terminator htoken h
    | positional =>
      rw [hparse] at h htoken
      dsimp only at h
      split at h
      · rename_i hsafe
        obtain ⟨rest, hrest, rfl⟩ := Option.map_eq_some_iff.mp h
        have hempty : raw.toList ≠ [] := by
          intro hnil
          rw [parseExecArgvToken, hnil] at hparse
          cases hparse
        exact (reads_of_collect hprofile args rest hrest).positional htoken hempty hsafe
      · cases h
    | long flag inlineValue =>
      rw [hparse] at h htoken
      obtain ⟨text, htext, hraw, rfl, rfl⟩ := htoken
      dsimp only at h
      cases hconsumed : consumeLongOptionToken profile args.head?
          (longFlag (Getopt.splitValue text).1) ((Getopt.splitValue text).2.map String.ofList) with
      | none =>
        rw [hconsumed] at h
        cases h
      | some consumed =>
        rw [hconsumed] at h
        have hoption := consumeLongOptionToken_reads hprofile htext hconsumed
        rw [← hraw] at hoption
        refine Reads.option hoption ?_ ?_
        · rintro rfl
          exact reads_of_collect hprofile args positional h
        · rintro rfl value rest rfl
          exact reads_of_collect hprofile rest positional h
    | shortCluster cluster =>
      rw [hparse] at h htoken
      obtain ⟨c, cs, hc, rfl, hraw⟩ := htoken
      dsimp only at h
      cases hconsumed : consumeShortOptionClusterToken profile args.head? (c :: cs) with
      | none =>
        rw [hconsumed] at h
        cases h
      | some consumed =>
        rw [hconsumed] at h
        have hoption := consumeShortOptionClusterToken_reads hc hconsumed
        rw [← hraw] at hoption
        refine Reads.option hoption ?_ ?_
        · rintro rfl
          exact reads_of_collect hprofile args positional h
        · rintro rfl value rest rfl
          exact reads_of_collect hprofile rest positional h
termination_by args => args.length

/-- **Safe-bin validation is sound.** In accepted arguments `getopt_long` finds no denied option and
nothing it cannot read; every value and operand is a literal, and the operands other than empty ones
and `-` are as many as the profile allows. -/
theorem validateSafeBinArgv_sound {toLowerCase : String → String} {args : List String}
    {profile : SafeBinProfile} {binName : Option String} (hprofile : profile.Consistent)
    (h : validateSafeBinArgv toLowerCase args profile binName = true) :
    (∀ item ∈ profile.getopt.parse (args.map String.toList), profile.SafeItem item) ∧
    profile.minPositional.getD 0 ≤
      ((profile.getopt.parse (args.map String.toList)).filterMap countedOperand).length ∧
    ∀ maxPositional, profile.maxPositional = some maxPositional →
      ((profile.getopt.parse (args.map String.toList)).filterMap countedOperand).length ≤
        maxPositional := by
  rw [validateSafeBinArgv] at h
  cases hcollect : collectPositionalTokens profile args with
  | none =>
    rw [hcollect] at h
    cases h
  | some positional =>
    rw [hcollect] at h
    obtain ⟨hsafe, hoperands⟩ := reads_of_collect hprofile args positional hcollect
    have hcount := (Bool.and_eq_true_iff.mp h).1
    rw [validatePositionalCount, Bool.and_eq_true, decide_eq_true_eq] at hcount
    rw [hoperands]
    refine ⟨hsafe, hcount.1, fun maxPositional hmax => ?_⟩
    have hle := hcount.2
    rw [hmax] at hle
    exact of_decide_eq_true hle

/-! ## The profile of `tail` -/

def tailFixture : SafeBinProfileFixture where
  maxPositional := some 0
  allowedValueFlags := ["--lines", "--bytes", "--sleep-interval", "--max-unchanged-stats", "--pid",
    "-n", "-c"]

/-- `tail --li 3 -qn5`: an abbreviation, a value in the next word, and a cluster. -/
theorem validateSafeBinArgv_sound_tail :
    (compileSafeBinProfile tailFixture).getopt.parse (["--li", "3", "-qn5"].map String.toList) =
      [.long "lines".toList (some ['3']), .short 'q' none, .short 'n' (some ['5'])] ∧
    (∀ item ∈ (compileSafeBinProfile tailFixture).getopt.parse
      (["--li", "3", "-qn5"].map String.toList),
      (compileSafeBinProfile tailFixture).SafeItem item) ∧
    ((compileSafeBinProfile tailFixture).getopt.parse
      (["--li", "3", "-qn5"].map String.toList)).filterMap countedOperand = [] := by
  have hvalid : validateSafeBinArgv id ["--li", "3", "-qn5"] (compileSafeBinProfile tailFixture)
    (some "tail") = true := by decide +kernel
  have hsound := validateSafeBinArgv_sound (compileSafeBinProfile_consistent tailFixture) hvalid
  exact ⟨by decide +kernel, hsound.1,
    List.eq_nil_of_length_eq_zero (Nat.le_zero.mp (hsound.2.2 0 rfl))⟩

/-- `tail -` is accepted: it has one operand, and the profile allows none. -/
theorem stdin_operand_not_counted :
    validateSafeBinArgv id ["-"] (compileSafeBinProfile tailFixture) (some "tail") = true ∧
    (compileSafeBinProfile tailFixture).getopt.parse (["-"].map String.toList) =
      [.operand ['-']] ∧
    (compileSafeBinProfile tailFixture).maxPositional = some 0 :=
  ⟨by decide +kernel, by decide +kernel, rfl⟩

end OpenClaw.Exec
