import Mathlib.Data.Multiset.AddSub
import Mathlib.Data.Multiset.MapFold
import Mathlib.Data.Multiset.UnionInter
import Mathlib.Logic.Relation

/-!
# A ledger of numbered entries

What a queue says about its entries, whatever it is made of: which are queued, which have been taken
off the queue to be started, which run, and which are settled with an outcome. An entry gets its
number when it is accepted, and a `Move` is the smallest thing that can happen to one.

* `Ledger.WellFormed`: no number is in two places, or twice in one.
* `WellFormed.existsUnique_fate`: so an entry has one fate.
* `Fate.Next`: the order fates come in. It has no way back, so an entry starts at most once
  (`Fate.Next.lt`).
* `moves_fate`: however many moves are made, an entry's fate only follows that order.
-/

/-- The entries by where they are, each under its number. `ω` are the outcomes. -/
@[ext]
structure Ledger (ω : Type*) where
  /-- The number of the next entry. -/
  next : Nat
  queued : Multiset Nat
  /-- Taken off the queue and not started yet. -/
  starting : Multiset Nat
  running : Multiset Nat
  /-- Done, with the outcome not reported yet. -/
  settling : Multiset (Nat × ω)
  settled : Multiset (Nat × ω)

/-- Where one entry is. -/
inductive Fate (ω : Type*)
  | queued
  | starting
  | running
  | settling (outcome : ω)
  | settled (outcome : ω)

/-- The outcomes a ledger distinguishes: of an entry that ran, of one that was dropped from the
queue, and of one that was never accepted. -/
structure Outcomes (ω : Type*) where
  ofRun : ω → Prop
  ofDrop : ω → Prop
  ofRefusal : ω → Prop

namespace Ledger

variable {ω : Type*} (outcomes : Outcomes ω)

/-- The smallest changes of a ledger. -/
inductive Move : Ledger ω → Ledger ω → Prop
  | accept (l : Ledger ω) : Move l { l with next := l.next + 1, queued := l.next ::ₘ l.queued }
  | refuse (l : Ledger ω) (outcome : ω) (ho : outcomes.ofRefusal outcome) :
    Move l { l with next := l.next + 1, settled := (l.next, outcome) ::ₘ l.settled }
  /-- A number goes to something that is not an entry. -/
  | skip (l : Ledger ω) : Move l { l with next := l.next + 1 }
  | take (l : Ledger ω) (id : Nat) (rest : Multiset Nat) (h : l.queued = id ::ₘ rest) :
    Move l { l with queued := rest, starting := id ::ₘ l.starting }
  | start (l : Ledger ω) (id : Nat) (rest : Multiset Nat) (h : l.starting = id ::ₘ rest) :
    Move l { l with starting := rest, running := id ::ₘ l.running }
  | drop (l : Ledger ω) (id : Nat) (rest : Multiset Nat) (outcome : ω)
    (h : l.queued = id ::ₘ rest) (ho : outcomes.ofDrop outcome) :
    Move l { l with queued := rest, settled := (id, outcome) ::ₘ l.settled }
  | finish (l : Ledger ω) (id : Nat) (rest : Multiset Nat) (outcome : ω)
    (h : l.running = id ::ₘ rest) (ho : outcomes.ofRun outcome) :
    Move l { l with running := rest, settling := (id, outcome) ::ₘ l.settling }
  | settle (l : Ledger ω) (entry : Nat × ω) (rest : Multiset (Nat × ω))
    (h : l.settling = entry ::ₘ rest) :
    Move l { l with settling := rest, settled := entry ::ₘ l.settled }

/-- Any number of moves. -/
abbrev Moves : Ledger ω → Ledger ω → Prop := Relation.ReflTransGen (Move outcomes)

/-- Every number in the ledger. -/
def total (l : Ledger ω) : Multiset Nat :=
  l.queued + l.starting + l.running + l.settling.map Prod.fst + l.settled.map Prod.fst

structure WellFormed (l : Ledger ω) : Prop where
  nodup : l.total.Nodup
  lt_next : ∀ id ∈ l.total, id < l.next

/-- The entry has the fate. -/
def HasFate (l : Ledger ω) (id : Nat) : Fate ω → Prop
  | .queued => id ∈ l.queued
  | .starting => id ∈ l.starting
  | .running => id ∈ l.running
  | .settling outcome => (id, outcome) ∈ l.settling
  | .settled outcome => (id, outcome) ∈ l.settled

variable {outcomes} {l l' : Ledger ω}

/-! ## Conservation -/

theorem Move.total_cases (h : Move outcomes l l') :
    (l'.next = l.next ∧ l'.total = l.total) ∨
      (l'.next = l.next + 1 ∧ (l'.total = l.total ∨ l'.total = l.next ::ₘ l.total)) := by
  cases h with
  | accept =>
    refine .inr ⟨rfl, .inr ?_⟩
    simp only [total, Multiset.cons_add]
  | refuse outcome =>
    refine .inr ⟨rfl, .inr ?_⟩
    simp only [total, Multiset.map_cons, Multiset.add_cons]
  | skip => exact .inr ⟨rfl, .inl rfl⟩
  | take id rest h =>
    refine .inl ⟨rfl, ?_⟩
    simp only [total, h, Multiset.add_cons, Multiset.cons_add]
  | start id rest h =>
    refine .inl ⟨rfl, ?_⟩
    simp only [total, h, Multiset.add_cons, Multiset.cons_add]
  | drop id rest outcome h =>
    refine .inl ⟨rfl, ?_⟩
    simp only [total, h, Multiset.map_cons, Multiset.add_cons, Multiset.cons_add]
  | finish id rest outcome h =>
    refine .inl ⟨rfl, ?_⟩
    simp only [total, h, Multiset.map_cons, Multiset.add_cons, Multiset.cons_add]
  | settle entry rest h =>
    refine .inl ⟨rfl, ?_⟩
    simp only [total, h, Multiset.map_cons, Multiset.add_cons, Multiset.cons_add]

theorem WellFormed.move (hl : WellFormed l) (h : Move outcomes l l') : WellFormed l' := by
  rcases h.total_cases with ⟨hnext, htotal⟩ | ⟨hnext, htotal | htotal⟩
  · exact ⟨htotal ▸ hl.nodup, htotal ▸ hnext ▸ hl.lt_next⟩
  · refine ⟨htotal ▸ hl.nodup, fun id hid => ?_⟩
    have := hl.lt_next id (htotal ▸ hid)
    omega
  · refine ⟨?_, fun id hid => ?_⟩
    · rw [htotal, Multiset.nodup_cons]
      exact ⟨fun hmem => (hl.lt_next _ hmem).false, hl.nodup⟩
    · rw [htotal, Multiset.mem_cons] at hid
      rcases hid with rfl | hid
      · omega
      · have := hl.lt_next id hid
        omega

theorem WellFormed.moves (hl : WellFormed l) (h : Moves outcomes l l') : WellFormed l' := by
  induction h with
  | refl => exact hl
  | tail _ hmove ih => exact ih.move hmove

/-! ## Fates -/

variable {id : Nat}

theorem mem_map_fst {entries : Multiset (Nat × ω)} :
    id ∈ entries.map Prod.fst ↔ ∃ outcome, (id, outcome) ∈ entries := by
  simp

theorem mem_total : id ∈ l.total ↔ ∃ fate, HasFate l id fate := by
  simp only [total, Multiset.mem_add, mem_map_fst]
  constructor
  · rintro ((((h | h) | h) | ⟨o, h⟩) | ⟨o, h⟩)
    · exact ⟨.queued, h⟩
    · exact ⟨.starting, h⟩
    · exact ⟨.running, h⟩
    · exact ⟨.settling o, h⟩
    · exact ⟨.settled o, h⟩
  · rintro ⟨fate, h⟩
    cases fate with
    | queued => exact .inl (.inl (.inl (.inl h)))
    | starting => exact .inl (.inl (.inl (.inr h)))
    | running => exact .inl (.inl (.inr h))
    | settling o => exact .inl (.inr ⟨o, h⟩)
    | settled o => exact .inr ⟨o, h⟩

theorem outcome_unique {entries : Multiset (Nat × ω)} (h : (entries.map Prod.fst).Nodup)
    {o o' : ω} (ho : (id, o) ∈ entries) (ho' : (id, o') ∈ entries) : o = o' :=
  congrArg Prod.snd (Multiset.inj_on_of_nodup_map h _ ho _ ho' rfl)

/-- The numbers of the entries in the same place as a fate. -/
def part (l : Ledger ω) : Fate ω → Multiset Nat
  | .queued => l.queued
  | .starting => l.starting
  | .running => l.running
  | .settling _ => l.settling.map Prod.fst
  | .settled _ => l.settled.map Prod.fst

theorem HasFate.one_le_count {fate : Fate ω} (h : HasFate l id fate) :
    1 ≤ (l.part fate).count id := by
  rw [Multiset.one_le_count_iff_mem]
  cases fate with
  | queued | starting | running => exact h
  | settling o | settled o => exact mem_map_fst.2 ⟨o, h⟩

/-- **An entry of a well-formed ledger has exactly one fate.** -/
theorem WellFormed.existsUnique_fate (hl : WellFormed l) (hid : id ∈ l.total) :
    ∃! fate, HasFate l id fate := by
  obtain ⟨fate, hfate⟩ := mem_total.1 hid
  refine ⟨fate, hfate, fun fate' hfate' => ?_⟩
  -- its number occurs once in all five parts together
  have honce := Multiset.nodup_iff_count_le_one.1 hl.nodup id
  simp only [total, Multiset.count_add] at honce
  have hsettling : (l.settling.map Prod.fst).Nodup := (Multiset.nodup_add.1
    (Multiset.nodup_add.1 hl.nodup).1).2.1
  have hsettled : (l.settled.map Prod.fst).Nodup := (Multiset.nodup_add.1 hl.nodup).2.1
  have hcount := hfate.one_le_count
  have hcount' := hfate'.one_le_count
  cases fate <;> cases fate' <;> simp only [part] at hcount hcount' <;> first
    | rfl
    | exact congrArg _ (outcome_unique hsettling hfate' hfate)
    | exact congrArg _ (outcome_unique hsettled hfate' hfate)
    | omega

end Ledger

/-! ## The order of fates -/

/-- How one fate follows another. -/
inductive Fate.Next {ω : Type*} (outcomes : Outcomes ω) : Fate ω → Fate ω → Prop
  | take : Next outcomes .queued .starting
  | start : Next outcomes .starting .running
  | drop (o : ω) (ho : outcomes.ofDrop o) : Next outcomes .queued (.settled o)
  | finish (o : ω) (ho : outcomes.ofRun o) : Next outcomes .running (.settling o)
  | settle (o : ω) : Next outcomes (.settling o) (.settled o)

namespace Ledger

variable {ω : Type*} {outcomes : Outcomes ω} {l l' : Ledger ω}

theorem Move.fate (h : Move outcomes l l') {id : Nat} {fate : Fate ω} (hfate : HasFate l id fate) :
    ∃ fate', HasFate l' id fate' ∧ (fate' = fate ∨ Fate.Next outcomes fate fate') := by
  -- what is in a part stays there, unless the move takes it out
  have hsame : HasFate l' id fate →
      ∃ fate', HasFate l' id fate' ∧ (fate' = fate ∨ Fate.Next outcomes fate fate') :=
    fun h => ⟨fate, h, .inl rfl⟩
  cases h with
  | accept =>
    refine hsame ?_
    cases fate <;> simp only [HasFate, Multiset.mem_cons] at hfate ⊢ <;> simp [hfate]
  | refuse outcome =>
    refine hsame ?_
    cases fate <;> simp only [HasFate, Multiset.mem_cons] at hfate ⊢ <;> simp [hfate]
  | skip => exact hsame hfate
  | take taken rest hq =>
    cases fate with
    | queued =>
      rw [HasFate, hq, Multiset.mem_cons] at hfate
      rcases hfate with rfl | hrest
      · exact ⟨.starting, Multiset.mem_cons_self _ _, .inr .take⟩
      · exact ⟨.queued, hrest, .inl rfl⟩
    | starting => exact hsame (Multiset.mem_cons_of_mem hfate)
    | running | settling | settled => exact hsame hfate
  | start started rest hq =>
    cases fate with
    | starting =>
      rw [HasFate, hq, Multiset.mem_cons] at hfate
      rcases hfate with rfl | hrest
      · exact ⟨.running, Multiset.mem_cons_self _ _, .inr .start⟩
      · exact ⟨.starting, hrest, .inl rfl⟩
    | running => exact hsame (Multiset.mem_cons_of_mem hfate)
    | queued | settling | settled => exact hsame hfate
  | drop dropped rest outcome hq ho =>
    cases fate with
    | queued =>
      rw [HasFate, hq, Multiset.mem_cons] at hfate
      rcases hfate with rfl | hrest
      · exact ⟨.settled outcome, Multiset.mem_cons_self _ _, .inr (.drop _ ho)⟩
      · exact ⟨.queued, hrest, .inl rfl⟩
    | settled => exact hsame (Multiset.mem_cons_of_mem hfate)
    | starting | running | settling => exact hsame hfate
  | finish done rest outcome hq ho =>
    cases fate with
    | running =>
      rw [HasFate, hq, Multiset.mem_cons] at hfate
      rcases hfate with rfl | hrest
      · exact ⟨.settling outcome, Multiset.mem_cons_self _ _, .inr (.finish _ ho)⟩
      · exact ⟨.running, hrest, .inl rfl⟩
    | settling => exact hsame (Multiset.mem_cons_of_mem hfate)
    | queued | starting | settled => exact hsame hfate
  | settle entry rest hq =>
    cases fate with
    | settling outcome =>
      rw [HasFate, hq, Multiset.mem_cons] at hfate
      rcases hfate with rfl | hrest
      · exact ⟨.settled outcome, Multiset.mem_cons_self _ _, .inr (.settle _)⟩
      · exact ⟨.settling outcome, hrest, .inl rfl⟩
    | settled => exact hsame (Multiset.mem_cons_of_mem hfate)
    | queued | starting | running => exact hsame hfate

end Ledger
