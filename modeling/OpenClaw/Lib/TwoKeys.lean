import Mathlib.Data.Set.Basic
import Mathlib.Logic.Relation

/-!
# Records with two optional keys

A record may carry a value of a first key, of a second, of both or of none. Two records overlap
where they share a value. A chain of overlapping records can lead away from where it began, since
each step may go by the other key; where the values of the two keys correspond one to one in the set
the records are taken from, no record on the chain differs from the first in either key.
-/

namespace TwoKeys

variable {γ α β : Type}

/-- The two values do not differ. -/
def Agrees (a b : Option α) : Prop := ∀ x, a = some x → ∀ y, b = some y → x = y

theorem agrees_none_left (b : Option α) : Agrees none b := fun _ hx => by cases hx

section Keys

variable (first : γ → Option α) (second : γ → Option β)

/-- Two records share a value of a key. -/
def Shares (key : γ → Option α) (c d : γ) : Prop := ∃ x, key c = some x ∧ key d = some x

def Overlap (c d : γ) : Prop := Shares first c d ∨ Shares second c d

/-- Records that share a value of one key do not differ in the other. -/
structure OneToOne (S : Set γ) : Prop where
  of_first : ∀ c ∈ S, ∀ d ∈ S, Shares first c d → Agrees (second c) (second d)
  of_second : ∀ c ∈ S, ∀ d ∈ S, Shares second c d → Agrees (first c) (first d)

/-- There is a chain of overlapping records of the set. -/
def Linked (S : Set γ) : γ → γ → Prop :=
  Relation.ReflTransGen fun c d => d ∈ S ∧ Overlap first second c d

/-- A value of the first key that belongs to the record: its own, or that of a record with the same
second key. -/
def Belongs (S : Set γ) (r : γ) (x : α) : Prop :=
  first r = some x ∨ ∃ e ∈ S, first e = some x ∧ Shares second e r

end Keys

variable {first : γ → Option α} {second : γ → Option β} {S : Set γ} {r c d : γ}

theorem OneToOne.swap (h : OneToOne first second S) : OneToOne second first S :=
  ⟨h.of_second, h.of_first⟩

theorem Belongs.eq (h : OneToOne first second S) (hr : r ∈ S) {x y : α}
    (hx : Belongs first second S r x) (hy : first r = some y) : x = y := by
  obtain hx | ⟨e, he, hex, hshares⟩ := hx
  · exact Option.some.inj (hx.symm.trans hy)
  · exact h.of_second e he r hr hshares x hex y hy

theorem Belongs.other (h : OneToOne first second S) (hd : d ∈ S) {x : α} {y : β}
    (hx : Belongs first second S r x) (hdx : first d = some x) (hdy : second d = some y) :
    Belongs second first S r y := by
  obtain hx | ⟨e, he, hex, y', hey, hry⟩ := hx
  · exact .inr ⟨d, hd, hdy, x, hdx, hx⟩
  · have hsame : y' = y := h.of_first e he d hd ⟨x, hex, hdx⟩ y' hey y hdy
    subst hsame
    exact .inl hry

/-- Both keys of a record belong to `r`. -/
def BothBelong (first : γ → Option α) (second : γ → Option β) (S : Set γ) (r c : γ) : Prop :=
  (∀ x, first c = some x → Belongs first second S r x) ∧
    ∀ y, second c = some y → Belongs second first S r y

theorem BothBelong.of_shares (h : OneToOne first second S) (hd : d ∈ S)
    (hc : BothBelong first second S r c) (hshares : Shares first c d) :
    BothBelong first second S r d := by
  obtain ⟨x, hcx, hdx⟩ := hshares
  have hx := hc.1 x hcx
  constructor
  · intro x' hdx'
    have hsame : x = x' := Option.some.inj (hdx.symm.trans hdx')
    subst hsame
    exact hx
  · intro y hdy
    exact hx.other h hd hdx hdy

theorem BothBelong.swap (h : BothBelong first second S r c) : BothBelong second first S r c :=
  ⟨h.2, h.1⟩

theorem Linked.bothBelong (h : OneToOne first second S) (hlinked : Linked first second S r c) :
    BothBelong first second S r c := by
  induction hlinked with
  | refl => exact ⟨fun _ hx => .inl hx, fun _ hy => .inl hy⟩
  | tail _ hstep ih =>
    obtain ⟨hd, hfirst | hsecond⟩ := hstep
    · exact ih.of_shares h hd hfirst
    · exact (ih.swap.of_shares h.swap hd hsecond).swap

/-- **A chain stays with its first record.** -/
theorem Linked.agrees (h : OneToOne first second S) (hr : r ∈ S)
    (hlinked : Linked first second S r c) :
    Agrees (first r) (first c) ∧ Agrees (second r) (second c) := by
  have hboth := hlinked.bothBelong h
  constructor
  · intro x hrx x' hcx
    exact ((hboth.1 x' hcx).eq h hr hrx).symm
  · intro y hry y' hcy
    exact ((hboth.2 y' hcy).eq h.swap hr hry).symm

theorem Linked.step (hlinked : Linked first second S r c) (hd : d ∈ S)
    (hoverlap : Overlap first second c d) : Linked first second S r d :=
  hlinked.tail ⟨hd, hoverlap⟩

end TwoKeys
