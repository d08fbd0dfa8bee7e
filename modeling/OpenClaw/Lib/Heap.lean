import Mathlib.Data.List.Basic

/-!
# Objects under references

The objects of one kind a program has made, each under its reference. An object is written in place,
and a copy is a new object: a write to the one does not touch the other.

* `readAll_cloneAll`: a copy reads as its originals did.
* `read_modify_of_ne`, `read_cloneAll_of_lt`: what a write or a copy leaves as it was.
-/

/-- A reference to an object. -/
abbrev Ref := Nat

structure Heap (α : Type) where
  objects : List α := []

namespace Heap

variable {α : Type}

def size (h : Heap α) : Nat := h.objects.length

/-- The object of a reference; there is none for a reference that was not given out. -/
def read (h : Heap α) (r : Ref) : Option α := h.objects[r]?

/-- A new object. Its reference is the size of the heap before. -/
def alloc (h : Heap α) (a : α) : Heap α := ⟨h.objects ++ [a]⟩

/-- An object is changed in place. -/
def modify (h : Heap α) (r : Ref) (f : α → α) : Heap α := ⟨h.objects.modify r f⟩

def readAll (h : Heap α) (rs : List Ref) : List α := rs.filterMap h.read

/-- Copies of objects, one after the other. -/
def cloneAll (h : Heap α) (as : List α) : Heap α := ⟨h.objects ++ as⟩

/-- The references of the copies. -/
def cloneRefs (h : Heap α) (as : List α) : List Ref := List.range' h.size as.length

variable {h : Heap α} {r q : Ref} {rs : List Ref} {a : α} {as : List α} {f : α → α}

@[simp] theorem size_alloc : (h.alloc a).size = h.size + 1 := by simp [alloc, size]

@[simp] theorem size_modify : (h.modify r f).size = h.size := by simp [modify, size]

@[simp] theorem size_cloneAll : (h.cloneAll as).size = h.size + as.length := by
  simp [cloneAll, size]

theorem read_alloc_self : (h.alloc a).read h.size = some a := by simp [alloc, size, read]

theorem read_alloc_of_lt (hr : r < h.size) : (h.alloc a).read r = h.read r := by
  exact List.getElem?_append_left hr

theorem read_modify_self : (h.modify r f).read r = (h.read r).map f := by simp [modify, read]

theorem read_modify_of_ne (hq : q ≠ r) : (h.modify r f).read q = h.read q := by
  simp [modify, read, hq.symm]

theorem read_cloneAll_of_lt (hr : r < h.size) : (h.cloneAll as).read r = h.read r := by
  exact List.getElem?_append_left hr

theorem exists_read (hr : r < h.size) : ∃ a, h.read r = some a :=
  ⟨h.objects[r], List.getElem?_eq_getElem hr⟩

theorem readAll_congr {h' : Heap α} (heq : ∀ r ∈ rs, h'.read r = h.read r) :
    h'.readAll rs = h.readAll rs :=
  List.filterMap_congr heq

theorem mem_cloneRefs : r ∈ h.cloneRefs as ↔ h.size ≤ r ∧ r < h.size + as.length := by
  simp [cloneRefs]

theorem readAll_cloneAll (h : Heap α) (as : List α) :
    (h.cloneAll as).readAll (h.cloneRefs as) = as := by
  induction as generalizing h with
  | nil => rfl
  | cons a rest ih =>
    have hrest : h.cloneAll (a :: rest) = (h.alloc a).cloneAll rest := by
      simp [cloneAll, alloc]
    have hrefs : h.cloneRefs (a :: rest) = h.size :: (h.alloc a).cloneRefs rest := by
      simp [cloneRefs, List.range'_succ]
    have hfirst : ((h.alloc a).cloneAll rest).read h.size = some a := by
      rw [read_cloneAll_of_lt (by simp)]
      exact read_alloc_self
    rw [hrest, hrefs, readAll, List.filterMap_cons_some hfirst]
    exact congrArg (a :: ·) (ih (h.alloc a))

end Heap
