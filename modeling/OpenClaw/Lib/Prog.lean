import Mathlib.Logic.Basic

/-!
# Programs over a state

`Prog σ α` is a program over a state `σ` that returns a value, throws, or runs out of the fuel its
loops were given. The state it leaves is kept in each case, so that one can speak of runs that do
not return.

`Triple P m Q E` says that from a state in `P` the program `m` returns only values and states in
`Q`, and stops without a value only in states in `E`. There is one rule for each way to build a
program (`Triple.pure`, `Triple.bind`, `Triple.get`, `Triple.modify`, `Triple.throw`, `Triple.ite`,
`Triple.tryCatch`), a rule of consequence, and one for the loop over a list (`Triple.forEach`). A
program that keeps every member of a family of assertions is `Keeps`, with the same rules.
-/

/-- Why a program has no value. -/
inductive Stop
  | rejected (message : String)
  | outOfFuel
  deriving DecidableEq

/-- A program over a state. -/
def Prog (σ α : Type) : Type := σ → Except Stop α × σ

namespace Prog

variable {σ α β : Type}

protected def pure (a : α) : Prog σ α := fun s => (.ok a, s)

protected def bind (m : Prog σ α) (f : α → Prog σ β) : Prog σ β := fun s =>
  match m s with
  | (.ok a, t) => f a t
  | (.error e, t) => (.error e, t)

instance : Monad (Prog σ) where
  pure := Prog.pure
  bind := Prog.bind

/-- The state. -/
def get : Prog σ σ := fun s => (.ok s, s)

def modify (f : σ → σ) : Prog σ Unit := fun s => (.ok (), f s)

def throw (e : Stop) : Prog σ α := fun s => (.error e, s)

/-- What a computation gives or throws. -/
def ofExcept : Except String α → Prog σ α
  | .ok a => Prog.pure a
  | .error message => throw (.rejected message)

/-- A program whose throw is handled. -/
def tryCatch (m : Prog σ α) (handle : Stop → Prog σ α) : Prog σ α := fun s =>
  match m s with
  | (.ok a, t) => (.ok a, t)
  | (.error e, t) => handle e t

/-- A program that is not run when the flag is set. -/
def skipWhen (flag : Bool) (m : Prog σ Unit) : Prog σ Unit := if flag then pure () else m

/-- A loop over a list. -/
def forEach (xs : List β) (f : β → Prog σ Unit) : Prog σ Unit :=
  match xs with
  | [] => pure ()
  | x :: rest => do
    f x
    forEach rest f

/-! ## Runs of a sequence -/

variable {f : α → Prog σ β} {s : σ} {a : α}

theorem bind_of_ok {m : Prog σ α} {t : σ} (h : m s = (.ok a, t)) : (m >>= f) s = f a t := by
  show (match m s with
    | (.ok a, t) => f a t
    | (.error e, t) => (.error e, t)) = f a t
  rw [h]

variable {u : σ}

theorem bind_eq_ok {m : Prog σ α} {b : β} (h : (m >>= f) s = (.ok b, u)) :
    ∃ a t, m s = (.ok a, t) ∧ f a t = (.ok b, u) := by
  cases hm : m s with
  | mk r t =>
    cases r with
    | ok a =>
      rw [bind_of_ok hm] at h
      exact ⟨a, t, rfl, h⟩
    | error e =>
      have herror : (m >>= f) s = (.error e, t) := by
        show (match m s with
          | (.ok a, t) => f a t
          | (.error e, t) => (.error e, t)) = (.error e, t)
        rw [hm]
      rw [herror] at h
      cases h

variable {e : Stop}

theorem bind_eq_error {m : Prog σ α} (h : (m >>= f) s = (.error e, u)) :
    m s = (.error e, u) ∨ ∃ a t, m s = (.ok a, t) ∧ f a t = (.error e, u) := by
  cases hm : m s with
  | mk r t =>
    cases r with
    | ok a =>
      rw [bind_of_ok hm] at h
      exact .inr ⟨a, t, rfl, h⟩
    | error e' =>
      have herror : (m >>= f) s = (.error e', t) := by
        show (match m s with
          | (.ok a, t) => f a t
          | (.error e, t) => (.error e, t)) = (.error e', t)
        rw [hm]
      rw [herror] at h
      cases h
      exact .inl rfl

/-! ## Triples -/

structure Triple (P : σ → Prop) (m : Prog σ α) (Q : α → σ → Prop) (E : σ → Prop) : Prop where
  ok : ∀ {s a t}, P s → m s = (.ok a, t) → Q a t
  error : ∀ {s e t}, P s → m s = (.error e, t) → E t

variable {P P' : σ → Prop} {Q Q' : α → σ → Prop} {E : σ → Prop} {m : Prog σ α}

theorem Triple.pure (h : ∀ s, P s → Q a s) : Triple P (pure a) Q E where
  ok hs heq := by
    cases heq
    exact h _ hs
  error _ heq := nomatch heq

theorem Triple.bind {R : α → σ → Prop} {Q : β → σ → Prop} (hm : Triple P m R E)
    (hf : ∀ a, Triple (R a) (f a) Q E) : Triple P (m >>= f) Q E := by
  -- the state after `m`, and what the rest makes of it
  have hbind : ∀ s, (m >>= f) s = match m s with
      | (.ok a, t) => f a t
      | (.error e, t) => (.error e, t) := fun _ => rfl
  constructor
  · intro s b t hs heq
    rw [hbind] at heq
    cases hms : m s with
    | mk r u =>
      rw [hms] at heq
      cases r with
      | ok a => exact (hf a).ok (hm.ok hs hms) heq
      | error e => cases heq
  · intro s e t hs heq
    rw [hbind] at heq
    cases hms : m s with
    | mk r u =>
      rw [hms] at heq
      cases r with
      | ok a => exact (hf a).error (hm.ok hs hms) heq
      | error e' =>
        cases heq
        exact hm.error hs hms

theorem Triple.conseq (hm : Triple P' m Q' E) (hpre : ∀ s, P s → P' s)
    (hpost : ∀ a s, Q' a s → Q a s) : Triple P m Q E where
  ok hs heq := hpost _ _ (hm.ok (hpre _ hs) heq)
  error hs heq := hm.error (hpre _ hs) heq

theorem Triple.pre (hm : Triple P' m Q E) (h : ∀ s, P s → P' s) : Triple P m Q E :=
  hm.conseq h fun _ _ hq => hq

theorem Triple.post (hm : Triple P m Q' E) (h : ∀ a s, Q' a s → Q a s) : Triple P m Q E :=
  hm.conseq (fun _ hp => hp) h

theorem Triple.fact {p : Prop} (h : p → Triple P m Q E) : Triple (fun s => p ∧ P s) m Q E where
  ok hs heq := (h hs.1).ok hs.2 heq
  error hs heq := (h hs.1).error hs.2 heq

theorem Triple.exists {P : β → σ → Prop} (h : ∀ b, Triple (P b) m Q E) :
    Triple (fun s => ∃ b, P b s) m Q E where
  ok hs heq := hs.elim fun b hb => (h b).ok hb heq
  error hs heq := hs.elim fun b hb => (h b).error hb heq

theorem Triple.get : Triple P (get : Prog σ σ) (fun a s => s = a ∧ P s) E where
  ok hs heq := by
    cases heq
    exact ⟨rfl, hs⟩
  error _ heq := nomatch heq

theorem Triple.modify {Q : Unit → σ → Prop} {f : σ → σ} (h : ∀ s, P s → Q () (f s)) :
    Triple P (modify f) Q E where
  ok hs heq := by
    cases heq
    exact h _ hs
  error _ heq := nomatch heq

theorem Triple.throw (h : ∀ s, P s → E s) : Triple P (throw e : Prog σ α) Q E where
  ok _ heq := nomatch heq
  error hs heq := by
    cases heq
    exact h _ hs

theorem Triple.ofExcept {x : Except String α} (hok : ∀ a, x = .ok a → ∀ s, P s → Q a s)
    (herror : ∀ s, P s → E s) : Triple P (ofExcept x : Prog σ α) Q E := by
  cases x with
  | ok a => exact .pure (hok a rfl)
  | error message => exact .throw herror

theorem Triple.tryCatch {F : σ → Prop} {handle : Stop → Prog σ α} (hm : Triple P m Q F)
    (hhandle : ∀ e, Triple F (handle e) Q E) : Triple P (tryCatch m handle) Q E := by
  have htry : ∀ s, Prog.tryCatch m handle s = match m s with
      | (.ok a, t) => (.ok a, t)
      | (.error e, t) => handle e t := fun _ => rfl
  constructor
  · intro s a t hs heq
    rw [htry] at heq
    cases hms : m s with
    | mk r u =>
      rw [hms] at heq
      cases r with
      | ok b =>
        cases heq
        exact hm.ok hs hms
      | error e => exact (hhandle e).ok (hm.error hs hms) heq
  · intro s e t hs heq
    rw [htry] at heq
    cases hms : m s with
    | mk r u =>
      rw [hms] at heq
      cases r with
      | ok b => cases heq
      | error e' => exact (hhandle e').error (hm.error hs hms) heq

variable {c : Prop} {n : Prog σ α}

theorem Triple.ite [Decidable c] (hm : c → Triple P m Q E) (hn : ¬ c → Triple P n Q E) :
    Triple P (if c then m else n) Q E := by
  by_cases h : c
  · rw [if_pos h]
    exact hm h
  · rw [if_neg h]
    exact hn h

/-- **The loop rule.** The invariant speaks of the elements done and those left. -/
theorem Triple.forEach {f : β → Prog σ Unit} {I : List β → List β → σ → Prop}
    (hstep : ∀ xs x rest, Triple (I xs (x :: rest)) (f x) (fun _ => I (xs ++ [x]) rest) E)
    (xs ys : List β) : Triple (I xs ys) (Prog.forEach ys f) (fun _ => I (xs ++ ys) []) E := by
  induction ys generalizing xs with
  | nil => exact .pure fun s hs => by rwa [List.append_nil]
  | cons y rest ih =>
    refine .bind (hstep xs y rest) fun _ => ?_
    have h := ih (xs ++ [y])
    rwa [List.append_assoc, List.singleton_append] at h

/-! ## Facts about the value alone -/

/-- Every value `m` returns is in `R`. -/
def Returns (m : Prog σ α) (R : α → Prop) : Prop := ∀ s a t, m s = (.ok a, t) → R a

variable {R : α → Prop}

theorem Returns.pure (h : R a) : Returns (Pure.pure a : Prog σ α) R := by
  intro s b t heq
  cases heq
  exact h

theorem Returns.bind {m : Prog σ α} {R' : α → Prop} {R : β → Prop} (hm : Returns m R')
    (hf : ∀ a, R' a → Returns (f a) R) : Returns (m >>= f) R := by
  intro s b t heq
  have hbind : (m >>= f) s = match m s with
      | (.ok a, t) => f a t
      | (.error e, t) => (.error e, t) := rfl
  rw [hbind] at heq
  cases hms : m s with
  | mk r u =>
    rw [hms] at heq
    cases r with
    | ok a => exact hf a (hm _ _ _ hms) _ _ _ heq
    | error e => cases heq

theorem Returns.after {m : Prog σ α} {R : β → Prop} (hf : ∀ a, Returns (f a) R) :
    Returns (m >>= f) R :=
  Returns.bind (fun _ _ _ _ => trivial) fun a (_ : True) => hf a

theorem Returns.ite [Decidable c] {m : Prog σ α} (hm : Returns m R) (hn : Returns n R) :
    Returns (if c then m else n) R := by
  by_cases h : c
  · rw [if_pos h]
    exact hm
  · rw [if_neg h]
    exact hn

theorem Triple.returns {m : Prog σ α} {E : σ → Prop} (h : Triple P m Q E) (hr : Returns m R) :
    Triple P m (fun a s => R a ∧ Q a s) E where
  ok hs heq := ⟨hr _ _ _ heq, h.ok hs heq⟩
  error := h.error

/-! ## Programs that keep a family of assertions -/

/-- `m` keeps each `I i`, and stops without a value only in `E i`. -/
def Keeps {ι : Type} (I E : ι → σ → Prop) (m : Prog σ α) : Prop :=
  ∀ i, Triple (I i) m (fun _ => I i) (E i)

section Keeps

variable {ι : Type} {I E : ι → σ → Prop} {m : Prog σ α}

theorem Keeps.pure (a : α) : Keeps I E (Pure.pure a : Prog σ α) := fun _ => .pure fun _ hs => hs

theorem Keeps.bind (hm : Keeps I E m) (hf : ∀ a, Keeps I E (f a)) :
    Keeps I E (m >>= f) := fun i => (hm i).bind fun a => hf a i

theorem Keeps.get : Keeps I E (Prog.get : Prog σ σ) := fun _ => Triple.get.post fun _ _ hs => hs.2

theorem Keeps.throw (h : ∀ i s, I i s → E i s) (e : Stop) : Keeps I E (Prog.throw e : Prog σ α) :=
  fun i => .throw (h i)

theorem Keeps.ite {c : Prop} [Decidable c] {n : Prog σ α} (hm : Keeps I E m) (hn : Keeps I E n) :
    Keeps I E (if c then m else n) := fun i => .ite (fun _ => hm i) fun _ => hn i

theorem Keeps.forEach {f : β → Prog σ Unit} (hf : ∀ b, Keeps I E (f b)) (xs : List β) :
    Keeps I E (Prog.forEach xs f) :=
  fun i => Triple.forEach (I := fun _ _ => I i) (fun _ x _ => hf x i) [] xs

theorem Keeps.skipWhen {m : Prog σ Unit} (hm : Keeps I E m) (flag : Bool) :
    Keeps I E (Prog.skipWhen flag m) := .ite (.pure ()) hm

end Keeps

end Prog
