import Mathlib.Logic.Basic

/-!
# Programs that ask their environment

`Interact C A ε α` is a program that asks commands `c : C`, goes on with each answer in `A c`, and
returns a value or throws. What the environment does is left open: a program is a tree, and one
model of a function serves every reading of its commands.

A `Protocol` says, for a ghost state, which commands are allowed and how an answer moves the state.
`Wp P m k Q` says that `m` keeps to the protocol from `k` on, whatever the answers, and ends in `Q`;
there is one rule for each way to build a program. `Wp.steps` reads it along a list of answers, and
`Wp` of a program that has reached a command gives what is allowed there and what holds after it, so
that the invariants of many programs that run at once can be stated with it.
-/

/-- A program that asks commands. -/
inductive Interact (C : Type) (A : C → Type) (ε α : Type)
  | ret (a : α)
  | fail (e : ε)
  | ask (c : C) (k : A c → Interact C A ε α)

namespace Interact

variable {C : Type} {A : C → Type} {ε α β κ : Type}

protected def bind : Interact C A ε α → (α → Interact C A ε β) → Interact C A ε β
  | ret a, f => f a
  | fail e, _ => fail e
  | ask c k, f => ask c fun a => (k a).bind f

protected def tryCatch : Interact C A ε α → (ε → Interact C A ε α) → Interact C A ε α
  | ret a, _ => ret a
  | fail e, handler => handler e
  | ask c k, handler => ask c fun a => (k a).tryCatch handler

/-- The program with its error as a value. -/
protected def attempt : Interact C A ε α → Interact C A ε (Except ε α)
  | ret a => ret (.ok a)
  | fail e => ret (.error e)
  | ask c k => ask c fun a => (k a).attempt

instance : Monad (Interact C A ε) where
  pure := ret
  bind := Interact.bind

/-- An answer that may be an error. -/
def ofExcept : Except ε α → Interact C A ε α
  | .ok a => ret a
  | .error e => fail e

/-! ## Steps -/

/-- A command with the answer to it. -/
abbrev Answered (C : Type) (A : C → Type) := (c : C) × A c

/-- A program goes through answered commands to what is left of it. -/
inductive Steps : Interact C A ε α → List (Answered C A) → Interact C A ε α → Prop
  | nil {m : Interact C A ε α} : Steps m [] m
  | cons {c : C} {f : A c → Interact C A ε α} {a : A c} {trace : List (Answered C A)}
      {m : Interact C A ε α} : Steps (f a) trace m → Steps (.ask c f) (⟨c, a⟩ :: trace) m

/-- A program is given a list of answers, each as a function of the command. -/
def feed : Interact C A ε α → List ((c : C) → A c) → Interact C A ε α
  | ask c f, answer :: rest => (f (answer c)).feed rest
  | m, _ => m

/-- The commands a program asks on the way. -/
def transcript : Interact C A ε α → List ((c : C) → A c) → List (Answered C A)
  | ask c f, answer :: rest => ⟨c, answer c⟩ :: (f (answer c)).transcript rest
  | _, _ => []

theorem steps_feed (m : Interact C A ε α) (answers : List ((c : C) → A c)) :
    Steps m (m.transcript answers) (m.feed answers) := by
  induction answers generalizing m with
  | nil => cases m <;> exact .nil
  | cons answer rest ih =>
    cases m with
    | ret a => exact .nil
    | fail e => exact .nil
    | ask c f => exact .cons (ih _)

theorem forall_transcript {M : (c : C) → A c → Prop} {answers : List ((c : C) → A c)}
    (h : ∀ answer ∈ answers, ∀ c, M c (answer c)) (m : Interact C A ε α) :
    ∀ x ∈ m.transcript answers, M x.1 x.2 := by
  induction answers generalizing m with
  | nil => cases m <;> exact fun x hx => by cases hx
  | cons answer rest ih =>
    cases m with
    | ret a => exact fun x hx => by cases hx
    | fail e => exact fun x hx => by cases hx
    | ask c f =>
      intro x hx
      obtain rfl | hx := List.mem_cons.1 hx
      · exact h answer List.mem_cons_self c
      · exact ih (fun a ha => h a (List.mem_cons_of_mem answer ha)) (f (answer c)) x hx

def result? : Interact C A ε α → Option α
  | ret a => some a
  | _ => none

variable {m : Interact C A ε α}

variable {a : α}

theorem result?_eq_some (h : m.result? = some a) : m = ret a := by
  cases m with
  | ret b =>
    cases h
    rfl
  | fail e => cases h
  | ask c f => cases h

theorem steps_of_feed (answers : List ((c : C) → A c)) (h : (m.feed answers).result? = some a) :
    Steps m (m.transcript answers) (ret a) := by
  rw [← result?_eq_some h]
  exact steps_feed m answers

/-! ## Protocols -/

structure Protocol (C : Type) (A : C → Type) (κ : Type) where
  allowed : κ → C → Prop
  next : κ → (c : C) → A c → κ → Prop

/-- The program keeps to the protocol and ends in `Q`. -/
def Wp (P : Protocol C A κ) : Interact C A ε α → κ → (Except ε α → κ → Prop) → Prop
  | ret a, k, Q => Q (.ok a) k
  | fail e, k, Q => Q (.error e) k
  | ask c f, k, Q => P.allowed k c ∧ ∀ a k', P.next k c a k' → Wp P (f a) k' Q

section Rules

variable {P : Protocol C A κ} {m : Interact C A ε α} {k : κ} {Q R : Except ε α → κ → Prop}

theorem Wp.mono (h : Wp P m k Q) (hQ : ∀ r k, Q r k → R r k) : Wp P m k R := by
  induction m generalizing k with
  | ret a => exact hQ _ _ h
  | fail e => exact hQ _ _ h
  | ask c f ih => exact ⟨h.1, fun a k' hnext => ih a (h.2 a k' hnext)⟩

variable {a : α}

variable {e : ε}

/-- What is left to show of a sequence after its first program. -/
def Then (P : Protocol C A κ) (f : α → Interact C A ε β) (Q : Except ε β → κ → Prop)
    (r : Except ε α) (k : κ) : Prop :=
  match r with
  | .ok a => Wp P (f a) k Q
  | .error e => Q (.error e) k

variable {f : α → Interact C A ε β}

theorem wp_bind {Q : Except ε β → κ → Prop} : Wp P (m >>= f) k Q ↔ Wp P m k (Then P f Q) := by
  show Wp P (m.bind f) k Q ↔ _
  induction m generalizing k with
  | ret a => exact Iff.rfl
  | fail e => exact Iff.rfl
  | ask c g ih =>
    constructor
    · exact fun h => ⟨h.1, fun a k' hnext => (ih a).1 (h.2 a k' hnext)⟩
    · exact fun h => ⟨h.1, fun a k' hnext => (ih a).2 (h.2 a k' hnext)⟩

/-- What is left to show of a guarded program after its body. -/
def Or (P : Protocol C A κ) (handler : ε → Interact C A ε α) (Q : Except ε α → κ → Prop)
    (r : Except ε α) (k : κ) : Prop :=
  match r with
  | .ok a => Q (.ok a) k
  | .error e => Wp P (handler e) k Q

variable {handler : ε → Interact C A ε α}

theorem wp_tryCatch : Wp P (m.tryCatch handler) k Q ↔ Wp P m k (Or P handler Q) := by
  induction m generalizing k with
  | ret a => exact Iff.rfl
  | fail e => exact Iff.rfl
  | ask c g ih =>
    constructor
    · exact fun h => ⟨h.1, fun a k' hnext => (ih a).1 (h.2 a k' hnext)⟩
    · exact fun h => ⟨h.1, fun a k' hnext => (ih a).2 (h.2 a k' hnext)⟩

theorem wp_attempt {Q : Except ε (Except ε α) → κ → Prop} :
    Wp P m.attempt k Q ↔ Wp P m k fun r k => Q (.ok r) k := by
  induction m generalizing k with
  | ret a => exact Iff.rfl
  | fail e => exact Iff.rfl
  | ask c g ih =>
    constructor
    · exact fun h => ⟨h.1, fun a k' hnext => (ih a).1 (h.2 a k' hnext)⟩
    · exact fun h => ⟨h.1, fun a k' hnext => (ih a).2 (h.2 a k' hnext)⟩

theorem wp_ofExcept {r : Except ε α} :
    Wp P (ofExcept r : Interact C A ε α) k Q ↔ Q r k := by
  cases r <;> exact Iff.rfl

theorem Wp.bind {Q : Except ε β → κ → Prop} (h : Wp P m k R)
    (herror : ∀ e k, R (.error e) k → Q (.error e) k) (hok : ∀ a k, R (.ok a) k → Wp P (f a) k Q) :
    Wp P (m >>= f) k Q := by
  rw [wp_bind]
  refine h.mono fun r k hr => ?_
  cases r with
  | error e => exact herror e k hr
  | ok a => exact hok a k hr

theorem Wp.tryCatch (h : Wp P m k R) (herror : ∀ e k, R (.error e) k → Wp P (handler e) k Q)
    (hok : ∀ a k, R (.ok a) k → Q (.ok a) k) : Wp P (m.tryCatch handler) k Q := by
  rw [wp_tryCatch]
  refine h.mono fun r k hr => ?_
  cases r with
  | error e => exact herror e k hr
  | ok a => exact hok a k hr

/-- A ghost state moves along answered commands, each of them allowed. -/
inductive Follows (P : Protocol C A κ) : κ → List (Answered C A) → κ → Prop
  | nil {k : κ} : Follows P k [] k
  | cons {k k' k'' : κ} {c : C} {a : A c} {trace : List (Answered C A)} :
      P.next k c a k' → Follows P k' trace k'' → Follows P k (⟨c, a⟩ :: trace) k''

theorem Wp.steps {m' : Interact C A ε α} {trace : List (Answered C A)} {k' : κ}
    (h : Wp P m k Q) (hsteps : Steps m trace m') (hfollows : Follows P k trace k') :
    Wp P m' k' Q := by
  induction hsteps generalizing k with
  | nil =>
    cases hfollows
    exact h
  | cons _ ih =>
    cases hfollows with
    | cons hnext hrest => exact ih (h.2 _ _ hnext) hrest

end Rules

/-! ## Protocols without a state -/

/-- The protocol of answers that meet a condition, with one condition on each command. -/
def stateless (allowed : C → Prop) (answers : (c : C) → A c → Prop) : Protocol C A Unit where
  allowed _ c := allowed c
  next _ c a _ := answers c a

variable {allowed : C → Prop} {answers : (c : C) → A c → Prop} {trace : List (Answered C A)}

theorem follows_stateless (h : ∀ x ∈ trace, answers x.1 x.2) :
    Follows (stateless allowed answers) () trace () := by
  induction trace with
  | nil => exact .nil
  | cons x rest ih =>
    exact .cons (h x List.mem_cons_self) (ih fun y hy => h y (List.mem_cons_of_mem x hy))

theorem Wp.allowed_of_mem {m' : Interact C A ε α} {Q : Except ε α → Unit → Prop}
    (h : Wp (stateless allowed answers) m () Q) (hsteps : Steps m trace m')
    (hanswers : ∀ x ∈ trace, answers x.1 x.2) : ∀ x ∈ trace, allowed x.1 := by
  induction hsteps with
  | nil => exact fun x hx => by cases hx
  | cons _ ih =>
    intro x hx
    have hhead := hanswers _ List.mem_cons_self
    obtain rfl | hx := List.mem_cons.1 hx
    · exact h.1
    · exact ih (h.2 _ () hhead) (fun y hy => hanswers y (List.mem_cons_of_mem _ hy)) x hx

end Interact
