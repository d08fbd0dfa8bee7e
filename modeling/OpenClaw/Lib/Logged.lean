import OpenClaw.Lib.Except

/-!
# Computations that log and may throw

A computation has the events it logged, also when it throws in the end.

* `result_bind_eq_ok`, `result_bind_eq_error`: how a sequence ends.
* `Logs`: a property of every event, kept by sequences (`Logs.bind`).
-/

/-- What a computation logged, and how it ended. -/
structure Logged (ω ε α : Type) where
  log : List ω
  result : Except ε α

namespace Logged

variable {ω ε α β : Type}

/-- The computation that logs one event. -/
def perform (event : ω) : Logged ω ε Unit := ⟨[event], .ok ()⟩

def fail (e : ε) : Logged ω ε α := ⟨[], .error e⟩

def ofExcept (x : Except ε α) : Logged ω ε α := ⟨[], x⟩

protected def bind (x : Logged ω ε α) (f : α → Logged ω ε β) : Logged ω ε β :=
  match x.result with
  | .ok a => ⟨x.log ++ (f a).log, (f a).result⟩
  | .error e => ⟨x.log, .error e⟩

instance : Monad (Logged ω ε) where
  pure a := ⟨[], .ok a⟩
  bind := Logged.bind

variable {x : Logged ω ε α} {f : α → Logged ω ε β} {a : α} {b : β} {e : ε} {event : ω}

@[simp] theorem result_pure : (pure a : Logged ω ε α).result = .ok a := rfl

@[simp] theorem result_ofExcept {x : Except ε α} :
    (ofExcept x : Logged ω ε α).result = x := rfl

theorem result_bind_of_ok (h : x.result = .ok a) : (x >>= f).result = (f a).result := by
  change (Logged.bind x f).result = _
  rw [Logged.bind, h]

theorem result_bind_of_error (h : x.result = .error e) : (x >>= f).result = .error e := by
  change (Logged.bind x f).result = _
  rw [Logged.bind, h]

theorem result_bind_eq_ok :
    (x >>= f).result = .ok b ↔ ∃ a, x.result = .ok a ∧ (f a).result = .ok b := by
  cases h : x.result with
  | ok a => simp [result_bind_of_ok h]
  | error e => simp [result_bind_of_error h]

theorem result_bind_eq_error :
    (x >>= f).result = .error e ↔
      x.result = .error e ∨ ∃ a, x.result = .ok a ∧ (f a).result = .error e := by
  cases h : x.result with
  | ok a => simp [result_bind_of_ok h]
  | error e' => simp [result_bind_of_error h]

theorem mem_log_bind :
    event ∈ (x >>= f).log ↔ event ∈ x.log ∨ ∃ a, x.result = .ok a ∧ event ∈ (f a).log := by
  change event ∈ (Logged.bind x f).log ↔ _
  unfold Logged.bind
  cases h : x.result <;> simp

/-- Every event that is logged has the property. -/
def Logs (P : ω → Prop) (x : Logged ω ε α) : Prop := ∀ event ∈ x.log, P event

variable {P : ω → Prop}

theorem Logs.bind (hx : Logs P x) (hf : ∀ a, x.result = .ok a → Logs P (f a)) :
    Logs P (x >>= f) := by
  intro event hevent
  obtain h | ⟨a, ha, h⟩ := mem_log_bind.1 hevent
  · exact hx event h
  · exact hf a ha event h

theorem logs_pure : Logs P (pure a : Logged ω ε α) := List.forall_mem_nil P

theorem logs_fail : Logs P (fail e : Logged ω ε α) := List.forall_mem_nil P

theorem logs_ofExcept {x : Except ε α} : Logs P (ofExcept x : Logged ω ε α) := List.forall_mem_nil P

theorem logs_perform (h : P event) : Logs P (perform event : Logged ω ε Unit) :=
  List.forall_mem_singleton.2 h

end Logged
