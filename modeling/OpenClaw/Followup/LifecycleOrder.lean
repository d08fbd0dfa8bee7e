import OpenClaw.Followup.Lifecycle
import OpenClaw.Lib.Lts
import OpenClaw.Lib.Trace

/-!
# One admission at a time

`Ordered` says where the admissions of a lifecycle stand: only the last one can be unsettled, it is
then the one in `admittingFollowupLifecycles`, and the reaction that removes it from there is its
first. All admissions before the last one have failed. Once `onComplete` has been called, all have
settled, and none begins any more.
-/

namespace OpenClaw.Followup.Lifecycle

open State

variable {s t : State} {n call : Nat} {a : Admission} {ok : Bool} {reaction : Reaction}
  {rest : List Reaction}

def Phase.isSettled : Phase → Prop
  | .settled _ => True
  | _ => False

/-- The first of the reactions, and no other, releases the admission. -/
def ReleasesFirst (reactions : List Reaction) : Prop :=
  ∃ call rest, reactions = .release call :: rest ∧ ∀ other, .release other ∉ rest

structure Ordered (s : State) : Prop where
  known : ∀ n, (s.admission n).isSome = true ↔ n < s.begun
  last : ∀ n, s.admitting = some n → n + 1 = s.begun
  releases : ∀ n a, s.admission n = some a → s.admitting = some n → ReleasesFirst a.reactions
  released : ∀ n a, s.admission n = some a → s.admitting ≠ some n →
    a.phase.isSettled ∧ ∀ call, .release call ∉ a.reactions
  failed : ∀ n a, s.admission n = some a → n + 1 < s.begun → a.phase = .settled false
  succeeded : ∀ n a, s.admission n = some a → a.phase = .settled true → s.admitted = true
  finishing : ∀ n a, s.admission n = some a → .finish ∈ a.reactions →
    s.completed = true ∧ n + 1 = s.begun
  called : s.completedCallback = true →
    s.completed = true ∧ ∀ n a, s.admission n = some a → a.phase.isSettled

variable {m : Nat}

theorem setAdmission_admission :
    (s.setAdmission n a).admission m = if m = n then some a else s.admission m := by
  by_cases h : m = n
  · subst h
    simp [setAdmission]
  · simp [setAdmission, h]

theorem setAdmission_some {b : Admission} (hm : (s.setAdmission n a).admission m = some b) :
    (m = n ∧ b = a) ∨ (m ≠ n ∧ s.admission m = some b) := by
  rw [setAdmission_admission] at hm
  by_cases heq : m = n
  · rw [if_pos heq] at hm
    exact Or.inl ⟨heq, (Option.some.inj hm).symm⟩
  · rw [if_neg heq] at hm
    exact Or.inr ⟨heq, hm⟩

theorem setAdmission_isSome (hn : (s.admission n).isSome = true) (m : Nat) :
    ((s.setAdmission n a).admission m).isSome = (s.admission m).isSome := by
  rw [setAdmission_admission]
  by_cases heq : m = n
  · rw [if_pos heq, heq, hn]
    rfl
  · rw [if_neg heq]

theorem Ordered.lt (h : Ordered s) (hn : s.admission n = some a) : n < s.begun :=
  (h.known n).1 (by simp [hn])

theorem Ordered.admitting_of_unsettled (h : Ordered s) (hn : s.admission n = some a)
    (hphase : ¬ a.phase.isSettled) : s.admitting = some n := by
  by_contra hne
  exact hphase (h.released n a hn hne).1

theorem Ordered.not_called (h : Ordered s) (hn : s.admission n = some a)
    (hphase : ¬ a.phase.isSettled) : s.completedCallback = false := by
  rw [← Bool.not_eq_true]
  intro hcalled
  exact hphase ((h.called hcalled).2 n a hn)

/-! ## Admissions -/

theorem Ordered.advance {phase : Phase} {reactions : List Reaction} (h : Ordered s) (next : Phase)
    (hn : s.admission n = some ⟨phase, reactions⟩) (hphase : ¬ phase.isSettled)
    (admitted : Bool) (hadmitted : s.admitted = true → admitted = true)
    (hnext : next = .settled true → admitted = true) :
    Ordered { s.setAdmission n ⟨next, reactions⟩ with admitted := admitted } := by
  have hcurrent := h.admitting_of_unsettled hn hphase
  have hlast := h.last n hcurrent
  have hcases : ∀ m b, (s.setAdmission n ⟨next, reactions⟩).admission m = some b →
      (m = n ∧ b = ⟨next, reactions⟩) ∨ (m ≠ n ∧ s.admission m = some b) :=
    fun m b hm => setAdmission_some hm
  constructor
  · intro m
    show ((s.setAdmission n ⟨next, reactions⟩).admission m).isSome = true ↔ m < s.begun
    rw [setAdmission_isSome (by simp [hn])]
    exact h.known m
  · exact h.last
  · intro m b hm hadmitting
    rcases hcases m b hm with ⟨rfl, rfl⟩ | ⟨hne, hm'⟩
    · exact h.releases m ⟨phase, reactions⟩ hn hadmitting
    · exact h.releases m b hm' hadmitting
  · intro m b hm hadmitting
    rcases hcases m b hm with ⟨rfl, rfl⟩ | ⟨hne, hm'⟩
    · exact absurd hcurrent hadmitting
    · exact h.released m b hm' hadmitting
  · intro m b hm hlt
    rcases hcases m b hm with ⟨rfl, rfl⟩ | ⟨hne, hm'⟩
    · dsimp only [setAdmission] at hlt
      omega
    · exact h.failed m b hm' hlt
  · intro m b hm hsucceeded
    rcases hcases m b hm with ⟨rfl, rfl⟩ | ⟨hne, hm'⟩
    · exact hnext hsucceeded
    · exact hadmitted (h.succeeded m b hm' hsucceeded)
  · intro m b hm hfinish
    rcases hcases m b hm with ⟨rfl, rfl⟩ | ⟨hne, hm'⟩
    · exact h.finishing m ⟨phase, reactions⟩ hn hfinish
    · exact h.finishing m b hm' hfinish
  · intro hcalled
    have hnot := h.not_called hn hphase
    rw [show s.completedCallback = true from hcalled] at hnot
    cases hnot

theorem Ordered.react (h : Ordered s) (hreaction : ∀ call, reaction ≠ .release call)
    (hfinish : reaction = .finish → s.completed = true ∧ n + 1 = s.begun) :
    Ordered (s.react n reaction) := by
  unfold State.react
  cases hn : s.admission n with
  | none => exact h
  | some a =>
    have hcases : ∀ m b, (s.setAdmission n
        { a with reactions := a.reactions ++ [reaction] }).admission m = some b →
        ∃ c, s.admission m = some c ∧ b.phase = c.phase ∧
          (b.reactions = c.reactions ∨
            (m = n ∧ b.reactions = c.reactions ++ [reaction])) := by
      intro m b hm
      rcases setAdmission_some hm with ⟨rfl, rfl⟩ | ⟨-, hm'⟩
      · exact ⟨a, hn, rfl, Or.inr ⟨rfl, rfl⟩⟩
      · exact ⟨b, hm', rfl, Or.inl rfl⟩
    constructor
    · intro m
      show ((s.setAdmission n _).admission m).isSome = true ↔ m < s.begun
      rw [setAdmission_isSome (by simp [hn])]
      exact h.known m
    · exact h.last
    · intro m b hm hadmitting
      obtain ⟨c, hc, -, hsame | ⟨-, hmore⟩⟩ := hcases m b hm
      · rw [hsame]
        exact h.releases m c hc hadmitting
      · obtain ⟨call, rest, heq, hrest⟩ := h.releases m c hc hadmitting
        refine ⟨call, rest ++ [reaction], by rw [hmore, heq]; rfl, fun other hmem => ?_⟩
        rcases List.mem_append.1 hmem with hmem | hmem
        · exact hrest other hmem
        · exact hreaction other (List.mem_singleton.1 hmem).symm
    · intro m b hm hadmitting
      obtain ⟨c, hc, hphase, hsame | ⟨-, hmore⟩⟩ := hcases m b hm
      · rw [hsame, hphase]
        exact h.released m c hc hadmitting
      · obtain ⟨hsettled, hrest⟩ := h.released m c hc hadmitting
        refine ⟨hphase ▸ hsettled, fun call hmem => ?_⟩
        rw [hmore] at hmem
        rcases List.mem_append.1 hmem with hmem | hmem
        · exact hrest call hmem
        · exact hreaction call (List.mem_singleton.1 hmem).symm
    · intro m b hm hlt
      obtain ⟨c, hc, hphase, -⟩ := hcases m b hm
      rw [hphase]
      exact h.failed m c hc hlt
    · intro m b hm hsucceeded
      obtain ⟨c, hc, hphase, -⟩ := hcases m b hm
      exact h.succeeded m c hc (hphase ▸ hsucceeded)
    · intro m b hm hmem
      obtain ⟨c, hc, -, hsame | ⟨heq, hmore⟩⟩ := hcases m b hm
      · exact h.finishing m c hc (hsame ▸ hmem)
      · rw [hmore] at hmem
        rcases List.mem_append.1 hmem with hmem | hmem
        · exact h.finishing m c hc hmem
        · rw [heq]
          exact hfinish (List.mem_singleton.1 hmem).symm
    · intro hcalled
      refine ⟨(h.called hcalled).1, fun m b hm => ?_⟩
      obtain ⟨c, hc, hphase, -⟩ := hcases m b hm
      rw [hphase]
      exact (h.called hcalled).2 m c hc

theorem Ordered.begin (h : Ordered s) (hadmitted : s.admitted = false)
    (hadmitting : s.admitting = none) (hcompleted : s.completed = false) :
    Ordered ({ s with begun := s.begun + 1, admitting := some s.begun }.setAdmission s.begun
      ⟨.scheduled, [.release call]⟩) := by
  have hcases : ∀ m b, ({ s with begun := s.begun + 1, admitting := some s.begun }.setAdmission
      s.begun ⟨.scheduled, [.release call]⟩).admission m = some b →
      (m = s.begun ∧ b = ⟨.scheduled, [.release call]⟩) ∨ (m < s.begun ∧ s.admission m = some b) := by
    intro m b hm
    rcases setAdmission_some hm with hm | ⟨-, hm⟩
    · exact Or.inl hm
    · exact Or.inr ⟨h.lt (s := s) hm, hm⟩
  have hnone : ∀ m, s.admitting ≠ some m := fun m hm => by
    rw [hadmitting] at hm
    cases hm
  constructor
  · intro m
    show (State.admission _ m).isSome = true ↔ m < s.begun + 1
    rw [setAdmission_admission]
    by_cases heq : m = s.begun
    · simp [heq]
    · rw [if_neg heq]
      refine (h.known m).trans ?_
      omega
  · intro m hm
    rw [← Option.some.inj hm]
    rfl
  · intro m b hm heq
    rcases hcases m b hm with ⟨-, rfl⟩ | ⟨hlt, -⟩
    · exact ⟨call, [], rfl, fun other => List.not_mem_nil⟩
    · have := Option.some.inj heq
      omega
  · intro m b hm hne
    rcases hcases m b hm with ⟨rfl, -⟩ | ⟨-, hm'⟩
    · exact absurd rfl hne
    · exact h.released m b hm' (hnone m)
  · intro m b hm hlt
    rcases hcases m b hm with ⟨rfl, -⟩ | ⟨-, hm'⟩
    · dsimp only [setAdmission] at hlt
      omega
    · -- it has settled, and not with success
      obtain ⟨hsettled, -⟩ := h.released m b hm' (hnone m)
      cases hphase : b.phase with
      | settled ok =>
        cases ok with
        | false => rfl
        | true =>
          rw [h.succeeded m b hm' hphase] at hadmitted
          cases hadmitted
      | _ =>
        rw [hphase] at hsettled
        exact hsettled.elim
  · intro m b hm hsucceeded
    rcases hcases m b hm with ⟨-, rfl⟩ | ⟨-, hm'⟩
    · cases hsucceeded
    · exact h.succeeded m b hm' hsucceeded
  · intro m b hm hmem
    rcases hcases m b hm with ⟨-, rfl⟩ | ⟨-, hm'⟩
    · simp at hmem
    · have hcompleted' := (h.finishing m b hm' hmem).1
      rw [hcompleted] at hcompleted'
      cases hcompleted'
  · intro hcalled
    have hcompleted' := (h.called hcalled).1
    rw [hcompleted] at hcompleted'
    cases hcompleted'

/-- What the map holds when the reaction has run. -/
def Reaction.admittingAfter (admitting : Option Nat) : Reaction → Option Nat
  | .release _ => none
  | _ => admitting

theorem Ordered.pop (h : Ordered s)
    (hn : s.admission n = some ⟨.settled ok, reaction :: rest⟩) :
    Ordered { s.setAdmission n ⟨.settled ok, rest⟩ with
      admitting := reaction.admittingAfter s.admitting } := by
  have hcases : ∀ m b, (s.setAdmission n ⟨.settled ok, rest⟩).admission m = some b →
      ∃ c, s.admission m = some c ∧ b.phase = c.phase ∧
        (b.reactions = c.reactions ∨ (m = n ∧ c.reactions = reaction :: b.reactions)) := by
    intro m b hm
    rcases setAdmission_some hm with ⟨rfl, rfl⟩ | ⟨-, hm'⟩
    · exact ⟨⟨.settled ok, reaction :: rest⟩, hn, rfl, Or.inr ⟨rfl, rfl⟩⟩
    · exact ⟨b, hm', rfl, Or.inl rfl⟩
  have hsub : ∀ m b c, s.admission m = some c → (b : Admission).reactions = c.reactions ∨
      (m = n ∧ c.reactions = reaction :: b.reactions) → ∀ r ∈ b.reactions, r ∈ c.reactions := by
    rintro m b c - (hsame | ⟨-, hmore⟩) r hr
    · exact hsame ▸ hr
    · rw [hmore]
      exact List.mem_cons_of_mem _ hr
  -- whether the map still holds an admission
  have hmap : ∀ m, reaction.admittingAfter s.admitting = some m →
      s.admitting = some m ∧ ∀ call, reaction ≠ .release call := by
    intro m hm
    cases reaction with
    | release call => cases hm
    | resume call => exact ⟨hm, nofun⟩
    | finish => exact ⟨hm, nofun⟩
  have hrelease : ∀ call, reaction = .release call → s.admitting = some n := by
    rintro call rfl
    by_contra hne
    exact (h.released n _ hn hne).2 call List.mem_cons_self
  constructor
  · intro m
    show ((s.setAdmission n _).admission m).isSome = true ↔ m < s.begun
    rw [setAdmission_isSome (by simp [hn])]
    exact h.known m
  · intro m hm
    exact h.last m (hmap m hm).1
  · intro m b hm hadmitting
    obtain ⟨hadmitting', hnot⟩ := hmap m hadmitting
    obtain ⟨c, hc, -, hsame | ⟨heq, hmore⟩⟩ := hcases m b hm
    · rw [hsame]
      exact h.releases m c hc hadmitting'
    · obtain ⟨call, rest', heq', -⟩ := h.releases m c hc hadmitting'
      rw [hmore] at heq'
      exact absurd (List.cons.inj heq').1 (hnot call)
  · intro m b hm hadmitting
    obtain ⟨c, hc, hphase, hreactions⟩ := hcases m b hm
    by_cases hcurrent : s.admitting = some m
    · -- the admission is the one that is released now
      obtain ⟨call, rest', heq', hrest⟩ := h.releases m c hc hcurrent
      cases reaction with
      | release call' =>
        have hmn : m = n := by
          have hn' := hrelease call' rfl
          rw [hcurrent] at hn'
          exact Option.some.inj hn'
        subst hmn
        rw [hn] at hc
        have hc' := Option.some.inj hc
        subst hc'
        refine ⟨by rw [hphase]; trivial, fun other hmem => ?_⟩
        rw [show b = ⟨.settled ok, rest⟩ by
          rw [setAdmission_admission, if_pos rfl] at hm
          exact (Option.some.inj hm).symm] at hmem
        rw [(List.cons.inj heq').2] at hmem
        exact hrest other hmem
      | resume _ => exact absurd hcurrent hadmitting
      | finish => exact absurd hcurrent hadmitting
    · obtain ⟨hsettled, hrest⟩ := h.released m c hc hcurrent
      exact ⟨hphase ▸ hsettled, fun call hmem => hrest call (hsub m b c hc hreactions _ hmem)⟩
  · intro m b hm hlt
    obtain ⟨c, hc, hphase, -⟩ := hcases m b hm
    rw [hphase]
    exact h.failed m c hc hlt
  · intro m b hm hsucceeded
    obtain ⟨c, hc, hphase, -⟩ := hcases m b hm
    exact h.succeeded m c hc (hphase ▸ hsucceeded)
  · intro m b hm hmem
    obtain ⟨c, hc, -, hreactions⟩ := hcases m b hm
    exact h.finishing m c hc (hsub m b c hc hreactions _ hmem)
  · intro hcalled
    refine ⟨(h.called hcalled).1, fun m b hm => ?_⟩
    obtain ⟨c, hc, hphase, -⟩ := hcases m b hm
    rw [hphase]
    exact (h.called hcalled).2 m c hc

theorem Ordered.finish (h : Ordered s) (hcompleted : s.completed = true)
    (hsettled : ∀ n a, s.admission n = some a → a.phase.isSettled) : Ordered s.finish := by
  unfold State.finish
  by_cases hcalled : s.completedCallback = true
  · rw [if_pos hcalled]
    exact h
  · rw [if_neg hcalled]
    exact { h with called := fun _ => ⟨hcompleted, hsettled⟩ }

end OpenClaw.Followup.Lifecycle
