import OpenClaw.AutoReply.KeyChains
import Mathlib.Data.List.Induction
import Mathlib.Data.List.Perm.Basic
import Mathlib.Data.List.Pairwise

/-!
# The items of a debouncer

`Delivered` says where the items of a key are: the ones that reached `onFlush`, then the ones that
wait in a slot, are in the order of arrival, and with the ones that were cancelled they are all that
arrived, each once.
-/

namespace OpenClaw.AutoReply

/-- The items of a slot that its task has not looked at. -/
def KeyTask.waits (task : KeyTask) : List Nat :=
  if task.phase = .queued ∨ task.phase = .awaitsReady then task.items else []

def KeyTask.waitsFor (key : Option String) (task : KeyTask) : List Nat :=
  if some task.key = key then task.waits else []

/-- The items of a key that wait in a slot. -/
def waiting (key : Option String) (tasks : List KeyTask) : List Nat :=
  tasks.flatMap (KeyTask.waitsFor key)

/-- The items of a key that the calls of a log got. -/
def ofKey (key : Option String) (log : List (Option String × List Nat)) : List Nat :=
  log.flatMap fun entry => if entry.1 = key then entry.2 else []

/-- The items of a key that arrived. -/
def arrived (key : Option String) (arrivals : List (Option String)) : List Nat :=
  (arrivals.zipIdx.filter fun arrival => decide (arrival.1 = key)).map Prod.snd

structure Delivered (tasks : List KeyTask) (arrivals : List (Option String))
    (flushed cancelled : List (Option String × List Nat)) : Prop where
  sorted : ∀ key, (ofKey key flushed ++ waiting key tasks).Pairwise (· < ·)
  placed : ∀ key, (ofKey key flushed ++ ofKey key cancelled ++ waiting key tasks).Perm
    (arrived key arrivals)

variable {tasks : List KeyTask} {arrivals : List (Option String)}
  {flushed cancelled log : List (Option String × List Nat)} {key other : Option String}
  {i : Nat} {task next : KeyTask} {items : List Nat}

/-! ## Logs and slots by key -/

theorem ofKey_append_self : ofKey key (log ++ [(key, items)]) = ofKey key log ++ items := by
  rw [ofKey, List.flatMap_append, List.flatMap_singleton, if_pos rfl, ofKey]

theorem ofKey_append_ne (h : other ≠ key) : ofKey key (log ++ [(other, items)]) = ofKey key log := by
  rw [ofKey, List.flatMap_append, List.flatMap_singleton, if_neg h, List.append_nil, ofKey]

theorem waiting_append (key : Option String) (tasks : List KeyTask) (next : KeyTask) :
    waiting key (tasks ++ [next]) = waiting key tasks ++ next.waitsFor key := by
  rw [waiting, List.flatMap_append, List.flatMap_singleton, waiting]

theorem waitsFor_self (task : KeyTask) : task.waitsFor (some task.key) = task.waits := if_pos rfl

theorem waitsFor_ne (h : some task.key ≠ key) : task.waitsFor key = [] := if_neg h

theorem waits_of_queued (h : task.phase = .queued) : task.waits = task.items := if_pos (.inl h)

theorem waits_of_awaitsReady (h : task.phase = .awaitsReady) : task.waits = task.items :=
  if_pos (.inr h)

theorem waits_of_flushing (h : task.phase = .flushing) : task.waits = [] := by
  rw [KeyTask.waits, h]
  rfl

theorem waits_of_done (h : task.phase = .done) : task.waits = [] := by
  rw [KeyTask.waits, h]
  rfl

theorem waiting_split (key : Option String) (h : tasks[i]? = some task) :
    waiting key tasks = waiting key (tasks.take i) ++
      (task.waitsFor key ++ waiting key (tasks.drop (i + 1))) := by
  obtain ⟨hlt, rfl⟩ := List.getElem?_eq_some_iff.1 h
  conv_lhs => rw [← List.take_append_drop i tasks]
  rw [waiting, List.flatMap_append, List.drop_eq_getElem_cons hlt, List.flatMap_cons]
  rfl

theorem waiting_set (key : Option String) (h : tasks[i]? = some task) (next : KeyTask) :
    waiting key (tasks.set i next) = waiting key (tasks.take i) ++
      (next.waitsFor key ++ waiting key (tasks.drop (i + 1))) := by
  rw [waiting_split key (getElem?_set_of_some h next), List.take_set_of_le (Nat.le_refl i),
    List.drop_set_of_lt (Nat.lt_succ_self i)]

theorem waiting_eq_nil (h : ∀ task ∈ tasks, some task.key = key → task.waits = []) :
    waiting key tasks = [] := by
  rw [waiting, List.flatMap_eq_nil_iff]
  intro task htask
  by_cases hkey : some task.key = key
  · rw [KeyTask.waitsFor, if_pos hkey, h task htask hkey]
  · exact waitsFor_ne hkey

theorem waiting_take_eq_nil {keyChains : AList fun _ : String => Nat}
    (hc : Chained tasks keyChains) (h : SettledBefore tasks task.key i) :
    waiting (some task.key) (tasks.take i) = [] := by
  refine waiting_eq_nil fun other hother hkey => ?_
  obtain ⟨j, hj⟩ := List.mem_iff_getElem?.1 hother
  rw [List.getElem?_take] at hj
  split at hj
  · exact waits_of_done ((hc.ok j other hj).settled (h j other hj ‹_› (Option.some.inj hkey)))
  · cases hj

theorem waiting_drop_eq_nil {k : String} (h : LastOf tasks k i) :
    waiting (some k) (tasks.drop (i + 1)) = [] := by
  refine waiting_eq_nil fun other hother hkey => ?_
  obtain ⟨j, hj⟩ := List.mem_iff_getElem?.1 hother
  rw [List.getElem?_drop] at hj
  exact absurd (Option.some.inj hkey) (h.2 (i + 1 + j) other hj (by omega))

/-! ## Arrivals -/

theorem arrived_append (key : Option String) (arrivals : List (Option String))
    (next : Option String) :
    arrived key (arrivals ++ [next]) =
      arrived key arrivals ++ if next = key then [arrivals.length] else [] := by
  rw [arrived, List.zipIdx_append, List.filter_append, List.map_append, ← arrived, Nat.zero_add]
  by_cases h : next = key
  · rw [if_pos h]
    simp [h]
  · rw [if_neg h]
    simp [h]

theorem lt_of_mem_arrived {m : Nat} (h : m ∈ arrived key arrivals) : m < arrivals.length := by
  obtain ⟨⟨k, j⟩, hmem, rfl⟩ := List.mem_map.1 h
  exact List.snd_lt_of_mem_zipIdx (List.mem_filter.1 hmem).1

theorem nodup_arrived (key : Option String) (arrivals : List (Option String)) :
    (arrived key arrivals).Nodup := by
  induction arrivals using List.reverseRecOn with
  | nil => exact List.nodup_nil
  | append_singleton arrivals next ih =>
    rw [arrived_append]
    split
    · refine List.nodup_append.2 ⟨ih, List.nodup_singleton _, fun a ha b hb hab => ?_⟩
      rw [List.mem_singleton.1 hb] at hab
      exact absurd (lt_of_mem_arrived ha) (hab ▸ Nat.lt_irrefl _)
    · rw [List.append_nil]
      exact ih

theorem perm_middle_log (a b c : List Nat) : (a ++ b ++ c).Perm (b ++ (a ++ c)) :=
  (List.perm_append_comm.append_right c).trans (.of_eq (List.append_assoc b a c))

namespace Delivered

theorem initial : Delivered [] [] [] [] where
  sorted := fun _ => List.Pairwise.nil
  placed := fun _ => .refl _

variable {tasks' : List KeyTask}

section

variable (h : Delivered tasks arrivals flushed cancelled)
include h

theorem of_waiting_eq (hw : ∀ key, waiting key tasks' = waiting key tasks) :
    Delivered tasks' arrivals flushed cancelled where
  sorted := fun key => hw key ▸ h.sorted key
  placed := fun key => hw key ▸ h.placed key

theorem set (hi : tasks[i]? = some task) (hkey : next.key = task.key)
    (hwaits : next.waits = task.waits) : Delivered (tasks.set i next) arrivals flushed cancelled :=
  h.of_waiting_eq fun key => by
    have hsame : next.waitsFor key = task.waitsFor key := by
      rw [KeyTask.waitsFor, KeyTask.waitsFor, hkey, hwaits]
    rw [waiting_set key hi, waiting_split key hi, hsame]

theorem flush {keyChains : AList fun _ : String => Nat} (hc : Chained tasks keyChains)
    (hi : tasks[i]? = some task) (hbefore : SettledBefore tasks task.key i)
    (hkey : next.key = task.key) (hwaits : task.waits = task.items) (hnext : next.waits = []) :
    Delivered (tasks.set i next) arrivals (flushed ++ [(some task.key, task.items)]) cancelled := by
  have hmoves : ∀ key, ofKey key (flushed ++ [(some task.key, task.items)]) ++
      waiting key (tasks.set i next) = ofKey key flushed ++ waiting key tasks := fun key => by
    have hnextFor : next.waitsFor key = [] := by
      rw [KeyTask.waitsFor, hnext]
      exact ite_self _
    rw [waiting_set key hi, waiting_split key hi, hnextFor]
    by_cases hk : some task.key = key
    · subst hk
      rw [ofKey_append_self, waitsFor_self, hwaits, waiting_take_eq_nil hc hbefore,
        List.append_assoc]
      rfl
    · rw [ofKey_append_ne hk, waitsFor_ne hk]
  refine ⟨fun key => (hmoves key).symm ▸ h.sorted key, fun key => ?_⟩
  refine (perm_middle_log _ _ _).trans ?_
  rw [hmoves]
  exact (perm_middle_log _ _ _).symm.trans (h.placed key)

theorem cancel (hi : tasks[i]? = some task) (hkey : next.key = task.key)
    (hwaits : task.waits = task.items) (hnext : next.waits = []) :
    Delivered (tasks.set i next) arrivals flushed (cancelled ++ [(some task.key, task.items)]) := by
  have hnextFor : ∀ key, next.waitsFor key = [] := fun key => by
    rw [KeyTask.waitsFor, hnext]
    exact ite_self _
  refine ⟨fun key => ?_, fun key => ?_⟩
  · have hsorted := h.sorted key
    rw [waiting_split key hi] at hsorted
    rw [waiting_set key hi, hnextFor]
    refine hsorted.sublist ?_
    exact ((List.sublist_append_right _ _).append_left _).append_left _
  · have hplaced := h.placed key
    rw [waiting_split key hi] at hplaced
    rw [waiting_set key hi, hnextFor]
    refine List.Perm.trans ?_ hplaced
    by_cases hk : some task.key = key
    · subst hk
      rw [ofKey_append_self, waitsFor_self, hwaits]
      simp only [List.append_assoc, List.nil_append]
      refine (List.Perm.append_left _ (List.Perm.append_left _ ?_))
      exact List.perm_append_comm_assoc _ _ _
    · rw [ofKey_append_ne hk, waitsFor_ne hk]

theorem lt_of_mem {m : Nat} (hm : m ∈ ofKey key flushed ++ waiting key tasks) :
    m < arrivals.length := by
  refine lt_of_mem_arrived ((h.placed key).mem_iff.1 ?_)
  rcases List.mem_append.1 hm with hm | hm
  · exact List.mem_append_left _ (List.mem_append_left _ hm)
  · exact List.mem_append_right _ hm

theorem arrive {flushed' : List (Option String × List Nat)} (next : Option String)
    (hself : ofKey next flushed' ++ waiting next tasks' =
      ofKey next flushed ++ waiting next tasks ++ [arrivals.length])
    (hne : ∀ key, next ≠ key → ofKey key flushed' ++ waiting key tasks' =
      ofKey key flushed ++ waiting key tasks) :
    Delivered tasks' (arrivals ++ [next]) flushed' cancelled := by
  refine ⟨fun key => ?_, fun key => (perm_middle_log _ _ _).trans ?_⟩
  · by_cases hk : next = key
    · subst hk
      rw [hself, List.pairwise_append]
      refine ⟨h.sorted next, List.pairwise_singleton _ _, fun m hm n hn => ?_⟩
      rw [List.mem_singleton.1 hn]
      exact h.lt_of_mem hm
    · rw [hne key hk]
      exact h.sorted key
  · rw [arrived_append]
    by_cases hk : next = key
    · subst hk
      rw [hself, if_pos rfl, ← List.append_assoc]
      exact ((perm_middle_log _ _ _).symm.trans (h.placed next)).append_right _
    · rw [hne key hk, if_neg hk, List.append_nil]
      exact (perm_middle_log _ _ _).symm.trans (h.placed key)

theorem arrive_flushed (next : Option String) (hnone : waiting next tasks = []) :
    Delivered tasks (arrivals ++ [next]) (flushed ++ [(next, [arrivals.length])]) cancelled := by
  refine h.arrive next ?_ fun key hk => by rw [ofKey_append_ne hk]
  rw [ofKey_append_self, hnone, List.append_nil, List.append_nil]

theorem arrive_pushed (hwaits : next.waits = [arrivals.length]) :
    Delivered (tasks ++ [next]) (arrivals ++ [some next.key]) flushed cancelled := by
  refine h.arrive (some next.key) ?_ fun key hk => ?_
  · rw [waiting_append, waitsFor_self, hwaits, List.append_assoc]
  · rw [waiting_append, waitsFor_ne hk, List.append_nil]

theorem arrive_joined (hi : tasks[i]? = some task) (hlast : LastOf tasks task.key i)
    (hkey : next.key = task.key) (hwaits : next.waits = task.waits ++ [arrivals.length]) :
    Delivered (tasks.set i next) (arrivals ++ [some task.key]) flushed cancelled := by
  refine h.arrive (some task.key) ?_ fun key hk => ?_
  · have hnext : next.waitsFor (some task.key) = task.waits ++ [arrivals.length] := by
      rw [← hkey, waitsFor_self, hwaits]
    rw [waiting_set _ hi, waiting_split _ hi, waiting_drop_eq_nil hlast, hnext, waitsFor_self]
    simp only [List.append_assoc, List.append_nil]
  · rw [waiting_set _ hi, waiting_split _ hi, waitsFor_ne hk, waitsFor_ne (hkey ▸ hk)]

end

end Delivered

end OpenClaw.AutoReply
