import OpenClaw.AutoReply.InboundDebounce

/-!
# Key chains of the debouncer

* `Chained`: a slot runs only when every earlier slot of its key has settled, and `keyChains` names
  the last slot of each key that has one unsettled.
* `Buffered`: the buffer of a key is the last slot of its key, has a timer and is not released; a
  slot that is not released has one of these or a call that will release it.
-/

namespace OpenClaw.AutoReply

/-- The flags of a slot agree with its phase. -/
structure KeyTask.Ok (task : KeyTask) : Prop where
  settled : task.settled = true → task.phase = .done
  done : task.phase = .done → task.settled = true ∨ task.cleaned = false
  cleaned : task.cleaned = true → task.phase = .done
  held : task.readyReleased = false →
    task.reserved = true ∧ (task.phase = .queued ∨ task.phase = .awaitsReady)

/-- A slot is the last one of its key. -/
def LastOf (tasks : List KeyTask) (key : String) (i : Nat) : Prop :=
  (∃ task, tasks[i]? = some task ∧ task.key = key) ∧
    ∀ (j : Nat) (other : KeyTask), tasks[j]? = some other → i < j → other.key ≠ key

/-- Every slot of the key before `i` has settled. -/
def SettledBefore (tasks : List KeyTask) (key : String) (i : Nat) : Prop :=
  ∀ (j : Nat) (other : KeyTask), tasks[j]? = some other → j < i → other.key = key →
    other.settled = true

/-- A slot that waits for a slot from `i` on. -/
def QueuedBehind (tasks : List KeyTask) (i j : Nat) (task : KeyTask) : Prop :=
  task.phase = .queued ∧ ∃ p previous, task.previous = some p ∧ tasks[p]? = some previous ∧
    previous.key = task.key ∧ i ≤ p ∧ p < j

structure Chained (tasks : List KeyTask) (keyChains : AList fun _ : String => Nat) : Prop where
  ok : ∀ (i : Nat) (task : KeyTask), tasks[i]? = some task → task.Ok
  previous : ∀ (i p : Nat) (task : KeyTask), tasks[i]? = some task → task.previous = some p →
    p < i ∧ ∃ previous, tasks[p]? = some previous ∧ previous.key = task.key
  behind : ∀ (i j : Nat) (a b : KeyTask), tasks[i]? = some a → tasks[j]? = some b → i < j →
    a.key = b.key → a.settled = true ∨ QueuedBehind tasks i j b
  last : ∀ (key : String) (i : Nat), keyChains.lookup key = some i → LastOf tasks key i
  free : ∀ (key : String), keyChains.lookup key = none →
    ∀ (i : Nat) (task : KeyTask), tasks[i]? = some task → task.key = key → task.settled = true

variable {tasks : List KeyTask} {keyChains : AList fun _ : String => Nat} {key : String}
  {i j : Nat} {task other : KeyTask}

theorem getElem?_set_cases {next : KeyTask} (h : (tasks.set i next)[j]? = some other) :
    (j = i ∧ other = next) ∨ (j ≠ i ∧ tasks[j]? = some other) := by
  by_cases hji : j = i
  · subst hji
    rw [List.getElem?_set_self'] at h
    cases hj : tasks[j]? with
    | none =>
      rw [hj] at h
      cases h
    | some task =>
      rw [hj] at h
      exact .inl ⟨rfl, (Option.some.inj h).symm⟩
  · rw [List.getElem?_set_ne (Ne.symm hji)] at h
    exact .inr ⟨hji, h⟩

theorem getElem?_set_of_some (h : tasks[i]? = some task) (next : KeyTask) :
    (tasks.set i next)[i]? = some next := by
  rw [List.getElem?_set_self', h]
  rfl

theorem getElem?_push_cases {next : KeyTask} (h : (tasks ++ [next])[j]? = some other) :
    (j = tasks.length ∧ other = next) ∨ (j < tasks.length ∧ tasks[j]? = some other) := by
  rcases Nat.lt_trichotomy j tasks.length with hlt | rfl | hlt
  · rw [List.getElem?_append_left hlt] at h
    exact .inr ⟨hlt, h⟩
  · rw [List.getElem?_concat_length] at h
    exact .inl ⟨rfl, (Option.some.inj h).symm⟩
  · have hlen : (tasks ++ [next]).length ≤ j := by
      rw [List.length_append]
      exact hlt
    rw [List.getElem?_eq_none hlen] at h
    cases h

theorem lt_of_getElem? (h : tasks[i]? = some task) : i < tasks.length :=
  (List.getElem?_eq_some_iff.1 h).1

theorem getElem?_push_of_some (h : tasks[i]? = some task) (next : KeyTask) :
    (tasks ++ [next])[i]? = some task := by
  rw [List.getElem?_append_left (lt_of_getElem? h), h]

theorem LastOf.set {next : KeyTask} (h : LastOf tasks key j) (hi : tasks[i]? = some task)
    (hkey : next.key = task.key) : LastOf (tasks.set i next) key j := by
  obtain ⟨⟨last, hlast, hk⟩, hafter⟩ := h
  constructor
  · by_cases hji : j = i
    · subst hji
      rw [hi] at hlast
      cases hlast
      exact ⟨next, getElem?_set_of_some hi next, hkey.trans hk⟩
    · exact ⟨last, by rw [List.getElem?_set_ne (Ne.symm hji), hlast], hk⟩
  · intro k other hother hlt
    rcases getElem?_set_cases hother with ⟨rfl, rfl⟩ | ⟨-, hother⟩
    · rw [hkey]
      exact hafter k task hi hlt
    · exact hafter k other hother hlt

theorem LastOf.push {next : KeyTask} (h : LastOf tasks key i) (hkey : next.key ≠ key) :
    LastOf (tasks ++ [next]) key i := by
  obtain ⟨⟨last, hlast, hk⟩, hafter⟩ := h
  refine ⟨⟨last, getElem?_push_of_some hlast next, hk⟩, fun j other hother hlt => ?_⟩
  rcases getElem?_push_cases hother with ⟨-, rfl⟩ | ⟨-, hother⟩
  · exact hkey
  · exact hafter j other hother hlt

theorem lastOf_push (tasks : List KeyTask) (next : KeyTask) :
    LastOf (tasks ++ [next]) next.key tasks.length := by
  refine ⟨⟨next, List.getElem?_concat_length, rfl⟩, fun j other hother hlt => ?_⟩
  rcases getElem?_push_cases hother with ⟨rfl, -⟩ | ⟨hj, -⟩
  · exact absurd hlt (Nat.lt_irrefl _)
  · exact absurd hlt hj.le.not_gt

theorem QueuedBehind.set {next : KeyTask} (h : QueuedBehind tasks j k b) (hi : tasks[i]? = some task)
    (hkey : next.key = task.key) : QueuedBehind (tasks.set i next) j k b := by
  obtain ⟨hq, p, previous, hp, hprev, hk, hle⟩ := h
  by_cases hpi : p = i
  · subst hpi
    rw [hi] at hprev
    cases hprev
    exact ⟨hq, p, next, hp, getElem?_set_of_some hi next, hkey.trans hk, hle⟩
  · exact ⟨hq, p, previous, hp, by rw [List.getElem?_set_ne (Ne.symm hpi), hprev], hk, hle⟩

namespace Chained

section

variable (h : Chained tasks keyChains)
include h

theorem settledBefore_of_previous (hi : tasks[i]? = some task)
    (hprev : ∀ p, task.previous = some p → ∃ previous, tasks[p]? = some previous ∧
      previous.settled = true) : SettledBefore tasks task.key i := by
  intro j other hj hlt hkey
  rcases h.behind j i other task hj hi hlt hkey with hsettled | ⟨-, p, previous, hp, hpt, hk, hle, -⟩
  · exact hsettled
  · obtain ⟨previous', hpt', hsettled⟩ := hprev p hp
    rw [hpt] at hpt'
    cases hpt'
    rcases hle.eq_or_lt with rfl | hlt
    · rw [hj] at hpt
      cases hpt
      exact hsettled
    · rcases h.behind j p other previous hj hpt hlt (hkey.trans hk.symm) with hs | ⟨hq, -⟩
      · exact hs
      · rw [(h.ok p previous hpt).settled hsettled] at hq
        cases hq

theorem settledBefore_of_started (hi : tasks[i]? = some task) (hphase : task.phase ≠ .queued) :
    SettledBefore tasks task.key i := by
  intro j other hj hlt hkey
  rcases h.behind j i other task hj hi hlt hkey with hsettled | ⟨hq, -⟩
  · exact hsettled
  · exact absurd hq hphase

theorem set {next : KeyTask} (hi : tasks[i]? = some task) (hkey : next.key = task.key)
    (hprev : next.previous = task.previous) (hok : next.Ok)
    (hsettled : task.settled = true → next.settled = true)
    (hstart : next.phase = task.phase ∨ SettledBefore tasks task.key i) :
    Chained (tasks.set i next) keyChains where
  ok := fun j other hother => by
    rcases getElem?_set_cases hother with ⟨-, rfl⟩ | ⟨-, hother⟩
    · exact hok
    · exact h.ok j other hother
  previous := fun j p other hother hp => by
    have hplace : ∀ k, (p < j ∧ ∃ previous, tasks[p]? = some previous ∧ previous.key = k) →
        p < j ∧ ∃ previous, (tasks.set i next)[p]? = some previous ∧ previous.key = k :=
      fun k ⟨hlt, previous, hprevious, hk⟩ => by
        by_cases hpi : p = i
        · subst hpi
          rw [hi] at hprevious
          cases hprevious
          exact ⟨hlt, next, getElem?_set_of_some hi next, hkey.trans hk⟩
        · exact ⟨hlt, previous, by rw [List.getElem?_set_ne (Ne.symm hpi), hprevious], hk⟩
    rcases getElem?_set_cases hother with ⟨rfl, rfl⟩ | ⟨-, hother⟩
    · rw [hkey]
      exact hplace _ (h.previous j p task hi (hprev.symm.trans hp))
    · exact hplace _ (h.previous j p other hother hp)
  behind := fun j k a b ha hb hlt hk => by
    rcases getElem?_set_cases ha with ⟨rfl, rfl⟩ | ⟨-, ha'⟩
    · rcases getElem?_set_cases hb with ⟨rfl, -⟩ | ⟨-, hb'⟩
      · exact absurd hlt (Nat.lt_irrefl _)
      · rcases h.behind j k task b hi hb' hlt (hkey.symm.trans hk) with hs | hq
        · exact .inl (hsettled hs)
        · exact .inr (hq.set hi hkey)
    · rcases getElem?_set_cases hb with ⟨rfl, rfl⟩ | ⟨-, hb'⟩
      · rcases hstart with hphase | hbefore
        · rcases h.behind j k a task ha' hi hlt (hk.trans hkey) with hs | hq
          · exact .inl hs
          · obtain ⟨hqueued, p, previous, hp, hpt, hpk, hle⟩ := hq.set hi hkey
            exact .inr ⟨hphase.trans hqueued, p, previous, hprev.trans hp, hpt,
              hpk.trans hkey.symm, hle⟩
        · exact .inl (hbefore j a ha' hlt (hk.trans hkey))
      · rcases h.behind j k a b ha' hb' hlt hk with hs | hq
        · exact .inl hs
        · exact .inr (hq.set hi hkey)
  last := fun k j hj => (h.last k j hj).set hi hkey
  free := fun k hk j other hother hkey' => by
    rcases getElem?_set_cases hother with ⟨-, rfl⟩ | ⟨-, hother⟩
    · exact hsettled (h.free k hk i task hi (hkey.symm.trans hkey'))
    · exact h.free k hk j other hother hkey'

theorem push {next : KeyTask} (hprev : next.previous = keyChains.lookup next.key) (hok : next.Ok)
    (hqueued : keyChains.lookup next.key ≠ none → next.phase = .queued) :
    Chained (tasks ++ [next]) (keyChains.insert next.key tasks.length) where
  ok := fun j other hother => by
    rcases getElem?_push_cases hother with ⟨-, rfl⟩ | ⟨-, hother⟩
    · exact hok
    · exact h.ok j other hother
  previous := fun j p other hother hp => by
    rcases getElem?_push_cases hother with ⟨rfl, rfl⟩ | ⟨-, hother⟩
    · obtain ⟨⟨previous, hprevious, hk⟩, -⟩ := h.last other.key p (hprev.symm.trans hp)
      exact ⟨lt_of_getElem? hprevious, previous, getElem?_push_of_some hprevious other, hk⟩
    · obtain ⟨hlt, previous, hprevious, hk⟩ := h.previous j p other hother hp
      exact ⟨hlt, previous, getElem?_push_of_some hprevious next, hk⟩
  behind := fun j k a b ha hb hlt hk => by
    rcases getElem?_push_cases hb with ⟨rfl, rfl⟩ | ⟨hkl, hb⟩
    · rcases getElem?_push_cases ha with ⟨rfl, -⟩ | ⟨-, ha⟩
      · exact absurd hlt (Nat.lt_irrefl _)
      · cases hlookup : keyChains.lookup b.key with
        | none => exact .inl (h.free b.key hlookup j a ha hk)
        | some p =>
          obtain ⟨⟨previous, hp, hpk⟩, hafter⟩ := h.last b.key p hlookup
          refine .inr ⟨hqueued (by rw [hlookup]; exact Option.some_ne_none p), p, previous,
            hprev.trans hlookup, getElem?_push_of_some hp b, hpk, ?_, lt_of_getElem? hp⟩
          by_contra hjp
          exact hafter j a ha (Nat.lt_of_not_le hjp) hk
    · rcases getElem?_push_cases ha with ⟨rfl, -⟩ | ⟨-, ha⟩
      · exact absurd hlt hkl.le.not_gt
      · rcases h.behind j k a b ha hb hlt hk with hs | ⟨hq, p, previous, hp, hpt, hrest⟩
        · exact .inl hs
        · exact .inr ⟨hq, p, previous, hp, getElem?_push_of_some hpt next, hrest⟩
  last := fun k j hj => by
    by_cases hk : k = next.key
    · subst hk
      rw [AList.lookup_insert] at hj
      cases hj
      exact lastOf_push tasks next
    · rw [AList.lookup_insert_ne hk] at hj
      exact (h.last k j hj).push (Ne.symm hk)
  free := fun k hk j other hother hkey => by
    by_cases hkn : k = next.key
    · subst hkn
      rw [AList.lookup_insert] at hk
      cases hk
    · rw [AList.lookup_insert_ne hkn] at hk
      rcases getElem?_push_cases hother with ⟨-, rfl⟩ | ⟨-, hother⟩
      · exact absurd hkey.symm hkn
      · exact h.free k hk j other hother hkey

theorem erase (hi : tasks[i]? = some task) (hlookup : keyChains.lookup task.key = some i)
    (hsettled : task.settled = true) : Chained tasks (keyChains.erase task.key) where
  ok := h.ok
  previous := h.previous
  behind := h.behind
  last := fun k j hj => by
    by_cases hk : k = task.key
    · subst hk
      rw [AList.lookup_erase] at hj
      cases hj
    · rw [AList.lookup_erase_ne hk] at hj
      exact h.last k j hj
  free := fun k hk j other hother hkey => by
    by_cases hkt : k = task.key
    · subst hkt
      obtain ⟨-, hafter⟩ := h.last task.key i hlookup
      rcases Nat.lt_trichotomy j i with hlt | rfl | hlt
      · have hstarted : task.phase ≠ .queued := by
          rw [(h.ok i task hi).settled hsettled]
          exact TaskPhase.noConfusion
        exact h.settledBefore_of_started hi hstarted j other hother hlt hkey
      · rw [hi] at hother
        cases hother
        exact hsettled
      · exact absurd hkey (hafter j other hother hlt)
    · rw [AList.lookup_erase_ne hkt] at hk
      exact h.free k hk j other hother hkey

end

end Chained

/-! ## Buffers -/

/-- What a call waits for exists and is released. -/
def DebounceCall.Ok (tasks : List KeyTask) : DebounceCall → Prop
  | .task i => ∃ task, tasks[i]? = some task ∧ task.readyReleased = true
  | .buffer i reserved => i < reserved ∧ (∃ task, tasks[i]? = some task ∧ task.readyReleased = true) ∧
      ∃ task, tasks[reserved]? = some task ∧ task.timeout = none
  | .direct | .settled => True

structure Buffered (tasks : List KeyTask) (buffers : AList fun _ : String => Nat)
    (calls : List DebounceCall) : Prop where
  last : ∀ (key : String) (i : Nat), buffers.lookup key = some i → LastOf tasks key i
  armed : ∀ (key : String) (i : Nat), buffers.lookup key = some i →
    ∃ task, tasks[i]? = some task ∧ task.readyReleased = false ∧ task.timeout ≠ none
  timer : ∀ (i : Nat) (task : KeyTask), tasks[i]? = some task → task.timeout ≠ none →
    buffers.lookup task.key = some i
  held : ∀ (i : Nat) (task : KeyTask), tasks[i]? = some task → task.readyReleased = false →
    buffers.lookup task.key = some i ∨
      ∃ (c b : Nat), calls[c]? = some (DebounceCall.buffer b i)
  calls : ∀ (c : Nat) (call : DebounceCall), calls[c]? = some call → call.Ok tasks

theorem call_ok_mono {tasks' : List KeyTask} {call : DebounceCall} (h : call.Ok tasks)
    (hmono : ∀ (i : Nat) (task : KeyTask), tasks[i]? = some task →
      ∃ next, tasks'[i]? = some next ∧ (task.readyReleased = true → next.readyReleased = true) ∧
        (task.timeout = none → next.timeout = none)) : call.Ok tasks' := by
  have hreleased : ∀ i : Nat, (∃ task, tasks[i]? = some task ∧ task.readyReleased = true) →
      ∃ task, tasks'[i]? = some task ∧ task.readyReleased = true := fun i ⟨task, htask, hr⟩ => by
    obtain ⟨next, hnext, himp, -⟩ := hmono i task htask
    exact ⟨next, hnext, himp hr⟩
  cases call with
  | task i => exact hreleased i h
  | buffer i reserved =>
    obtain ⟨hlt, hi, task, htask, ht⟩ := h
    obtain ⟨next, hnext, -, himp⟩ := hmono reserved task htask
    exact ⟨hlt, hreleased i hi, next, hnext, himp ht⟩
  | direct | settled => trivial

theorem call_ok_set {next : KeyTask} {call : DebounceCall} (h : call.Ok tasks)
    (hi : tasks[i]? = some task) (hreleased : task.readyReleased = true → next.readyReleased = true)
    (htimeout : task.timeout = none → next.timeout = none) : call.Ok (tasks.set i next) :=
  call_ok_mono h fun j other hother => by
    by_cases hji : j = i
    · subst hji
      rw [hi] at hother
      cases hother
      exact ⟨next, getElem?_set_of_some hi next, hreleased, htimeout⟩
    · exact ⟨other, by rw [List.getElem?_set_ne (Ne.symm hji), hother], id, id⟩

theorem call_ok_push {call : DebounceCall} (h : call.Ok tasks) (next : KeyTask) :
    call.Ok (tasks ++ [next]) :=
  call_ok_mono h fun _ other hother => ⟨other, getElem?_push_of_some hother next, id, id⟩

namespace Buffered

variable {buffers : AList fun _ : String => Nat} {calls : List DebounceCall} {next : KeyTask}

theorem set (h : Buffered tasks buffers calls) (hi : tasks[i]? = some task)
    (hkey : next.key = task.key) (hreleased : next.readyReleased = task.readyReleased)
    (htimeout : next.timeout ≠ none ↔ task.timeout ≠ none) :
    Buffered (tasks.set i next) buffers calls where
  last := fun k j hj => (h.last k j hj).set hi hkey
  armed := fun k j hj => by
    obtain ⟨other, hother, hrest⟩ := h.armed k j hj
    by_cases hji : j = i
    · subst hji
      rw [hi] at hother
      cases hother
      exact ⟨next, getElem?_set_of_some hi next, hreleased.trans hrest.1, htimeout.2 hrest.2⟩
    · exact ⟨other, by rw [List.getElem?_set_ne (Ne.symm hji), hother], hrest⟩
  timer := fun j other hother ht => by
    rcases getElem?_set_cases hother with ⟨rfl, rfl⟩ | ⟨-, hother⟩
    · rw [hkey]
      exact h.timer j task hi (htimeout.1 ht)
    · exact h.timer j other hother ht
  held := fun j other hother hr => by
    rcases getElem?_set_cases hother with ⟨rfl, rfl⟩ | ⟨-, hother⟩
    · rw [hkey]
      exact h.held j task hi (hreleased.symm.trans hr)
    · exact h.held j other hother hr
  calls := fun c call hc => call_ok_set (h.calls c call hc) hi (fun hr => hreleased.trans hr)
    fun ht => not_ne_iff.1 fun hne => htimeout.1 hne ht

theorem unbuffer (h : Buffered tasks buffers calls) (hbuffer : buffers.lookup key = some i)
    (hi : tasks[i]? = some task) (hkey : next.key = task.key) (hreleased : next.readyReleased = true)
    (htimeout : next.timeout = none) : Buffered (tasks.set i next) (buffers.erase key) calls := by
  have htask : task.key = key := by
    obtain ⟨⟨last, hlast, hk⟩, -⟩ := h.last key i hbuffer
    rw [hi] at hlast
    cases hlast
    exact hk
  have hne : ∀ k j, (buffers.erase key).lookup k = some j → buffers.lookup k = some j ∧ j ≠ i :=
    fun k j hj => by
      by_cases hk : k = key
      · subst hk
        rw [AList.lookup_erase] at hj
        cases hj
      · rw [AList.lookup_erase_ne hk] at hj
        refine ⟨hj, fun hji => ?_⟩
        subst hji
        obtain ⟨⟨last, hlast, hlk⟩, -⟩ := h.last k j hj
        rw [hi] at hlast
        cases hlast
        exact hk (hlk.symm.trans htask)
  have herase : ∀ j other, j ≠ i → buffers.lookup other = some j →
      (buffers.erase key).lookup other = some j := fun j other hji hj => by
    have hk : other ≠ key := fun hk => by
      subst hk
      rw [hbuffer] at hj
      exact hji (Option.some.inj hj).symm
    rw [AList.lookup_erase_ne hk]
    exact hj
  exact {
    last := fun k j hj => (h.last k j (hne k j hj).1).set hi hkey
    armed := fun k j hj => by
      obtain ⟨other, hother, hrest⟩ := h.armed k j (hne k j hj).1
      exact ⟨other, by rw [List.getElem?_set_ne (Ne.symm (hne k j hj).2), hother], hrest⟩
    timer := fun j other hother ht => by
      rcases getElem?_set_cases hother with ⟨-, rfl⟩ | ⟨hji, hother⟩
      · exact absurd htimeout ht
      · exact herase j other.key hji (h.timer j other hother ht)
    held := fun j other hother hr => by
      rcases getElem?_set_cases hother with ⟨-, rfl⟩ | ⟨hji, hother⟩
      · rw [hreleased] at hr
        cases hr
      · exact (h.held j other hother hr).imp_left (herase j other.key hji)
    calls := fun c call hc => call_ok_set (h.calls c call hc) hi (fun _ => hreleased)
      fun _ => htimeout }

theorem getElem?_calls_push {call other : DebounceCall} {c : Nat}
    (h : (calls ++ [call])[c]? = some other) : other = call ∨ calls[c]? = some other := by
  rcases Nat.lt_or_ge c calls.length with hlt | hle
  · rw [List.getElem?_append_left hlt] at h
    exact .inr h
  · rw [List.getElem?_append_right hle] at h
    exact .inl (List.mem_singleton.1 (List.mem_of_getElem? h))

section

variable (h : Buffered tasks buffers calls)
include h

theorem call {c : DebounceCall} (hc : c.Ok tasks) : Buffered tasks buffers (calls ++ [c]) where
  last := h.last
  armed := h.armed
  timer := h.timer
  held := fun j other hother hr => (h.held j other hother hr).imp_right fun ⟨c', b, hc'⟩ =>
    ⟨c', b, by rw [List.getElem?_append_left (List.getElem?_eq_some_iff.1 hc').1, hc']⟩
  calls := fun c' other hc' => by
    rcases getElem?_calls_push hc' with rfl | hc'
    · exact hc
    · exact h.calls c' other hc'

theorem push (hkey : buffers.lookup next.key = none) (htimeout : next.timeout = none)
    {c : DebounceCall} (hc : c.Ok (tasks ++ [next]))
    (hheld : next.readyReleased = false → ∃ b, c = .buffer b tasks.length) :
    Buffered (tasks ++ [next]) buffers (calls ++ [c]) where
  last := fun k j hj => (h.last k j hj).push fun hk => by
    rw [← hk, hkey] at hj
    cases hj
  armed := fun k j hj => by
    obtain ⟨other, hother, hrest⟩ := h.armed k j hj
    exact ⟨other, getElem?_push_of_some hother next, hrest⟩
  timer := fun j other hother ht => by
    rcases getElem?_push_cases hother with ⟨-, rfl⟩ | ⟨-, hother⟩
    · exact absurd htimeout ht
    · exact h.timer j other hother ht
  held := fun j other hother hr => by
    rcases getElem?_push_cases hother with ⟨rfl, rfl⟩ | ⟨-, hother⟩
    · obtain ⟨b, rfl⟩ := hheld hr
      exact .inr ⟨calls.length, b, List.getElem?_concat_length⟩
    · refine (h.held j other hother hr).imp_right fun ⟨c', b, hc'⟩ => ⟨c', b, ?_⟩
      rw [List.getElem?_append_left (List.getElem?_eq_some_iff.1 hc').1, hc']
  calls := fun c' other hc' => by
    rcases getElem?_calls_push hc' with rfl | hc'
    · exact hc
    · exact call_ok_push (h.calls c' other hc') next

theorem buffer (hkey : buffers.lookup next.key = none) (htimeout : next.timeout ≠ none)
    (hreleased : next.readyReleased = false) :
    Buffered (tasks ++ [next]) (buffers.insert next.key tasks.length) calls where
  last := fun k j hj => by
    by_cases hk : k = next.key
    · subst hk
      rw [AList.lookup_insert] at hj
      cases hj
      exact lastOf_push tasks next
    · rw [AList.lookup_insert_ne hk] at hj
      exact (h.last k j hj).push (Ne.symm hk)
  armed := fun k j hj => by
    by_cases hk : k = next.key
    · subst hk
      rw [AList.lookup_insert] at hj
      cases hj
      exact ⟨next, List.getElem?_concat_length, hreleased, htimeout⟩
    · rw [AList.lookup_insert_ne hk] at hj
      obtain ⟨other, hother, hrest⟩ := h.armed k j hj
      exact ⟨other, getElem?_push_of_some hother next, hrest⟩
  timer := fun j other hother ht => by
    rcases getElem?_push_cases hother with ⟨rfl, rfl⟩ | ⟨-, hother⟩
    · exact AList.lookup_insert buffers
    · have hj := h.timer j other hother ht
      have hne : other.key ≠ next.key := fun hk => by
        rw [hk, hkey] at hj
        cases hj
      rw [AList.lookup_insert_ne hne]
      exact hj
  held := fun j other hother hr => by
    rcases getElem?_push_cases hother with ⟨rfl, rfl⟩ | ⟨-, hother⟩
    · exact .inl (AList.lookup_insert buffers)
    · refine (h.held j other hother hr).imp_left fun hj => ?_
      have hne : other.key ≠ next.key := fun hk => by
        rw [hk, hkey] at hj
        cases hj
      rw [AList.lookup_insert_ne hne]
      exact hj
  calls := fun c call hc => call_ok_push (h.calls c call hc) next

theorem setCall {c : Nat} {old new : DebounceCall} (hc : calls[c]? = some old)
    (hold : ∀ b r, old = .buffer b r → ∀ task, tasks[r]? = some task → task.readyReleased = true)
    (hnew : new.Ok tasks) : Buffered tasks buffers (calls.set c new) where
  last := h.last
  armed := h.armed
  timer := h.timer
  held := fun j other hother hr => by
    refine (h.held j other hother hr).imp_right fun ⟨c', b, hc'⟩ => ?_
    by_cases hcc : c' = c
    · subst hcc
      rw [hc] at hc'
      have hfree := hold b j (Option.some.inj hc') other hother
      rw [hr] at hfree
      cases hfree
    · exact ⟨c', b, by rw [List.getElem?_set_ne (Ne.symm hcc), hc']⟩
  calls := fun c' other hc' => by
    rw [List.getElem?_set] at hc'
    split at hc'
    · split at hc'
      · exact Option.some.inj hc' ▸ hnew
      · cases hc'
    · exact h.calls c' other hc'

theorem release (hi : tasks[i]? = some task) (htimeout : task.timeout = none) :
    Buffered (tasks.set i { task with readyReleased := true }) buffers calls where
  last := fun k j hj => (h.last k j hj).set hi rfl
  armed := fun k j hj => by
    obtain ⟨other, hother, hrest⟩ := h.armed k j hj
    refine ⟨other, ?_, hrest⟩
    by_cases hji : j = i
    · subst hji
      rw [hi] at hother
      cases hother
      exact absurd htimeout hrest.2
    · rw [List.getElem?_set_ne (Ne.symm hji), hother]
  timer := fun j other hother ht => by
    rcases getElem?_set_cases hother with ⟨-, rfl⟩ | ⟨-, hother⟩
    · exact absurd htimeout ht
    · exact h.timer j other hother ht
  held := fun j other hother hr => by
    rcases getElem?_set_cases hother with ⟨-, rfl⟩ | ⟨-, hother⟩
    · cases hr
    · exact h.held j other hother hr
  calls := fun c call hc => call_ok_set (h.calls c call hc) hi (fun _ => rfl) id

end

end Buffered

end OpenClaw.AutoReply
