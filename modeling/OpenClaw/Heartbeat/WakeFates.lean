import OpenClaw.Heartbeat.HeartbeatWake
import Mathlib.Data.List.Pairwise
import Mathlib.Data.List.Flatten

/-!
# Pending heartbeat wakes

What `queuePendingWakeReason` makes of the wakes that are pending and of those that wait in a batch.

* `PendingWakeReason.Normal`: normalizing a wake a second time changes only its time.
* `Covers`: a wake is the other one, or a later one of its target and of at least its priority.
* `Distinct`: every wake is in one place, is one that was requested, and did not run.
-/

namespace OpenClaw.Heartbeat

/-! ## Normal wakes -/

theorem normalizeWakeReason_idem (reason : Option String) :
    normalizeWakeReason (some (normalizeWakeReason reason)) = normalizeWakeReason reason := by
  cases h : normalizeOptionalString reason with
  | none =>
    rw [normalizeWakeReason, normalizeWakeReason, h]
    decide +kernel
  | some t =>
    rw [normalizeWakeReason, normalizeWakeReason, h, Option.getD_some,
      normalizeOptionalString_idem h, Option.getD_some]

theorem normalizeWakeTarget_idem (value : Option String) :
    normalizeWakeTarget (normalizeWakeTarget value) = normalizeWakeTarget value := by
  have hfilter : ∀ v, normalizeWakeTarget v = normalizeOptionalString v := fun v => by
    rw [normalizeWakeTarget, normalizeOptionalString, Option.filter_filter]
    congr 1
    funext t
    exact Bool.and_self _
  rw [hfilter, hfilter]
  cases h : normalizeOptionalString value with
  | none => rfl
  | some t => exact normalizeOptionalString_idem h

namespace PendingWakeReason

/-- Queueing the wake again changes nothing but its time. -/
def Normal (wake : PendingWakeReason) : Prop := wake.again wake.requestedAt = wake

theorem normal_pending (opts : HeartbeatWakeRequest) (id : Nat) (now : Int) :
    (opts.pending id now).Normal := by
  show PendingWakeReason.mk _ _ _ _ _ _ _ _ _ = PendingWakeReason.mk _ _ _ _ _ _ _ _ _
  simp only [HeartbeatWakeRequest.pending, request, normalizeWakeReason_idem,
    normalizeWakeTarget_idem]

theorem Normal.again {wake : PendingWakeReason} (h : wake.Normal) (now : Int) :
    wake.again now = { wake with requestedAt := now } := by
  have hwake : wake.again now = { wake.again wake.requestedAt with requestedAt := now } := rfl
  rw [hwake, h]

theorem Normal.merged {next previous : PendingWakeReason} (h : next.Normal) :
    (Heartbeat.merge next previous).Normal := by
  have hmerge : (Heartbeat.merge next previous).again next.requestedAt =
      { next.again next.requestedAt with
        heartbeat := (Heartbeat.merge next previous).heartbeat } := rfl
  show (Heartbeat.merge next previous).again next.requestedAt = Heartbeat.merge next previous
  rw [hmerge, h]
  rfl

theorem normal_again {wake : PendingWakeReason} (h : wake.Normal) (now : Int) :
    (wake.again now).Normal := by
  have hagain := h.again now
  rw [Normal, hagain]
  exact congrArg (fun w : PendingWakeReason => { w with requestedAt := now }) h

/-- A request, or one put back, of which `requested` has the origin. -/
structure Known (requested : List PendingWakeReason) (wake : PendingWakeReason) : Prop where
  normal : wake.Normal
  origin : ∃ opts, requested[wake.id]? = some opts ∧ opts.target = wake.target

theorem key_eq_of_target {a b : PendingWakeReason} (h : a.target = b.target) : a.key = b.key := by
  show getWakeTargetKey a.target.1 a.target.2 = getWakeTargetKey b.target.1 b.target.2
  rw [h]

namespace Known

variable {requested : List PendingWakeReason} {wake other : PendingWakeReason}

section

variable (h : Known requested wake)
include h

theorem id_lt : wake.id < requested.length := by
  obtain ⟨opts, hopts, -⟩ := h.origin
  exact (List.getElem?_eq_some_iff.1 hopts).1

theorem target_eq (ho : Known requested other) (hid : wake.id = other.id) :
    wake.target = other.target := by
  obtain ⟨opts, hopts, ht⟩ := h.origin
  obtain ⟨opts', hopts', ht'⟩ := ho.origin
  rw [hid, hopts'] at hopts
  cases hopts
  exact ht.symm.trans ht'

theorem append (next : PendingWakeReason) : Known (requested ++ [next]) wake where
  normal := h.normal
  origin := by
    obtain ⟨opts, hopts, ht⟩ := h.origin
    exact ⟨opts, by rw [List.getElem?_append_left h.id_lt, hopts], ht⟩

theorem merged : Known requested (Heartbeat.merge wake other) :=
  ⟨h.normal.merged, h.origin⟩

theorem again (now : Int) : Known requested (wake.again now) where
  normal := normal_again h.normal now
  origin := by
    rw [h.normal.again now]
    exact h.origin

end

end Known

end PendingWakeReason

open PendingWakeReason

/-! ## One wake queued -/

/-- `later` is the wake itself, or a later one that may take its place. -/
structure Covers (later wake : PendingWakeReason) : Prop where
  target : later.target = wake.target
  priority : wake.priority ≤ later.priority
  id : wake.id ≤ later.id

namespace Covers

variable {a b c : PendingWakeReason}

theorem refl (a : PendingWakeReason) : Covers a a := ⟨rfl, le_rfl, le_rfl⟩

theorem trans (h : Covers a b) (h' : Covers b c) : Covers a c :=
  ⟨h.target.trans h'.target, h'.priority.trans h.priority, h'.id.trans h.id⟩

theorem merged (h : Covers a b) : Covers (Heartbeat.merge a c) b := ⟨h.target, h.priority, h.id⟩

theorem again (h : a.Normal) (now : Int) : Covers (a.again now) a := by
  rw [h.again now]
  exact ⟨rfl, le_rfl, le_rfl⟩

end Covers

variable {requested pending due : List PendingWakeReason} {ran : List Nat}
  {next wake : PendingWakeReason}

theorem queueWake_cases (next : PendingWakeReason) (pending : List PendingWakeReason) :
    (KeyedList.get key next.key pending = none ∧ queueWake next pending = pending ++ [next]) ∨
    (∃ previous front back, KeyedList.get key next.key pending = some previous ∧
      replaces next previous = true ∧ pending = front ++ previous :: back ∧
      queueWake next pending = front ++ merge next previous :: back) ∨
    ∃ previous, KeyedList.get key next.key pending = some previous ∧
      replaces next previous = false ∧ queueWake next pending = pending := by
  cases hget : KeyedList.get key next.key pending with
  | none => exact .inl ⟨rfl, by rw [queueWake, hget]⟩
  | some previous =>
    by_cases hrep : replaces next previous = true
    · have hput : KeyedList.get key (merge next previous).key pending = some previous := hget
      obtain ⟨front, back, hpending, hqueue⟩ := KeyedList.put_of_get_eq_some hput
      refine .inr (.inl ⟨previous, front, back, rfl, hrep, hpending, ?_⟩)
      rw [queueWake, hget, ← hqueue]
      exact if_pos hrep
    · refine .inr (.inr ⟨previous, rfl, by simpa using hrep, ?_⟩)
      rw [queueWake, hget]
      exact if_neg hrep

variable {previous : PendingWakeReason}

theorem priority_of_replaces (h : replaces next previous = true) :
    previous.priority ≤ next.priority := by
  simp only [replaces, Bool.or_eq_true, decide_eq_true_eq, Bool.and_eq_true, beq_iff_eq] at h
  omega

/-- No wake loses its place to another target, or to an earlier one. -/
def queuesFairly (next : PendingWakeReason) (pending : List PendingWakeReason) : Bool :=
  match KeyedList.get key next.key pending with
  | none => true
  | some previous =>
    !replaces next previous || decide (previous.target = next.target ∧ previous.id ≤ next.id)

theorem exists_covers_queueWake (hfair : queuesFairly next pending = true) (hw : wake ∈ pending) :
    ∃ later ∈ queueWake next pending, Covers later wake := by
  rcases queueWake_cases next pending with
    ⟨-, h⟩ | ⟨previous, front, back, hget, hrep, hpending, h⟩ | ⟨_, -, -, h⟩
  · exact ⟨wake, by rw [h]; exact List.mem_append_left _ hw, .refl wake⟩
  · rw [queuesFairly, hget] at hfair
    simp only [hrep, Bool.not_true, Bool.false_or, decide_eq_true_eq] at hfair
    rw [hpending, List.mem_append, List.mem_cons] at hw
    rw [h]
    rcases hw with hw | rfl | hw
    · exact ⟨wake, List.mem_append_left _ hw, .refl wake⟩
    · exact ⟨merge next wake, by simp,
        Covers.merged ⟨hfair.1.symm, priority_of_replaces hrep, hfair.2⟩⟩
    · exact ⟨wake, by simp [hw], .refl wake⟩
  · exact ⟨wake, by rw [h]; exact hw, .refl wake⟩

theorem priority_of_not_replaces (h : replaces next previous = false) :
    next.priority ≤ previous.priority := by
  simp only [replaces, Bool.or_eq_false_iff, decide_eq_false_iff_not] at h
  omega

/-- A wake that does not get a place yields to a later one of its target. -/
def yieldsFairly (next : PendingWakeReason) (pending : List PendingWakeReason) : Bool :=
  match KeyedList.get key next.key pending with
  | none => true
  | some previous =>
    replaces next previous || decide (previous.target = next.target ∧ next.id ≤ previous.id)

theorem exists_covers_self (hfair : yieldsFairly next pending = true) :
    ∃ later ∈ queueWake next pending, Covers later next := by
  rcases queueWake_cases next pending with
    ⟨-, h⟩ | ⟨previous, front, back, -, -, -, h⟩ | ⟨previous, hget, hrep, h⟩
  · exact ⟨next, by rw [h]; simp, .refl next⟩
  · exact ⟨merge next previous, by rw [h]; simp, Covers.merged (.refl next)⟩
  · rw [yieldsFairly, hget] at hfair
    simp only [hrep, Bool.false_or, decide_eq_true_eq] at hfair
    exact ⟨previous, by rw [h]; exact KeyedList.mem_of_get hget,
      hfair.1, priority_of_not_replaces hrep, hfair.2⟩

/-! ## Wakes put back -/

/-- Wakes of a batch queued again, in order. -/
def putBackAll (now : Int) (wakes pending : List PendingWakeReason) : List PendingWakeReason :=
  wakes.foldl (fun pending wake => queueWake (wake.again now) pending) pending

/-- Each of the wakes queues fairly, and yields fairly if no handler had it: `left` are these. -/
def putsBackFairly (now : Int) (left : List PendingWakeReason) :
    List PendingWakeReason → List PendingWakeReason → Bool
  | [], _ => true
  | wake :: wakes, pending =>
    queuesFairly (wake.again now) pending &&
      (!decide (wake ∈ left) || yieldsFairly (wake.again now) pending) &&
      putsBackFairly now left wakes (queueWake (wake.again now) pending)

variable {now : Int} {left wakes : List PendingWakeReason}

theorem exists_covers_putBackAll (hfair : putsBackFairly now left wakes pending = true)
    (hw : wake ∈ pending) : ∃ later ∈ putBackAll now wakes pending, Covers later wake := by
  induction wakes generalizing pending wake with
  | nil => exact ⟨wake, hw, .refl wake⟩
  | cons w ws ih =>
    simp only [putsBackFairly, Bool.and_eq_true] at hfair
    obtain ⟨later, hlater, hcovers⟩ := exists_covers_queueWake hfair.1.1 hw
    obtain ⟨last, hlast, hcovers'⟩ := ih hfair.2 hlater
    exact ⟨last, hlast, hcovers'.trans hcovers⟩

theorem exists_covers_of_left (hfair : putsBackFairly now left wakes pending = true)
    (hw : wake ∈ wakes) (hleft : wake ∈ left) (hnormal : wake.Normal) :
    ∃ later ∈ putBackAll now wakes pending, Covers later wake := by
  induction wakes generalizing pending with
  | nil => cases hw
  | cons w ws ih =>
    simp only [putsBackFairly, Bool.and_eq_true] at hfair
    rcases List.mem_cons.1 hw with rfl | hw
    · have hyield : yieldsFairly (wake.again now) pending = true := by
        simpa [hleft] using hfair.1.2
      obtain ⟨later, hlater, hcovers⟩ := exists_covers_self hyield
      obtain ⟨last, hlast, hcovers'⟩ := exists_covers_putBackAll hfair.2 hlater
      exact ⟨last, hlast, (hcovers'.trans hcovers).trans (.again hnormal now)⟩
    · exact ih hfair.2 hw

/-! ## Every wake in one place -/

/-- The wakes that are pending, those that wait in a batch, and those that ran. -/
structure Distinct (requested pending due : List PendingWakeReason) (ran : List Nat) : Prop where
  known : ∀ wake ∈ pending ++ due, Known requested wake
  keys : (pending.map key).Nodup
  ids : ((pending ++ due).map PendingWakeReason.id).Nodup
  ran_lt : ∀ id ∈ ran, id < requested.length
  ran_gone : ∀ wake ∈ pending ++ due, wake.id ∉ ran

namespace Distinct

theorem nil (requested : List PendingWakeReason) : Distinct requested [] [] [] where
  known := fun _ hw => absurd hw List.not_mem_nil
  keys := List.nodup_nil
  ids := List.nodup_nil
  ran_lt := fun _ hid => absurd hid List.not_mem_nil
  ran_gone := fun _ _ => List.not_mem_nil

variable {due' : List PendingWakeReason}

section

variable (h : Distinct requested pending due ran)
include h

theorem perm (hperm : due.Perm due') : Distinct requested pending due' ran where
  known := fun wake hw => h.known wake ((hperm.append_left pending).mem_iff.2 hw)
  keys := h.keys
  ids := ((hperm.append_left pending).map _).nodup_iff.1 h.ids
  ran_lt := h.ran_lt
  ran_gone := fun wake hw => h.ran_gone wake ((hperm.append_left pending).mem_iff.2 hw)

theorem sublist (hsub : due'.Sublist due) : Distinct requested pending due' ran where
  known := fun wake hw => h.known wake ((hsub.append_left pending).subset hw)
  keys := h.keys
  ids := h.ids.sublist ((hsub.append_left pending).map _)
  ran_lt := h.ran_lt
  ran_gone := fun wake hw => h.ran_gone wake ((hsub.append_left pending).subset hw)

theorem take : Distinct requested [] (due ++ pending) ran := by
  have hperm : (pending ++ due).Perm (due ++ pending) := List.perm_append_comm
  exact {
    known := fun wake hw => h.known wake (hperm.mem_iff.2 hw)
    keys := List.nodup_nil
    ids := (hperm.map PendingWakeReason.id).nodup_iff.1 h.ids
    ran_lt := h.ran_lt
    ran_gone := fun wake hw => h.ran_gone wake (hperm.mem_iff.2 hw) }

end

theorem settle_ran (h : Distinct requested pending (wake :: due) ran) :
    Distinct requested pending due (ran ++ [wake.id]) where
  known := (h.sublist (List.sublist_cons_self wake due)).known
  keys := h.keys
  ids := (h.sublist (List.sublist_cons_self wake due)).ids
  ran_lt := fun id hid => by
    rcases List.mem_append.1 hid with hid | hid
    · exact h.ran_lt id hid
    · rw [List.mem_singleton.1 hid]
      exact (h.known wake (by simp)).id_lt
  ran_gone := fun other hother hmem => by
    rcases List.mem_append.1 hmem with hmem | hmem
    · exact (h.sublist (List.sublist_cons_self wake due)).ran_gone other hother hmem
    · have hids := (List.perm_middle.map PendingWakeReason.id).nodup_iff.1 h.ids
      have hne : wake.id ∉ (pending ++ due).map PendingWakeReason.id := (List.nodup_cons.1 hids).1
      exact hne (List.mem_map.2 ⟨other, hother, List.mem_singleton.1 hmem⟩)

section

variable (h : Distinct requested pending due ran)
include h

theorem requested_append (next : PendingWakeReason) :
    Distinct (requested ++ [next]) pending due ran where
  known := fun wake hw => (h.known wake hw).append next
  keys := h.keys
  ids := h.ids
  ran_lt := fun id hid => by
    have hlt := h.ran_lt id hid
    rw [List.length_append]
    omega
  ran_gone := h.ran_gone

theorem get_of_id (hnext : Known requested next) (hw : wake ∈ pending) (hid : wake.id = next.id) :
    KeyedList.get key next.key pending = some wake := by
  rw [← key_eq_of_target ((h.known wake (List.mem_append_left _ hw)).target_eq hnext hid)]
  exact KeyedList.get_eq_some_of_mem h.keys hw

theorem queue (hnext : Known requested next) (hdue : ∀ wake ∈ due, wake.id ≠ next.id)
    (hran : next.id ∉ ran) : Distinct requested (queueWake next pending) due ran := by
  rcases queueWake_cases next pending with
    ⟨hget, hq⟩ | ⟨previous, front, back, hget, -, hpending, hq⟩ | ⟨_, -, -, hq⟩
  · -- no wake that is pending or waits has the id of the new one
    have hfresh : next.id ∉ (pending ++ due).map PendingWakeReason.id := fun hmem => by
      obtain ⟨other, hother, hid⟩ := List.mem_map.1 hmem
      rcases List.mem_append.1 hother with hother | hother
      · rw [h.get_of_id hnext hother hid] at hget
        cases hget
      · exact hdue other hother hid
    have hperm : (pending ++ [next] ++ due).Perm (next :: (pending ++ due)) := by
      rw [List.append_assoc]
      exact List.perm_middle
    have hmem : ∀ other ∈ pending ++ [next] ++ due, other = next ∨ other ∈ pending ++ due :=
      fun other hother => List.mem_cons.1 (hperm.mem_iff.1 hother)
    rw [hq]
    refine ⟨fun other hother => ?_, ?_, ?_, h.ran_lt, fun other hother => ?_⟩
    · rcases hmem other hother with rfl | hother
      · exact hnext
      · exact h.known other hother
    · rw [← KeyedList.put_of_get_eq_none hget]
      exact KeyedList.nodup_put h.keys
    · exact (hperm.map _).nodup_iff.2 (List.nodup_cons.2 ⟨hfresh, h.ids⟩)
    · rcases hmem other hother with rfl | hother
      · exact hran
      · exact h.ran_gone other hother
  · -- `previous` gives its place to the new one; only it may have the same id
    subst hpending
    have hother : ∀ other ∈ front ++ (back ++ due), other.id ≠ next.id ∧
        Known requested other ∧ other.id ∉ ran := fun other hother => by
      have hin : other ∈ front ++ previous :: back ++ due := by
        rw [List.append_assoc, List.cons_append]
        exact List.perm_middle.mem_iff.2 (List.mem_cons_of_mem previous hother)
      refine ⟨fun hid => ?_, h.known other hin, h.ran_gone other hin⟩
      rcases List.mem_append.1 hin with hpend | hd
      · have hprev := h.get_of_id hnext hpend hid
        rw [hget] at hprev
        cases hprev
        have hids := h.ids
        rw [List.append_assoc, List.cons_append] at hids
        have hnodup := (List.perm_middle.map PendingWakeReason.id).nodup_iff.1 hids
        exact (List.nodup_cons.1 hnodup).1 (List.mem_map.2 ⟨previous, hother, rfl⟩)
      · exact hdue other hd hid
    have hperm : (front ++ merge next previous :: back ++ due).Perm
        (merge next previous :: (front ++ (back ++ due))) := by
      rw [List.append_assoc, List.cons_append]
      exact List.perm_middle
    have hids := h.ids
    rw [List.append_assoc, List.cons_append] at hids
    have hnodup := (List.perm_middle.map PendingWakeReason.id).nodup_iff.1 hids
    rw [hq]
    refine ⟨fun other hmem => ?_, ?_, ?_, h.ran_lt, fun other hmem => ?_⟩
    · rcases List.mem_cons.1 (hperm.mem_iff.1 hmem) with rfl | hmem
      · exact hnext.merged
      · exact (hother other hmem).2.1
    · have hkey : (merge next previous).key = previous.key := (KeyedList.key_of_get hget).symm
      rw [List.map_append, List.map_cons, hkey, ← List.map_cons, ← List.map_append]
      exact h.keys
    · refine (hperm.map _).nodup_iff.2 (List.nodup_cons.2 ⟨fun hmem => ?_, ?_⟩)
      · obtain ⟨other, hmem, hid⟩ := List.mem_map.1 hmem
        exact (hother other hmem).1 hid
      · exact (List.nodup_cons.1 hnodup).2
    · rcases List.mem_cons.1 (hperm.mem_iff.1 hmem) with rfl | hmem
      · exact hran
      · exact (hother other hmem).2.2
  · rw [hq]
    exact h

theorem putBackAll {now : Int} {wakes : List PendingWakeReason} (hwakes : ∀ wake ∈ wakes,
      Known requested wake ∧ (∀ other ∈ due, other.id ≠ wake.id) ∧ wake.id ∉ ran) :
    Distinct requested (Heartbeat.putBackAll now wakes pending) due ran := by
  induction wakes generalizing pending with
  | nil => exact h
  | cons w ws ih =>
    obtain ⟨hknown, hdue, hran⟩ := hwakes w List.mem_cons_self
    have hid : (w.again now).id = w.id := rfl
    exact ih (h.queue (hknown.again now) (hid ▸ hdue) (hid ▸ hran)) fun wake hw =>
      hwakes wake (List.mem_cons_of_mem w hw)

theorem request (opts : HeartbeatWakeRequest) (now : Int) :
    Distinct (requested ++ [opts.pending requested.length now])
      (queueWake (opts.pending requested.length now) pending) due ran := by
  have hknown : Known (requested ++ [opts.pending requested.length now])
      (opts.pending requested.length now) := by
    refine ⟨normal_pending opts _ now, opts.pending requested.length now, ?_, rfl⟩
    exact List.getElem?_concat_length
  refine (h.requested_append _).queue hknown (fun wake hw hid => ?_) fun hmem => ?_
  · exact absurd hid (h.known wake (List.mem_append_right _ hw)).id_lt.ne
  · exact absurd (h.ran_lt _ hmem) (Nat.lt_irrefl _)

end

end Distinct

end OpenClaw.Heartbeat
