import OpenClaw.Harness.Appends
import OpenClaw.Harness.SessionPath

/-!
# Appends that run at the same time, and the path to the root

Two calls that overlap can pick the same eight digits, and can read the same append cursor; the row
recorded first is then not on the path of the row recorded last.

* `Undisturbed` — no call in flight holds eight digits of the same clock window, and the append
  cursor a call has read is still the cursor when its row is recorded.
* **`appends_on_path`** — in every run of undisturbed events ids are distinct and every appended
  row is on the path to the root.
-/

namespace OpenClaw.Harness

/-! ## New ids -/

/-- One of the short ids, not a whole uuid. -/
def EightDigits (id : String) : Prop := id.toList.length ≤ 8

variable {state : UuidState} {id : String}

theorem not_eightDigits_of_issued (h : state.Issued id) : ¬ EightDigits id := by
  intro hshort
  rw [EightDigits, h.length] at hshort
  omega

/-- Where an id comes from: a clock window, or a uuid made before. -/
inductive UuidState.Picked (state : UuidState) : String → Option Nat → Prop
  | short {timestamp : Nat} (sequence : Nat) (input : UuidInput) : timestamp < 2 ^ 48 →
    state.Picked (JsString.slice (formatUuid (uuidBytes timestamp sequence input)) 8)
      (some (timestamp / 2 ^ 16))
  | whole {id : String} {window : Option Nat} : state.Issued id → state.Picked id window

theorem uuidv7_picked {input : UuidInput} (hrange : (uuidv7 state input).2.InRange) :
    (uuidv7 state input).2.Picked (JsString.slice (uuidv7 state input).1 8)
      (uuidv7 state input).2.window := by
  have huuid : (uuidv7 state input).1 =
    formatUuid (uuidBytes (state.next input).1 (state.next input).2 input) := rfl
  exact .short (state.next input).2 input (hrange (state.next input).1 rfl)

variable {window : Option Nat}

theorem UuidState.Picked.mono {state' : UuidState} (h : state.Picked id window)
    (hkey : state.key ≤ state'.key) : state'.Picked id window := by
  cases h with
  | short sequence input hlt => exact .short sequence input hlt
  | whole hissued => exact .whole (hissued.mono hkey)

theorem UuidState.Picked.eightDigits_or (h : state.Picked id window) :
    EightDigits id ∨ state.Issued id := by
  cases h with
  | short => exact .inl (JsString.slice_length_le _ 8)
  | whole hissued => exact .inr hissued

theorem UuidState.Picked.ne_empty (h : state.Picked id window) : id ≠ "" := by
  cases h with
  | @short timestamp sequence input =>
    refine JsString.slice_ne_empty (fun hempty => ?_) 6
    have hbytes : (uuidBytes timestamp sequence input).length = 16 := rfl
    have hlen := formatUuid_length hbytes
    rw [hempty] at hlen
    cases hlen
  | whole hissued =>
    rintro rfl
    cases hissued.length

theorem UuidState.Picked.window_eq {v w : Option Nat} (h₁ : state.Picked id v)
    (h₂ : state.Picked id w) (hshort : EightDigits id) : v = w := by
  cases h₁ with
  | whole hissued => exact absurd hshort (not_eightDigits_of_issued hissued)
  | @short t₁ s₁ i₁ ht₁ =>
    generalize hid : JsString.slice (formatUuid (uuidBytes t₁ s₁ i₁)) 8 = id at h₂ hshort
    cases h₂ with
    | whole hissued => exact absurd hshort (not_eightDigits_of_issued hissued)
    | @short t₂ s₂ i₂ ht₂ =>
      rw [(slice_uuid_inj s₁ s₂ i₁ i₂ ht₁ ht₂).mp hid]

theorem generateEntryIdFrom_succ (has : String → Bool) (input : Nat → UuidInput) (i tries : Nat)
    (state : UuidState) : generateEntryIdFrom has input i (tries + 1) state =
      if has (JsString.slice (uuidv7 state (input i)).1 8) then
        generateEntryIdFrom has input (i + 1) tries (uuidv7 state (input i)).2
      else (JsString.slice (uuidv7 state (input i)).1 8, (uuidv7 state (input i)).2) := rfl

theorem generateEntryIdFrom_spec (has : String → Bool) (input : Nat → UuidInput) (i tries : Nat)
    (hvalid : state.Valid) : (generateEntryIdFrom has input i tries state).2.Valid ∧
    state.key ≤ (generateEntryIdFrom has input i tries state).2.key ∧
    ((generateEntryIdFrom has input i tries state).2.InRange →
      (generateEntryIdFrom has input i tries state).2.Picked
        (generateEntryIdFrom has input i tries state).1
        (generateEntryIdFrom has input i tries state).2.window ∧
      (EightDigits (generateEntryIdFrom has input i tries state).1 →
        has (generateEntryIdFrom has input i tries state).1 = false) ∧
      ¬ state.Issued (generateEntryIdFrom has input i tries state).1) := by
  induction tries generalizing i state with
  | zero =>
    refine ⟨uuidv7_valid state _, (UuidState.next_key hvalid _).le, fun hrange => ⟨?_, ?_, ?_⟩⟩
    · exact .whole (uuidv7_issued hrange)
    · exact fun hshort => absurd hshort (not_eightDigits_of_issued (uuidv7_issued hrange))
    · exact uuidv7_new hvalid hrange
  | succ tries ih =>
    have hkey := (UuidState.next_key hvalid (input i)).le
    by_cases htaken : has (JsString.slice (uuidv7 state (input i)).1 8) = true
    · rw [generateEntryIdFrom_succ, if_pos htaken]
      obtain ⟨hvalid', hkey', hpicked⟩ := ih (i + 1) (uuidv7_valid state (input i))
      refine ⟨hvalid', hkey.trans hkey', fun hrange => ?_⟩
      obtain ⟨hpick, hshort, hnew⟩ := hpicked hrange
      exact ⟨hpick, hshort, fun hissued => hnew (hissued.mono hkey)⟩
    · rw [generateEntryIdFrom_succ, if_neg htaken]
      dsimp only
      refine ⟨uuidv7_valid state _, hkey, fun hrange => ⟨?_, ?_, ?_⟩⟩
      · exact uuidv7_picked hrange
      · exact fun _ => Bool.eq_false_iff.mpr htaken
      · exact fun hissued => not_eightDigits_of_issued hissued (JsString.slice_length_le _ 8)

/-! ## The guard -/

namespace SessionAppends

/-- The id that `createEntryId` is about to return: the clock fits a uuid, a whole uuid is no id of
the opened file, and no call in flight holds eight digits of the same clock window. -/
structure OwnId (s : SessionAppends) (input : Nat → UuidInput) : Prop where
  inRange : (s.newId input).2.InRange
  unopened : ¬ EightDigits (s.newId input).1 → (s.newId input).1 ∉ s.opened
  window : EightDigits (s.newId input).1 → ∀ c id window, s.held c = some (id, window) →
    EightDigits id → window ≠ (s.newId input).2.window

/-- The events that do not disturb a call in flight. -/
def Undisturbed (s : SessionAppends) : AppendEvent → Prop
  | .call _ call input => call.isLabel = false → s.OwnId input
  | .chooseId _ input => s.OwnId input
  | .record c => ∀ draft, s.phase c = some (.written draft) →
      draft.parentId = s.storage.appendParentId
  | _ => True

/-- A session whose file is open, before any call. -/
structure Opened (s : SessionAppends) : Prop where
  session : JsonlSessionStorage.InSession ⟨s.storage, s.file⟩
  opened : s.opened = s.storage.entries.map SessionTreeEntry.id
  uuid : s.uuid.Valid
  phase : ∀ c, s.phase c = none

end SessionAppends

/-! ## The ids of the rows -/

/-- The rows have distinct ids, and are indexed. -/
structure SessionStorage.Listed (s : SessionStorage) : Prop where
  nodup : (s.entries.map SessionTreeEntry.id).Nodup
  indexed : ∀ row ∈ s.entries, s.has row.id = true

theorem SessionStorage.Listed.record {s : SessionStorage} (hs : s.Listed) {row : SessionTreeEntry}
    (hfresh : s.has row.id = false) : (s.record row).Listed where
  nodup := by
    show ((s.entries ++ [row]).map SessionTreeEntry.id).Nodup
    rw [List.map_append, List.map_cons, List.map_nil, List.nodup_append]
    refine ⟨hs.nodup, List.nodup_singleton row.id, ?_⟩
    rintro _ hid id hmem rfl
    rw [List.mem_singleton] at hmem
    obtain ⟨old, hold, rfl⟩ := List.mem_map.mp hid
    rw [← hmem, hs.indexed old hold] at hfresh
    cases hfresh
  indexed := by
    show ∀ old ∈ s.entries ++ [row], (s.record row).has old.id = true
    intro old hmem
    rw [has_record]
    rcases List.mem_append.mp hmem with hold | hnew
    · rw [hs.indexed old hold, Bool.or_true]
    · rw [List.mem_singleton.mp hnew, decide_eq_true rfl, Bool.true_or]

theorem listed_of_inSession {s : JsonlSessionStorage} (hs : s.InSession) : s.storage.Listed := by
  refine Lts.Reachable.invariant (I := fun s => s.storage.Listed) hs ?_ ?_
  · rintro s rfl
    exact ⟨List.nodup_nil, fun _ hmem => absurd hmem List.not_mem_nil⟩
  · rintro s op t hlisted ⟨hstep, hlinks⟩
    obtain ⟨-, rfl⟩ := perform_eq_ok hstep
    exact hlisted.record hlinks.fresh

namespace SessionAppends

/-! ## The invariant -/

structure Inv (s : SessionAppends) : Prop where
  valid : s.uuid.Valid
  rooted : s.storage.Rooted
  listed : s.storage.Listed
  /-- Every id is from the opened file, or one that a call of the run may have. -/
  accounted : ∀ id, s.storage.has id = true →
    id ∈ s.opened ∨ EightDigits id ∨ s.uuid.Issued id
  held : ∀ c id window, s.held c = some (id, window) →
    id ≠ "" ∧ s.storage.has id = false ∧ s.uuid.Picked id window
  recorded : ∀ c entry, s.rowOf c = some entry → s.storage.has entry.id = true
  apart : ∀ c d id, s.idOf c = some id → s.idOf d = some id → c = d
  onPath : ∃ path, s.storage.getPathToRoot s.storage.leafId = .ok path ∧
    ∀ c entry, s.rowOf c = some entry → entry ∈ path

variable {s : SessionAppends}

theorem inv_opened (hs : s.Opened) : s.Inv where
  valid := hs.uuid
  rooted := rooted_of_inSession hs.session
  listed := listed_of_inSession hs.session
  accounted id hid := by
    obtain ⟨row, hrow⟩ := byId_of_has hid
    rw [hs.opened]
    exact .inl ((rooted_of_inSession hs.session).indexed id row hrow).2
  held c id window h := by
    rw [SessionAppends.held, hs.phase] at h
    cases h
  recorded c entry h := by
    rw [rowOf, hs.phase] at h
    cases h
  apart c d id h := by
    rw [idOf, hs.phase] at h
    cases h
  onPath := by
    have hrooted := rooted_of_inSession hs.session
    obtain ⟨path, hpath⟩ := getPathToRoot_known hrooted hrooted.leaf
    refine ⟨path, hpath, fun c entry h => ?_⟩
    rw [rowOf, hs.phase] at h
    cases h

variable {β : Type}

theorem bind_update (phase : Nat → Option AppendPhase) (c d : Nat) (new : AppendPhase)
    (f : AppendPhase → Option β) : (Function.update phase c (some new) d).bind f =
      if d = c then f new else (phase d).bind f := by
  by_cases hd : d = c
  · rw [if_pos hd, hd, Function.update_self]
    rfl
  · rw [if_neg hd, Function.update_of_ne hd]

variable {c : Nat}

variable {new : AppendPhase}

theorem of_bind_update {phase : Nat → Option AppendPhase} {d : Nat} {f : AppendPhase → Option β}
    {x : β} (hnew : ∀ x, f new = some x → (phase c).bind f = some x)
    (h : (Function.update phase c (some new) d).bind f = some x) : (phase d).bind f = some x := by
  rw [bind_update] at h
  split at h
  · rename_i hd
    rw [hd]
    exact hnew x h
  · exact h

theorem Inv.set (hs : s.Inv) {phase : AppendPhase}
    (hid : ∀ id, phase.id = some id → s.idOf c = some id)
    (hheld : ∀ x, phase.held = some x → s.held c = some x)
    (hrow : ∀ entry, phase.row = some entry → s.rowOf c = some entry) : (s.set c phase).Inv where
  valid := hs.valid
  rooted := hs.rooted
  listed := hs.listed
  accounted := hs.accounted
  held d id window h := hs.held d id window (of_bind_update hheld h)
  recorded d entry h := hs.recorded d entry (of_bind_update hrow h)
  apart d e id hd he := hs.apart d e id (of_bind_update hid hd) (of_bind_update hid he)
  onPath := by
    obtain ⟨path, hpath, hrows⟩ := hs.onPath
    exact ⟨path, hpath, fun d entry h => hrows d entry (of_bind_update hrow h)⟩

theorem Inv.failed (hs : s.Inv) (c : Nat) (error : SessionError) : (s.set c (.failed error)).Inv :=
  hs.set (fun _ h => by cases h) (fun _ h => by cases h) (fun _ h => by cases h)

theorem Inv.advance (hs : s.Inv) {old : AppendPhase} (hphase : s.phase c = some old)
    (hid : new.id = old.id) (hheld : new.held = old.held) (hrow : new.row = none) :
    (s.set c new).Inv := by
  refine hs.set (fun id h => ?_) (fun x h => ?_) (fun entry h => ?_)
  · rw [idOf, hphase]
    exact hid.symm.trans h
  · rw [SessionAppends.held, hphase]
    exact hheld.symm.trans h
  · rw [hrow] at h
    cases h

theorem held_or_recorded (h : s.idOf c = some id) :
    (∃ window, s.held c = some (id, window)) ∨ ∃ entry, s.rowOf c = some entry ∧ entry.id = id := by
  obtain ⟨phase, hphase, hid⟩ := Option.bind_eq_some_iff.mp h
  rw [SessionAppends.held, rowOf, hphase]
  cases phase with
  | checked | failed => cases hid
  | chosen | placed | writing | written =>
    cases hid
    exact .inl ⟨_, rfl⟩
  | appended entry =>
    cases hid
    exact .inr ⟨entry, rfl, rfl⟩

theorem newId_generated (hvalid : s.uuid.Valid) (input : Nat → UuidInput) :
    (s.newId input).2.Valid ∧ s.uuid.key ≤ (s.newId input).2.key ∧
    ((s.newId input).2.InRange →
      (s.newId input).2.Picked (s.newId input).1 (s.newId input).2.window ∧
      (EightDigits (s.newId input).1 → s.storage.has (s.newId input).1 = false) ∧
      ¬ s.uuid.Issued (s.newId input).1) := by
  exact generateEntryIdFrom_spec s.storage.has input 0 100 hvalid

theorem idOf_of_held (h : s.held c = some (id, window)) : s.idOf c = some id := by
  obtain ⟨phase, hphase, hheld⟩ := Option.bind_eq_some_iff.mp h
  rw [idOf, hphase]
  cases phase with
  | checked | failed | appended => cases hheld
  | chosen | placed | writing | written =>
    cases hheld
    rfl

variable {input : Nat → UuidInput}

theorem newId_spec (hs : s.Inv) (hown : s.OwnId input) :
    (s.newId input).2.Valid ∧ s.uuid.key ≤ (s.newId input).2.key ∧
    (s.newId input).2.Picked (s.newId input).1 (s.newId input).2.window ∧
    s.storage.has (s.newId input).1 = false ∧
    ∀ c id, s.idOf c = some id → id ≠ (s.newId input).1 := by
  obtain ⟨hvalid, hkey, hpicked⟩ := newId_generated hs.valid input
  obtain ⟨hpick, hshort, hnew⟩ := hpicked hown.inRange
  have hfresh : s.storage.has (s.newId input).1 = false := by
    by_contra hhas
    rw [Bool.not_eq_false] at hhas
    have height : ¬ EightDigits (s.newId input).1 := fun h => by
      rw [hshort h] at hhas
      cases hhas
    rcases hs.accounted _ hhas with hopened | hdigits | hissued
    · exact hown.unopened height hopened
    · exact height hdigits
    · exact hnew hissued
  refine ⟨hvalid, hkey, hpick, hfresh, ?_⟩
  rintro c _ hc rfl
  rcases held_or_recorded hc with ⟨window, hheld⟩ | ⟨entry, hrow, hid⟩
  · obtain ⟨-, -, hold⟩ := hs.held c _ window hheld
    rcases hold.eightDigits_or with hdigits | hissued
    · exact hown.window hdigits c _ window hheld hdigits
        ((hold.mono hkey).window_eq hpick hdigits)
    · exact hnew hissued
  · have hhas := hs.recorded c entry hrow
    rw [hid, hfresh] at hhas
    cases hhas

theorem Inv.choose (hs : s.Inv) (c : Nat) (call : AppendCall) (hown : s.OwnId input) :
    (s.choose c call input).Inv := by
  obtain ⟨hvalid, hkey, hpick, hfresh, hnew⟩ := newId_spec hs hown
  have hrow : ∀ d entry, (s.choose c call input).rowOf d = some entry → s.rowOf d = some entry :=
    fun d entry h => of_bind_update (fun _ hx => by cases hx) h
  have hid : ∀ d id, (s.choose c call input).idOf d = some id →
      d = c ∧ id = (s.newId input).1 ∨ s.idOf d = some id := by
    intro d id h
    rw [idOf, SessionAppends.choose, bind_update] at h
    split at h
    · rename_i hd
      exact .inl ⟨hd, (Option.some.inj h).symm⟩
    · exact .inr h
  refine ⟨hvalid, hs.rooted, hs.listed, fun id h => ?_, fun d id window h => ?_,
    fun d entry h => hs.recorded d entry (hrow d entry h), fun d e id hd he => ?_, ?_⟩
  · exact (hs.accounted id h).imp_right fun h => h.imp_right fun h => h.mono hkey
  · rw [SessionAppends.held, SessionAppends.choose, bind_update] at h
    split at h
    · cases h
      exact ⟨hpick.ne_empty, hfresh, hpick⟩
    · obtain ⟨hnamed, hhas, hpicked⟩ := hs.held d id window h
      exact ⟨hnamed, hhas, hpicked.mono hkey⟩
  · rcases hid d id hd with ⟨hdc, hdid⟩ | hdold
    · rcases hid e id he with ⟨hec, -⟩ | heold
      · rw [hdc, hec]
      · exact absurd hdid (hnew e id heold)
    · rcases hid e id he with ⟨-, heid⟩ | heold
      · exact absurd heid (hnew d id hdold)
      · exact hs.apart d e id hdold heold
  · obtain ⟨path, hpath, hrows⟩ := hs.onPath
    exact ⟨path, hpath, fun d entry h => hrows d entry (hrow d entry h)⟩

theorem AppendDraft.isVisible (draft : AppendDraft) : draft.entry.isLeaf = false ∧
    leafIdUpdateAfterEntry draft.entry = some (some draft.entry.id) :=
  draft.call.isVisible ..

theorem Inv.record (hs : s.Inv) {draft : AppendDraft} (hphase : s.phase c = some (.written draft))
    (hcursor : draft.parentId = s.storage.appendParentId) : ({ s.set c (.appended draft.entry) with
      storage := s.storage.record draft.entry } : SessionAppends).Inv := by
  have hheld : s.held c = some (draft.id, draft.window) := by
    rw [SessionAppends.held, hphase]
    rfl
  have hid : s.idOf c = some draft.id := by
    rw [idOf, hphase]
    rfl
  obtain ⟨hnamed, hfresh, hpicked⟩ := hs.held c _ _ hheld
  obtain ⟨hleaf, hvisible⟩ := AppendDraft.isVisible draft
  obtain ⟨hrooted, path, hbefore, hafter⟩ :=
    record_on_cursor hs.rooted hnamed hfresh hleaf hvisible rfl hcursor
  have hidOf : ∀ d id, (s.set c (.appended draft.entry)).idOf d = some id → s.idOf d = some id :=
    fun d id h => of_bind_update
      (fun x (hx : AppendPhase.id (.appended draft.entry) = some x) => hid.trans hx) h
  have hrowOf : ∀ d entry, (s.set c (.appended draft.entry)).rowOf d = some entry →
      entry = draft.entry ∨ s.rowOf d = some entry := by
    intro d entry h
    rw [rowOf, SessionAppends.set, bind_update] at h
    split at h
    · exact .inl (Option.some.inj h).symm
    · exact .inr h
  refine ⟨hs.valid, hrooted, hs.listed.record hfresh, fun id h => ?_, fun d id window h => ?_,
    fun d entry h => ?_, fun d e id hd he => hs.apart d e id (hidOf d id hd) (hidOf e id he),
    path ++ [draft.entry], hafter, fun d entry h => ?_⟩
  · rw [has_record, Bool.or_eq_true, decide_eq_true_eq] at h
    rcases h with rfl | h
    · exact .inr hpicked.eightDigits_or
    · exact hs.accounted id h
  · rw [SessionAppends.held, SessionAppends.set, bind_update] at h
    split at h
    · cases h
    · rename_i hd
      obtain ⟨hnamed', hhas, hpicked'⟩ := hs.held d id window h
      refine ⟨hnamed', ?_, hpicked'⟩
      rw [has_record, hhas, Bool.or_false, decide_eq_false_iff_not]
      rintro rfl
      exact hd (hs.apart d c _ (idOf_of_held h) hid)
  · rw [has_record, Bool.or_eq_true, decide_eq_true_eq]
    rcases hrowOf d entry h with rfl | hold
    · exact .inl rfl
    · exact .inr (hs.recorded d entry hold)
  · rcases hrowOf d entry h with rfl | hold
    · exact List.mem_append_right path List.mem_cons_self
    · obtain ⟨path', hpath', hrows⟩ := hs.onPath
      rw [hbefore] at hpath'
      cases hpath'
      exact List.mem_append_left _ (hrows d entry hold)

theorem inv_step {t : SessionAppends} {e : AppendEvent} (hs : s.Inv)
    (h : Lts.Guarded Step Undisturbed s e t) : t.Inv := by
  obtain ⟨hstep, hguard⟩ := h
  rw [Step] at hstep
  cases e with
  | call c call input =>
    rw [step] at hstep
    split at hstep
    · cases hstep
    · split at hstep
      · cases hstep
        exact hs.failed c _
      · split at hstep
        · cases hstep
          exact hs.set (fun _ h => by cases h) (fun _ h => by cases h) (fun _ h => by cases h)
        · rename_i hlabel
          cases hstep
          exact hs.choose c call (hguard (Bool.eq_false_iff.mpr hlabel))
  | chooseId c input =>
    rw [step] at hstep
    split at hstep
    · rename_i call hphase
      cases hstep
      exact hs.choose c call hguard
    · cases hstep
  | readCursor c =>
    rw [step] at hstep
    split at hstep
    · rename_i call id window hphase
      split at hstep
      · cases hstep
        exact hs.failed c _
      · cases hstep
        exact hs.advance hphase rfl rfl rfl
    · cases hstep
  | write c timestamp =>
    rw [step] at hstep
    split at hstep
    · rename_i call id window parentId hphase
      split at hstep
      · cases hstep
        exact hs.failed c _
      · cases hstep
        exact hs.advance hphase rfl rfl rfl
    · cases hstep
  | fileDone c error =>
    rw [step] at hstep
    split at hstep
    · rename_i draft hphase
      split at hstep
      · cases hstep
        exact hs.failed c _
      · cases hstep
        have hwritten : (s.set c (.written draft)).Inv := hs.advance hphase rfl rfl rfl
        exact { hwritten with }
    · cases hstep
  | record c =>
    rw [step] at hstep
    split at hstep
    · rename_i draft hphase
      rw [SessionStorage.recordEntry, validate_of_not_leaf (AppendDraft.isVisible draft).1]
        at hstep
      cases hstep
      exact hs.record hphase (hguard draft hphase)
    · cases hstep
  | uuid input =>
    cases hstep
    have hkey := (UuidState.next_key hs.valid input).le
    exact ⟨uuidv7_valid s.uuid input, hs.rooted, hs.listed,
      fun id h => (hs.accounted id h).imp_right fun h => h.imp_right fun h => h.mono hkey,
      fun c id window h => (hs.held c id window h).imp_right fun h => h.imp_right
        fun h => h.mono hkey, hs.recorded, hs.apart, hs.onPath⟩

theorem inv_of_reachable (hs : Lts.Reachable Opened (Lts.Guarded Step Undisturbed) s) : s.Inv :=
  hs.invariant (fun _ => inv_opened) fun _ _ _ => inv_step

end SessionAppends

/-- **Appends are kept.** In every run of undisturbed events the rows have distinct ids, so have the
calls, and every row that a call has appended is on the path from the leaf to the root. -/
theorem appends_on_path {s : SessionAppends} (hs : Lts.Reachable SessionAppends.Opened
    (Lts.Guarded SessionAppends.Step SessionAppends.Undisturbed) s) :
    (s.storage.entries.map SessionTreeEntry.id).Nodup ∧
    (∀ c d id, s.idOf c = some id → s.idOf d = some id → c = d) ∧
    ∃ path, s.storage.getPathToRoot s.storage.leafId = .ok path ∧
      ∀ c entry, s.rowOf c = some entry → entry ∈ path :=
  have hinv := SessionAppends.inv_of_reachable hs
  ⟨hinv.listed.nodup, hinv.apart, hinv.onPath⟩

/-! ## Two calls on a new session -/

namespace SessionAppends

def created : SessionAppends where
  storage := JsonlSessionStorage.create.storage
  file := JsonlSessionStorage.create.file
  uuid := {}
  phase _ := none
  opened := []

theorem created_opened : created.Opened :=
  ⟨.start rfl, rfl, Nat.two_pow_pos 32, fun _ => rfl⟩

/-- The inputs of `uuidv7` while the clock stands still. -/
def stoppedClock (now : Nat) : Nat → UuidInput := fun _ => ⟨now, fun _ => 0⟩

/-- A call from the reading of the append cursor on. -/
def finish (c : Nat) : List AppendEvent := [.readCursor c, .write c 0, .fileDone c none, .record c]

def low : AppendCall := .appendThinkingLevelChange "low"

def high : AppendCall := .appendThinkingLevelChange "high"

/-- Two calls that overlap, the second one started some time later. -/
def overlapping (later : Nat) : List AppendEvent :=
  [.call 0 low (stoppedClock 0), .call 1 high (stoppedClock later), .readCursor 0, .readCursor 1,
    .write 0 0, .write 1 0, .fileDone 0 none, .fileDone 1 none, .record 0, .record 1]

/-- Two calls of which the second one reads the append cursor after the first one has returned. -/
def ordered : List AppendEvent :=
  [.call 0 low (stoppedClock 0), .call 1 high (stoppedClock 65536)] ++ finish 0 ++ finish 1

def lowRow (id : String) : SessionTreeEntry := ⟨id, none, .valid 0, false, low.body⟩

def highRow (id : String) (parentId : Option String) : SessionTreeEntry :=
  ⟨id, parentId, .valid 0, false, high.body⟩

variable {s : SessionAppends}

theorem reachable_run {events : List AppendEvent} (h : Lts.run step created events = some s) :
    Lts.Reachable Opened Step s :=
  Lts.Reachable.run (.start created_opened) h

theorem reachable_next {t : SessionAppends}
    (hs : Lts.Reachable Opened (Lts.Guarded Step Undisturbed) s) (e : AppendEvent)
    (hguard : s.Undisturbed e) (h : s.step e = some t) :
    Lts.Reachable Opened (Lts.Guarded Step Undisturbed) t := hs.next ⟨h, hguard⟩

theorem ordered_reachable : ∃ s, Lts.run step created ordered = some s ∧
    Lts.Reachable Opened (Lts.Guarded Step Undisturbed) s := by
  have hown₀ : created.OwnId (stoppedClock 0) :=
    have hnew : created.newId (stoppedClock 0) = ("00000000", ⟨some 0, 0⟩) := rfl
    { inRange := by
        intro last hlast
        cases hlast
        decide
      unopened := fun _ => List.not_mem_nil
      window := fun _ _ _ _ h => by cases h }
  have hown₁ : (created.choose 0 low (stoppedClock 0)).OwnId (stoppedClock 65536) :=
    have hnew : (created.choose 0 low (stoppedClock 0)).newId (stoppedClock 65536) =
      ("00000001", ⟨some 65536, 0⟩) := rfl
    { inRange := by
        intro last hlast
        cases hlast
        decide
      unopened := fun _ => List.not_mem_nil
      window := fun _ c id window h _ => by
        rw [SessionAppends.held, SessionAppends.choose, bind_update] at h
        split at h
        · cases h
          decide
        · cases h }
  have h₀ : Lts.Reachable Opened (Lts.Guarded Step Undisturbed) created := .start created_opened
  have h₁ := reachable_next h₀ (.call 0 low (stoppedClock 0)) (fun _ => hown₀) rfl
  have h₂ := reachable_next h₁ (.call 1 high (stoppedClock 65536)) (fun _ => hown₁) rfl
  have h₃ := reachable_next h₂ (.readCursor 0) trivial rfl
  have h₄ := reachable_next h₃ (.write 0 0) trivial rfl
  have h₅ := reachable_next h₄ (.fileDone 0 none) trivial rfl
  have h₆ := reachable_next h₅ (.record 0) (fun draft h => by cases h; rfl) rfl
  have h₇ := reachable_next h₆ (.readCursor 1) trivial rfl
  have h₈ := reachable_next h₇ (.write 1 0) trivial rfl
  have h₉ := reachable_next h₈ (.fileDone 1 none) trivial rfl
  have h := reachable_next h₉ (.record 1) (fun draft h => by cases h; rfl) rfl
  exact ⟨_, rfl, h⟩

end SessionAppends

open SessionAppends

/-- Two calls of which each reads the cursor after the other has returned. -/
theorem appends_on_path_ordered : ∃ s, Lts.run SessionAppends.step created ordered = some s ∧
    s.rowOf 0 = some (lowRow "00000000") ∧ s.rowOf 1 = some (highRow "00000001" (some "00000000")) ∧
    (s.storage.entries.map SessionTreeEntry.id).Nodup ∧
    (∀ c d id, s.idOf c = some id → s.idOf d = some id → c = d) ∧
    ∃ path, s.storage.getPathToRoot s.storage.leafId = .ok path ∧
      ∀ c entry, s.rowOf c = some entry → entry ∈ path := by
  obtain ⟨s, hrun, hs⟩ := ordered_reachable
  have hrow : (Lts.run SessionAppends.step created ordered).map
    (fun s => (s.rowOf 0, s.rowOf 1)) =
      some (some (lowRow "00000000"), some (highRow "00000001" (some "00000000"))) := rfl
  rw [hrun, Option.map_some, Option.some.injEq, Prod.mk.injEq] at hrow
  exact ⟨s, hrun, hrow.1, hrow.2, appends_on_path hs⟩

/-- **Overlapping appends are lost.** Two calls in one clock window get the same id, and two calls
that read the same cursor leave the first row off the path. -/
theorem overlapping_appends_lost :
    (∃ s, Lts.Reachable Opened Step s ∧ s.rowOf 0 = some (lowRow "00000000") ∧
      s.rowOf 1 = some (highRow "00000000" none) ∧
      s.storage.getPathToRoot s.storage.leafId = .ok [highRow "00000000" none]) ∧
    ∃ s, Lts.Reachable Opened Step s ∧ s.rowOf 0 = some (lowRow "00000000") ∧
      s.rowOf 1 = some (highRow "00000001" none) ∧
      s.storage.getPathToRoot s.storage.leafId = .ok [highRow "00000001" none] :=
  ⟨⟨(Lts.run SessionAppends.step created (overlapping 0)).get rfl,
      reachable_run (Option.some_get _).symm, rfl, rfl, rfl⟩,
    ⟨(Lts.run SessionAppends.step created (overlapping 65536)).get rfl,
      reachable_run (Option.some_get _).symm, rfl, rfl, rfl⟩⟩

end OpenClaw.Harness
