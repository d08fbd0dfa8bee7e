import OpenClaw.Transcript.InputRepair

/-!
# When the pass over tool-call inputs gives the same again

A thinking turn is dropped as a whole if it calls an id of an earlier turn and the results that
follow it stand displaced behind another message. The messages that follow it, up to the next turn
with tool calls, are others once that turn has lost its tool calls.

* `ReplayStable` — in the surviving transcript no thinking turn would be dropped for that.

**Theorem (`sanitizeToolCallInputs_idem_iff`).** The pass gives the same again exactly if the
surviving transcript is replay stable.
-/

namespace OpenClaw.Transcript

/-- The results that follow a turn, in the messages after it. -/
def followingResults (message : Json) (rest : List Json) : FollowingToolResults :=
  collectFollowingToolResults (extractToolCallsFromAssistant message) false rest

/-- The tool calls of an assistant message come before those of later messages. -/
def priorAfter (prior : List String) (message : Json) : List String :=
  if isAssistant message then toolCallIds message ++ prior else prior

def ReplayStable (options : ToolCallInputRepairOptions) : List String → List Json → Prop
  | _, [] => True
  | prior, message :: rest =>
    (isAssistant message = true → isThinkingTurn options (contentBlocks message) = true →
      (followingResults message rest).displaced = true → ∀ id ∈ toolCallIds message, id ∉ prior) ∧
      ReplayStable options (priorAfter prior message) rest

namespace InputRepairState

/-- Two states that decide the same. -/
structure SameSets (s t : InputRepairState) : Prop where
  prior : t.priorToolCallIds = s.priorToolCallIds
  preserved : t.preservedThinkingToolCallIds = s.preservedThinkingToolCallIds

end InputRepairState

open InputRepairState

section Second

variable {env : JsEnv} {options : ToolCallInputRepairOptions} {s t u : InputRepairState}
  {message : Json} {rest kept messages : List Json}

/-! ## One message again -/

theorem repairMessage_other (h : isAssistant message = false ∨
    ∀ content, message.field "content" ≠ some (.arr content)) (t : InputRepairState)
    (rest : List Json) : t.repairMessage env options message rest = t.push message := by
  unfold repairMessage
  split
  · rename_i content hrole hcontent
    rcases h with h | h
    · exact absurd (h.symm.trans hrole) Bool.false_ne_true
    · exact absurd hcontent (h content)
  · rfl

variable {content : List Json}

theorem repairMessage_assistant (env : JsEnv) (options : ToolCallInputRepairOptions)
    (hrole : isAssistant message = true)
    (hcontent : message.field "content" = some (.arr content)) (t : InputRepairState)
    (rest : List Json) : t.repairMessage env options message rest =
      if isThinkingTurn options content then
        t.repairThinkingTurn env (normalizeAllowedToolNames env options.allowedToolNames) message
          content rest
      else t.repairToolTurn env (normalizeAllowedToolNames env options.allowedToolNames) message
        content := by
  unfold repairMessage
  rw [hrole, hcontent]
  rfl

variable {allowedToolNames : Option (List String)}

theorem filterMap_settledContent (h : SettledContent env allowedToolNames content)
    (message : Json) : content.filterMap (keepBlock env allowedToolNames message) =
      content.map fun block => (block, false) := by
  induction content with
  | nil => rfl
  | cons block content ih =>
    rw [List.filterMap_cons_some (h block List.mem_cons_self message), List.map_cons,
      ih fun other hmem => h other (List.mem_cons_of_mem _ hmem)]

theorem repairToolTurn_settled (h : SettledContent env allowedToolNames content)
    (t : InputRepairState) (message : Json) :
    (t.repairToolTurn env allowedToolNames message content).out = t.out ++ [message] ∧
      SameSets (t.pushAssistant message)
        (t.repairToolTurn env allowedToolNames message content) := by
  have hnone : ((content.map fun block => (block, false)).any Prod.snd) = false := by
    rw [List.any_eq_false]
    intro pair hmem
    obtain ⟨block, -, rfl⟩ := List.mem_map.mp hmem
    exact Bool.false_ne_true
  unfold repairToolTurn
  dsimp only
  rw [filterMap_settledContent h, List.length_map, Nat.sub_self, hnone, if_neg (Nat.lt_irrefl 0),
    if_neg (by decide)]
  exact ⟨rfl, rfl, rfl⟩

/-! ## Thinking turns again -/

theorem keepsThinkingTurn_iff :
    s.keepsThinkingTurn env allowedToolNames message content rest = true ↔
      isReplaySafeThinkingAssistantTurn env content allowedToolNames = true ∧
      ∀ id ∈ toolCallIds message, id ∉ s.preservedThinkingToolCallIds ∧
        (hasSessionsSpawnAttachmentToolCall content = true →
          id ∈ (followingResults message rest).ids) ∧
        ((followingResults message rest).displaced = true → id ∉ s.priorToolCallIds) := by
  unfold keepsThinkingTurn toolCallIds followingResults
  rw [Bool.and_eq_true, List.all_eq_true, List.forall_mem_map]
  refine and_congr_right fun _ => forall₂_congr fun call _ => ?_
  rw [Bool.and_eq_true, Bool.and_eq_true, decide_eq_true_iff, Bool.or_eq_true, Bool.or_eq_true,
    decide_eq_true_iff, decide_eq_true_iff, Bool.not_eq_true', Bool.not_eq_true',
    ← Bool.not_eq_true, ← Bool.not_eq_true, imp_iff_not_or, imp_iff_not_or, and_assoc]

theorem keepsThinkingTurn_again {kepts : List Json}
    (h : s.keepsThinkingTurn env allowedToolNames message content rest = true)
    (hsame : SameSets s t)
    (hids : (followingResults message rest).ids ⊆ (followingResults message kepts).ids) :
    t.keepsThinkingTurn env allowedToolNames message content kepts = true ↔
      ((followingResults message kepts).displaced = true →
        ∀ id ∈ toolCallIds message, id ∉ s.priorToolCallIds) := by
  obtain ⟨hsafe, hcalls⟩ := keepsThinkingTurn_iff.mp h
  rw [keepsThinkingTurn_iff, hsame.prior, hsame.preserved]
  constructor
  · rintro ⟨-, hall⟩ hdisplaced id hid
    exact (hall id hid).2.2 hdisplaced
  · intro hprior
    exact ⟨hsafe, fun id hid => ⟨(hcalls id hid).1, fun hspawn => hids ((hcalls id hid).2.1 hspawn),
      fun hdisplaced => hprior hdisplaced id hid⟩⟩

/-! ## The run again -/

theorem length_repairFrom_le (env : JsEnv) (options : ToolCallInputRepairOptions)
    (t : InputRepairState) (messages : List Json) :
    (t.repairFrom env options messages).out.length ≤ t.out.length + messages.length := by
  obtain ⟨kept, hrun⟩ := inputRun_repairFrom env options t messages
  rw [hrun.out, List.length_append]
  exact Nat.add_le_add_left hrun.length_le _

theorem InputRun.again (h : InputRun env options s messages u kept) (hsame : SameSets s t) :
    (ReplayStable options s.priorToolCallIds kept →
      (t.repairFrom env options kept).out = t.out ++ kept) ∧
    (¬ ReplayStable options s.priorToolCallIds kept →
      (t.repairFrom env options kept).out.length < t.out.length + kept.length) := by
  induction h generalizing t with
  | nil s => exact ⟨fun _ => (List.append_nil _).symm, fun h => absurd trivial h⟩
  | @cons s next u message rest kept kepts step run ih =>
    -- a message that is pushed again, whatever follows
    have hpushed : ∀ (other : Json) (again : InputRepairState),
        t.repairMessage env options other kepts = again → again.out = t.out ++ [other] →
        SameSets next again → priorAfter s.priorToolCallIds other = next.priorToolCallIds →
        (isAssistant other = true → isThinkingTurn options (contentBlocks other) = true →
          (followingResults other kepts).displaced = true →
            ∀ id ∈ toolCallIds other, id ∉ s.priorToolCallIds) →
        (ReplayStable options s.priorToolCallIds ([other] ++ kepts) →
          (t.repairFrom env options ([other] ++ kepts)).out = t.out ++ ([other] ++ kepts)) ∧
        (¬ ReplayStable options s.priorToolCallIds ([other] ++ kepts) →
          (t.repairFrom env options ([other] ++ kepts)).out.length <
            t.out.length + ([other] ++ kepts).length) := by
      intro other again hagain hout hnext hprior hstable
      obtain ⟨ihstable, ihunstable⟩ := ih hnext
      rw [List.singleton_append, repairFrom, hagain, ReplayStable, hprior]
      constructor
      · intro hall
        rw [ihstable hall.2, hout, List.append_assoc]
        rfl
      · intro hnot
        have hlt := ihunstable fun hrest => hnot ⟨hstable, hrest⟩
        rw [hout, List.length_append, List.length_singleton] at hlt
        rw [List.length_cons]
        omega
    cases step with
    | other hother =>
      have hnone : isAssistant message = true → contentBlocks message = [] := by
        intro hrole
        unfold contentBlocks
        split
        · rename_i content hcontent
          rcases hother with h | h
          · exact absurd (h.symm.trans hrole) Bool.false_ne_true
          · exact absurd hcontent (h content)
        · rfl
      refine hpushed message _ (repairMessage_other hother t kepts) rfl ?_ ?_ ?_
      · exact ⟨hsame.prior, hsame.preserved⟩
      · unfold priorAfter
        split
        · rename_i hrole
          rw [toolCallIds, extractToolCallsFromAssistant, hnone hrole]
          rfl
        · rfl
      · intro hrole hthinking
        rw [hnone hrole, isThinkingTurn_iff] at hthinking
        cases hthinking.2.1
    | dropped next hrole hout hprior hpreserved =>
      have hnext : SameSets next t :=
        ⟨hsame.prior.trans hprior.symm, hsame.preserved.trans hpreserved.symm⟩
      rw [List.nil_append, ← hprior]
      exact ih hnext
    | tool next other content hmessage hrole hcontent hsettled hthinking hcalls hout hprior
        hpreserved =>
      have hagain := repairMessage_assistant env options hrole hcontent t kepts
      rw [if_neg (by rw [hthinking]; decide)] at hagain
      obtain ⟨hagainOut, hagainSets⟩ := repairToolTurn_settled hsettled t other
      refine hpushed other _ hagain hagainOut ⟨?_, ?_⟩ ?_ ?_
      · rw [hagainSets.prior, hprior, ← hsame.prior]
        rfl
      · rw [hagainSets.preserved, hpreserved, ← hsame.preserved]
        rfl
      · rw [priorAfter, if_pos hrole, hprior]
      · intro _ hthinking'
        rw [contentBlocks_of_field hcontent, hthinking] at hthinking'
        cases hthinking'
    | thinking content hrole hcontent hthinking hkeeps =>
      have hagain := repairMessage_assistant env options hrole hcontent t kepts
      rw [if_pos hthinking, repairThinkingTurn] at hagain
      have hids := run.ids_subset (extractToolCallsFromAssistant message) false false
      have hkeepsIff := keepsThinkingTurn_again hkeeps hsame hids
      by_cases hstable : (followingResults message kepts).displaced = true →
          ∀ id ∈ toolCallIds message, id ∉ s.priorToolCallIds
      · rw [if_pos (hkeepsIff.mpr hstable)] at hagain
        refine hpushed message _ hagain rfl ⟨?_, ?_⟩ ?_ fun _ _ => hstable
        · change toolCallIds message ++ _ = toolCallIds message ++ _
          rw [hsame.prior]
        · change toolCallIds message ++ _ = toolCallIds message ++ _
          rw [hsame.preserved]
        · rw [priorAfter, if_pos hrole]
          rfl
      · -- the turn is dropped now
        rw [if_neg fun hkept => hstable (hkeepsIff.mp hkept)] at hagain
        rw [List.singleton_append, repairFrom, hagain, ReplayStable,
          contentBlocks_of_field hcontent]
        refine ⟨fun hall => absurd (hall.1 hrole hthinking) hstable, fun _ => ?_⟩
        have hle := length_repairFrom_le env options
          { t with
            droppedToolCalls := t.droppedToolCalls + content.countP isRawToolCallBlock
            droppedAssistantMessages := t.droppedAssistantMessages + 1
            changed := true } kepts
        exact Nat.lt_of_le_of_lt hle (Nat.add_lt_add_left (Nat.lt_succ_self _) _)

theorem sanitizeToolCallInputs_idem_iff (env : JsEnv) (options : ToolCallInputRepairOptions)
    (messages : List Json) :
    sanitizeToolCallInputs env options (sanitizeToolCallInputs env options messages) =
        sanitizeToolCallInputs env options messages ↔
      ReplayStable options [] (sanitizeToolCallInputs env options messages) := by
  obtain ⟨kept, hrun⟩ := inputRun_repairFrom env options {} messages
  obtain ⟨kept', hrun'⟩ := inputRun_repairFrom env options {} kept
  rw [hrun.sanitize, hrun'.sanitize]
  obtain ⟨hstable, hunstable⟩ := hrun.again (t := {}) ⟨rfl, rfl⟩
  rw [hrun'.out] at hstable hunstable
  constructor
  · intro heq
    by_contra hnot
    have hlt := hunstable hnot
    rw [heq, List.length_append] at hlt
    exact Nat.lt_irrefl _ hlt
  · exact fun h => List.append_cancel_left (hstable h)

end Second

end OpenClaw.Transcript
