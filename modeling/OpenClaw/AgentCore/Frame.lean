import OpenClaw.AgentCore.AgentLoop

/-!
# What the parts of the loop leave alone

Most functions of the loop only run outside code, change the context and emit progress events. A
family of assertions that ignores these (`Frame`) is kept by all of them, so that a property of the
loop has to look only at the functions that matter to it.
-/

namespace OpenClaw.AgentCore

/-- A family of assertions that suspensions, changes of the context and the entries in `ignored` do
not touch. -/
structure Frame {ι : Type} (env : Env) (I E : ι → RunState → Prop) (ignored : Entry → Prop) :
    Prop where
  suspend : Prog.Keeps I E (suspend env)
  record : ∀ entry, ignored entry → Prog.Keeps I E (record entry)
  context : ∀ f : AgentContext → AgentContext,
    Prog.Keeps I E (Prog.modify fun s => { s with context := f s.context })
  stop : ∀ i s, I i s → E i s

/-! ## Reading the state -/

variable {ι : Type}

theorem keeps_signalAborted {I E : ι → RunState → Prop} : Prog.Keeps I E signalAborted :=
  Prog.Keeps.get.bind fun _ => .pure _

theorem keeps_hidesToolCallFromChannelProgress {I E : ι → RunState → Prop}
    (resolvedToolCalls : ResolvedToolCalls) (index : Nat) (toolCall : AgentToolCall) :
    Prog.Keeps I E (hidesToolCallFromChannelProgress resolvedToolCalls index toolCall) :=
  Prog.Keeps.get.bind fun _ => .pure _

/-! ## Running outside code -/

namespace Frame

variable {ι : Type} {env : Env} {I E : ι → RunState → Prop} {ignored : Entry → Prop} {α : Type}
  (h : Frame env I E ignored)

include h

theorem attempt (f : Nat → Except String α) : Prog.Keeps I E (attempt env f) :=
  Prog.Keeps.get.bind fun _ => h.suspend.bind fun _ => .pure _

theorem call (f : Nat → Except String α) : Prog.Keeps I E (call env f) := by
  refine (h.attempt f).bind fun result => ?_
  cases result with
  | ok a => exact .pure a
  | error message => exact .throw h.stop _

theorem callHook (hook : Option (Nat → Except String α)) (absent : α) :
    Prog.Keeps I E (callHook env hook absent) := h.call _

theorem callIfSet (hook : Option (Nat → Except String α)) : Prog.Keeps I E (callIfSet env hook) := by
  cases hook with
  | none => exact .pure ()
  | some hook => exact (h.call hook).bind fun _ => .pure _

theorem emit {e : AgentEvent} (he : ignored (.event e)) : Prog.Keeps I E (emit env e) :=
  (h.record _ he).bind fun _ => h.call _

section

variable (config : AgentLoopConfig)

theorem resolveToolCallTool (resolvedToolCalls : ResolvedToolCalls) (index : Nat)
    (toolCall : AgentToolCall) :
    Prog.Keeps I E (resolveToolCallTool env config resolvedToolCalls index toolCall) := by
  unfold AgentCore.resolveToolCallTool
  cases resolvedToolCalls index with
  | some cached => exact .pure _
  | none =>
    refine Prog.Keeps.get.bind fun s => ?_
    cases findTool s.context.tools toolCall.name with
    | some tool => exact .pure _
    | none =>
      refine (h.attempt _).bind fun resolution => ?_
      cases resolution with
      | error error => exact .pure _
      | ok tool =>
        cases tool with
        | none => exact .pure _
        | some tool =>
          refine .ite (.pure _) (.bind ?_ fun _ => .pure _)
          exact h.context fun context => { context with tools := context.tools ++ [tool] }

theorem hasSequentialToolCall (resolvedToolCalls : ResolvedToolCalls) (index : Nat)
    (toolCalls : List AgentToolCall) :
    Prog.Keeps I E (hasSequentialToolCall env config resolvedToolCalls index toolCalls) := by
  induction toolCalls generalizing resolvedToolCalls index with
  | nil => exact .pure _
  | cons toolCall rest ih =>
    refine (h.resolveToolCallTool config _ _ _).bind fun ⟨resolution, resolved⟩ => ?_
    refine h.suspend.bind fun _ => .ite (.pure _) ?_
    exact keeps_signalAborted.bind fun _ => .ite (.pure _) (ih _ _)

theorem finalizeExecutedToolCall (prepared : PreparedToolCall) (result : AgentToolResult)
    (isError : Bool) :
    Prog.Keeps I E (finalizeExecutedToolCall env config prepared result isError) := by
  unfold AgentCore.finalizeExecutedToolCall
  cases config.afterToolCall with
  | none => exact .pure _
  | some afterToolCall =>
    refine (h.attempt afterToolCall).bind fun result => ?_
    cases result with
    | error error => exact .pure _
    | ok after => cases after <;> exact .pure _

end

section Updates

variable (hupdate : ∀ ref args partialResult hide,
  ignored (.event (.toolExecutionUpdate ref args partialResult hide)))

include hupdate

theorem emitUpdate (prepared : PreparedToolCall) (partialResult : Json) :
    Prog.Keeps I E (emitUpdate env prepared partialResult) :=
  (h.record _ (hupdate _ _ _ _)).bind fun _ => Prog.Keeps.get.bind fun _ =>
    h.suspend.bind fun _ => .pure _

theorem emitUpdates (prepared : PreparedToolCall) (failed : Option String) (updates : List Json) :
    Prog.Keeps I E (emitUpdates env prepared failed updates) := by
  induction updates generalizing failed with
  | nil => exact .pure _
  | cons update rest ih => exact (h.emitUpdate hupdate prepared update).bind fun failure => ih _

end Updates

end Frame

end OpenClaw.AgentCore
