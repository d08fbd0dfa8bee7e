import OpenClaw.Lib.Fields
import OpenClaw.Routing.SessionKey

/-!
# Session keys isolate conversations

Agents, channels, accounts and kinds have no colon, so the key of a direct message of one scope and
the keys of groups and channels can be read from the front. Only two shapes overlap:

* in the scope `per-account-channel-peer`, a direct message of an account called `group` (`channel`)
  and a group (channel) whose id is `direct:` and the peer of the message;
* in the scope `per-peer`, a direct message to `group:` (`channel:`) and an id, and the group
  (channel) of that id on a channel called `direct`.

`session_keys_isolate` says that these are all, and `Confused` what they are.
-/

namespace OpenClaw.Routing

open Followup (isIdStart isValidId isInvalidIdChar isBlockedObjectKey)

/-! ## Texts without colons -/

/-- A text without a colon, which may be a field of a key. -/
def ColonFree (s : String) : Prop := ':' ∉ s.toList

instance (s : String) : Decidable (ColonFree s) := inferInstanceAs (Decidable (':' ∉ s.toList))

variable {s : String} {c : Char}

theorem subset_of_trim (h : c ∈ (JsString.trim s).toList) : c ∈ s.toList := by
  rw [JsString.trim, String.toList_ofList, List.mem_reverse] at h
  have hrev := (List.dropWhile_suffix _).subset h
  exact (List.dropWhile_suffix _).subset (List.mem_reverse.1 hrev)

theorem ColonFree.orElse {value fallback : String} (h : ColonFree value) (hf : ColonFree fallback) :
    ColonFree (orElse value fallback) := by
  unfold Routing.orElse
  split
  · exact hf
  · exact h

variable (lang : Lowercasing)

theorem normalizeLowercaseStringOrEmpty_some (s : String) :
    normalizeLowercaseStringOrEmpty lang (some s) =
      if JsString.trim s = "" then "" else lang.toLowerCase (JsString.trim s) := by
  unfold normalizeLowercaseStringOrEmpty normalizeOptionalString
  by_cases h : JsString.trim s = ""
  · rw [if_pos h, Option.map_some, Option.filter_some_neg (by simpa using h)]
    rfl
  · rw [if_neg h, Option.map_some, Option.filter_some_pos (by simpa using h)]
    rfl

variable {lang}

/-- An ASCII character that is no letter, no digit, no dash and no underscore. -/
structure Separator (c : Char) : Prop where
  ascii : c.toNat < 0x80
  not_alpha : c.isAlpha = false
  invalid : isInvalidIdChar c = true
  not_start : isIdStart c = false

theorem separator_colon : Separator ':' := by constructor <;> decide

theorem separator_tab : Separator '\t' := by constructor <;> decide

section

variable {c : Char} (hc : Separator c)

include hc

theorem Separator.ne {d : Char} (hd : isInvalidIdChar d = false) : d ≠ c := by
  intro heq
  have hinvalid := hc.invalid
  rw [← heq, hd] at hinvalid
  cases hinvalid

theorem not_mem_lower (h : c ∉ s.toList) :
    c ∉ (normalizeLowercaseStringOrEmpty lang (some s)).toList := by
  rw [normalizeLowercaseStringOrEmpty_some]
  split
  · exact List.not_mem_nil
  · exact fun hmem => h (subset_of_trim (lang.ascii _ c hmem hc.ascii hc.not_alpha))

theorem not_mem_of_isValidId (h : isValidId s = true) : c ∉ s.toList := by
  unfold isValidId at h
  cases hs : s.toList with
  | nil => exact List.not_mem_nil
  | cons d ds =>
    rw [hs] at h
    simp only [Bool.and_eq_true, List.all_eq_true] at h
    intro hmem
    rcases List.mem_cons.1 hmem with heq | hmem
    · exact absurd h.1.1 (by rw [← heq, hc.not_start]; decide)
    · have hlast := h.2 c hmem
      have hunderscore : c ≠ '_' := (hc.ne (by decide)).symm
      have hdash : c ≠ '-' := (hc.ne (by decide)).symm
      simp [hc.not_start, hunderscore, hdash] at hlast

end

theorem colonFree_lower (h : ColonFree s) :
    ColonFree (normalizeLowercaseStringOrEmpty lang (some s)) := not_mem_lower separator_colon h

theorem lower_ne_empty (h : JsString.trim s ≠ "") :
    normalizeLowercaseStringOrEmpty lang (some s) ≠ "" := by
  rw [normalizeLowercaseStringOrEmpty_some, if_neg h]
  exact lang.ne_empty _ h

theorem not_mem_replaceRuns {p : Char → Bool} {rep : Char} (hp : p c = true) (hrep : rep ≠ c)
    (inRun : Bool) (cs : List Char) : c ∉ JsString.replaceRuns p rep inRun cs := by
  induction cs generalizing inRun with
  | nil => exact List.not_mem_nil
  | cons d ds ih =>
    unfold JsString.replaceRuns
    split
    · split
      · exact ih true
      · exact fun hc => (List.mem_cons.1 hc).elim (fun heq => hrep heq.symm) (ih true)
    · rename_i hd
      refine fun hc => (List.mem_cons.1 hc).elim (fun heq => ?_) (ih false)
      rw [heq] at hp
      exact hd hp

section

variable {c : Char} (hc : Separator c)

include hc

theorem not_mem_canonicalizeId (trimmed : String) :
    c ∉ (canonicalizeId lang trimmed).toList := by
  unfold canonicalizeId
  split
  · rename_i hvalid
    exact not_mem_lower hc (not_mem_of_isValidId hc hvalid)
  · rw [String.toList_ofList]
    intro hmem
    have hstripped := List.mem_of_mem_take hmem
    have hreversed := (List.dropWhile_suffix _).subset (List.mem_reverse.1 hstripped)
    have hreplaced := (List.dropWhile_suffix _).subset (List.mem_reverse.1 hreversed)
    exact not_mem_replaceRuns hc.invalid (hc.ne (by decide)) false _ hreplaced

theorem not_mem_normalizeAccountId (hdefault : c ∉ DEFAULT_ACCOUNT_ID.toList)
    (value : Option String) : c ∉ (normalizeAccountId lang value).toList := by
  unfold normalizeAccountId normalizeCanonicalAccountId
  dsimp only
  split
  · exact hdefault
  · split
    · exact hdefault
    · exact not_mem_canonicalizeId hc _

end

theorem colonFree_canonicalizeId (trimmed : String) : ColonFree (canonicalizeId lang trimmed) :=
  not_mem_canonicalizeId separator_colon trimmed

theorem colonFree_normalizeAgentId (value : Option String) :
    ColonFree (normalizeAgentId lang value) := by
  unfold normalizeAgentId
  dsimp only
  split
  · decide
  · exact (colonFree_canonicalizeId _).orElse (by decide)

theorem colonFree_normalizeAccountId (value : Option String) :
    ColonFree (normalizeAccountId lang value) :=
  not_mem_normalizeAccountId separator_colon (by decide) value

theorem colonFree_normalizeMainKey {value : Option String}
    (h : ∀ key, value = some key → ColonFree key) : ColonFree (normalizeMainKey lang value) := by
  cases value with
  | none =>
    show ColonFree DEFAULT_MAIN_KEY
    decide
  | some key => exact (colonFree_lower (h key rfl)).orElse (by decide)

theorem colonFree_kind (kind : ChatType) : ColonFree kind.toString := by
  cases kind <;> decide

/-! ## What a key names -/

namespace PeerSession

/-- A call without identity links, in one scope, on a channel without a colon, with a peer. -/
structure Plain (scope : DmScope) (params : PeerSession) : Prop where
  links : params.identityLinks = none
  scope : params.dmScope = some scope
  channel : ColonFree params.channel
  peer : JsString.trim (params.peerId.getD "") ≠ ""

variable (lang)

/-- The normalized peer. -/
def peer (scope : DmScope) (params : PeerSession) : String :=
  if params.kind = .direct then params.directPeerId lang scope else params.groupPeerId lang

/-- The fields of the key after the agent. -/
def fields (scope : DmScope) (params : PeerSession) : List String :=
  if params.kind = .direct then
    match scope with
    | .perAccountChannelPeer =>
      [params.normalizedChannel lang, params.account lang, "direct", params.directPeerId lang scope]
    | .perChannelPeer => [params.normalizedChannel lang, "direct", params.directPeerId lang scope]
    | .perPeer | .main => ["direct", params.directPeerId lang scope]
  else [params.normalizedChannel lang, params.kind.toString, params.groupPeerId lang]

/-- Two calls are about one conversation, as far as their key says. -/
structure SameConversation (scope : DmScope) (p q : PeerSession) : Prop where
  agent : p.agent lang = q.agent lang
  kind : p.kind = q.kind
  peer : p.peer lang scope = q.peer lang scope
  channel : p.kind ≠ .direct ∨ scope ≠ .perPeer → p.normalizedChannel lang = q.normalizedChannel lang
  account : p.kind = .direct ∧ scope = .perAccountChannelPeer → p.account lang = q.account lang

/-- A direct message and a group or channel whose keys overlap. -/
def Confused (scope : DmScope) (direct group : PeerSession) : Prop :=
  direct.kind = .direct ∧ group.kind ≠ .direct ∧ direct.agent lang = group.agent lang ∧
    match scope with
    | .perAccountChannelPeer =>
      direct.normalizedChannel lang = group.normalizedChannel lang ∧
        direct.account lang = group.kind.toString ∧
        group.groupPeerId lang = "direct:" ++ direct.directPeerId lang scope
    | .perPeer =>
      group.normalizedChannel lang = "direct" ∧
        direct.directPeerId lang scope = group.kind.toString ++ ":" ++ group.groupPeerId lang
    | .perChannelPeer | .main => False

/-- One group or channel, reached through two accounts. -/
def SharedGroup (p q : PeerSession) : Prop :=
  p.kind ≠ .direct ∧ p.kind = q.kind ∧ p.agent lang = q.agent lang ∧
    p.normalizedChannel lang = q.normalizedChannel lang ∧
    p.groupPeerId lang = q.groupPeerId lang ∧ p.account lang ≠ q.account lang

variable {lang} {scope : DmScope} {p q : PeerSession}

theorem colonFree_agent (p : PeerSession) : ColonFree (p.agent lang) :=
  colonFree_normalizeAgentId _

theorem colonFree_account (p : PeerSession) : ColonFree (p.account lang) :=
  colonFree_normalizeAccountId _

theorem Plain.colonFree_channel (h : p.Plain scope) : ColonFree (p.normalizedChannel lang) :=
  (colonFree_lower h.channel).orElse (by decide)

theorem Plain.directPeerId_ne_empty (h : p.Plain scope) : p.directPeerId lang scope ≠ "" := by
  unfold directPeerId
  dsimp only
  have hlinked : (if scope = .main then none else resolveLinkedPeerId lang p.identityLinks p.channel
      (JsString.trim (p.peerId.getD ""))) = none := by
    rw [h.links]
    exact ite_self _
  rw [hlinked]
  refine lower_ne_empty ?_
  rw [Option.getD_none, JsString.trim_trim]
  exact h.peer

theorem fields_ne_nil (scope : DmScope) (p : PeerSession) : p.fields lang scope ≠ [] := by
  unfold fields
  split
  · cases scope <;> exact List.cons_ne_nil _ _
  · exact List.cons_ne_nil _ _

theorem Plain.key_eq (h : p.Plain scope) (hscope : scope ≠ .main) :
    p.buildAgentPeerSessionKey lang = sessionKey (p.agent lang :: p.fields lang scope) := by
  have hpeer : p.directPeerId lang scope ≠ "" := h.directPeerId_ne_empty
  unfold buildAgentPeerSessionKey fields
  rw [h.scope, Option.getD_some]
  by_cases hkind : p.kind = .direct
  · rw [if_pos hkind, if_pos hkind]
    cases scope with
    | main => exact absurd rfl hscope
    | perPeer => simp [hpeer]
    | perChannelPeer => simp [hpeer]
    | perAccountChannelPeer => simp [hpeer]
  · rw [if_neg hkind, if_neg hkind]

variable {a b : String}

variable {as bs : List String}

theorem sessionKey_inj (has : as ≠ []) (hbs : bs ≠ []) (ha : ColonFree a) (hb : ColonFree b) :
    sessionKey (a :: as) = sessionKey (b :: bs) ↔
      a = b ∧ Fields.join ':' as = Fields.join ':' bs := by
  have hagent : ColonFree "agent" := by decide
  rw [← String.toList_inj]
  show (String.intercalate (String.singleton ':') _).toList =
    (String.intercalate (String.singleton ':') _).toList ↔ _
  rw [Fields.toList_intercalate, Fields.toList_intercalate,
    Fields.join_cons_inj (List.cons_ne_nil _ _) (List.cons_ne_nil _ _) hagent hagent,
    Fields.join_cons_inj has hbs ha hb]
  exact ⟨fun h => h.2, fun h => ⟨rfl, h⟩⟩

theorem join_inj (has : as ≠ []) (hbs : bs ≠ []) (ha : ColonFree a) (hb : ColonFree b) :
    Fields.join ':' (a :: as) = Fields.join ':' (b :: bs) ↔
      a = b ∧ Fields.join ':' as = Fields.join ':' bs := Fields.join_cons_inj has hbs ha hb

theorem join_last_inj : Fields.join ':' [a] = Fields.join ':' [b] ↔ a = b := by
  rw [Fields.join_singleton, Fields.join_singleton, String.toList_inj]

theorem join_pair {d : String} :
    Fields.join ':' [d] = Fields.join ':' [a, b] ↔ d = a ++ ":" ++ b := by
  rw [Fields.join_singleton, Fields.join_cons (List.cons_ne_nil _ _), Fields.join_singleton,
    ← String.toList_inj, String.toList_append, String.toList_append, List.append_assoc]
  rfl

theorem join_fields_direct (hp : p.Plain scope) (hq : q.Plain scope) (hscope : scope ≠ .main)
    (hpk : p.kind = .direct) (hqk : q.kind = .direct) :
    Fields.join ':' (p.fields lang scope) = Fields.join ':' (q.fields lang scope) ↔
      p.peer lang scope = q.peer lang scope ∧
        (scope ≠ .perPeer → p.normalizedChannel lang = q.normalizedChannel lang) ∧
        (scope = .perAccountChannelPeer → p.account lang = q.account lang) := by
  have hdirect : ColonFree "direct" := by decide
  have hpc : ColonFree (p.normalizedChannel lang) := hp.colonFree_channel
  have hqc : ColonFree (q.normalizedChannel lang) := hq.colonFree_channel
  unfold fields peer
  rw [if_pos hpk, if_pos hqk, if_pos hpk, if_pos hqk]
  cases scope with
  | main => exact absurd rfl hscope
  | perPeer =>
    rw [join_inj (List.cons_ne_nil _ _) (List.cons_ne_nil _ _) hdirect hdirect, join_last_inj]
    simp
  | perChannelPeer =>
    rw [join_inj (List.cons_ne_nil _ _) (List.cons_ne_nil _ _) hpc hqc,
      join_inj (List.cons_ne_nil _ _) (List.cons_ne_nil _ _) hdirect hdirect, join_last_inj]
    simp [and_comm]
  | perAccountChannelPeer =>
    rw [join_inj (List.cons_ne_nil _ _) (List.cons_ne_nil _ _) hpc hqc,
      join_inj (List.cons_ne_nil _ _) (List.cons_ne_nil _ _) (colonFree_account p)
        (colonFree_account q),
      join_inj (List.cons_ne_nil _ _) (List.cons_ne_nil _ _) hdirect hdirect, join_last_inj]
    simp only [true_and, ne_eq, reduceCtorEq, not_false_eq_true, forall_const]
    exact ⟨fun ⟨hc, ha, hpeer⟩ => ⟨hpeer, hc, ha⟩, fun ⟨hpeer, hc, ha⟩ => ⟨hc, ha, hpeer⟩⟩

theorem join_fields_group (hp : p.Plain scope) (hq : q.Plain scope) (hpk : p.kind ≠ .direct)
    (hqk : q.kind ≠ .direct) :
    Fields.join ':' (p.fields lang scope) = Fields.join ':' (q.fields lang scope) ↔
      p.normalizedChannel lang = q.normalizedChannel lang ∧ p.kind.toString = q.kind.toString ∧
        p.peer lang scope = q.peer lang scope := by
  unfold fields peer
  rw [if_neg hpk, if_neg hqk, if_neg hpk, if_neg hqk,
    join_inj (List.cons_ne_nil _ _) (List.cons_ne_nil _ _) hp.colonFree_channel
      hq.colonFree_channel,
    join_inj (List.cons_ne_nil _ _) (List.cons_ne_nil _ _) (colonFree_kind p.kind)
      (colonFree_kind q.kind), join_last_inj]

theorem toString_kind_inj {a b : ChatType} (h : a.toString = b.toString) : a = b := by
  cases a <;> cases b <;> first | rfl | exact absurd h (by decide)

theorem join_fields_confused (hp : p.Plain scope) (hq : q.Plain scope) (hscope : scope ≠ .main)
    (hpk : p.kind = .direct) (hqk : q.kind ≠ .direct) :
    (p.agent lang = q.agent lang ∧
      Fields.join ':' (p.fields lang scope) = Fields.join ':' (q.fields lang scope)) ↔
      Confused lang scope p q := by
  have hdirect : ColonFree "direct" := by decide
  have hpc : ColonFree (p.normalizedChannel lang) := hp.colonFree_channel
  have hqc : ColonFree (q.normalizedChannel lang) := hq.colonFree_channel
  have hkind : "direct" ≠ q.kind.toString := fun h =>
    hqk (toString_kind_inj (show ChatType.direct.toString = q.kind.toString from h)).symm
  unfold fields Confused
  rw [if_pos hpk, if_neg hqk]
  cases scope with
  | main => exact absurd rfl hscope
  | perPeer =>
    rw [join_inj (List.cons_ne_nil _ _) (List.cons_ne_nil _ _) hdirect hqc, join_pair]
    exact ⟨fun ⟨ha, hc, hd⟩ => ⟨hpk, hqk, ha, hc.symm, hd⟩,
      fun ⟨_, _, ha, hc, hd⟩ => ⟨ha, hc.symm, hd⟩⟩
  | perChannelPeer =>
    rw [join_inj (List.cons_ne_nil _ _) (List.cons_ne_nil _ _) hpc hqc,
      join_inj (List.cons_ne_nil _ _) (List.cons_ne_nil _ _) hdirect (colonFree_kind q.kind)]
    simp [hkind]
  | perAccountChannelPeer =>
    rw [join_inj (List.cons_ne_nil _ _) (List.cons_ne_nil _ _) hpc hqc,
      join_inj (List.cons_ne_nil _ _) (List.cons_ne_nil _ _) (colonFree_account p)
        (colonFree_kind q.kind), eq_comm (a := Fields.join ':' ["direct", _]), join_pair]
    exact ⟨fun ⟨ha, hc, hacc, hg⟩ => ⟨hpk, hqk, ha, hc, hacc, hg⟩,
      fun ⟨_, _, ha, hc, hacc, hg⟩ => ⟨ha, hc, hacc, hg⟩⟩

theorem key_inj (hp : p.Plain scope) (hq : q.Plain scope) (hscope : scope ≠ .main) :
    p.buildAgentPeerSessionKey lang = q.buildAgentPeerSessionKey lang ↔
      p.agent lang = q.agent lang ∧
        Fields.join ':' (p.fields lang scope) = Fields.join ':' (q.fields lang scope) := by
  rw [hp.key_eq hscope, hq.key_eq hscope]
  exact sessionKey_inj (fields_ne_nil scope p) (fields_ne_nil scope q) (colonFree_agent p)
    (colonFree_agent q)

theorem same_or_confused (hp : p.Plain scope) (hq : q.Plain scope) (hscope : scope ≠ .main)
    (hkey : p.buildAgentPeerSessionKey lang = q.buildAgentPeerSessionKey lang) :
    SameConversation lang scope p q ∨ Confused lang scope p q ∨ Confused lang scope q p := by
  obtain ⟨hagent, hfields⟩ := (key_inj hp hq hscope).1 hkey
  by_cases hpk : p.kind = .direct
  · by_cases hqk : q.kind = .direct
    · obtain ⟨hpeer, hchannel, haccount⟩ := (join_fields_direct hp hq hscope hpk hqk).1 hfields
      exact .inl ⟨hagent, hpk.trans hqk.symm, hpeer,
        fun h => hchannel (h.resolve_left (not_not_intro hpk)), fun h => haccount h.2⟩
    · exact .inr (.inl ((join_fields_confused hp hq hscope hpk hqk).1 ⟨hagent, hfields⟩))
  · by_cases hqk : q.kind = .direct
    · exact .inr (.inr ((join_fields_confused hq hp hscope hqk hpk).1
        ⟨hagent.symm, hfields.symm⟩))
    · obtain ⟨hchannel, hkind, hpeer⟩ := (join_fields_group hp hq hpk hqk).1 hfields
      exact .inl ⟨hagent, toString_kind_inj hkind, hpeer, fun _ => hchannel,
        fun h => absurd h.1 hpk⟩

theorem key_eq_of_confused (hp : p.Plain scope) (hq : q.Plain scope) (hscope : scope ≠ .main)
    (h : Confused lang scope p q) :
    p.buildAgentPeerSessionKey lang = q.buildAgentPeerSessionKey lang :=
  (key_inj hp hq hscope).2 ((join_fields_confused hp hq hscope h.1 h.2.1).2 h)

theorem not_same_of_confused (h : Confused lang scope p q) : p.kind ≠ q.kind :=
  fun heq => h.2.1 (heq.symm.trans h.1)

theorem key_eq_of_sharedGroup (hp : p.Plain scope) (hq : q.Plain scope) (hscope : scope ≠ .main)
    (h : SharedGroup lang p q) :
    p.buildAgentPeerSessionKey lang = q.buildAgentPeerSessionKey lang := by
  obtain ⟨hpk, hkind, hagent, hchannel, hpeer, -⟩ := h
  have hqk : q.kind ≠ .direct := hkind ▸ hpk
  refine (key_inj hp hq hscope).2 ⟨hagent, (join_fields_group hp hq hpk hqk).2
    ⟨hchannel, congrArg _ hkind, ?_⟩⟩
  unfold peer
  rw [if_neg hpk, if_neg hqk]
  exact hpeer

theorem key_ne_main (hp : p.Plain scope) (hscope : scope ≠ .main) (agentId : String)
    {mainKey : Option String} (hmain : ∀ key, mainKey = some key → ColonFree key) :
    p.buildAgentPeerSessionKey lang ≠ buildAgentMainSessionKey lang agentId mainKey := by
  intro hkey
  rw [hp.key_eq hscope] at hkey
  obtain ⟨-, hjoin⟩ := (sessionKey_inj (fields_ne_nil scope p) (List.cons_ne_nil _ [])
    (colonFree_agent p) (colonFree_normalizeAgentId _)).1 hkey
  have htwo : ∃ field rest, rest ≠ [] ∧ p.fields lang scope = field :: rest := by
    unfold fields
    split
    · cases scope <;> exact ⟨_, _, List.cons_ne_nil _ _, rfl⟩
    · exact ⟨_, _, List.cons_ne_nil _ _, rfl⟩
  obtain ⟨field, rest, hrest, hfields⟩ := htwo
  rw [hfields] at hjoin
  exact Fields.join_cons_ne hrest (colonFree_normalizeMainKey hmain) hjoin

end PeerSession

open PeerSession

variable (lang)

/-- **When session keys isolate conversations.** -/
theorem session_keys_isolate {scope : DmScope} (hscope : scope ≠ .main) {p q : PeerSession}
    (hp : p.Plain scope) (hq : q.Plain scope) :
    ((p.buildAgentPeerSessionKey lang = q.buildAgentPeerSessionKey lang →
        SameConversation lang scope p q) ↔
      ¬ Confused lang scope p q ∧ ¬ Confused lang scope q p) ∧
    ((p.buildAgentPeerSessionKey lang = q.buildAgentPeerSessionKey lang →
        SameConversation lang scope p q ∧
          (p.kind ≠ .direct → p.account lang = q.account lang)) ↔
      ¬ Confused lang scope p q ∧ ¬ Confused lang scope q p ∧ ¬ SharedGroup lang p q) ∧
    ∀ (agentId : String) (mainKey : Option String), (∀ key, mainKey = some key → ColonFree key) →
      p.buildAgentPeerSessionKey lang ≠ buildAgentMainSessionKey lang agentId mainKey := by
  have hpq : Confused lang scope p q → (p.buildAgentPeerSessionKey lang =
      q.buildAgentPeerSessionKey lang → SameConversation lang scope p q) → False := fun h hsame =>
    not_same_of_confused h (hsame (key_eq_of_confused hp hq hscope h)).kind
  have hqp : Confused lang scope q p → (p.buildAgentPeerSessionKey lang =
      q.buildAgentPeerSessionKey lang → SameConversation lang scope p q) → False := fun h hsame =>
    not_same_of_confused h (hsame (key_eq_of_confused hq hp hscope h).symm).kind.symm
  refine ⟨⟨fun hsame => ⟨fun h => hpq h hsame, fun h => hqp h hsame⟩, fun h hkey => ?_⟩,
    ⟨fun hsame => ⟨fun h => hpq h fun hkey => (hsame hkey).1,
      fun h => hqp h fun hkey => (hsame hkey).1, fun h => ?_⟩, fun h hkey => ?_⟩,
    fun agentId mainKey hmain => key_ne_main hp hscope agentId hmain⟩
  · rcases same_or_confused hp hq hscope hkey with hs | hc | hc
    · exact hs
    · exact absurd hc h.1
    · exact absurd hc h.2
  · exact h.2.2.2.2.2 ((hsame (key_eq_of_sharedGroup hp hq hscope h)).2 h.1)
  · rcases same_or_confused hp hq hscope hkey with hs | hc | hc
    · refine ⟨hs, fun hpk => ?_⟩
      by_contra haccount
      have hqk : q.kind ≠ .direct := hs.kind ▸ hpk
      have hpeer := hs.peer
      unfold peer at hpeer
      rw [if_neg hpk, if_neg hqk] at hpeer
      exact h.2.2 ⟨hpk, hs.kind, hs.agent, hs.channel (.inl hpk), hpeer, haccount⟩
    · exact absurd hc h.1
    · exact absurd hc h.2.1

theorem eq_of_toLower {d : Char} (h : d.toLower = c) (hc : c.isAlpha = false) : d = c := by
  unfold Char.toLower at h
  split at h
  · rename_i hd
    have hval : d.val + ('a'.val - 'A'.val) = c.val := congrArg Char.val h
    have hnat := congrArg UInt32.toNat hval
    have hlow := UInt32.le_iff_toNat_le.1 hd.1
    have hhigh := UInt32.le_iff_toNat_le.1 hd.2
    have ha : 'A'.val.toNat = 65 := rfl
    have hz : 'Z'.val.toNat = 90 := rfl
    have hdiff : ('a'.val - 'A'.val).toNat = 32 := rfl
    rw [UInt32.toNat_add] at hnat
    have hlower : c.isLower = true := by
      have hdef : c.isLower = (c.val ≥ 'a'.val && c.val ≤ 'z'.val) := rfl
      rw [hdef, Bool.and_eq_true, decide_eq_true_eq, decide_eq_true_eq, ge_iff_le,
        UInt32.le_iff_toNat_le, UInt32.le_iff_toNat_le]
      have ha' : 'a'.val.toNat = 97 := rfl
      have hz' : 'z'.val.toNat = 122 := rfl
      omega
    have hdef : c.isAlpha = (c.isUpper || c.isLower) := rfl
    rw [hdef, hlower, Bool.or_true] at hc
    cases hc
  · exact h

/-- The lower-casing of texts whose letters are those of ASCII. -/
def asciiLowercasing : Lowercasing where
  toLowerCase := fun s => .ofList (s.toList.map Char.toLower)
  ne_empty := fun s h heq => by
    have hlist := congrArg String.toList heq
    rw [String.toList_ofList] at hlist
    exact h (String.toList_inj.1 (List.map_eq_nil_iff.1 hlist))
  ascii := fun s c h _ hc => by
    rw [String.toList_ofList] at h
    obtain ⟨d, hd, hlower⟩ := List.mem_map.1 h
    exact eq_of_toLower hlower hc ▸ hd

/-- A direct message to `peerId` through an account. -/
def directMessage (accountId peerId : String) : PeerSession :=
  ⟨"main", none, "telegram", some accountId, some .direct, some peerId, none,
    some .perAccountChannelPeer⟩

/-- A group reached through the account `default`. -/
def groupMessage (peerId : String) : PeerSession :=
  ⟨"main", none, "telegram", none, some .group, some peerId, none, some .perAccountChannelPeer⟩

theorem plain_directMessage (accountId : String) :
    (directMessage accountId "user").Plain .perAccountChannelPeer :=
  ⟨rfl, rfl, (by decide +kernel : ColonFree "telegram"),
    (by decide +kernel : JsString.trim "user" ≠ "")⟩

theorem plain_groupMessage :
    (groupMessage "direct:user").Plain .perAccountChannelPeer :=
  ⟨rfl, rfl, by decide +kernel, by decide +kernel⟩

/-- The keys of an account called `work` are not confused with those of a group. -/
theorem session_keys_isolate_work :
    ¬ ((directMessage "work" "user").buildAgentPeerSessionKey asciiLowercasing =
      (groupMessage "direct:user").buildAgentPeerSessionKey asciiLowercasing) := by
  intro hkey
  have h := (session_keys_isolate asciiLowercasing (by decide : DmScope.perAccountChannelPeer ≠ .main)
    (plain_directMessage "work") plain_groupMessage).1.2
  have hsame := h ⟨fun hc => absurd hc.2.2.2.2.1 (by decide +kernel),
    fun hc => absurd hc.1 (by decide)⟩ hkey
  exact absurd hsame.kind (by decide)

/-- The keys of an account called `group` are. -/
theorem session_keys_confused :
    ¬ ∀ (lang : Lowercasing) (scope : DmScope) (p q : PeerSession), scope ≠ .main → p.Plain scope →
      q.Plain scope →
      p.buildAgentPeerSessionKey lang = q.buildAgentPeerSessionKey lang → p.kind = q.kind := by
  intro h
  have hkey : (directMessage "group" "user").buildAgentPeerSessionKey asciiLowercasing =
      (groupMessage "direct:user").buildAgentPeerSessionKey asciiLowercasing := by decide +kernel
  exact absurd (h asciiLowercasing _ _ _ (by decide) (plain_directMessage "group")
    plain_groupMessage hkey) (by decide)

end OpenClaw.Routing
