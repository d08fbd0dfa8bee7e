import OpenClaw.DevicePairing.Scopes

/-!
# Which scopes a grant satisfies

Of the operator scopes one may imply another (`Implies`, a preorder). A role may use a scope of a
list (`RoleAllows`) if the list has one that implies it, for operators, and if it is a scope of the
role and on the list, for other roles. The functions on lists of scopes are described by what is in
the lists.
-/

namespace OpenClaw.DevicePairing

/-! ## Scopes that imply others -/

def Implies (granted scope : String) : Prop :=
  granted = scope ∨ granted = OPERATOR_ADMIN_SCOPE ∨
    (granted = OPERATOR_WRITE_SCOPE ∧ scope = OPERATOR_READ_SCOPE)

instance (granted scope : String) : Decidable (Implies granted scope) :=
  inferInstanceAs (Decidable (_ ∨ _ ∨ _))

variable {a b c scope role : String} {scopes granted more : List String}

theorem Implies.refl (scope : String) : Implies scope scope := .inl rfl

theorem Implies.trans (hab : Implies a b) (hbc : Implies b c) : Implies a c := by
  obtain rfl | rfl | ⟨rfl, rfl⟩ := hab
  · exact hbc
  · exact .inr (.inl rfl)
  · obtain rfl | h | ⟨h, -⟩ := hbc
    · exact .inr (.inr ⟨rfl, rfl⟩)
    · exact absurd h (by decide)
    · exact absurd h (by decide)

theorem Implies.isOperatorScope (h : Implies a b) (hb : isOperatorScope b = true) :
    isOperatorScope a = true := by
  obtain rfl | rfl | ⟨rfl, -⟩ := h
  · exact hb
  · decide
  · decide

theorem operatorScopeSatisfied_iff :
    operatorScopeSatisfied scope granted = true ↔
      isOperatorScope scope = true ∧ ∃ a ∈ granted, Implies a scope := by
  unfold operatorScopeSatisfied Implies
  by_cases hoperator : isOperatorScope scope = true
  · by_cases hadmin : OPERATOR_ADMIN_SCOPE ∈ granted
    · simp only [hoperator, List.contains_iff_mem, hadmin, Bool.not_true, Bool.false_eq_true,
        if_false, if_true, true_and, true_iff]
      exact ⟨_, hadmin, .inr (.inl rfl)⟩
    · have hne : ∀ a ∈ granted, a ≠ OPERATOR_ADMIN_SCOPE := fun a ha heq => hadmin (heq ▸ ha)
      by_cases hread : scope = OPERATOR_READ_SCOPE
      · subst hread
        simp only [hoperator, List.contains_iff_mem, hadmin, Bool.not_true, Bool.false_eq_true,
          if_false, if_true, true_and, Bool.or_eq_true]
        constructor
        · rintro (h | h)
          · exact ⟨_, h, .inl rfl⟩
          · exact ⟨_, h, .inr (.inr ⟨rfl, trivial⟩)⟩
        · rintro ⟨a, ha, rfl | rfl | ⟨rfl, -⟩⟩
          · exact .inl ha
          · exact absurd ha hadmin
          · exact .inr ha
      · have hmem : (∃ a ∈ granted, a = scope ∨ a = OPERATOR_ADMIN_SCOPE ∨
            (a = OPERATOR_WRITE_SCOPE ∧ scope = OPERATOR_READ_SCOPE)) ↔ scope ∈ granted := by
          constructor
          · rintro ⟨a, ha, rfl | rfl | ⟨-, rfl⟩⟩
            · exact ha
            · exact absurd ha hadmin
            · exact absurd rfl hread
          · exact fun h => ⟨scope, h, .inl rfl⟩
        rw [hmem]
        by_cases hwrite : scope = OPERATOR_WRITE_SCOPE
        · have hne : OPERATOR_WRITE_SCOPE ≠ OPERATOR_READ_SCOPE := by decide
          subst hwrite
          simp [hoperator, hadmin, hne]
        · simp [hoperator, hadmin, hread, hwrite]
  · simp [hoperator]

/-! ## What is in a list -/

theorem mem_uniqueTrimmed :
    scope ∈ uniqueTrimmed scopes ↔ scope ≠ "" ∧ ∃ a ∈ scopes, JsString.trim a = scope := by
  rw [uniqueTrimmed, List.mem_eraseDups, List.mem_filter, List.mem_map]
  simp only [decide_eq_true_eq]
  exact and_comm

theorem ne_empty_of_mem_uniqueTrimmed (h : scope ∈ uniqueTrimmed scopes) : scope ≠ "" :=
  (mem_uniqueTrimmed.1 h).1

theorem trim_of_mem_uniqueTrimmed (h : scope ∈ uniqueTrimmed scopes) :
    JsString.trim scope = scope := by
  obtain ⟨-, a, -, rfl⟩ := mem_uniqueTrimmed.1 h
  exact JsString.trim_trim a

/-- The texts of a list are trimmed and not empty. -/
def Trimmed (scopes : List String) : Prop := ∀ scope ∈ scopes, scope ≠ "" ∧ JsString.trim scope = scope

theorem trimmed_uniqueTrimmed : Trimmed (uniqueTrimmed scopes) := fun _ h =>
  ⟨ne_empty_of_mem_uniqueTrimmed h, trim_of_mem_uniqueTrimmed h⟩

theorem Trimmed.mem_uniqueTrimmed (h : Trimmed scopes) :
    scope ∈ uniqueTrimmed scopes ↔ scope ∈ scopes := by
  rw [DevicePairing.mem_uniqueTrimmed]
  constructor
  · rintro ⟨-, a, ha, rfl⟩
    rwa [(h a ha).2]
  · exact fun hmem => ⟨(h scope hmem).1, scope, hmem, (h scope hmem).2⟩

theorem Trimmed.filter (h : Trimmed scopes) (p : String → Bool) : Trimmed (scopes.filter p) :=
  fun a ha => h a (List.mem_of_mem_filter ha)

theorem mem_impliedScopes :
    scope ∈ impliedScopes scopes ↔
      (OPERATOR_ADMIN_SCOPE ∈ scopes ∧ (scope = OPERATOR_READ_SCOPE ∨ scope = OPERATOR_WRITE_SCOPE)) ∨
        (OPERATOR_ADMIN_SCOPE ∉ scopes ∧ OPERATOR_WRITE_SCOPE ∈ scopes ∧
          scope = OPERATOR_READ_SCOPE) := by
  unfold impliedScopes
  by_cases hadmin : OPERATOR_ADMIN_SCOPE ∈ scopes
  · simp [hadmin]
  · by_cases hwrite : OPERATOR_WRITE_SCOPE ∈ scopes <;> simp [hadmin, hwrite]

theorem mem_normalizeDeviceAuthScopes {scopes : Option (List String)} :
    scope ∈ normalizeDeviceAuthScopes scopes ↔
      scope ∈ uniqueTrimmed (scopes.getD []) ∨
        scope ∈ impliedScopes (uniqueTrimmed (scopes.getD [])) := by
  rw [normalizeDeviceAuthScopes, sortScopes, List.mem_insertionSort, List.mem_eraseDups,
    List.mem_append]

theorem isOperatorScope_of_mem_impliedScopes (h : scope ∈ impliedScopes scopes) :
    isOperatorScope scope = true := by
  obtain ⟨-, rfl | rfl⟩ | ⟨-, -, rfl⟩ := mem_impliedScopes.1 h <;> decide

section

variable {scopes more : Option (List String)}

theorem mem_normalize_of_mem (h : scope ∈ uniqueTrimmed (scopes.getD [])) :
    scope ∈ normalizeDeviceAuthScopes scopes := mem_normalizeDeviceAuthScopes.2 (.inl h)

theorem exists_implies_of_mem_normalize (h : scope ∈ normalizeDeviceAuthScopes scopes) :
    ∃ a ∈ uniqueTrimmed (scopes.getD []), Implies a scope := by
  obtain h | h := mem_normalizeDeviceAuthScopes.1 h
  · exact ⟨scope, h, .refl scope⟩
  · obtain ⟨hadmin, -⟩ | ⟨-, hwrite, hread⟩ := mem_impliedScopes.1 h
    · exact ⟨_, hadmin, .inr (.inl rfl)⟩
    · exact ⟨_, hwrite, .inr (.inr ⟨rfl, hread⟩)⟩

theorem mem_of_mem_normalize (h : scope ∈ normalizeDeviceAuthScopes scopes)
    (hscope : isOperatorScope scope = false) : scope ∈ uniqueTrimmed (scopes.getD []) := by
  obtain h | h := mem_normalizeDeviceAuthScopes.1 h
  · exact h
  · rw [isOperatorScope_of_mem_impliedScopes h] at hscope
    cases hscope

theorem trimmed_normalize : Trimmed (normalizeDeviceAuthScopes scopes) := by
  intro scope h
  obtain h | h := mem_normalizeDeviceAuthScopes.1 h
  · exact trimmed_uniqueTrimmed scope h
  · obtain ⟨-, rfl | rfl⟩ | ⟨-, -, rfl⟩ := mem_impliedScopes.1 h <;> decide

theorem normalize_mono
    (h : ∀ a ∈ uniqueTrimmed (scopes.getD []), a ∈ uniqueTrimmed (more.getD []))
    (hmem : scope ∈ normalizeDeviceAuthScopes scopes) : scope ∈ normalizeDeviceAuthScopes more := by
  rw [mem_normalizeDeviceAuthScopes] at hmem ⊢
  refine hmem.imp (h scope) fun himplied => ?_
  rw [mem_impliedScopes] at himplied ⊢
  obtain ⟨hadmin, hscope⟩ | ⟨-, hwrite, hscope⟩ := himplied
  · exact .inl ⟨h _ hadmin, hscope⟩
  · by_cases hadmin : OPERATOR_ADMIN_SCOPE ∈ uniqueTrimmed (more.getD [])
    · exact .inl ⟨hadmin, .inl hscope⟩
    · exact .inr ⟨hadmin, h _ hwrite, hscope⟩

theorem normalize_carries
    (h : ∀ a ∈ uniqueTrimmed (scopes.getD []), roleCarries role a = true →
      a ∈ uniqueTrimmed (more.getD []))
    (hmem : scope ∈ normalizeDeviceAuthScopes scopes) (hscope : roleCarries role scope = true) :
    scope ∈ normalizeDeviceAuthScopes more := by
  by_cases hrole : role = OPERATOR_ROLE
  · have hcarries : ∀ a, isOperatorScope a = true → roleCarries role a = true := by
      intro a ha
      rw [roleCarries, if_pos hrole]
      exact ha
    obtain hmem | himplied := mem_normalizeDeviceAuthScopes.1 hmem
    · exact mem_normalize_of_mem (h scope hmem hscope)
    · rw [mem_normalizeDeviceAuthScopes, mem_impliedScopes]
      refine .inr ?_
      obtain ⟨hadmin, hread⟩ | ⟨-, hwrite, hread⟩ := mem_impliedScopes.1 himplied
      · exact .inl ⟨h _ hadmin (hcarries _ (by decide)), hread⟩
      · have hkept := h _ hwrite (hcarries _ (by decide))
        by_cases hadmin : OPERATOR_ADMIN_SCOPE ∈ uniqueTrimmed (more.getD [])
        · exact .inl ⟨hadmin, .inl hread⟩
        · exact .inr ⟨hadmin, hkept, hread⟩
  · have hplain : isOperatorScope scope = false := by
      rw [roleCarries, if_neg hrole] at hscope
      simpa using hscope
    exact mem_normalize_of_mem (h scope (mem_of_mem_normalize hmem hplain) hscope)

end

variable {items : List (Option (List String))}

theorem mem_mergeScopes : scope ∈ uniqueTrimmed ((mergeScopes items).getD []) ↔
      ∃ item ∈ items, scope ∈ uniqueTrimmed (item.getD []) := by
  have hmerged : (mergeScopes items).getD [] = uniqueTrimmed (items.filterMap id).flatten := by
    unfold mergeScopes
    dsimp only
    split
    · rename_i hempty
      rw [hempty]
      split <;> rfl
    · rfl
  rw [hmerged, trimmed_uniqueTrimmed.mem_uniqueTrimmed, mem_uniqueTrimmed]
  constructor
  · rintro ⟨hne, a, ha, htrim⟩
    obtain ⟨xs, hxs, ha⟩ := List.mem_flatten.1 ha
    obtain ⟨item, hitem, heq⟩ := List.mem_filterMap.1 hxs
    obtain rfl : item = some xs := heq
    exact ⟨some xs, hitem, mem_uniqueTrimmed.2 ⟨hne, a, ha, htrim⟩⟩
  · rintro ⟨item, hitem, hmem⟩
    cases item with
    | none => simp [uniqueTrimmed] at hmem
    | some xs =>
      obtain ⟨hne, a, ha, htrim⟩ := mem_uniqueTrimmed.1 hmem
      exact ⟨hne, a, List.mem_flatten.2 ⟨xs, List.mem_filterMap.2 ⟨_, hitem, rfl⟩, ha⟩, htrim⟩

theorem mem_mergeScopes_pair {first second : Option (List String)} :
    scope ∈ uniqueTrimmed ((mergeScopes [first, second]).getD []) ↔
      scope ∈ uniqueTrimmed (first.getD []) ∨ scope ∈ uniqueTrimmed (second.getD []) := by
  rw [mem_mergeScopes]
  simp only [List.mem_cons, List.not_mem_nil, or_false, exists_eq_or_imp, exists_eq_left]

theorem mergeScopes_some_some {first second : List String} :
    mergeScopes [some first, some second] = some (uniqueTrimmed (first ++ second)) := by
  unfold mergeScopes
  simp only [List.filterMap_cons, List.filterMap_nil, id, List.flatten_cons, List.flatten_nil,
    List.append_nil]
  split
  · rename_i hempty
    rw [hempty]
    rfl
  · rfl

theorem mergeScopes_eq_none (h : mergeScopes items = none) : ∀ item ∈ items, item = none := by
  unfold mergeScopes at h
  dsimp only at h
  split at h
  · split at h
    · cases h
    · rename_i hany
      intro item hitem
      cases item with
      | none => rfl
      | some xs => exact absurd (List.any_eq_true.2 ⟨_, hitem, rfl⟩) hany
  · cases h

theorem mem_mergeRoles {items : List (List String)} :
    role ∈ (mergeRoles items).getD [] ↔ ∃ item ∈ items, role ∈ uniqueTrimmed item := by
  have hmerged : (mergeRoles items).getD [] = uniqueTrimmed items.flatten := by
    unfold mergeRoles
    dsimp only
    split
    · rename_i hempty
      exact hempty.symm
    · rfl
  rw [hmerged, mem_uniqueTrimmed]
  constructor
  · rintro ⟨hne, a, ha, htrim⟩
    obtain ⟨item, hitem, ha⟩ := List.mem_flatten.1 ha
    exact ⟨item, hitem, mem_uniqueTrimmed.2 ⟨hne, a, ha, htrim⟩⟩
  · rintro ⟨item, hitem, hmem⟩
    obtain ⟨hne, a, ha, htrim⟩ := mem_uniqueTrimmed.1 hmem
    exact ⟨hne, a, List.mem_flatten.2 ⟨item, hitem, ha⟩, htrim⟩

theorem trimmed_mergeRoles {items : List (List String)} : Trimmed ((mergeRoles items).getD []) :=
  fun _ h => have ⟨_, _, hmem⟩ := mem_mergeRoles.1 h
    trimmed_uniqueTrimmed _ hmem

/-! ## What a role may use -/

/-- A role may use a scope, given the scopes of a list. -/
def RoleAllows (role : String) (granted : List String) (scope : String) : Prop :=
  if role = OPERATOR_ROLE then isOperatorScope scope = true ∧ ∃ a ∈ granted, Implies a scope
  else JsString.startsWith scope (role ++ ".") = true ∧ scope ∈ granted

theorem roleAllows_operator :
    RoleAllows OPERATOR_ROLE granted scope ↔
      isOperatorScope scope = true ∧ ∃ a ∈ granted, Implies a scope := by
  rw [RoleAllows, if_pos rfl]

theorem roleAllows_of_ne (h : role ≠ OPERATOR_ROLE) :
    RoleAllows role granted scope ↔
      JsString.startsWith scope (role ++ ".") = true ∧ scope ∈ granted := by
  rw [RoleAllows, if_neg h]

theorem RoleAllows.mono (h : RoleAllows role granted scope) (hsub : ∀ a ∈ granted, a ∈ more) :
    RoleAllows role more scope := by
  by_cases hrole : role = OPERATOR_ROLE
  · subst hrole
    exact ⟨h.1, h.2.imp fun a ha => ⟨hsub a ha.1, ha.2⟩⟩
  · rw [roleAllows_of_ne hrole] at h ⊢
    exact ⟨h.1, hsub _ h.2⟩

theorem RoleAllows.keep (h : RoleAllows role granted scope) (hscope : roleCarries role scope = true)
    (hkeep : ∀ a ∈ granted, roleCarries role a = true → a ∈ more) : RoleAllows role more scope := by
  by_cases hrole : role = OPERATOR_ROLE
  · subst hrole
    obtain ⟨hoperator, a, ha, himplies⟩ := h
    refine ⟨hoperator, a, hkeep a ha ?_, himplies⟩
    exact himplies.isOperatorScope hoperator
  · rw [roleAllows_of_ne hrole] at h ⊢
    exact ⟨h.1, hkeep scope h.2 hscope⟩

theorem roleScopesAllow_iff (hrole : JsString.trim role = role) :
    roleScopesAllow role scopes granted = true ↔
      ∀ scope ∈ uniqueTrimmed scopes, RoleAllows role (uniqueTrimmed granted) scope := by
  unfold roleScopesAllow
  rw [hrole]
  by_cases hrequested : uniqueTrimmed scopes = []
  · simp [hrequested]
  · rw [if_neg hrequested]
    by_cases hgranted : uniqueTrimmed granted = []
    · rw [if_pos hgranted, hgranted]
      obtain ⟨a, ha⟩ := List.exists_mem_of_ne_nil _ hrequested
      constructor
      · exact nofun
      · intro h
        have hnone := h a ha
        by_cases heq : role = OPERATOR_ROLE <;> simp [RoleAllows, heq] at hnone
    · rw [if_neg hgranted]
      by_cases heq : role = OPERATOR_ROLE
      · simp [RoleAllows, heq, operatorScopeSatisfied_iff]
      · simp [RoleAllows, heq]

/-! ## The scopes a role carries -/

section

variable {scopes : Option (List String)}

theorem mem_resolveRoleScoped :
    scope ∈ resolveRoleScopedDeviceTokenScopes role scopes ↔
      scope ∈ normalizeDeviceAuthScopes scopes ∧ roleCarries role scope = true := List.mem_filter

theorem roleCarries_operator : roleCarries OPERATOR_ROLE scope = isOperatorScope scope := if_pos rfl

theorem roleCarries_of_ne (h : role ≠ OPERATOR_ROLE) :
    roleCarries role scope = !isOperatorScope scope := if_neg h

theorem exists_of_mem_resolveRoleScoped
    (h : scope ∈ resolveRoleScopedDeviceTokenScopes role scopes) :
    ∃ a ∈ uniqueTrimmed (scopes.getD []), roleCarries role a = true ∧
      (a = scope ∨ (role = OPERATOR_ROLE ∧ Implies a scope)) := by
  obtain ⟨hmem, hcarries⟩ := mem_resolveRoleScoped.1 h
  by_cases hrole : role = OPERATOR_ROLE
  · subst hrole
    obtain ⟨a, ha, himplies⟩ := exists_implies_of_mem_normalize hmem
    exact ⟨a, ha, roleCarries_operator.trans (himplies.isOperatorScope hcarries), .inr ⟨rfl, himplies⟩⟩
  · have hplain : isOperatorScope scope = false := by
      simpa [roleCarries_of_ne hrole] using hcarries
    exact ⟨scope, mem_of_mem_normalize hmem hplain, hcarries, .inl rfl⟩

theorem mem_resolveRoleScoped_of_mem (h : scope ∈ uniqueTrimmed (scopes.getD []))
    (hcarries : roleCarries role scope = true) :
    scope ∈ resolveRoleScopedDeviceTokenScopes role scopes :=
  mem_resolveRoleScoped.2 ⟨mem_normalize_of_mem h, hcarries⟩

theorem roleAllows_resolveRoleScoped (scopes : Option (List String))
    (h : ∀ a ∈ uniqueTrimmed (scopes.getD []), roleCarries role a = true →
      RoleAllows role granted a)
    (hmem : scope ∈ resolveRoleScopedDeviceTokenScopes role scopes) :
    RoleAllows role granted scope := by
  obtain ⟨a, ha, hcarries, rfl | ⟨rfl, himplies⟩⟩ := exists_of_mem_resolveRoleScoped hmem
  · exact h a ha hcarries
  · obtain ⟨-, b, hb, hba⟩ := roleAllows_operator.1 (h a ha hcarries)
    refine roleAllows_operator.2 ⟨?_, b, hb, hba.trans himplies⟩
    exact roleCarries_operator.symm.trans (mem_resolveRoleScoped.1 hmem).2

theorem trimmed_resolveRoleScoped : Trimmed (resolveRoleScopedDeviceTokenScopes role scopes) :=
  trimmed_normalize.filter _

end

/-- What the scopes of a caller cover. -/
def Covers (granted : List String) (scope : String) : Prop :=
  roleScopesAllow OPERATOR_ROLE [scope] granted = true

theorem covers_iff (hne : scope ≠ "") (htrim : JsString.trim scope = scope) :
    Covers granted scope ↔
      isOperatorScope scope = true ∧ ∃ a ∈ uniqueTrimmed granted, Implies a scope := by
  have hone : uniqueTrimmed [scope] = [scope] := by
    simp [uniqueTrimmed, htrim, hne, List.eraseDups_cons]
  rw [Covers, roleScopesAllow_iff (by decide), hone]
  simp only [List.mem_singleton, forall_eq, roleAllows_operator]

theorem Covers.of_implies (hne : a ≠ "") (htrim : JsString.trim a = a) (h : Covers granted a)
    (hab : Implies a b) (hneb : b ≠ "") (htrimb : JsString.trim b = b)
    (hb : isOperatorScope b = true) : Covers granted b := by
  obtain ⟨-, c, hc, hca⟩ := (covers_iff hne htrim).1 h
  exact (covers_iff hneb htrimb).2 ⟨hb, c, hc, hca.trans hab⟩

/-! ## Bootstrap scopes -/

theorem isOperatorScope_of_mem_handoff (h : scope ∈ BOOTSTRAP_HANDOFF_OPERATOR_SCOPES) :
    isOperatorScope scope = true := by
  simp only [BOOTSTRAP_HANDOFF_OPERATOR_SCOPES, List.mem_cons, List.not_mem_nil, or_false] at h
  obtain rfl | rfl | rfl | rfl := h <;> decide

theorem mem_bootstrapForRole (h : scope ∈ resolveBootstrapProfileScopesForRole role scopes) :
    scope ∈ normalizeDeviceAuthScopes (some scopes) ∧ isOperatorScope scope = true := by
  unfold resolveBootstrapProfileScopesForRole at h
  split at h
  · obtain ⟨hmem, hhandoff⟩ := List.mem_filter.1 h
    exact ⟨hmem, isOperatorScope_of_mem_handoff (List.contains_iff_mem.1 hhandoff)⟩
  · cases h

variable {roles : List String}

theorem exists_of_mem_bootstrapForRoles
    (h : scope ∈ resolveBootstrapProfileScopesForRoles roles scopes) :
    ∃ a ∈ normalizeDeviceAuthScopes (some scopes), isOperatorScope a = true ∧ Implies a scope := by
  obtain ⟨a, ha, himplies⟩ := exists_implies_of_mem_normalize h
  obtain ⟨-, b, hb, htrim⟩ := mem_uniqueTrimmed.1 ha
  obtain ⟨role, -, hb⟩ := List.mem_flatMap.1 hb
  obtain ⟨hmem, hoperator⟩ := mem_bootstrapForRole hb
  obtain rfl : b = a := (trimmed_normalize b hmem).2.symm.trans htrim
  exact ⟨b, hmem, hoperator, himplies⟩

theorem covers_of_bootstrap {profileScopes : List String}
    (hcovers : Covers (resolveBootstrapProfileScopesForRoles roles profileScopes) a)
    (hne : a ≠ "") (htrim : JsString.trim a = a) : Covers profileScopes a := by
  obtain ⟨hoperator, b, hb, hba⟩ := (covers_iff hne htrim).1 hcovers
  obtain ⟨c, hc, -, hcb⟩ :=
    exists_of_mem_bootstrapForRoles (trimmed_normalize.mem_uniqueTrimmed.1 hb)
  obtain ⟨d, hd, hdc⟩ := exists_implies_of_mem_normalize hc
  exact (covers_iff hne htrim).2 ⟨hoperator, d, hd, hdc.trans (hcb.trans hba)⟩

end OpenClaw.DevicePairing
