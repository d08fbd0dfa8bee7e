import OpenClaw.Lib.JsString

/-!
# String normalization

The helpers of the normalization package that both the cron service and the followup queue use.
-/

namespace OpenClaw

/-- `normalizeOptionalString`: the trimmed text, unless it is empty. -/
def normalizeOptionalString (value : Option String) : Option String :=
  (value.map JsString.trim).filter (· ≠ "")

theorem normalizeOptionalString_idem {value : Option String} {text : String}
    (h : normalizeOptionalString value = some text) :
    normalizeOptionalString (some text) = some text := by
  rw [normalizeOptionalString, Option.filter_eq_some_iff] at h
  obtain ⟨hmap, hne⟩ := h
  obtain ⟨raw, -, rfl⟩ := Option.map_eq_some_iff.mp hmap
  rw [normalizeOptionalString, Option.map_some, JsString.trim_trim, Option.filter_some, if_pos hne]

theorem normalizeOptionalString_ne_blank (value : Option String) :
    normalizeOptionalString value ≠ some "" := by
  intro h
  simpa using (Option.filter_eq_some_iff.1 h).2

end OpenClaw
