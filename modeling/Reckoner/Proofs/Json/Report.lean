import Reckoner.Calculator
import Reckoner.Proofs.Json.Values

/-!
# Reports as values

The only number that a report shows is the value of an expression that defined no variable, so it is
the only one that can be infinite. No name stands twice in a report.
-/

set_option autoImplicit false

namespace Reckoner

theorem Warnings.isFinite_toJson (warnings : Warnings) : warnings.toJson.IsFinite := by
  refine .object ?_
  simp only [List.forall_mem_cons]
  exact ⟨Json.isFinite_strings _, .bool _, .bool _, .bool _, Json.isFinite_strings _, nofun⟩

theorem Warnings.isRegular_toJson (warnings : Warnings) : warnings.toJson.IsRegular := by
  refine .object (by simp) ?_
  simp only [List.forall_mem_cons]
  exact ⟨Json.isRegular_strings _, .bool _, .bool _, .bool _, Json.isRegular_strings _, nofun⟩

namespace Report

/-- A report shows its value, and only finite numbers apart from that. -/
def ShowsFinite (report : Report) : Prop :=
  report.definesVariable = true ∨ report.value.isFinite = true

instance (report : Report) : Decidable report.ShowsFinite :=
  inferInstanceAs (Decidable (report.definesVariable = true ∨ report.value.isFinite = true))

theorem showsFinite_iff (report : Report) :
    report.ShowsFinite ↔ ∀ member ∈ report.members, member.2.IsFinite := by
  simp only [members, List.forall_mem_cons, ShowsFinite]
  constructor
  · intro shows
    refine ⟨.string _, Json.isFinite_stringOrNull _, Json.isFinite_stringOrNull _, ?_, .bool _,
      Json.isFinite_strings _, Json.isFinite_strings _, report.warnings.isFinite_toJson, nofun⟩
    split
    · exact .null
    · rename_i defines
      exact .float (shows.resolve_left defines)
  · rintro ⟨-, -, -, value, -⟩
    cases defines : report.definesVariable with
    | true => exact .inl rfl
    | false =>
      rw [defines] at value
      cases value with
      | float finite => exact .inr finite

theorem isFinite_toJson_iff (report : Report) : report.toJson.IsFinite ↔ report.ShowsFinite := by
  rw [toJson, Json.isFinite_object_iff, showsFinite_iff]

/-- No name stands twice in a report, and no whole number stands in one. -/
theorem isRegular_toJson (report : Report) : report.toJson.IsRegular := by
  refine .object (by simp [members]) ?_
  simp only [members, List.forall_mem_cons]
  refine ⟨.string _, Json.isRegular_stringOrNull _, Json.isRegular_stringOrNull _, ?_, .bool _,
    Json.isRegular_strings _, Json.isRegular_strings _, report.warnings.isRegular_toJson, nofun⟩
  split
  · exact .null
  · exact .float _

end Report

end Reckoner
