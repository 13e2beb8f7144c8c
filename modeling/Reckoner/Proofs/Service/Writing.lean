import Reckoner.Proofs.Json.Levels
import Reckoner.Proofs.Service.Rejection

/-!
# Answers that can be written

The answers that echo nothing from outside have no more levels than can be written. The refusal of a
payload echoes what is complained about, and has four levels more than the deepest of it.
-/

set_option autoImplicit false

namespace Reckoner

namespace Json

theorem levels_strings_le (texts : List String) : (strings texts).levels ≤ 1 := by
  refine levels_array_le_iff.2 fun element member => ?_
  obtain ⟨text, -, rfl⟩ := List.mem_map.1 member
  exact Nat.le_refl 0

theorem levels_stringOrNull (text : Option String) : (stringOrNull text).levels = 0 := by
  cases text with
  | none => rfl
  | some text => rfl

end Json

theorem Warnings.levels_toJson_le (warnings : Warnings) : warnings.toJson.levels ≤ 2 := by
  refine (Json.levels_object_le_iff (Nat.le_refl 1)).2 ?_
  simp only [List.forall_mem_cons]
  exact ⟨Json.levels_strings_le _, Nat.zero_le 1, Nat.zero_le 1, Nat.zero_le 1,
    Json.levels_strings_le _, nofun⟩

theorem Report.levels_members_le (report : Report) :
    ∀ member ∈ report.members, member.2.levels ≤ 2 := by
  have text (shown : Option String) : (Json.stringOrNull shown).levels ≤ 2 := by
    rw [Json.levels_stringOrNull]
    exact Nat.zero_le 2
  have texts (shown : List String) : (Json.strings shown).levels ≤ 2 :=
    Nat.le_trans (Json.levels_strings_le shown) (by decide)
  simp only [members, List.forall_mem_cons]
  refine ⟨Nat.zero_le 2, text _, text _, ?_, Nat.zero_le 2, texts _, texts _,
    report.warnings.levels_toJson_le, nofun⟩
  split
  · exact Nat.zero_le 2
  · exact Nat.zero_le 2

namespace Service

namespace Response

variable {bound : Nat}

theorem levels_success_le_iff {status : Int} {data : Json} (positive : 1 ≤ bound) :
    (success status data).levels ≤ bound + 1 ↔ data.levels ≤ bound := by
  show (Json.object _).levels ≤ _ ↔ _
  rw [Json.levels_object_le_iff positive]
  simp only [List.forall_mem_cons, Json.levels_foreign]
  exact ⟨fun few => few.2.1, fun few => ⟨Nat.zero_le bound, few, nofun⟩⟩

theorem levels_failure_le_iff {failure : Failure} (positive : 1 ≤ bound) :
    (Response.failure failure).levels ≤ bound + 2 ↔ failure.details.levels ≤ bound := by
  have details :
      (Failure.detailsOrEmpty failure.details).levels ≤ bound ↔ failure.details.levels ≤ bound := by
    cases failure.details with
    | null => exact iff_of_true positive (Nat.zero_le bound)
    | _ => rfl
  show (Json.object _).levels ≤ _ ↔ _
  rw [Json.levels_object_le_iff (Nat.le_succ_of_le positive)]
  simp only [List.forall_mem_cons, Failure.toJson, Failure.showWith]
  rw [Json.levels_object_le_iff positive]
  simp only [List.forall_mem_cons, details]
  exact ⟨fun few => few.2.1.2.2.1,
    fun few => ⟨Nat.zero_le _, ⟨Nat.zero_le _, Nat.zero_le _, few, nofun⟩, nofun⟩⟩

end Response

theorem levels_complaint_le_iff {complaint : Complaint} {bound : Nat} (positive : 1 ≤ bound) :
    complaint.toJson.levels ≤ bound + 1 ↔ complaint.input.levels ≤ bound := by
  have location : (Json.array (complaint.location.map Json.string)).levels ≤ bound := by
    refine Nat.le_trans ?_ positive
    refine Json.levels_array_le_iff.2 fun element member => ?_
    obtain ⟨name, -, rfl⟩ := List.mem_map.1 member
    exact Nat.le_refl 0
  rw [Complaint.toJson, Json.levels_object_le_iff positive]
  simp only [List.forall_mem_cons]
  exact ⟨fun few => few.2.2.2.1,
    fun few => ⟨Nat.zero_le bound, location, Nat.zero_le bound, few, nofun⟩⟩

/-- A refusal has the levels of its envelope, and those of the deepest input complained about. -/
theorem levels_invalidPayload_le_iff {complaints : List Complaint} {bound : Nat}
    (positive : 1 ≤ bound) :
    (Response.failure (invalidPayload complaints)).levels ≤ bound + 4 ↔
      ∀ complaint ∈ complaints, complaint.input.levels ≤ bound := by
  rw [Response.levels_failure_le_iff (Nat.le_add_left 1 (bound + 1)), invalidPayload,
    Json.levels_array_le_iff, List.forall_mem_map]
  exact forall₂_congr fun complaint _ => levels_complaint_le_iff positive

namespace Application

variable {application : Application}

theorem write_of_levels_le {response : Response} (few : response.levels ≤ 5) :
    application.write response = .ok response :=
  if_pos (Nat.le_trans few application.limits.ample)

theorem write_success {status : Int} {data : Json} (few : data.levels ≤ 4) :
    application.write (.success status data) = .ok (.success status data) :=
  write_of_levels_le ((Response.levels_success_le_iff (by decide)).2 few)

theorem write_failure {failure : Failure} (few : failure.details.levels ≤ 3) :
    application.write (.failure failure) = .ok (.failure failure) :=
  write_of_levels_le ((Response.levels_failure_le_iff (by decide)).2 few)

theorem write_bare (status : Int) : application.write (.bare status) = .ok (.bare status) :=
  write_of_levels_le (Nat.zero_le 5)

theorem levels_report_le {session : Json} (named : session.levels = 0) (report : Report) :
    (Json.object (("session_id", session) :: report.members)).levels ≤ 3 := by
  refine (Json.levels_object_le_iff (by decide)).2 ?_
  rw [List.forall_mem_cons]
  exact ⟨named ▸ Nat.zero_le 2, report.levels_members_le⟩

theorem levels_reordered_le (expression : String) (tokens reordered : List String) :
    (Json.object [("expression", .string expression), ("infix", Json.strings tokens),
      ("postfix", Json.strings reordered)]).levels ≤ 2 := by
  refine (Json.levels_object_le_iff (Nat.le_refl 1)).2 ?_
  simp only [List.forall_mem_cons]
  exact ⟨Nat.zero_le 1, Json.levels_strings_le _, Json.levels_strings_le _, nofun⟩

/-! ### The settings of a session -/

variable {settings : Settings}

/-- The settings of a configuration are on or off as to degrees. -/
theorem levels_degree_of_defaults {configuration : Configuration}
    (loads : configuration.defaultSettings = .ok settings) : settings.degree.levels = 0 := by
  unfold Configuration.defaultSettings at loads
  cases made : Settings.ofConfiguration configuration.calculator with
  | error infinite =>
    rw [made] at loads
    cases loads
  | ok found =>
    rw [made] at loads
    obtain rfl := Except.ok.inj loads
    obtain ⟨operand, -, made⟩ := exists_of_bind made
    obtain ⟨result, -, made⟩ := exists_of_bind made
    obtain rfl := Except.ok.inj made
    rfl

/-- And so are those that a payload replaces. -/
theorem levels_degree_of_override {payload : SessionPayload} {after : Settings}
    (single : settings.degree.levels = 0)
    (overridden : settings.override (wholeOrNull payload.precision)
      (wholeOrNull payload.resultPrecision) (truthOrNull payload.degree) = .ok after) :
    after.degree.levels = 0 := by
  obtain ⟨operand, -, overridden⟩ := exists_of_bind overridden
  obtain ⟨result, -, overridden⟩ := exists_of_bind overridden
  obtain rfl := Except.ok.inj overridden
  cases payload.degree with
  | none => exact single
  | some degree => rfl

theorem levels_created_le (single : settings.degree.levels = 0) (id : String) :
    (Json.object [("session_id", .string id), ("settings", settings.toJson)]).levels ≤ 3 := by
  have shown : settings.toJson.levels ≤ 2 := by
    refine (Json.levels_object_le_iff (by decide)).2 ?_
    simp only [List.forall_mem_cons]
    exact ⟨Nat.zero_le 1, Nat.zero_le 1, single ▸ Nat.zero_le 1, nofun⟩
  refine (Json.levels_object_le_iff (by decide)).2 ?_
  simp only [List.forall_mem_cons]
  exact ⟨Nat.zero_le 2, shown, nofun⟩

/-- The answer that names a new session and its settings can be written. -/
theorem write_created (single : settings.degree.levels = 0) (id : String) :
    application.write (.success 201
        (.object [("session_id", .string id), ("settings", settings.toJson)])) =
      .ok (.success 201 (.object [("session_id", .string id), ("settings", settings.toJson)])) :=
  write_success (Nat.le_succ_of_le (levels_created_le single id))

/-- What comes of creating a session can be written. -/
theorem bind_write_createSession (payload : SessionPayload) :
    (application.createSession payload).1.bind application.write =
      (application.createSession payload).1 := by
  have noDetails {failure : Failure} (none : failure.details = .null) :
      application.write (.failure failure) = .ok (.failure failure) :=
    write_failure (none ▸ Nat.zero_le 3)
  unfold createSession
  split
  · rfl
  · rename_i defaults loads
    split
    · exact noDetails rfl
    · rename_i settings overridden
      split
      · rfl
      · rename_i registry _
        simp only
        cases (registry.create application.now settings).1 with
        | error error =>
          cases error with
          | notFound => exact noDetails rfl
          | full => exact noDetails rfl
        | ok id =>
          have single := levels_degree_of_override (levels_degree_of_defaults loads) overridden
          exact write_created single id

end Application

end Service

end Reckoner
