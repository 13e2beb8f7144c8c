import Mathlib.Data.List.Basic
import Reckoner.Proofs.Json.Levels
import Reckoner.Service.Payload
import Reckoner.Service.Route

/-!
# Schemas of payloads

The payload that a place takes, told by its members: their names, whether they may be missing, and
which values they refuse. A value is refused if it is no object or breaks one of these rules, and
the complaints about it are those that the reader of the payload reports. No complaint echoes more
levels than the value has.
-/

set_option autoImplicit false

namespace Reckoner.Service

open Text

/-- What a reader finds wrong with a value. -/
def problemOf {Value : Type} : Except Problem Value → Option Problem
  | .ok _ => none
  | .error problem => some problem

/-- A member that a payload may have or must have. -/
structure Field where
  name : String
  needed : Bool
  problem? : Json.Foreign → Option Problem

namespace Field

def required {Value : Type} (name : String) (read : Json.Foreign → Except Problem Value) : Field :=
  ⟨name, true, fun value => problemOf (read value)⟩

/-- A member that may be missing or null. -/
def optional {Value : Type} (name : String) (read : Json.Foreign → Except Problem Value) :
    Field where
  name := name
  needed := false
  problem?
    | .null => none
    | value => problemOf (read value)

def complaint? (field : Field) (members : Json.Members CodePoints) : Option Complaint :=
  match members.get? field.name with
  | none => if field.needed then some ⟨[field.name], .missing, .object members⟩ else none
  | some value => (field.problem? value).map fun problem => ⟨[field.name], problem, value⟩

variable {Value : Type}

theorem complaintOf_readMember (name : String) (read : Json.Foreign → Except Problem Value)
    (value : Json.Foreign) :
    complaintOf (readMember name read value) =
      ((problemOf (read value)).map fun problem => ⟨[name], problem, value⟩).toList := by
  unfold readMember
  cases read value with
  | ok result => rfl
  | error problem => rfl

theorem complaintOf_required (members : Json.Members CodePoints) (name : String)
    (read : Json.Foreign → Except Problem Value) :
    complaintOf (Service.required members name read) =
      ((required name read).complaint? members).toList := by
  simp only [Service.required, complaint?, required]
  cases members.get? name with
  | none => rfl
  | some value => exact complaintOf_readMember name read value

theorem complaintOf_some (outcome : Except Complaint Value) :
    complaintOf (match outcome with
      | .ok result => Except.ok (some result)
      | .error complaint => .error complaint) = complaintOf outcome := by
  cases outcome with
  | ok result => rfl
  | error complaint => rfl

theorem complaintOf_optional (members : Json.Members CodePoints) (name : String)
    (read : Json.Foreign → Except Problem Value) :
    complaintOf (Service.optional members name read) =
      ((optional name read).complaint? members).toList := by
  simp only [Service.optional, complaint?, optional]
  cases members.get? name with
  | none => rfl
  | some value =>
    cases value with
    | null => rfl
    | _ => exact (complaintOf_some _).trans (complaintOf_readMember name read _)

end Field

structure Schema where
  payload : String
  fields : List Field

namespace Schema

/-- The complaints about members: about those that are declared, in that order, and then about those
that are not. -/
def memberComplaints (schema : Schema) (members : Json.Members CodePoints) : List Complaint :=
  schema.fields.filterMap (·.complaint? members) ++
    unknownMembers members (schema.fields.map (·.name))

/-- The complaints about a value. Of an object with a name that is no text of characters nothing
else is complained about. -/
def complaints (schema : Schema) : Json.Foreign → List Complaint
  | .object members =>
    match members.find? fun member => member.1.toString?.isNone with
    | some (name, _) => [⟨[], .notCharacters, .string name⟩]
    | none => schema.memberComplaints members
  | value => notAnObject schema.payload value

/-- A value that is no payload of the schema. -/
inductive Refuses (schema : Schema) : Json.Foreign → Prop where
  | noObject {value : Json.Foreign} : value.kind ≠ .object → schema.Refuses value
  | unknown {members : Json.Members CodePoints} {member : CodePoints × Json.Foreign} :
      member ∈ members → (∀ field ∈ schema.fields, (field.name : CodePoints) ≠ member.1) →
      schema.Refuses (.object members)
  | missing {members : Json.Members CodePoints} {field : Field} :
      field ∈ schema.fields → field.needed = true → members.get? field.name = none →
      schema.Refuses (.object members)
  | misfit {members : Json.Members CodePoints} {field : Field} {value : Json.Foreign}
      {problem : Problem} :
      field ∈ schema.fields → members.get? field.name = some value →
      field.problem? value = some problem → schema.Refuses (.object members)

variable {schema : Schema} {members : Json.Members CodePoints}

theorem complaints_cases (schema : Schema) (members : Json.Members CodePoints) :
    (∃ member ∈ members, member.1.toString?.isNone = true ∧
        schema.complaints (.object members) = [⟨[], .notCharacters, .string member.1⟩]) ∨
      schema.complaints (.object members) = schema.memberComplaints members := by
  cases found : members.find? fun member => member.1.toString?.isNone with
  | none => exact .inr (by simp only [complaints, found])
  | some member =>
    have unreadable : member.1.toString?.isNone = true :=
      @List.find?_some _ (fun member : CodePoints × Json.Foreign => member.1.toString?.isNone) _ _
        found
    exact .inl ⟨member, List.mem_of_find?_eq_some found, unreadable,
      by simp only [complaints, found]⟩

theorem mem_memberComplaints_of_mem {field : Field} (declared : field ∈ schema.fields)
    {complaint : Complaint} (complains : field.complaint? members = some complaint) :
    complaint ∈ schema.memberComplaints members :=
  List.mem_append_left _ (List.mem_filterMap.2 ⟨field, declared, complains⟩)

theorem Refuses.exists_complaint {value : Json.Foreign} (refused : schema.Refuses value) :
    ∃ complaint, complaint ∈ schema.complaints value := by
  have ofMember {members : Json.Members CodePoints}
      (complained : ∃ complaint, complaint ∈ schema.memberComplaints members) :
      ∃ complaint, complaint ∈ schema.complaints (.object members) := by
    rcases schema.complaints_cases members with ⟨member, -, -, isComplaint⟩ | same
    · exact ⟨_, isComplaint ▸ List.mem_singleton_self _⟩
    · exact same ▸ complained
  cases refused with
  | noObject noObject =>
    cases value with
    | object members => exact absurd rfl noObject
    | _ => exact ⟨_, List.mem_singleton_self _⟩
  | @unknown members member there foreign =>
    refine ofMember ⟨⟨[member.1], .unexpected, member.2⟩, List.mem_append_right _ ?_⟩
    refine List.mem_map.2 ⟨member, List.mem_filter.2 ⟨there, ?_⟩, rfl⟩
    simpa using foreign
  | @missing members field declared needed absent =>
    refine ofMember ⟨⟨[field.name], .missing, .object members⟩,
      mem_memberComplaints_of_mem declared ?_⟩
    simp only [Field.complaint?, absent, needed, if_true]
  | @misfit members field value problem declared there isProblem =>
    refine ofMember ⟨⟨[field.name], problem, value⟩, mem_memberComplaints_of_mem declared ?_⟩
    simp only [Field.complaint?, there, isProblem, Option.map_some]

/-- A name that is no text of characters is the name of no member that is declared. -/
theorem refuses_of_unreadable {member : CodePoints × Json.Foreign} (there : member ∈ members)
    (unreadable : member.1.toString?.isNone = true) : schema.Refuses (.object members) := by
  refine .unknown there fun field _ same => ?_
  rw [← same, CodePoints.toString?_ofString] at unreadable
  cases unreadable

theorem refuses_of_mem {value : Json.Foreign} {complaint : Complaint}
    (complained : complaint ∈ schema.complaints value) : schema.Refuses value := by
  cases value with
  | object members =>
    rcases schema.complaints_cases members with ⟨member, there, unreadable, -⟩ | same
    · exact refuses_of_unreadable there unreadable
    · rw [same] at complained
      rcases List.mem_append.1 complained with ofField | ofUnknown
      · obtain ⟨field, declared, complains⟩ := List.mem_filterMap.1 ofField
        unfold Field.complaint? at complains
        split at complains
        · rename_i absent
          split at complains
          · rename_i needed
            exact .missing declared needed absent
          · cases complains
        · rename_i value there
          obtain ⟨problem, isProblem, -⟩ := Option.map_eq_some_iff.1 complains
          exact .misfit declared there isProblem
      · obtain ⟨member, foreign, -⟩ := List.mem_map.1 ofUnknown
        obtain ⟨there, foreign⟩ := List.mem_filter.1 foreign
        exact .unknown there (by simpa using foreign)
  | _ => exact .noObject (by simp [Json.kind])

/-- There is a complaint about a value exactly if it is refused. -/
theorem refuses_iff {value : Json.Foreign} :
    schema.Refuses value ↔ schema.complaints value ≠ [] := by
  constructor
  · intro refused
    obtain ⟨complaint, complained⟩ := refused.exists_complaint
    exact List.ne_nil_of_mem complained
  · intro some
    obtain ⟨complaint, complained⟩ := List.exists_mem_of_ne_nil _ some
    exact refuses_of_mem complained

/-- What a complaint echoes is the value, or a part of it. -/
theorem levels_input_le {value : Json.Foreign} {complaint : Complaint}
    (complained : complaint ∈ schema.complaints value) :
    complaint.input.levels ≤ value.levels := by
  cases value with
  | object members =>
    rcases schema.complaints_cases members with ⟨member, -, -, isComplaint⟩ | same
    · rw [isComplaint] at complained
      obtain rfl := List.mem_singleton.1 complained
      exact Nat.zero_le _
    · rw [same] at complained
      rcases List.mem_append.1 complained with ofField | ofUnknown
      · obtain ⟨field, -, complains⟩ := List.mem_filterMap.1 ofField
        unfold Field.complaint? at complains
        split at complains
        · split at complains
          · cases complains
            exact Nat.le_refl _
          · cases complains
        · rename_i value there
          obtain ⟨problem, -, rfl⟩ := Option.map_eq_some_iff.1 complains
          obtain ⟨front, back, rfl, -⟩ := List.lookup_eq_some_iff.1 there
          have inside : ((field.name : CodePoints), value) ∈ front ++ (↑field.name, value) :: back :=
            List.mem_append_right front List.mem_cons_self
          exact Json.levels_le_of_member inside
      · obtain ⟨member, foreign, rfl⟩ := List.mem_map.1 ofUnknown
        exact Json.levels_le_of_member (List.mem_filter.1 foreign).1
  | _ =>
    obtain rfl := List.mem_singleton.1 complained
    exact Nat.le_refl _

/-- A reader takes the values that the schema does not refuse, and reports the complaints about the
others. -/
structure Describes {Payload : Type} (schema : Schema)
    (read : Json.Foreign → Except (List Complaint) Payload) : Prop where
  refused : ∀ value, schema.Refuses value → read value = .error (schema.complaints value)
  taken : ∀ value, ¬ schema.Refuses value → ∃ payload, read value = .ok payload

theorem describes_of_cases {Payload : Type}
    {read : Json.Members CodePoints → Except (List Complaint) Payload}
    (cases : ∀ members, schema.memberComplaints members ≠ [] ∧
        read members = .error (schema.memberComplaints members) ∨
      schema.memberComplaints members = [] ∧ ∃ payload, read members = .ok payload) :
    schema.Describes (readObject schema.payload read) := by
  have split (value : Json.Foreign) :
      schema.complaints value ≠ [] ∧
          readObject schema.payload read value = .error (schema.complaints value) ∨
        schema.complaints value = [] ∧
          ∃ payload, readObject schema.payload read value = .ok payload := by
    cases value with
    | object members =>
      simp only [complaints, readObject]
      cases members.find? fun member => member.1.toString?.isNone with
      | some member => exact .inl ⟨List.cons_ne_nil _ _, rfl⟩
      | none => exact cases members
    | _ => exact .inl ⟨List.cons_ne_nil _ _, rfl⟩
  constructor
  · intro value refused
    rcases split value with ⟨-, isError⟩ | ⟨none, -⟩
    · exact isError
    · exact absurd none (refuses_iff.1 refused)
  · intro value notRefused
    rcases split value with ⟨some, -⟩ | ⟨-, taken⟩
    · exact absurd (refuses_iff.2 some) notRefused
    · exact taken

end Schema

/-! ## The payloads of the service -/

def SessionPayload.schema : Schema :=
  ⟨SessionPayload.name, [.optional "precision" readPlaces, .optional "result_precision" readPlaces,
    .optional "degree" readTruth]⟩

def EvaluatePayload.schema : Schema :=
  ⟨EvaluatePayload.name, [.required "expression" readExpression, .optional "session_id" readText]⟩

def PostfixPayload.schema : Schema :=
  ⟨PostfixPayload.name, [.required "expression" readExpression]⟩

theorem SessionPayload.describes : SessionPayload.schema.Describes SessionPayload.ofJson := by
  refine Schema.describes_of_cases fun members => ?_
  have same : SessionPayload.schema.memberComplaints members =
      complaintOf (optional members "precision" readPlaces) ++
        complaintOf (optional members "result_precision" readPlaces) ++
        complaintOf (optional members "degree" readTruth) ++
        unknownMembers members ["precision", "result_precision", "degree"] := by
    simp only [Schema.memberComplaints, SessionPayload.schema, List.filterMap_eq_flatMap_toList,
      ← Field.complaintOf_optional, List.flatMap_cons, List.flatMap_nil, List.append_nil,
      List.append_assoc]
    rfl
  rw [same]
  cases optional members "precision" readPlaces with
  | error complaint => exact .inl ⟨List.cons_ne_nil _ _, rfl⟩
  | ok precision =>
    cases optional members "result_precision" readPlaces with
    | error complaint => exact .inl ⟨List.cons_ne_nil _ _, rfl⟩
    | ok resultPrecision =>
      cases optional members "degree" readTruth with
      | error complaint => exact .inl ⟨List.cons_ne_nil _ _, rfl⟩
      | ok degree =>
        cases unknownMembers members ["precision", "result_precision", "degree"] with
        | nil => exact .inr ⟨rfl, _, rfl⟩
        | cons complaint complaints => exact .inl ⟨List.cons_ne_nil _ _, rfl⟩

theorem EvaluatePayload.describes : EvaluatePayload.schema.Describes EvaluatePayload.ofJson := by
  refine Schema.describes_of_cases fun members => ?_
  have same : EvaluatePayload.schema.memberComplaints members =
      complaintOf (required members "expression" readExpression) ++
        complaintOf (optional members "session_id" readText) ++
        unknownMembers members ["expression", "session_id"] := by
    simp only [Schema.memberComplaints, EvaluatePayload.schema, List.filterMap_eq_flatMap_toList,
      ← Field.complaintOf_required, ← Field.complaintOf_optional, List.flatMap_cons,
      List.flatMap_nil, List.append_nil]
    rfl
  rw [same]
  cases required members "expression" readExpression with
  | error complaint => exact .inl ⟨List.cons_ne_nil _ _, rfl⟩
  | ok expression =>
    cases optional members "session_id" readText with
    | error complaint => exact .inl ⟨List.cons_ne_nil _ _, rfl⟩
    | ok sessionId =>
      cases unknownMembers members ["expression", "session_id"] with
      | nil => exact .inr ⟨rfl, _, rfl⟩
      | cons complaint complaints => exact .inl ⟨List.cons_ne_nil _ _, rfl⟩

theorem PostfixPayload.describes : PostfixPayload.schema.Describes PostfixPayload.ofJson := by
  refine Schema.describes_of_cases fun members => ?_
  have same : PostfixPayload.schema.memberComplaints members =
      complaintOf (required members "expression" readExpression) ++
        unknownMembers members ["expression"] := by
    simp only [Schema.memberComplaints, PostfixPayload.schema, List.filterMap_eq_flatMap_toList,
      ← Field.complaintOf_required, List.flatMap_cons, List.flatMap_nil, List.append_nil]
    rfl
  rw [same]
  cases required members "expression" readExpression with
  | error complaint => exact .inl ⟨List.cons_ne_nil _ _, rfl⟩
  | ok expression =>
    cases unknownMembers members ["expression"] with
    | nil => exact .inr ⟨rfl, _, rfl⟩
    | cons complaint complaints => exact .inl ⟨List.cons_ne_nil _ _, rfl⟩

/-- The schema of the payloads that a place takes. -/
def Route.schema? : Route → Option Schema
  | .sessions => some SessionPayload.schema
  | .evaluate => some EvaluatePayload.schema
  | .postfixOrder => some PostfixPayload.schema
  | .home | .session _ | .tableOf _ | .asset _ => none

end Reckoner.Service
