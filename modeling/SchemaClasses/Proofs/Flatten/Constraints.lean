import SchemaClasses.Proofs.Flatten.Outcome
import SchemaClasses.Proofs.Model.Failures

/-!
# What a listed schema can be

Main statement (`isClassSchema_of_flattenWithin`): every schema of a flattened document has a table
of properties, no patterns, and no `additionalProperties` that is switched on, whatever has been
folded into it. So none of them keeps the classes from being made for want of properties.

The conditions are checked on the folded schema, and it is that schema which is listed. Later steps
copy schemas out of the table or take them from it, and never change one, so it is enough that each
schema meets the conditions when it is listed (`lists_flattenObject`).
-/

namespace SchemaClasses.Flatten

open FlattenM

/-- Whether a schema can be made into a class. -/
structure IsClassSchema (schema : Entries) : Prop where
  /-- It has a table of properties. -/
  properties : ∃ members, Assoc.find? schema "properties" = some (.obj members)
  /-- It has no patterns. -/
  patternProperties : Assoc.find? schema "patternProperties" = none
  /-- It allows for no other properties. -/
  additionalProperties : ∀ value, Assoc.find? schema "additionalProperties" = some value →
    value.isTruthy = false

/-- A folded schema that has passed the checks is one, once its members are walked. -/
theorem isClassSchema_insert {folded : Entries} (hon : isOn folded "additionalProperties" = false)
    (hpatterns : Assoc.find? folded "patternProperties" = none) (flat : Entries) :
    IsClassSchema (Assoc.insert folded "properties" (.obj flat)) where
  properties := ⟨flat, Assoc.find?_insert_self _ _ _⟩
  patternProperties := by rwa [Assoc.find?_insert_of_ne _ _ (by decide)]
  additionalProperties value hvalue := by
    rw [Assoc.find?_insert_of_ne _ _ (by decide)] at hvalue
    rwa [isOn, hvalue] at hon

/-- Whether all schemas of a table can be made into classes. -/
def AreClassSchemas (schemas : FlatSchemas) : Prop :=
  ∀ listed ∈ schemas, IsClassSchema listed.2

/-- Another schema that can be made into a class may be listed. -/
theorem AreClassSchemas.insert {schemas : FlatSchemas} (h : AreClassSchemas schemas)
    {schema : Entries} (hschema : IsClassSchema schema) (path : SchemaPath) :
    AreClassSchemas (Assoc.insert schemas path schema) := by
  intro listed hlisted
  rcases Assoc.mem_insert hlisted with hold | rfl
  · exact h listed hold
  · exact hschema

/-- A schema may be taken out of the table. -/
theorem AreClassSchemas.erase {schemas : FlatSchemas} (h : AreClassSchemas schemas)
    (path : SchemaPath) : AreClassSchemas (Assoc.erase schemas path) :=
  fun listed hlisted => h listed (Assoc.mem_of_mem_erase hlisted)

/-! ### The walk -/

/-- Whether a computation lists such schemas only. -/
def Lists {α : Type} (x : FlattenM α) : Prop :=
  ∀ state, AreClassSchemas state.schemas →
    Ensures x state (fun _ after => AreClassSchemas after.schemas) fun _ => True

section Steps

variable {document : Json} {walk : Walker} (hwalk : ∀ schema path, Lists (walk schema path))
  {path : SchemaPath}

/-- Contributing a member lists nothing. -/
theorem lists_contribution (memberPath : SchemaPath) (shared : Bool) (walked : Walked) :
    Lists (contribution document memberPath shared walked) :=
  fun _ hstate => ensures_contribution (fun _ _ => hstate) (fun _ _ _ => hstate)
    (fun _ _ _ => trivial) (fun _ _ _ _ => hstate) (fun _ _ _ _ _ => hstate)
    fun _ _ => hstate.erase _

include hwalk

/-- Following a reference lists such schemas only. -/
theorem lists_followRef (reference : Reference) : Lists (followRef document walk reference) :=
  fun state hstate => ensures_followRef (fun _ _ _ => trivial)
    (fun target entry _ _ => hwalk (.obj entry) target state hstate)
    fun target schema _ _ _ => hwalk schema target state hstate

/-- Flattening an array lists class schemas only. -/
theorem lists_flattenArray (schema : Entries) : Lists (flattenArray walk schema path) :=
  fun state hstate => ensures_flattenArray (fun _ => trivial) (fun _ _ => trivial)
    (fun _ _ => hstate) fun _ items _ _ => hwalk items _ state hstate

/-- Flattening the members of a table lists class schemas only. -/
theorem lists_flattenEntries (keyword : String) (members : Entries) :
    Lists (flattenEntries walk path keyword members) := by
  induction members with
  | nil => exact fun state hstate => ensures_pure hstate
  | cons member rest ih =>
    exact fun state hstate => ensures_flattenEntries_cons ((hwalk _ _ state hstate).mono
      (fun _ between hbetween => ih between hbetween) fun _ h => h)

/-- Folding the combiners lists class schemas only. -/
theorem lists_foldCombiners (schema : Entries) :
    Lists (combiners.foldlM (foldCombiner document walk path) schema) := by
  refine fun state hstate => ensures_foldCombiners (fun combiner _ schema state hstate => ?_) hstate
  refine ensures_foldCombiner (fun _ => hstate) (fun members _ => ?_) fun _ _ _ => trivial
  refine ensures_foldMembers (fun index member _ schema state hstate => ?_) hstate
  refine ensures_foldMember ((hwalk _ _ state hstate).mono (fun walked between hbetween => ?_)
    fun _ h => h)
  exact (lists_contribution _ _ walked between hbetween).mono
    (fun _ after hafter => ⟨fun _ _ => ⟨fun _ => hafter, fun _ _ => trivial⟩, fun _ => hafter⟩)
    fun _ h => h

/-- The schema that is listed has passed the checks. -/
theorem lists_flattenObject (schema : Entries) :
    Lists (flattenObject document walk schema path) := by
  intro state hstate
  refine ensures_flattenObject ((lists_foldCombiners hwalk schema state hstate).mono
    (fun folded between hbetween => ?_) fun _ h => h)
  have hmembers : ∀ keyword members, Ensures (flattenMembers walk path keyword members) between
      (fun flat after => AreClassSchemas after.schemas ∧ ∃ entries, flat = .obj entries)
      fun _ => True := fun keyword members =>
    ensures_flattenMembers (fun _ => trivial) fun entries _ =>
      (lists_flattenEntries hwalk keyword entries between hbetween).mono
        (fun flat _ hafter => ⟨hafter, flat, rfl⟩) fun _ h => h
  refine ⟨fun _ => trivial, fun _ _ _ _ => trivial, fun hon => ⟨fun members _ hnone => ?_,
    fun members _ _ => ?_, fun _ _ => hbetween⟩⟩
  · refine (hmembers _ members).mono (fun flat after h => ?_) fun _ h => h
    obtain ⟨hafter, entries, rfl⟩ := h
    exact hafter.insert (isClassSchema_insert hon hnone entries) path
  · exact (hmembers _ members).mono (fun _ _ h => h.1) fun _ h => h

/-- A visit lists class schemas only, whatever is visited. -/
theorem lists_visit (schema : Json) : Lists (visit document walk schema path) :=
  fun _ hstate => ensures_visit (fun _ => trivial) (fun _ _ => hstate)
    (fun entries _ _ _ => ensures_flattenSchema
      (fun reference _ => lists_followRef hwalk reference _ hstate)
      (fun _ _ => lists_flattenObject hwalk entries _ hstate)
      (fun _ _ => lists_flattenArray hwalk entries _ hstate) fun _ _ => hstate)
    (fun _ _ _ _ => hstate) fun _ _ => trivial

end Steps

/-- The walk lists class schemas only, at every depth. -/
theorem lists_walk (document : Json) (depth : Nat) (schema : Json) (path : SchemaPath) :
    Lists (walk document depth schema path) := by
  induction depth generalizing schema path with
  | zero => exact fun _ _ => ensures_throw trivial
  | succ depth ih => exact lists_visit ih schema

/-- Every schema of a flattened document can be made into a class, so none fails to be for want of
properties, whatever the name of the root. -/
theorem isClassSchema_of_flattenWithin {document : Json} {depth : Nat} {schemas : FlatSchemas}
    (h : flattenWithin depth document = .ok schemas) :
    (∀ listed ∈ schemas, IsClassSchema listed.2) ∧
      ∀ rootName path, resolve schemas rootName ≠ .error (.noProperties path) := by
  obtain ⟨walked, after, hrun, rfl⟩ := exists_run_of_flattenWithin h
  have hall : AreClassSchemas after.schemas :=
    (lists_walk document depth document .root {} nofun).of_eq_ok hrun
  exact ⟨hall, resolve_ne_noProperties fun listed hlisted => (hall listed hlisted).properties⟩

/-- A document whose root is folded with an array that stays in place and brings in the patterns and
the switches of an object, here all harmless. -/
def patchwork : Json :=
  .obj [("properties", .obj [("a", .obj [(typeKey, .str "string")])]),
    ("allOf", .arr [
      .obj [(typeKey, .str "array"), ("additionalProperties", .bool false)],
      .obj [("properties", .obj [("b", .obj [("properties", .obj [])])])]])]

/-- On a document whose root gets its patterns from a combiner all conditions are met and
checked. -/
theorem isClassSchema_patchwork : ∃ schemas, flattenWithin 6 patchwork = .ok schemas ∧
    Assoc.keys schemas = [⟨["allOf", "1", "properties", "b"]⟩, .root] ∧
    (∀ listed ∈ schemas, IsClassSchema listed.2) ∧
    ∀ rootName path, resolve schemas rootName ≠ .error (.noProperties path) := by
  have hkeys : (flattenWithin 6 patchwork).toOption.map Assoc.keys =
      some [⟨["allOf", "1", "properties", "b"]⟩, .root] := by decide +kernel
  cases h : flattenWithin 6 patchwork with
  | error error =>
    rw [h] at hkeys
    cases hkeys
  | ok schemas =>
    rw [h] at hkeys
    exact ⟨schemas, rfl, Option.some.inj hkeys, isClassSchema_of_flattenWithin h⟩

end SchemaClasses.Flatten
