import SchemaClasses.Proofs.Shelter.Clear

/-!
# Texts that a document shelters from merges

What a member of a combiner comes to is merged into a schema whose own parts have not been walked
yet. So a reference there meets a type or another reference as the text that it is, and it stays
that text in the list of types that the two are unified into, whether or not it leads to a listed
schema.

A document shelters a text (`isSheltered`) if in each of its schemas that is no reference itself

* what the walk does not go into is clear of the text, types included, and
* a schema in a table that is not clear of it is left alone by the members of all combiners around
  the table.

A member leaves a schema alone if what it comes to has none of that name (`isSilent`). References
are followed for that, except to schemas that are listed: then all that is merged is another
reference.
-/

namespace SchemaClasses.Flatten

open Merge

/-! ### The check -/

/-- The values that stand directly in a value. -/
def parts : Json → List Json
  | .arr items => items
  | .obj entries => entries.map Prod.snd
  | _ => []

/-- What stands in the combiners of a schema. -/
def combined (schema : Entries) : List Json :=
  combiners.flatMap fun combiner => (Assoc.find? schema combiner).elim [] parts

/-- Whether a schema has no schema with some name in a table. -/
def lacksMember (keyword name : String) (schema : Entries) : Bool :=
  match Assoc.find? schema keyword with
  | some (.obj members) => !Assoc.contains members name
  | _ => true

/-- Whether the walk lists a schema, if it succeeds. -/
def isListable : Json → Bool
  | .obj schema => textRef? schema = none && Shape.ofSchema schema = .object &&
      Assoc.contains schema "properties"
  | _ => false

/-- Whether a schema brings no schema with some name into a table of the schema that it is merged
into: what it comes to, once so many references and combiners at most have been followed, has none
or is listed elsewhere. -/
def isSilent (document : Json) (keyword name : String) : Nat → Json → Bool
  | 0, _ => false
  | bound + 1, .obj schema =>
    match textRef? schema with
    | some text => (referent? document text).all fun target =>
        isListable target || isSilent document keyword name bound target
    | none =>
      lacksMember keyword name schema &&
        (combined schema).all (isSilent document keyword name bound)
  | _ + 1, _ => true

/-- Whether the walk goes into the value of a keyword of a schema of some shape. -/
def isEntered : Shape → String → Bool
  | .object, keyword => decide (keyword ∈ tables ∨ keyword ∈ combiners)
  | .array, keyword => decide (keyword = "items")
  | .other, _ => false

/-- Whether a schema shelters a text: what the walk does not go into is clear of it, and what is not
clear of it in a table is left alone by all combiners. -/
def isSheltered (document : Json) (bound : Nat) (text : String) : Json → Bool
  | .obj schema => (textRef? schema).isSome || schema.all fun entry =>
      if isEntered (Shape.ofSchema schema) entry.1 then
        !decide (entry.1 ∈ tables) || match entry.2 with
          | .obj members => members.all fun member => isClear text .schema member.2 ||
              (combined schema).all (isSilent document entry.1 member.1 bound)
          | _ => true
      else isClear text (.under entry.1) entry.2
  | _ => true

/-- Whether a schema brings no schema with some name into a table, however many references have to
be followed. -/
def Silent (document : Json) (keyword name : String) (schema : Json) : Prop :=
  ∃ bound, isSilent document keyword name bound schema

/-- Whether no combiner of a schema does. -/
def Quiet (document : Json) (keyword name : String) (schema : Entries) : Prop :=
  ∀ member ∈ combined schema, Silent document keyword name member

/-- What is asked of a schema that is no reference. -/
structure Shelters (document : Json) (text : String) (schema : Entries) : Prop where
  outside : ∀ keyword value, Assoc.find? schema keyword = some value →
    ¬isEntered (Shape.ofSchema schema) keyword → isClear text (.under keyword) value
  inside : Shape.ofSchema schema = .object → ∀ keyword ∈ tables, ∀ members,
    Assoc.find? schema keyword = some (.obj members) → ∀ name value,
      Assoc.find? members name = some value →
        isClear text .schema value ∨ Quiet document keyword name schema

section Check

variable {document schema : Json} {text keyword name : String} {node : Entries}

/-- What stands in the combiners of a schema is a part of the value of one of them. -/
theorem mem_combined {value : Json} :
    value ∈ combined node ↔
      ∃ combiner ∈ combiners, ∃ v, Assoc.find? node combiner = some v ∧ value ∈ parts v := by
  rw [combined, List.mem_flatMap]
  refine exists_congr fun combiner => and_congr_right fun _ => ?_
  cases Assoc.find? node combiner <;> simp

/-- What stands one step below a value is one of its parts. -/
theorem mem_parts_of_step? {value below : Json} {segment : String}
    (h : value.step? segment = some below) : below ∈ parts value := by
  cases value with
  | obj entries => exact List.mem_map_of_mem (Assoc.mem_of_find? h)
  | arr items =>
    obtain ⟨index, -, hindex⟩ := Option.bind_eq_some_iff.mp h
    exact List.mem_of_getElem? hindex
  | _ => cases h

/-- A schema lacks a member if the table, as far as there is one, has nothing under the name. -/
theorem lacksMember_iff : lacksMember keyword name node ↔ ∀ members,
    Assoc.find? node keyword = some (.obj members) → Assoc.find? members name = none := by
  unfold lacksMember
  split
  · rename_i members hmembers
    rw [Bool.not_eq_true', Assoc.contains, Option.isSome_eq_false_iff, Option.isNone_iff_eq_none,
      hmembers]
    exact ⟨fun h others heq => by cases heq; exact h, fun h => h members rfl⟩
  · rename_i hother
    exact ⟨fun _ members hmembers => absurd hmembers (hother members), fun _ => rfl⟩

/-- A schema without the table lacks each member. -/
theorem lacksMember_of_none (h : Assoc.find? node keyword = none) :
    lacksMember keyword name node :=
  lacksMember_iff.mpr fun members hmembers => by cases h.symm.trans hmembers

/-- Whether a schema lacks a member depends only on the table. -/
theorem lacksMember_congr {other : Entries}
    (h : Assoc.find? node keyword = Assoc.find? other keyword) :
    lacksMember keyword name node = lacksMember keyword name other := by
  unfold lacksMember
  rw [h]

/-- What the walk lists has the shape of an object. -/
theorem shape_of_isListable (h : isListable (.obj node)) : Shape.ofSchema node = .object := by
  rw [isListable, Bool.and_eq_true, Bool.and_eq_true] at h
  exact of_decide_eq_true h.1.2

/-- What is merged brings in a schema only if it has it or one of its combiners does. -/
theorem Silent.of_plain (h : Silent document keyword name (.obj node))
    (hplain : textRef? node = none) :
    lacksMember keyword name node ∧ Quiet document keyword name node := by
  obtain ⟨bound, hbound⟩ := h
  cases bound with
  | zero => cases hbound
  | succ bound =>
    rw [isSilent, hplain, Bool.and_eq_true, List.all_eq_true] at hbound
    exact ⟨hbound.1, fun member hmember => ⟨bound, hbound.2 member hmember⟩⟩

/-- A reference does only if its target does and stays where it is. -/
theorem Silent.of_referent (h : Silent document keyword name (.obj node))
    (htext : textRef? node = some text) {path : SchemaPath}
    (hpath : SchemaPath.ofPointer text = .ok path) {target : Json}
    (htarget : document.at? path = some target) :
    isListable target ∨ Silent document keyword name target := by
  obtain ⟨bound, hbound⟩ := h
  cases bound with
  | zero => cases hbound
  | succ bound =>
    rw [isSilent, htext] at hbound
    dsimp only at hbound
    rw [referent?_of_ofPointer hpath, htarget, Option.all_some] at hbound
    exact (Bool.or_eq_true_iff.mp hbound).imp id fun h => ⟨bound, h⟩

/-- Tables and combiners are among the keywords under which a schema has others. -/
theorem mem_linkKeywords (h : keyword ∈ tables ∨ keyword ∈ combiners) : keyword ∈ linkKeywords :=
  List.mem_cons_of_mem _ (List.mem_append.mpr h)

/-- A bare schema has no combiners. -/
theorem combined_of_isBare (h : isBare (.obj node)) : combined node = [] := by
  refine List.flatMap_eq_nil_iff.mpr fun combiner hcombiner => ?_
  rw [find?_of_isBare h (mem_linkKeywords (.inr hcombiner))]
  rfl

/-- A bare schema brings nothing into a table. -/
theorem silent_of_isBare (h : isBare schema) (hkeyword : keyword ∈ tables) :
    Silent document keyword name schema := by
  refine ⟨1, ?_⟩
  cases schema with
  | obj node =>
    have href : textRef? node = none := by
      rw [textRef?, find?_of_isBare h List.mem_cons_self]
      rfl
    rw [isSilent, href, combined_of_isBare h]
    exact Bool.and_eq_true_iff.mpr
      ⟨lacksMember_of_none (find?_of_isBare h (mem_linkKeywords (.inl hkeyword))), rfl⟩
  | _ => rfl

/-- A schema that passes the test and is no reference shelters the text. -/
theorem shelters_of_isSheltered {bound : Nat} (h : isSheltered document bound text (.obj node))
    (hplain : textRef? node = none) : Shelters document text node := by
  rw [isSheltered, hplain, Option.isSome_none, Bool.false_or, List.all_eq_true] at h
  constructor
  · intro keyword value hvalue hentered
    have hentry := h _ (Assoc.mem_of_find? hvalue)
    rwa [if_neg hentered] at hentry
  · intro hshape keyword hkeyword members hmembers name value hvalue
    have hentry := h _ (Assoc.mem_of_find? hmembers)
    have hentered : isEntered (Shape.ofSchema node) keyword := by
      rw [hshape]
      exact decide_eq_true (.inl hkeyword)
    rw [if_pos hentered, decide_eq_true hkeyword, Bool.not_true, Bool.false_or,
      List.all_eq_true] at hentry
    refine (Bool.or_eq_true_iff.mp (hentry _ (Assoc.mem_of_find? hvalue))).imp id fun hall => ?_
    exact fun member hmember => ⟨bound, List.all_eq_true.mp hall member hmember⟩

end Check

end SchemaClasses.Flatten
