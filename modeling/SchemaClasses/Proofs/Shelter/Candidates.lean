import SchemaClasses.Proofs.Coupling.Models
import SchemaClasses.Proofs.Model.Typing
import SchemaClasses.Proofs.Shelter.Walk

/-!
# Candidates that are pointers

Main statement (`denotesClass_of_mem_candidates`): each candidate of a choice that the type of a
property offers, at any depth, is the pointer of a listed schema and so denotes its class, if it is
a text that the document shelters.

A candidate is a text in a list of types. Types are read after all references have been followed,
so it was a merge that put a pointer into such a list: mostly a reference to a listed schema, but
sometimes one of the document that had not been followed yet (`hasStray_unfollowed`). The conditions
under which a text is sheltered exclude the latter, and none of them can be left out
(`straysFrom_blends`).
-/

namespace SchemaClasses

open Flatten

/-- The candidates of all choices in a type, at any depth. -/
def PropertyType.candidates : PropertyType → List String
  | .multiple candidates => candidates
  | .list element => element.candidates
  | .set element => element.candidates
  | .dict value => value.candidates
  | _ => []

namespace Resolve

variable {names : ClassName.Table} {path : SchemaPath} {candidates : List String} {text : String}

/-- What is found in a list of types was there. -/
theorem str_mem_of_distinctTexts {types : List Json} {found texts : List String}
    (h : DeclaredType.distinctTexts types found = .ok texts) (hmem : text ∈ texts) :
    text ∈ found ∨ .str text ∈ types := by
  induction types generalizing found with
  | nil =>
    obtain rfl := Except.ok.inj h
    exact .inl hmem
  | cons first rest ih =>
    cases first with
    | str name =>
      rw [DeclaredType.distinctTexts] at h
      rcases ih h with hfound | hrest
      · split_ifs at hfound
        · exact .inl hfound
        · refine (List.mem_append.mp hfound).imp id fun hname => ?_
          exact List.mem_singleton.mp hname ▸ List.mem_cons_self
      · exact .inr (List.mem_cons_of_mem _ hrest)
    | _ => cases h

/-- The type of a schema lists the candidates that it declares. -/
theorem exists_of_choice {schema : Entries}
    (h : DeclaredType.ofSchema schema path = .ok (.choice candidates)) (hmem : text ∈ candidates) :
    ∃ type, Assoc.find? schema typeKey = some type ∧ lists text type := by
  unfold DeclaredType.ofSchema at h
  split at h
  · cases h
  · cases h
  · rename_i types htypes
    refine ⟨_, htypes, ?_⟩
    split at h
    · cases h
    · cases h
    · split_ifs at h
      all_goals cases h
    · rename_i texts _ _ htexts
      obtain rfl := DeclaredType.choice.inj (Except.ok.inj h)
      have hstr := (str_mem_of_distinctTexts htexts hmem).resolve_left List.not_mem_nil
      by_contra hlists
      exact lists_str.mp (lists_arr.mp (Bool.eq_false_iff.mpr hlists) _ hstr) rfl
  · cases h

/-- A list or a set has the candidates of its elements. -/
theorem candidates_arrayOf (schema : Entries) (element : PropertyType) :
    (arrayOf schema element).candidates = element.candidates := by
  rcases arrayOf_cases schema element with heq | heq <;> rw [heq] <;> rfl

/-- No choice in the type of a schema has a candidate that the schema is clear of. -/
theorem Typed.not_mem_candidates {schema : Json} {type : PropertyType}
    (h : Typed names path schema type) (hclear : isClear text .schema schema) :
    text ∉ type.candidates := by
  induction h with
  | anything => exact List.not_mem_nil
  | ref _ h =>
    obtain ⟨pointer, rfl, hpointer⟩ := exists_of_modelOfRef h
    obtain ⟨target, name, -, -, rfl⟩ := exists_of_modelOfPointer hpointer
    exact List.not_mem_nil
  | pointer _ _ h =>
    obtain ⟨target, name, -, -, rfl⟩ := exists_of_modelOfPointer h
    exact List.not_mem_nil
  | choice _ htype =>
    intro hmem
    obtain ⟨type, hfind, hlists⟩ := exists_of_choice htype hmem
    rw [isClear_type.mp (isClear_under hclear hfind)] at hlists
    cases hlists
  | primitive _ _ h =>
    obtain ⟨kind, format, rfl⟩ := exists_of_primitiveOf h
    exact List.not_mem_nil
  | array =>
    rw [candidates_arrayOf]
    exact List.not_mem_nil
  | items _ _ hitems _ ih =>
    rw [candidates_arrayOf]
    exact ih (isClear_under hclear hitems)
  | pattern _ _ hmembers _ ih =>
    exact ih (isClear_table.mp (isClear_under hclear hmembers) _ List.mem_cons_self)
  | dict => exact List.not_mem_nil

end Resolve

/-- Whether a text is the pointer of a listed schema, whose class is one of the classes. -/
def DenotesClass (schemas : FlatSchemas) (names : ClassName.Table) (models : Models)
    (text : String) : Prop :=
  ∃ path className, path ∈ Assoc.keys schemas ∧ path.toPointer = text ∧
    Assoc.find? names path = some className ∧ className ∈ Assoc.keys models

/-- Each candidate of a choice, at any depth of the type of any property, that the document shelters
is the pointer of a listed schema and denotes the class of that schema. -/
theorem denotesClass_of_mem_candidates {document : Json} (hwf : document.wellFormed) {depth : Nat}
    {rootName : String} {models : Models}
    (hmodels : modelsWithin depth document rootName = .ok models) :
    ∃ schemas names, flattenWithin depth document = .ok schemas ∧
      ClassName.table schemas rootName = .ok names ∧
      ∀ model ∈ models, ∀ property ∈ model.2, ∀ candidate ∈ property.2.candidates,
        (∃ bound, document.everywhere (isSheltered document bound candidate)) →
          DenotesClass schemas names models candidate := by
  obtain ⟨schemas, hflatten, hresolve⟩ := exists_of_modelsWithin hmodels
  obtain ⟨names, hnames, hclasses⟩ := exists_of_resolve hresolve
  refine ⟨schemas, names, hflatten, hnames, fun model hmodel property hproperty candidate
    hcandidate hsheltered => ?_⟩
  obtain ⟨path, entry, members, member, hmember, hentry, hmembers, htyped⟩ :=
    Resolve.exists_typed_of_classesOf hclasses hmodel hproperty
  by_cases hpointer : Shelter.IsPointer (Assoc.keys schemas) candidate
  · obtain ⟨target, htarget, heq⟩ := hpointer
    obtain ⟨className, hclass⟩ :=
      Assoc.exists_find?_of_mem_keys (ClassName.mem_keys_table hnames htarget)
    refine ⟨target, className, htarget, heq, hclass, ?_⟩
    rw [Resolve.keys_of_classesOf hclasses]
    exact List.mem_map.mpr ⟨(target, className), Assoc.mem_of_find? hclass, rfl⟩
  · -- Otherwise the text stands in no type of a flattened schema and is no candidate.
    have hclear := Shelter.isClear_of_flattenWithin hwf hsheltered hflatten hpointer hentry
    have hproperty := isClear_table.mp (isClear_under hclear hmembers) member hmember
    exact absurd hcandidate (htyped.not_mem_candidates hproperty)

/-- A document whose root refers to a class and to a text while members of a combiner add a class to
the choice of another property, refer to a class with a property of that name, and say no more than
what is required. -/
def ensemble : Json :=
  let reference (text : String) : Json := .obj [(refKey, .str text)]
  let typed (name : String) : Json := .obj [(typeKey, .str name)]
  .obj [
    ("properties", .obj [("lead", reference "#/definitions/person"),
      ("label", reference "#/definitions/text"), ("guest", typed "string")]),
    ("allOf", .arr [.obj [("properties", .obj [("guest", reference "#/definitions/person")])],
      reference "#/definitions/base", .obj [("required", .arr [.str "lead"])]]),
    ("definitions", .obj [("person", .obj [("properties", .obj [("name", typed "string")])]),
      ("base", .obj [("properties", .obj [("lead", typed "integer")])]), ("text", typed "string")])]

/-- Its classes. -/
def ensembleClasses : Models :=
  [("M", [("lead", .model "Person"), ("label", .primitive .string "default"),
      ("guest", .multiple ["string", "#/definitions/person"])]),
    ("Person", [("name", .primitive .string "default")]),
    ("Base", [("lead", .primitive .integer "default")])]

/-- The theorem at `ensemble`: the class of persons is listed, and one of the classes. -/
theorem denotesClass_ensemble : ensemble.wellFormed ∧
    ensemble.everywhere (isSheltered ensemble 2 "#/definitions/person") ∧
    modelsWithin 6 ensemble "M" = .ok ensembleClasses ∧
    ∃ schemas names, flattenWithin 6 ensemble = .ok schemas ∧
      ClassName.table schemas "M" = .ok names ∧
      DenotesClass schemas names ensembleClasses "#/definitions/person" := by
  have hwf : ensemble.wellFormed := by decide
  have hsheltered : ensemble.everywhere (isSheltered ensemble 2 "#/definitions/person") := by
    decide +kernel
  have hmodels : modelsWithin 6 ensemble "M" = .ok ensembleClasses := by
    have hshown : (modelsWithin 6 ensemble "M").toOption = some ensembleClasses := by
      decide +kernel
    cases h : modelsWithin 6 ensemble "M" with
    | error error =>
      rw [h] at hshown
      cases hshown
    | ok models =>
      rw [h] at hshown
      exact congrArg _ (Option.some.inj hshown)
  obtain ⟨schemas, names, hflatten, hnames, hall⟩ := denotesClass_of_mem_candidates hwf hmodels
  refine ⟨hwf, hsheltered, hmodels, schemas, names, hflatten, hnames, ?_⟩
  have hguest : "#/definitions/person" ∈
      (PropertyType.multiple ["string", "#/definitions/person"]).candidates := by decide
  exact hall _ List.mem_cons_self
    ("guest", .multiple ["string", "#/definitions/person"]) (by decide) _ hguest ⟨2, hsheltered⟩

/-! ### Candidates that denote no class -/

/-- The candidates that look like pointers but are not those of listed schemas. -/
def strayCandidates (document : Json) (rootName : String) : List String :=
  match flatten document, resolveModels document rootName with
  | .ok schemas, .ok models =>
    (models.flatMap fun model => model.2.flatMap fun property => property.2.candidates).filter
      fun candidate => candidate.toList.head? = some '#' &&
        !(Assoc.keys schemas).any fun path => path.toPointer = candidate
  | _, _ => []

/-- Whether a text is a candidate that looks like a pointer but is not that of a listed schema. -/
def HasStray (document : Json) (rootName : String) (candidate : String) : Prop :=
  ∃ schemas models, flatten document = .ok schemas ∧
    resolveModels document rootName = .ok models ∧ ∃ model ∈ models, ∃ property ∈ model.2,
      candidate ∈ property.2.candidates ∧ candidate.toList.head? = some '#' ∧
      ∀ path ∈ Assoc.keys schemas, path.toPointer ≠ candidate

/-- The evaluation finds stray candidates only. -/
theorem hasStray_of_mem {document : Json} {rootName candidate : String}
    (h : candidate ∈ strayCandidates document rootName) :
    HasStray document rootName candidate := by
  unfold strayCandidates at h
  split at h
  · rename_i schemas models hflatten hmodels
    obtain ⟨hmem, hstray⟩ := List.mem_filter.mp h
    obtain ⟨model, hmodel, hproperties⟩ := List.mem_flatMap.mp hmem
    obtain ⟨property, hproperty, hcandidate⟩ := List.mem_flatMap.mp hproperties
    rw [Bool.and_eq_true, decide_eq_true_eq, Bool.not_eq_true', List.any_eq_false] at hstray
    exact ⟨schemas, models, hflatten, hmodels, model, hmodel, property, hproperty, hcandidate,
      hstray.1, fun path hpath heq => hstray.2 path hpath (decide_eq_true heq)⟩
  · exact absurd h List.not_mem_nil

/-- A schema with one property. -/
def propertyX (schema : Json) : Json :=
  .obj [("properties", .obj [("x", schema)])]

/-- A schema of one type, which may be a list. -/
def typed (type : Json) (more : Entries) : Json :=
  .obj ((typeKey, type) :: more)

/-- A reference to a text, which is not listed. -/
def textRef : Json :=
  .obj [(refKey, .str "#/definitions/s")]

/-- A document with members of a combiner and the definition of that text. -/
def blended (own : Entries) (members : List Json) (definitions : Entries) : Json :=
  .obj (own ++ [("allOf", .arr members),
    ("definitions", .obj (("s", typed (.str "string") []) :: definitions))])

/-- A property that refers to a text and gets another type from a member. -/
def unfollowed : Json :=
  blended [("properties", .obj [("x", textRef)])] [propertyX (typed (.str "integer") [])] []

/-- The reference is a candidate as the text that it is. -/
theorem hasStray_unfollowed : unfollowed.wellFormed ∧ HasStray unfollowed "M" "#/definitions/s" :=
  ⟨by decide, hasStray_of_mem (by decide +kernel)⟩

/-- One that gets it from a schema that the member refers to. As the type of that is a list, it is
not listed. -/
def unfollowedBehind : Json :=
  blended [("properties", .obj [("x", textRef)])] [.obj [(refKey, .str "#/definitions/m")]]
    [("m", typed (.arr [.str "object"])
      [("properties", .obj [("x", typed (.str "integer") [])])])]

/-- One that gets it from a member of a combiner of the member. -/
def unfollowedInside : Json :=
  blended [("properties", .obj [("x", textRef)])]
    [.obj [("allOf", .arr [propertyX (typed (.str "integer") [])])]] []

/-- A property whose type is a list with the text in it. -/
def statedText : Json :=
  blended [("properties", .obj [
    ("x", typed (.arr [.str "#/definitions/s", .str "string"]) [])])] [] []

/-- A member with a list in place of a reference, and another one with a type. -/
def statedList : Json :=
  blended [] [propertyX (.obj [(refKey, .arr [.str "#/definitions/s"])]),
    propertyX (typed (.str "string") [])] []

/-- A member with items that are not walked, as the type around them is a list, and another one with
a type for them. -/
def unwalkedItems : Json :=
  blended [] [propertyX (typed (.arr [.str "array"]) [("items", textRef)]),
    propertyX (.obj [("items", typed (.str "integer") [])])] []

/-- A member with a combiner that is not walked in its place, as the type around it is a list. It is
walked where it is merged in, at a place that has been listed before. -/
def unwalkedCombiner : Json :=
  blended
    [("properties", .obj [("first", .obj [(refKey, .str "#/properties/x/anyOf/0/oneOf/0")]),
      ("x", typed (.str "object") [("anyOf", .obj [("0",
        .obj [("oneOf", .arr [propertyX (typed (.str "integer") [])])])])])])]
    [propertyX (typed (.arr [.str "object"]) [("anyOf", .arr [
      .obj [("properties", .obj [("x", textRef)]), ("oneOf", .arr [.obj []])]])])] []

/-- The places of the schemas that do not shelter a text. -/
def unshelteredPlaces (document : Json) (bound : Nat) (text : String) : List (List String) :=
  document.places.filter fun place =>
    !(document.descend? place).all (isSheltered document bound text)

/-- Whether a single schema of a document does not shelter a reference, and that suffices. -/
def StraysFrom (document : Json) (place : List String) : Prop :=
  document.wellFormed ∧ unshelteredPlaces document 3 "#/definitions/s" = [place] ∧
    HasStray document "M" "#/definitions/s"

/-- What is found for a document by evaluation is right. -/
theorem straysFrom_of_report {document : Json} {place : List String} (hwf : document.wellFormed)
    (h : unshelteredPlaces document 3 "#/definitions/s" = [place] ∧
      "#/definitions/s" ∈ strayCandidates document "M") : StraysFrom document place :=
  ⟨hwf, h.1, hasStray_of_mem h.2⟩

/-- None of the conditions can be left out: on each of these documents one schema fails to meet one
of them. -/
theorem straysFrom_blends :
    StraysFrom unfollowed [] ∧ StraysFrom unfollowedBehind [] ∧ StraysFrom unfollowedInside [] ∧
    StraysFrom statedText ["properties", "x"] ∧
    StraysFrom statedList ["allOf", "0", "properties", "x"] ∧
    StraysFrom unwalkedItems ["allOf", "0", "properties", "x"] ∧
    StraysFrom unwalkedCombiner ["allOf", "0", "properties", "x"] := by
  refine ⟨?_, ?_, ?_, ?_, ?_, ?_, ?_⟩ <;>
    exact straysFrom_of_report (by decide) (by decide +kernel)

end SchemaClasses
