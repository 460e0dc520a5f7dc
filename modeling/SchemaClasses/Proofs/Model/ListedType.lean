import SchemaClasses.Proofs.Coupling.Models
import SchemaClasses.Proofs.Coupling.Ordered

/-!
# A type that is listed alone

Main statement (`modelsWithin_listedType`): writing the type of a schema as a list of one leaves the
classes of a document the same, or it has none in either form.

Merging types makes no difference between the two, because it only asks for their alternatives, and
the classes are read alike as long as the type does not look like a pointer. The walk is where they
differ: it takes a schema with a list for one that is neither object nor array, and passes it over.
So for an object or an array the walk must not meet one with a listed type that holds anything to be
walked. Without one of these conditions the statement fails (`resolveModels_listedType_ne`).
-/

namespace SchemaClasses

open Merge Json Flatten

namespace Flatten

/-- The shape that a schema with this type has. -/
def Shape.ofName (name : String) : Shape :=
  Shape.ofSchema [(typeKey, .str name)]

/-- A schema of one type has the shape of that type. -/
theorem Shape.ofSchema_of_type {schema : Entries} {name : String}
    (h : Assoc.find? schema typeKey = some (.str name)) :
    Shape.ofSchema schema = Shape.ofName name := by
  unfold Shape.ofName Shape.ofSchema
  rw [h]
  rfl

/-- Lets schemas with a listed type through if the walk finds nothing to do in them. -/
def passesOver (name : String) : Guard where
  meets schema :=
    match Assoc.find? schema typeKey with
    | some (.arr [.str listed]) => listed ≠ name || isIdle schema (Shape.ofName name)
    | _ => true
  leaves _ := true

/-- In a schema that is neither object nor array there is nothing to do. -/
theorem keepsTo_passesOver {name : String} (hobject : name ≠ "object") (harray : name ≠ "array")
    (depth : Nat) (document : Json) : KeepsTo (passesOver name) depth document := by
  have hother : Shape.ofName name = .other := by
    change (if name = "object" then Shape.object
      else if name = "array" then Shape.array else .other) = _
    rw [if_neg hobject, if_neg harray]
  refine keepsTo_of_all (fun schema => ?_) (fun _ => rfl) depth document
  dsimp only [passesOver]
  split
  · rw [hother, isIdle, Bool.or_true]
  · rfl

end Flatten

/-! ### Coupling a type with the list of it -/

/-- Whether types are the same, but that one type may be listed alone on the left. -/
def ListedAlone (name : String) (value value' : Json) : Prop :=
  value = value' ∨ value = .arr [.str name] ∧ value' = .str name

/-- A type listed alone has the same alternatives as the type. -/
theorem sameAlternatives_listedAlone (name : String) : SameAlternatives (ListedAlone name) where
  refl _ := .inl rfl
  alternatives := by
    rintro value value' (rfl | ⟨rfl, rfl⟩)
    · rfl
    · rfl

/-- Schemas that differ in whether a type is listed, and whose references lead to schemas. -/
def listing (name : String) : Coupling where
  apart := [typeKey, refKey]
  heads schema schema' := SameHeads (ListedAlone name) schema schema' ∧
    ∀ text, Assoc.find? schema refKey = some (.str text) → LeadsToSchema text

section Listing

variable {name : String} {schema schema' : Entries}

/-- Set apart are `type` and `$ref`. -/
theorem mem_apart_listing (name : String) :
    typeKey ∈ (listing name).apart ∧ refKey ∈ (listing name).apart :=
  ⟨List.mem_cons_self, List.mem_cons_of_mem _ List.mem_cons_self⟩

/-- Schemas that differ in a listed type may be inserted into, erased from and merged. -/
theorem lawful_listing (name : String) : (listing name).Lawful where
  counted := by
    have hplain : ∀ key ∈ countedKeywords, key ∉ [typeKey, refKey] := by decide
    exact hplain
  type_mem := (mem_apart_listing name).1
  ref_mem := (mem_apart_listing name).2
  null := by
    intro _ _ _ key hkey hname
    refine absurd ?_ hname
    rcases List.mem_cons.mp hkey with rfl | href
    · exact .inl rfl
    · exact .inr (List.mem_singleton.mp href)
  insert := by
    rintro schema schema' key value value' ⟨hheads, hleads⟩ hkey -
    obtain ⟨hmemType, hmemRef⟩ := mem_apart_listing name
    have htype := Coupling.not_namesType hmemType hmemRef hkey
    refine ⟨hheads.insert htype value value', fun text htext => hleads text ?_⟩
    rwa [Assoc.find?_insert_of_ne _ _ fun heq => htype ⟨rfl, .inr heq⟩] at htext
  swapErase := by
    rintro schema schema' key hnodup - ⟨hheads, hleads⟩ hkey
    obtain ⟨hmemType, hmemRef⟩ := mem_apart_listing name
    have htype := Coupling.not_namesType hmemType hmemRef hkey
    refine ⟨hheads.swapErase hnodup htype, fun text htext => hleads text ?_⟩
    rwa [Assoc.find?_swapErase_of_ne hnodup fun heq => htype ⟨rfl, .inr heq⟩] at htext
  merge := by
    rintro path target target' source source' htarget - hsource - ⟨hheads, hleads⟩
      ⟨hheads', hleads'⟩ hagree hagree'
    refine ⟨hheads.merge (sameAlternatives_listedAlone name) htarget hsource hheads' hagree
      hagree', fun text htext => ?_⟩
    rcases find?_refKey_of_merge hagree htext with hmem | hmem
    · exact hleads text ((Assoc.find?_eq_some_iff htarget).mpr hmem)
    · exact hleads' text ((Assoc.find?_eq_some_iff hsource).mpr hmem)

/-- The walk does the same with a type and with the list of it, where there is nothing to do in the
latter. -/
theorem fits_listing (name : String) : (listing name).Fits (passesOver name) where
  textRef h _ := congrArg (Option.bind · text?) h.heads.1.ref_eq
  shape := by
    intro schema schema' h hmeets _
    rcases h.heads.1.type_cases with
      ⟨hnone, hnone'⟩ | ⟨type, type', htype, htype', rfl | ⟨rfl, rfl⟩⟩
    · unfold Shape.ofSchema
      rw [hnone, hnone']
      exact .inl rfl
    · unfold Shape.ofSchema
      rw [htype, htype']
      exact .inl rfl
    · refine .inr ⟨?_, ?_⟩
      · unfold Shape.ofSchema
        rw [htype]
      · rw [Shape.ofSchema_of_type htype']
        simpa [passesOver, htype] using hmeets
  leads h htext := h.heads.2 _ (textRef?_eq_some_iff.mp htext) _
  reference := by
    intro path hpath
    refine ⟨.refl (sameAlternatives_listedAlone name) _, fun text htext => ?_⟩
    obtain rfl := Json.str.inj (Option.some.inj htext)
    exact leadsToSchema_toPointer hpath
  leaves_reference := rfl

/-- A type that is no pointer declares the same whether it is listed alone or not. -/
theorem ofSchema_listedAlone {type type' : Json} (hname : name.toList.head? ≠ some '#')
    (htype : Assoc.find? schema typeKey = some type)
    (htype' : Assoc.find? schema' typeKey = some type') (h : ListedAlone name type type')
    (path : SchemaPath) :
    DeclaredType.ofSchema schema path = DeclaredType.ofSchema schema' path := by
  unfold DeclaredType.ofSchema
  rw [htype, htype']
  rcases h with rfl | ⟨rfl, rfl⟩
  · rfl
  · change Except.ok (if name.toList.head? = some '#' then DeclaredType.reference name
      else .single name) = .ok (.single name)
    rw [if_neg hname]

/-- A type and the list of it are read as the same type. -/
theorem reads_listing (hname : name.toList.head? ≠ some '#') :
    (listing name).Reads (passesOver name) where
  below _ _ _ := rfl
  ref h _ := h.heads.1.ref_eq
  declared := by
    intro schema schema' path h _ _
    rcases h.heads.1.type_cases with ⟨hnone, hnone'⟩ | ⟨type, type', htype, htype', hlisted⟩
    · unfold DeclaredType.ofSchema
      rw [hnone, hnone']
    · rw [ofSchema_listedAlone hname htype htype' hlisted]

/-- A document whose references lead to schemas is coupled with itself. -/
theorem selfCoupled_listing {document : Json} (hwf : document.wellFormed)
    (hrefs : refersToSchemas document) : SelfCoupled (listing name) document := by
  intro place entries hstands
  refine ⟨(wellFormed_obj.mp (hstands.everywhere hwf)).1,
    ⟨.refl (sameAlternatives_listedAlone name) _, fun text htext => ?_⟩, fun key _ hapart => ?_⟩
  · exact leadsToSchema_of_mem_refs hrefs
      (mem_refs_of_mem hwf hstands (Assoc.mem_of_find? htext))
  · rcases List.mem_cons.mp hapart with rfl | href
    · exact .inl rfl
    · exact .inr (List.mem_singleton.mp href)

/-- A schema is coupled with the one whose type is listed. -/
theorem coupledSchemas_listing (hself : SelfCoupled (listing name) (.obj schema))
    (htype : Assoc.find? schema typeKey = some (.str name)) :
    CoupledSchemas (listing name) (Assoc.insert schema typeKey (.arr [.str name])) schema := by
  have hsame : CoupledSchemas (listing name) schema schema := coupled_schema_iff.mp hself.coupled
  have hcontains := (Assoc.mem_keys_iff_contains _ _).mp (Assoc.mem_keys_of_find? htype)
  have hne : typeKey ≠ refKey := by decide
  have hcounted : ∀ key ∈ switches ++ comparedKeywords, typeKey ≠ key := by decide
  refine ⟨Assoc.nodup_keys_insert hsame.nodup _ _, hsame.nodup,
    ⟨⟨?_, ?_, ?_⟩, fun text htext => ?_⟩, fun key hkey => ?_, fun key hkey => ?_,
    fun key hkey => ?_⟩
  · rw [Assoc.keys_insert, if_pos hcontains]
  · rw [Assoc.find?_insert_of_ne _ _ hne]
  · rw [Assoc.find?_insert_self, htype]
    exact .some (.inr ⟨rfl, rfl⟩)
  · rw [Assoc.find?_insert_of_ne _ _ hne] at htext
    exact hsame.heads.2 text htext
  · exact isOn_insert_of_ne _ (hcounted key (List.mem_append_left _ hkey))
  · exact Assoc.find?_insert_of_ne _ _ (hcounted key (List.mem_append_right _ hkey))
  · have hother : typeKey ≠ key := fun heq => hkey (heq ▸ List.mem_cons_self)
    rw [Assoc.find?_insert_of_ne _ _ hother]
    exact hsame.find?_cases key hkey

end Listing

/-! ### Documents -/

/-- Writing the type of a schema as a list of one changes nothing about the classes of a document,
if the type does not look like a pointer and, should it be an object or an array, the walk meets no
schema with the listed type that holds anything to be walked. -/
theorem modelsWithin_listedType {document listed : Json} {place : SchemaPath} {schema : Entries}
    {name : String} {depth : Nat} (hwf : document.wellFormed) (hrefs : refersToSchemas document)
    (hplace : isSchemaPlace .keywords place.segments)
    (hschema : document.at? place = some (.obj schema))
    (htype : Assoc.find? schema typeKey = some (.str name))
    (hname : name.toList.head? ≠ some '#')
    (hlisted : document.withEntry? place typeKey (.arr [.str name]) = some listed)
    (hkeeps : name = "object" ∨ name = "array" → KeepsTo (passesOver name) depth listed)
    (rootName : String) :
    (modelsWithin depth document rootName).toOption =
      (modelsWithin depth listed rootName).toOption := by
  have hself : SelfCoupled (listing name) document := selfCoupled_listing hwf hrefs
  have hpasses : KeepsTo (passesOver name) depth listed := by
    by_cases hwalked : name = "object" ∨ name = "array"
    · exact hkeeps hwalked
    · rw [not_or] at hwalked
      exact keepsTo_passesOver hwalked.1 hwalked.2 depth listed
  have hcoupled := coupledSchemas_listing (hself.of_descend? hschema) htype
  have hdocuments : CoupledDocuments (listing name) listed document := by
    refine coupledDocuments_of_modify (lawful_listing name) hself hplace hschema hlisted
      (modifyAt?_self hschema) rfl rfl hcoupled (.inl ?_) fun key => ?_
    · have hnil : schema ≠ [] := by
        rintro rfl
        cases htype
      rw [List.isEmpty_eq_false_iff.mpr hnil,
        List.isEmpty_eq_false_iff.mpr (Assoc.insert_ne_nil schema typeKey _)]
    · by_cases hkey : typeKey = key
      · subst hkey
        rw [Assoc.find?_insert_self, htype]
        refine .inr ⟨fun v hv => ?_, fun v hv => ?_⟩
        · exact Option.some.inj hv ▸ barren_texts [name]
        · exact Option.some.inj hv ▸ barren_of_isAtom rfl rfl
      · exact .inl ⟨Assoc.find?_insert_of_ne _ _ hkey, rfl⟩
  exact (modelsWithin_coupled (lawful_listing name) (fits_listing name) (reads_listing hname)
    hdocuments hpasses rootName).symm

/-- A document in which an object without properties is listed by a list of items, by a pattern and
by a member of a combiner, where its type is merged with another one. -/
def collection (type : Json) : Json :=
  .obj [("properties", .obj [
      ("all", .obj [(typeKey, .str "array"), ("items", .obj [(refKey, .str "#/definitions/any")])]),
      ("some", .obj [
        ("patternProperties", .obj [(".*", .obj [(refKey, .str "#/definitions/any")])]),
        ("allOf", .arr [.obj [(typeKey, .str "object")]])]),
      ("either", .obj [("oneOf", .arr [.obj [(refKey, .str "#/definitions/any")],
        .obj [(typeKey, .str "string")]])])]),
    ("definitions", .obj [("any", .obj [(typeKey, type), ("description", .str "anything")])])]

/-- The theorem at `collection`, where the type is listed by items, a pattern and a combiner. -/
theorem modelsWithin_collection :
    (collection (.str "object")).wellFormed ∧ refersToSchemas (collection (.str "object")) ∧
      KeepsTo (passesOver "object") 9 (collection (.arr [.str "object"])) ∧
      (modelsWithin 9 (collection (.str "object")) "M").isOk ∧
      (modelsWithin 9 (collection (.str "object")) "M").toOption =
        (modelsWithin 9 (collection (.arr [.str "object"])) "M").toOption := by
  have hwf : (collection (.str "object")).wellFormed := by decide +kernel
  have hrefs : refersToSchemas (collection (.str "object")) := by decide +kernel
  have hkeeps : KeepsTo (passesOver "object") 9 (collection (.arr [.str "object"])) := by
    have hok : (guardedWithin (passesOver "object") .tooDeep 9
      (collection (.arr [.str "object"]))).isOk := by decide +kernel
    exact keepsTo_of_isOk hok
  have hplace : isSchemaPlace .keywords (SchemaPath.root ++ ["definitions", "any"]).segments := by
    decide +kernel
  refine ⟨hwf, hrefs, hkeeps, by decide +kernel, ?_⟩
  exact modelsWithin_listedType hwf hrefs hplace rfl rfl (by decide) rfl (fun _ => hkeeps) "M"

/-- A document with a type that is an object with a property. -/
def holder (type : Json) : Json :=
  .obj [(typeKey, type), ("properties", .obj [("a", .obj [(typeKey, .str "string")])])]

/-- A document with a property that refers to its items. -/
def sequence (type : Json) : Json :=
  .obj [("properties", .obj [("a", .obj [(typeKey, type),
      ("items", .obj [(refKey, .str "#/definitions/s")])])]),
    ("definitions", .obj [("s", .obj [(typeKey, .str "string")])])]

/-- A document with a property that is nothing but its type. -/
def bare (type : Json) : Json :=
  .obj [("properties", .obj [("a", .obj [(typeKey, type)])])]

/-- A listed object is passed over with all its properties, the reference below a listed array is
not followed, and a text that looks like a pointer is taken for one where it is listed. -/
theorem resolveModels_listedType_ne :
    (resolveModels (holder (.str "object")) "M").toOption =
        some [("M", [("a", .primitive .string "default")])] ∧
      (resolveModels (holder (.arr [.str "object"])) "M").toOption = some [] ∧
      (resolveModels (sequence (.str "array")) "M").toOption =
        some [("M", [("a", .list (.primitive .string "default"))])] ∧
      (resolveModels (sequence (.arr [.str "array"])) "M").toOption = none ∧
      (resolveModels (bare (.str "#")) "M").toOption = none ∧
      (resolveModels (bare (.arr [.str "#"])) "M").toOption =
        some [("M", [("a", .model "M")])] := by
  refine ⟨?_, ?_, ?_, ?_, ?_, ?_⟩ <;> decide +kernel

end SchemaClasses
