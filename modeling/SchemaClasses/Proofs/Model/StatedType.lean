import SchemaClasses.Proofs.Coupling.Marked
import SchemaClasses.Proofs.Coupling.Models

/-!
# A type that goes without saying

A schema without a type is an object. Main statement (`modelsWithin_statedType`): saying so leaves
the classes of a document the same, or it has none in either form.

That is so as long as what becomes of the schema is nothing but an object. If a combiner merges it
with a schema that has another type or a reference, then the type that has been stated is one of the
alternatives, while nothing is left of one that went without saying
(`resolveModels_statedType_ne`). To follow the schema through the merges it is marked with a keyword
that the document does not have: wherever the walk meets the mark, or leaves it in place, there must
be no reference and no type but `object`.
-/

namespace SchemaClasses

open Merge Json Flatten

namespace Flatten

/-- Whether a schema has no reference and no type but `object`. -/
def isObjectSchema (schema : Entries) : Bool :=
  (Assoc.find? schema refKey).isNone &&
    (Assoc.find? schema typeKey).all fun type => type.text? = some "object"

/-- Whether a value with a mark is nothing but an object. -/
def isUnmixed (mark : String) : Json → Bool
  | .obj schema => !Assoc.contains schema mark || isObjectSchema schema
  | _ => true

/-- Lets schemas with a mark through as long as they are nothing but objects. -/
def unmixed (mark : String) : Guard where
  meets schema := isUnmixed mark (.obj schema)
  leaves value := value.everywhere (isUnmixed mark)

/-- An object schema has no reference, and no type or the type of an object. -/
theorem isObjectSchema_iff {schema : Entries} : isObjectSchema schema ↔
    Assoc.find? schema refKey = none ∧
      (Assoc.find? schema typeKey = none ∨ Assoc.find? schema typeKey = some (.str "object")) := by
  rw [isObjectSchema, Bool.and_eq_true, Option.isNone_iff_eq_none]
  refine and_congr_right fun _ => ?_
  cases Assoc.find? schema typeKey with
  | none => exact iff_of_true rfl (.inl rfl)
  | some type =>
    rw [Option.all_some, decide_eq_true_eq]
    cases type with
    | str text => simp [text?]
    | _ => simp [text?]

/-- All that an object schema declares is the type of an object. -/
theorem declaresOnly_of_isObjectSchema {schema : Entries} (h : isObjectSchema schema) :
    DeclaresOnly "object" schema := by
  obtain ⟨href, htype⟩ := isObjectSchema_iff.mp h
  refine declaresOnly_iff.mpr ⟨fun type hfind => ?_, fun ref hfind => ?_⟩
  · rcases htype with hnone | hobject
    · cases hnone.symm.trans hfind
    · obtain rfl := Option.some.inj (hobject.symm.trans hfind)
      exact fun _ hmem => List.mem_singleton.mp hmem
  · cases href.symm.trans hfind

end Flatten

/-! ### Reading schemas with and without the mark -/

section Marking

variable {stated : Bool} {mark : String} {schema schema' : Entries}

/-- Without reference a schema of this kind is read as an object, the type being stated or not. -/
theorem type_of_isUnmixed (h : (marking stated mark).heads schema schema')
    (hunmixed : isUnmixed mark (.obj schema)) :
    Assoc.find? schema refKey = Assoc.find? schema' refKey ∧
      (Assoc.find? schema typeKey = Assoc.find? schema' typeKey ∨
        Assoc.find? schema typeKey = none ∧
          Assoc.find? schema' typeKey = some (.str "object")) := by
  rcases h with h | h
  · exact ⟨h.same.ref_eq, .inl h.type_eq⟩
  have hobject : isObjectSchema schema := by
    rw [isUnmixed, Assoc.contains, h.marked] at hunmixed
    exact hunmixed
  obtain ⟨href, htype⟩ := isObjectSchema_iff.mp hobject
  obtain ⟨href', htype'⟩ := h.only (declaresOnly_of_isObjectSchema hobject)
  refine ⟨href.trans href'.symm, ?_⟩
  cases stated with
  | false => exact .inl htype'.symm
  | true =>
    rcases htype with hnone | hsame
    · exact .inr ⟨hnone, htype'⟩
    · exact .inl (hsame.trans htype'.symm)

/-- The walk does the same with marked schemas that are nothing but objects and with their
versions. -/
theorem fits_marking (stated : Bool) (hmark : mark ∉ typeKey :: refKey :: countedKeywords) :
    (marking stated mark).Fits (unmixed mark) where
  textRef h hmeets := congrArg (Option.bind · text?) (type_of_isUnmixed h.heads hmeets).1
  shape := by
    intro schema schema' h hmeets _
    unfold Shape.ofSchema
    rcases (type_of_isUnmixed h.heads hmeets).2 with heq | ⟨hnone, hobject⟩
    · rw [heq]
      exact .inl rfl
    · rw [hnone, hobject]
      exact .inl rfl
  leads h htext := (heads_proper h.heads).1.leads _ (textRef?_eq_some_iff.mp htext) _
  reference hpath := .inl (.refl (declaresProperly_toPointer hpath) (find?_mark_reference hmark))
  leaves_reference := by
    intro path
    have hmissing : Assoc.contains [(refKey, Json.str path.toPointer)] mark = false := by
      rw [Assoc.contains, find?_mark_reference hmark]
      rfl
    refine everywhere_obj.mpr ⟨?_, fun entry hentry => ?_⟩
    · change (!Assoc.contains [(refKey, Json.str path.toPointer)] mark || _) = true
      rw [hmissing]
      rfl
    · obtain rfl := List.mem_singleton.mp hentry
      rfl

/-- A marked schema and a version of it are read as the same type. -/
theorem reads_marking (stated : Bool) (mark : String) :
    (marking stated mark).Reads (unmixed mark) where
  below hleaves := (everywhere_obj.mp hleaves).2
  ref h hleaves := (type_of_isUnmixed h.heads (everywhere_obj.mp hleaves).1).1
  declared := by
    intro schema schema' path h hleaves _
    unfold DeclaredType.ofSchema
    rcases (type_of_isUnmixed h.heads (everywhere_obj.mp hleaves).1).2 with heq | ⟨hnone, hobject⟩
    · rw [heq]
    · rw [hnone, hobject]

end Marking

/-! ### Documents -/

namespace Json

/-- Whether a value does not have a keyword. -/
def lacks (keyword : String) : Json → Bool
  | obj schema => !Assoc.contains schema keyword
  | _ => true

/-- Whether a type in an object lists no lists, and a reference is neither a list nor the name
`object`. -/
def declaresProperly : Json → Bool
  | obj schema =>
    ((Assoc.find? schema typeKey).all fun type => (alternatives type).all fun alternative =>
      !isArray alternative) &&
    (Assoc.find? schema refKey).all fun ref => !isArray ref && ref.text? ≠ some "object"
  | _ => true

/-- What is no array differs from each array. -/
theorem ne_arr_of_not_isArray {value : Json} (h : (!isArray value) = true) (items : List Json) :
    value ≠ .arr items := by
  rintro rfl
  cases h

end Json

section Documents

variable {stated : Bool} {mark : String} {document : Json} {schema version : Entries}

/-- In a document whose references lead to schemas, schemas that pass the test declare properly. -/
theorem declaresProperly_of_refs (hwf : document.wellFormed) (hrefs : refersToSchemas document)
    {place : List String} (hstands : StandsAt document place (.obj schema))
    (h : Json.declaresProperly (.obj schema)) : DeclaresProperly schema := by
  rw [Json.declaresProperly, Bool.and_eq_true] at h
  obtain ⟨htypes, hothers⟩ := h
  refine ⟨fun type htype alternative hmem => ?_, fun items href => ?_, fun href => ?_,
    fun text href => ?_⟩
  · rw [htype, Option.all_some, List.all_eq_true] at htypes
    exact ne_arr_of_not_isArray (htypes alternative hmem)
  · rw [href] at hothers
    cases hothers
  · rw [href] at hothers
    cases hothers
  · exact leadsToSchema_of_mem_refs hrefs (mem_refs_of_mem hwf hstands (Assoc.mem_of_find? href))

/-- A document without the mark that declares properly is coupled with itself. -/
theorem selfCoupled_marking (hwf : document.wellFormed) (hrefs : refersToSchemas document)
    (hproper : document.everywhere Json.declaresProperly)
    (hfresh : document.everywhere (lacks mark)) : SelfCoupled (marking stated mark) document := by
  intro place entries hstands
  have habsent : Assoc.find? entries mark = none := by
    have hlacks := test_of_everywhere (hstands.everywhere hfresh)
    exact find?_of_not_contains hlacks
  have hdeclares := declaresProperly_of_refs hwf hrefs hstands
    (test_of_everywhere (hstands.everywhere hproper))
  refine ⟨(wellFormed_obj.mp (hstands.everywhere hwf)).1, .inl (.refl hdeclares habsent),
    fun key hkey hapart => ?_⟩
  rcases List.mem_cons.mp hapart with rfl | hapart
  · exact .inl rfl
  rcases List.mem_cons.mp hapart with rfl | hapart
  · exact .inr rfl
  · obtain rfl := List.mem_singleton.mp hapart
    exact absurd hkey (Assoc.find?_eq_none_iff.mp habsent)

/-- What it takes to be a version of a schema in which the type is stated, or is not. -/
structure IsVersion (stated : Bool) (schema version : Entries) : Prop where
  /-- No keyword is repeated. -/
  nodup : (Assoc.keys version).Nodup
  /-- The other keywords are those of the schema. -/
  other : ∀ key, key ≠ typeKey → Assoc.find? version key = Assoc.find? schema key
  /-- The type is stated, or is not. -/
  type : Assoc.find? version typeKey = if stated then some (.str "object") else none

/-- A schema without type is a version of itself in which the type is not stated. -/
theorem isVersion_self (hnodup : (Assoc.keys schema).Nodup)
    (htype : Assoc.find? schema typeKey = none) : IsVersion false schema schema :=
  ⟨hnodup, fun _ _ => rfl, htype⟩

/-- With the type added, it is one in which the type is stated. -/
theorem isVersion_insert (hnodup : (Assoc.keys schema).Nodup) :
    IsVersion true schema (Assoc.insert schema typeKey (.str "object")) :=
  ⟨Assoc.nodup_keys_insert hnodup _ _,
    fun _ hne => Assoc.find?_insert_of_ne _ _ hne.symm, Assoc.find?_insert_self _ _ _⟩

/-- A version declares properly if it has no reference. -/
theorem IsVersion.proper (h : IsVersion stated schema version)
    (href : Assoc.find? version refKey = none) : DeclaresProperly version := by
  refine ⟨fun type hfind => ?_, fun items hfind => ?_, fun hfind => ?_, fun text hfind => ?_⟩
  · rw [h.type] at hfind
    split_ifs at hfind
    obtain rfl := Option.some.inj hfind
    intro alternative hmem items heq
    cases heq.symm.trans (List.mem_singleton.mp hmem)
  · cases href.symm.trans hfind
  · cases href.symm.trans hfind
  · cases href.symm.trans hfind

/-- The marked schema is coupled with either version. -/
theorem coupledSchemas_marking (hself : SelfCoupled (marking stated mark) (.obj schema))
    (hmark : mark ∉ typeKey :: refKey :: countedKeywords)
    (htype : Assoc.find? schema typeKey = none) (href : Assoc.find? schema refKey = none)
    (hversion : IsVersion stated schema version) :
    CoupledSchemas (marking stated mark) (Assoc.insert schema mark .null) version := by
  have hsame : CoupledSchemas (marking stated mark) schema schema :=
    coupled_schema_iff.mp hself.coupled
  have habsent : Assoc.find? schema mark = none := heads_absent hsame.heads
  have hne : ∀ {key}, key ∈ typeKey :: refKey :: countedKeywords → mark ≠ key :=
    fun hkey heq => hmark (heq ▸ hkey)
  have hneType : mark ≠ typeKey := hne List.mem_cons_self
  have hneRef : mark ≠ refKey := hne (List.mem_cons_of_mem _ List.mem_cons_self)
  have hleft : ∀ {key}, mark ≠ key →
      Assoc.find? (Assoc.insert schema mark .null) key = Assoc.find? schema key :=
    fun hne => Assoc.find?_insert_of_ne _ _ hne
  have hcounted : ∀ key ∈ switches ++ comparedKeywords, key ≠ typeKey ∧
      key ∈ typeKey :: refKey :: countedKeywords := by decide
  have hcountedEq : ∀ key ∈ switches ++ comparedKeywords,
      Assoc.find? (Assoc.insert schema mark .null) key = Assoc.find? version key := by
    intro key hkey
    rw [hleft (hne (hcounted key hkey).2), hversion.other key (hcounted key hkey).1]
  have hproper : DeclaresProperly schema := (heads_proper hsame.heads).1
  have hversionRef : Assoc.find? version refKey = none := by
    rw [hversion.other refKey (by decide), href]
  refine ⟨Assoc.nodup_keys_insert hsame.nodup _ _, hversion.nodup, .inr ⟨?_, ?_, ?_, ?_, ?_⟩,
    fun key hkey => ?_, fun key hkey => ?_, fun key hkey => ?_⟩
  · exact Assoc.find?_insert_self _ _ _
  · rw [hversion.other mark hneType, habsent]
  · exact hproper.congr (hleft hneType) (hleft hneRef)
  · exact hversion.proper hversionRef
  · intro _
    rw [hversion.type, hleft hneType, htype]
    exact ⟨hversionRef, rfl⟩
  · unfold isOn
    rw [hcountedEq key (List.mem_append_left _ hkey)]
  · exact hcountedEq key (List.mem_append_right _ hkey)
  · have hother : key ≠ typeKey ∧ key ≠ mark := by
      constructor
      · rintro rfl
        exact hkey (mem_apart_marking stated mark).1
      · rintro rfl
        exact hkey (mem_apart_marking stated _).2.2
    rw [hleft hother.2.symm, hversion.other key hother.1]
    exact hsame.find?_cases key hkey

/-- The marked document is coupled with the one that has the version in place of the schema. -/
theorem coupledDocuments_marking {marked right : Json} {place : SchemaPath}
    {change : Json → Option Json} (hself : SelfCoupled (marking stated mark) document)
    (hplace : isSchemaPlace .keywords place.segments)
    (hschema : document.at? place = some (.obj schema))
    (hmark : mark ∉ typeKey :: refKey :: countedKeywords)
    (htype : Assoc.find? schema typeKey = none) (href : Assoc.find? schema refKey = none)
    (hmarked : document.withEntry? place mark .null = some marked)
    (hright : document.modifyAt? place change = some right)
    (hchange : change (.obj schema) = some (.obj version))
    (hversion : IsVersion stated schema version)
    (hempty : version ≠ [] ∨ ∀ keyword ∈ switches, place.segments.getLast? ≠ some keyword) :
    CoupledDocuments (marking stated mark) marked right := by
  have hcoupled := coupledSchemas_marking (hself.of_descend? hschema) hmark htype href hversion
  refine coupledDocuments_of_modify (lawful_marking stated hmark) hself hplace hschema hmarked
    hright rfl hchange hcoupled (hempty.imp_left fun hne => ?_) fun key => ?_
  · rw [List.isEmpty_eq_false_iff.mpr hne,
      List.isEmpty_eq_false_iff.mpr (Assoc.insert_ne_nil schema mark _)]
  · by_cases hkey : key = typeKey
    · subst hkey
      have hneType : mark ≠ typeKey := fun heq => hmark (heq ▸ List.mem_cons_self)
      rw [Assoc.find?_insert_of_ne _ _ hneType, htype, hversion.type]
      refine .inr ⟨fun v hv => (by cases hv), fun v hv => ?_⟩
      split_ifs at hv
      exact Option.some.inj hv ▸ barren_of_isAtom rfl rfl
    · by_cases hkeyMark : mark = key
      · subst hkeyMark
        rw [Assoc.find?_insert_self, heads_absent hcoupled.heads]
        refine .inr ⟨fun v hv => ?_, fun v hv => (by cases hv)⟩
        exact Option.some.inj hv ▸ barren_of_isAtom rfl rfl
      · exact .inl ⟨Assoc.find?_insert_of_ne _ _ hkeyMark, hversion.other key hkey⟩

end Documents

/-- Stating the type of an object schema changes nothing about the classes of a document, if
whatever the schema is merged with has no reference and no type but `object`. -/
theorem modelsWithin_statedType {document marked stated : Json} {place : SchemaPath}
    {schema : Entries} {mark : String} {depth : Nat} (hwf : document.wellFormed)
    (hrefs : refersToSchemas document) (hproper : document.everywhere Json.declaresProperly)
    (hplace : isSchemaPlace .keywords place.segments)
    (hschema : document.at? place = some (.obj schema))
    (htype : Assoc.find? schema typeKey = none) (href : Assoc.find? schema refKey = none)
    (hempty : schema ≠ [] ∨ ∀ keyword ∈ switches, place.segments.getLast? ≠ some keyword)
    (hstated : document.withEntry? place typeKey (.str "object") = some stated)
    (hmark : mark ∉ typeKey :: refKey :: countedKeywords)
    (hfresh : document.everywhere (lacks mark))
    (hmarked : document.withEntry? place mark .null = some marked)
    (hkeeps : KeepsTo (unmixed mark) depth marked) (rootName : String) :
    (modelsWithin depth document rootName).toOption =
      (modelsWithin depth stated rootName).toOption := by
  have hself : ∀ stated, SelfCoupled (marking stated mark) document :=
    fun _ => selfCoupled_marking hwf hrefs hproper hfresh
  have hnodup : (Assoc.keys schema).Nodup := by
    obtain ⟨_, hstands⟩ := exists_standsAt_of_descend? hschema
    exact (wellFormed_obj.mp (hstands.everywhere hwf)).1
  -- the document as it is, and the one with the type, against the one with the mark
  have hsilent : CoupledDocuments (marking false mark) marked document :=
    coupledDocuments_marking (hself false) hplace hschema hmark htype href hmarked
      (modifyAt?_self hschema) rfl (isVersion_self hnodup htype) hempty
  have hsaid : CoupledDocuments (marking true mark) marked stated :=
    coupledDocuments_marking (hself true) hplace hschema hmark htype href hmarked hstated rfl
      (isVersion_insert hnodup) (.inl (Assoc.insert_ne_nil _ _ _))
  have hclasses : ∀ {stated right}, CoupledDocuments (marking stated mark) marked right →
      (modelsWithin depth marked rootName).toOption =
        (modelsWithin depth right rootName).toOption := fun hdocuments =>
    modelsWithin_coupled (lawful_marking _ hmark) (fits_marking _ hmark) (reads_marking _ mark)
      hdocuments hkeeps rootName
  exact (hclasses hsilent).symm.trans (hclasses hsaid)

/-- The type that is stated. -/
def statedObject : Entries :=
  [(typeKey, .str "object")]

/-- A document in which a schema is merged with other objects and is referred to. -/
def toolbox (extra : Entries) : Json :=
  .obj [("properties", .obj [
    ("tool", .obj (("oneOf", .arr [
        .obj [(typeKey, .str "object"), ("patternProperties", .obj [
          (".*", .obj [(typeKey, .str "string")])])],
        .obj [("description", .str "any tool")]]) :: extra)),
    ("tools", .obj [(typeKey, .str "array"), ("items", .obj [(refKey, .str "#/properties/tool")])]),
    ("other", .obj [("anyOf", .arr [.obj [(typeKey, .str "string")],
      .obj [(typeKey, .str "integer")]])])])]

/-- The theorem at `toolbox`, where the schema is merged and referred to. -/
theorem modelsWithin_toolbox :
    (toolbox []).wellFormed ∧ refersToSchemas (toolbox []) ∧
      (toolbox []).everywhere Json.declaresProperly ∧ (toolbox []).everywhere (lacks "mark") ∧
      KeepsTo (unmixed "mark") 9 (toolbox [("mark", .null)]) ∧
      (modelsWithin 9 (toolbox []) "M").isOk ∧
      (modelsWithin 9 (toolbox []) "M").toOption =
        (modelsWithin 9 (toolbox statedObject) "M").toOption := by
  have hwf : (toolbox []).wellFormed := by decide +kernel
  have hrefs : refersToSchemas (toolbox []) := by decide +kernel
  have hproper : (toolbox []).everywhere Json.declaresProperly := by decide +kernel
  have hfresh : (toolbox []).everywhere (lacks "mark") := by decide +kernel
  have hkeeps : KeepsTo (unmixed "mark") 9 (toolbox [("mark", .null)]) := by
    have hok : (guardedWithin (unmixed "mark") .tooDeep 9 (toolbox [("mark", .null)])).isOk := by
      decide +kernel
    exact keepsTo_of_isOk hok
  have hplace : isSchemaPlace .keywords (SchemaPath.root ++ ["properties", "tool"]).segments := by
    decide +kernel
  refine ⟨hwf, hrefs, hproper, hfresh, hkeeps, by decide +kernel, ?_⟩
  exact modelsWithin_statedType hwf hrefs hproper hplace rfl rfl rfl (.inl (List.cons_ne_nil _ _))
    rfl (by decide) hfresh rfl hkeeps "M"

/-- A document with a property that is merged with a reference. -/
def extension (extra : Entries) : Json :=
  .obj [("properties", .obj [
      ("x", .obj (("allOf", .arr [.obj [(refKey, .str "#/definitions/A")]]) :: extra))]),
    ("definitions", .obj [("A", .obj [("properties", .obj [])])])]

/-- A document with a property that is merged with a text. -/
def choice (extra : Entries) : Json :=
  .obj [("properties", .obj [("x", .obj [("oneOf", .arr [
    .obj (("description", .str "anything") :: extra), .obj [(typeKey, .str "string")]])])])]

/-- A document with a property that refers to the schema of all others. -/
def remainder (extra : Entries) : Json :=
  .obj [("properties", .obj [("x", .obj [(refKey, .str "#/additionalProperties")])]),
    ("additionalProperties", .obj extra)]

/-- A document that takes a table of schemas for a schema, next to the schema that has it. -/
def misread (table : Entries) : Json :=
  .obj [("properties", .obj [("x", .obj [(refKey, .str "#/definitions/A/properties")]),
      ("y", .obj [(refKey, .str "#/definitions/A")])]),
    ("definitions", .obj [("A", .obj [("properties", .obj table)])])]

/-- A document with a property that is merged with two schemas, and with objects in the end. -/
def combined (first second extra : Entries) : Json :=
  .obj [("properties", .obj [("x", .obj (("allOf", .arr [.obj first, .obj second,
    .obj [(typeKey, .str "object")]]) :: extra))])]

/-- A list of a list of types. -/
def nestedTypes : Json :=
  .arr [.arr [.str "object"]]

/-- A type that is stated is one of the alternatives to a reference or another type, an empty schema
with a type is switched on, in a table, and in a schema that is taken for a table, it is one more
name, and a list in a list of types is taken apart only as long as there is no other type. -/
theorem resolveModels_statedType_ne :
    (resolveModels (extension []) "M").toOption = some [("M", [("x", .model "A")]), ("A", [])] ∧
      (resolveModels (extension statedObject) "M").toOption =
        some [("M", [("x", .multiple ["object", "#/definitions/A"])]), ("A", [])] ∧
      (resolveModels (choice []) "M").toOption =
        some [("M", [("x", .primitive .string "default")])] ∧
      (resolveModels (choice statedObject) "M").toOption =
        some [("M", [("x", .multiple ["object", "string"])])] ∧
      (resolveModels (remainder []) "M").isOk ∧
      ¬(resolveModels (remainder statedObject) "M").isOk ∧
      (resolveModels (misread []) "M").isOk ∧
      ¬(resolveModels (misread statedObject) "M").isOk ∧
      (resolveModels (misread [("properties", .obj [])]) "M").isOk ∧
      ¬(resolveModels (misread [("properties", .obj statedObject)]) "M").isOk ∧
      (resolveModels (combined [(typeKey, nestedTypes)] [(typeKey, nestedTypes)] []) "M").isOk ∧
      ¬(resolveModels (combined [(typeKey, nestedTypes)] [(typeKey, nestedTypes)]
        statedObject) "M").isOk ∧
      (resolveModels (combined [(typeKey, .arr [])] [(refKey, nestedTypes)] []) "M").isOk ∧
      ¬(resolveModels (combined [(typeKey, .arr [])] [(refKey, nestedTypes)]
        statedObject) "M").isOk := by
  refine ⟨?_, ?_, ?_, ?_, ?_, ?_, ?_, ?_, ?_, ?_, ?_, ?_, ?_, ?_⟩ <;> decide +kernel

end SchemaClasses
