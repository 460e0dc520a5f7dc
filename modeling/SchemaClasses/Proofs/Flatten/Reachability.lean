import Mathlib.Logic.Relation
import SchemaClasses.Flatten.Walk
import SchemaClasses.Proofs.Json.Places

/-!
# Flattening without a walk

What flattening makes of a document without combiners can be said without a walk. `Step` leads from
the place of a schema to those of the schemas that it consists of or refers to. `IsClass` says
which places hold object schemas with properties. `Normal` is what becomes of the schema at a place
once it is known which places are listed: the final schema behind its references, as a reference if
that is listed, and otherwise with what it consists of in normal form.

Nothing of this depends on an order or a state, and there is at most one normal form
(`Normal.unique`).
-/

namespace SchemaClasses.Flatten

/-! ### Schemas -/

/-- The text of the `$ref` of a schema, if it is one. -/
def textRef? (node : Entries) : Option String :=
  (Assoc.find? node refKey).bind Json.text?

/-- A schema has a text for its `$ref` if that text stands under the key. -/
theorem textRef?_eq_some_iff {node : Entries} {text : String} :
    textRef? node = some text ↔ Assoc.find? node refKey = some (.str text) := by
  rw [textRef?, Option.bind_eq_some_iff]
  constructor
  · rintro ⟨value, hvalue, htext⟩
    cases value with
    | str other =>
      rw [hvalue]
      exact congrArg (some ∘ Json.str) (Option.some.inj htext)
    | _ => cases htext
  · exact fun h => ⟨_, h, rfl⟩

/-- A schema has no text for its `$ref` if no text stands under the key. -/
theorem textRef?_eq_none_iff {node : Entries} :
    textRef? node = none ↔ ∀ text, Assoc.find? node refKey ≠ some (.str text) := by
  rw [Option.eq_none_iff_forall_ne_some]
  exact forall_congr' fun text => not_congr textRef?_eq_some_iff

/-- The schema that a text refers to. -/
def referent? (document : Json) (text : String) : Option Json :=
  (SchemaPath.ofPointer text).toOption.bind document.at?

/-- A pointer that can be read refers to the schema at its place. -/
theorem referent?_of_ofPointer {document : Json} {text : String} {path : SchemaPath}
    (h : SchemaPath.ofPointer text = .ok path) : referent? document text = document.at? path := by
  rw [referent?, h]
  rfl

/-- Whether a schema has no type or is an object by its type. -/
def HasObjectType (node : Entries) : Prop :=
  Assoc.find? node typeKey = none ∨ Assoc.find? node typeKey = some (.str "object")

/-- Whether a schema is an array by its type. -/
def HasArrayType (node : Entries) : Prop :=
  Assoc.find? node typeKey = some (.str "array")

/-- An object schema is no array. -/
theorem not_hasArrayType {node : Entries} (h : HasObjectType node) : ¬HasArrayType node := by
  intro harray
  rcases h with hnone | hobject
  · cases hnone.symm.trans harray
  · have hname := Json.str.inj (Option.some.inj (hobject.symm.trans harray))
    exact absurd hname (by decide)

/-- A schema has the shape of an object if it has no type or an object type. -/
theorem ofSchema_eq_object {node : Entries} :
    Shape.ofSchema node = .object ↔ HasObjectType node := by
  unfold Shape.ofSchema HasObjectType
  split
  · rename_i hnone
    simp [hnone]
  · rename_i name htype
    simp only [htype, reduceCtorEq, Option.some.injEq, Json.str.injEq, false_or]
    split_ifs <;> simp_all
  · rename_i value hvalue htype
    have hother : ∀ text, value ≠ .str text := hvalue
    simp [htype, hother]

/-- A schema has the shape of an array if it has an array type. -/
theorem ofSchema_eq_array {node : Entries} :
    Shape.ofSchema node = .array ↔ HasArrayType node := by
  unfold Shape.ofSchema HasArrayType
  split
  · rename_i hnone
    simp [hnone]
  · rename_i name htype
    simp only [htype, Option.some.injEq, Json.str.injEq]
    split_ifs <;> simp_all
  · rename_i value hvalue htype
    have hother : ∀ text, value ≠ .str text := hvalue
    simp [htype, hother]

/-! ### Steps -/

/-- Below an object stand the values of its entries. -/
theorem at?_child {document : Json} {path : SchemaPath} {node : Entries}
    (h : document.at? path = some (.obj node)) (key : String) :
    document.at? (path.child key) = Assoc.find? node key := by
  rw [Json.at?] at h
  rw [Json.at?, SchemaPath.segments_child, Json.descend?_append, h]
  simp [Json.descend?, Json.step?]

/-- Below a table of members stand the members. -/
theorem at?_entry {document : Json} {path : SchemaPath} {node members : Entries}
    (h : document.at? path = some (.obj node)) {keyword : String}
    (hmembers : Assoc.find? node keyword = some (.obj members)) (name : String) :
    document.at? (path ++ [keyword, name]) = Assoc.find? members name := by
  rw [SchemaPath.append_pair, at?_child ((at?_child h keyword).trans hmembers)]

/-- A schema in a table stands below the keyword of the table, under its name. -/
theorem at?_of_mem_entry {document : Json} (hwf : document.wellFormed) {path : SchemaPath}
    {node members : Entries} (h : document.at? path = some (.obj node)) {keyword : String}
    (hmembers : Assoc.find? node keyword = some (.obj members)) {entry : String × Json}
    (hentry : entry ∈ members) : document.at? (path ++ [keyword, entry.1]) = some entry.2 := by
  have htable := (at?_child h keyword).trans hmembers
  obtain ⟨hnodup, -⟩ := Json.wellFormed_obj.mp (Json.wellFormed_of_descend? htable hwf)
  rw [at?_entry h hmembers, (Assoc.find?_eq_some_iff hnodup).mpr hentry]

/-- Below an array stand its items. -/
theorem at?_item {document : Json} {path : SchemaPath} {items : List Json}
    (h : document.at? path = some (.arr items)) {index : Nat} (hindex : index < 2 ^ 64) :
    document.at? (path.child (SchemaPath.ofIndex index)) = items[index]? := by
  rw [Json.at?] at h
  rw [Json.at?, SchemaPath.segments_child, Json.descend?_append, h]
  simp [Json.descend?, Json.step?, arrayIndex?_ofIndex hindex]

variable {document : Json}

/-- One step of the walk: from the place of a schema to the place of a schema that it consists of
or refers to. -/
inductive Step (document : Json) : SchemaPath → SchemaPath → Prop where
  /-- To the target of the reference. -/
  | ref {path target : SchemaPath} {node : Entries} {text : String}
      (hnode : document.at? path = some (.obj node)) (htext : textRef? node = some text)
      (htarget : SchemaPath.ofPointer text = .ok target) : Step document path target
  /-- To a property. -/
  | property {path : SchemaPath} {node members : Entries} {name : String}
      (hnode : document.at? path = some (.obj node)) (hplain : textRef? node = none)
      (hobject : HasObjectType node)
      (hmembers : Assoc.find? node "properties" = some (.obj members))
      (hname : name ∈ Assoc.keys members) : Step document path (path ++ ["properties", name])
  /-- To the schema of a pattern, if there are no properties. -/
  | pattern {path : SchemaPath} {node members : Entries} {name : String}
      (hnode : document.at? path = some (.obj node)) (hplain : textRef? node = none)
      (hobject : HasObjectType node) (hnone : Assoc.find? node "properties" = none)
      (hmembers : Assoc.find? node "patternProperties" = some (.obj members))
      (hname : name ∈ Assoc.keys members) :
      Step document path (path ++ ["patternProperties", name])
  /-- To the items of an array. -/
  | items {path : SchemaPath} {node : Entries} {value : Json}
      (hnode : document.at? path = some (.obj node)) (hplain : textRef? node = none)
      (harray : HasArrayType node) (hitems : Assoc.find? node "items" = some value) :
      Step document path (path.child "items")

/-- Whether a place is reached from another one. -/
abbrev Reaches (document : Json) : SchemaPath → SchemaPath → Prop :=
  Relation.ReflTransGen (Step document)

/-- Whether a place holds an object schema with properties and without reference. -/
def IsClass (document : Json) (path : SchemaPath) : Prop :=
  ∃ node, document.at? path = some (.obj node) ∧ textRef? node = none ∧ HasObjectType node ∧
    (Assoc.find? node "properties").isSome

/-! ### Normal forms -/

/-- What becomes of the schema at a place once some places are listed. -/
inductive Normal (document : Json) (listed : SchemaPath → Prop) : SchemaPath → Json → Prop where
  /-- A reference becomes what its target becomes. -/
  | ref {path target : SchemaPath} {node : Entries} {text : String} {value : Json}
      (hnode : document.at? path = some (.obj node)) (htext : textRef? node = some text)
      (htarget : SchemaPath.ofPointer text = .ok target)
      (hvalue : Normal document listed target value) : Normal document listed path value
  /-- A listed schema becomes a reference. -/
  | canonical {path : SchemaPath} {node : Entries}
      (hnode : document.at? path = some (.obj node)) (hplain : textRef? node = none)
      (hlisted : listed path) : Normal document listed path (Reference.canonical path).toSchema
  /-- An array keeps its keywords, its items in normal form. -/
  | items {path : SchemaPath} {node : Entries} {items value : Json}
      (hnode : document.at? path = some (.obj node)) (hplain : textRef? node = none)
      (hnew : ¬listed path) (harray : HasArrayType node)
      (hitems : Assoc.find? node "items" = some items)
      (hvalue : Normal document listed (path.child "items") value) :
      Normal document listed path (.obj (Assoc.insert node "items" value))
  /-- An object keeps its keywords, the schemas of its patterns in normal form. -/
  | patterns {path : SchemaPath} {node members flat : Entries}
      (hnode : document.at? path = some (.obj node)) (hplain : textRef? node = none)
      (hnew : ¬listed path) (hobject : HasObjectType node)
      (hmembers : Assoc.find? node "patternProperties" = some (.obj members))
      (hkeys : Assoc.keys flat = Assoc.keys members)
      (hvalues : ∀ name value, (name, value) ∈ flat →
        Normal document listed (path ++ ["patternProperties", name]) value) :
      Normal document listed path (.obj (Assoc.insert node "patternProperties" (.obj flat)))
  /-- Any other schema stays the same. -/
  | same {path : SchemaPath} {node : Entries}
      (hnode : document.at? path = some (.obj node)) (hplain : textRef? node = none)
      (hnew : ¬listed path) (hitems : HasArrayType node → Assoc.find? node "items" = none)
      (hpatterns : HasObjectType node → Assoc.find? node "patternProperties" = none) :
      Normal document listed path (.obj node)
  /-- A truth value stays the same. -/
  | bool {path : SchemaPath} {value : Bool} (hvalue : document.at? path = some (.bool value)) :
      Normal document listed path (.bool value)

/-- Whether an entry is the class at a place with each property in normal form. -/
def IsEntry (document : Json) (listed : SchemaPath → Prop) (path : SchemaPath) (entry : Entries) :
    Prop :=
  ∃ node members flat, document.at? path = some (.obj node) ∧
    Assoc.find? node "properties" = some (.obj members) ∧
    entry = Assoc.insert node "properties" (.obj flat) ∧
    Assoc.keys flat = Assoc.keys members ∧
    ∀ name value, (name, value) ∈ flat →
      Normal document listed (path ++ ["properties", name]) value

variable {listed listed' : SchemaPath → Prop} {path : SchemaPath} {value other : Json}

/-- A place holds one schema only. -/
theorem node_unique {node node' : Entries} (h : document.at? path = some (.obj node))
    (h' : document.at? path = some (.obj node')) : node = node' :=
  Json.obj.inj (Option.some.inj (h.symm.trans h'))

/-- The steps from a schema, by what it is. -/
theorem step_cases {node : Entries} (hnode : document.at? path = some (.obj node))
    {next : SchemaPath} (h : Step document path next) :
    (∃ text, textRef? node = some text ∧ SchemaPath.ofPointer text = .ok next) ∨
    (textRef? node = none ∧ HasObjectType node ∧ ∃ members name,
      Assoc.find? node "properties" = some (.obj members) ∧ name ∈ Assoc.keys members ∧
        next = path ++ ["properties", name]) ∨
    (textRef? node = none ∧ HasObjectType node ∧ Assoc.find? node "properties" = none ∧
      ∃ members name, Assoc.find? node "patternProperties" = some (.obj members) ∧
        name ∈ Assoc.keys members ∧ next = path ++ ["patternProperties", name]) ∨
    (textRef? node = none ∧ HasArrayType node ∧ ∃ items,
      Assoc.find? node "items" = some items ∧ next = path.child "items") := by
  cases h with
  | ref hnode' htext htarget =>
    obtain rfl := node_unique hnode hnode'
    exact .inl ⟨_, htext, htarget⟩
  | property hnode' hplain hobject hmembers hname =>
    obtain rfl := node_unique hnode hnode'
    exact .inr (.inl ⟨hplain, hobject, _, _, hmembers, hname, rfl⟩)
  | pattern hnode' hplain hobject hnone hmembers hname =>
    obtain rfl := node_unique hnode hnode'
    exact .inr (.inr (.inl ⟨hplain, hobject, hnone, _, _, hmembers, hname, rfl⟩))
  | items hnode' hplain harray hitems =>
    obtain rfl := node_unique hnode hnode'
    exact .inr (.inr (.inr ⟨hplain, harray, _, hitems, rfl⟩))

section Steps

variable {node members : Entries} {next : SchemaPath}

/-- A reference has no step but the one to its target. -/
theorem Step.of_ref (h : Step document path next) (hnode : document.at? path = some (.obj node))
    {text : String} (htext : textRef? node = some text) : SchemaPath.ofPointer text = .ok next := by
  rcases step_cases hnode h with ⟨other, hother, htarget⟩ | ⟨hplain, -⟩ | ⟨hplain, -⟩ | ⟨hplain, -⟩
  · obtain rfl := Option.some.inj (htext.symm.trans hother)
    exact htarget
  · cases htext.symm.trans hplain
  · cases htext.symm.trans hplain
  · cases htext.symm.trans hplain

/-- From an array the walk steps to its items. -/
theorem Step.of_array (h : Step document path next) (hnode : document.at? path = some (.obj node))
    (hplain : textRef? node = none) (harray : HasArrayType node) :
    ∃ items, Assoc.find? node "items" = some items ∧ next = path.child "items" := by
  rcases step_cases hnode h with ⟨text, htext, -⟩ | ⟨-, hobject, -⟩ | ⟨-, hobject, -⟩ |
    ⟨-, -, hitems⟩
  · cases hplain.symm.trans htext
  · exact absurd harray (not_hasArrayType hobject)
  · exact absurd harray (not_hasArrayType hobject)
  · exact hitems

/-- From an object with properties it steps to one of them. -/
theorem Step.of_properties (h : Step document path next)
    (hnode : document.at? path = some (.obj node)) (hplain : textRef? node = none)
    (hobject : HasObjectType node)
    (hproperties : Assoc.find? node "properties" = some (.obj members)) :
    ∃ name ∈ Assoc.keys members, next = path ++ ["properties", name] := by
  rcases step_cases hnode h with ⟨text, htext, -⟩ | ⟨-, -, others, name, hothers, hname, hnext⟩ |
    ⟨-, -, hnone, -⟩ | ⟨-, harray, -⟩
  · cases hplain.symm.trans htext
  · obtain rfl := Json.obj.inj (Option.some.inj (hproperties.symm.trans hothers))
    exact ⟨name, hname, hnext⟩
  · cases hproperties.symm.trans hnone
  · exact absurd harray (not_hasArrayType hobject)

/-- From an object with patterns, and without properties, it steps to the schema of a pattern. -/
theorem Step.of_patterns (h : Step document path next)
    (hnode : document.at? path = some (.obj node)) (hplain : textRef? node = none)
    (hobject : HasObjectType node) (hnone : Assoc.find? node "properties" = none)
    (hpatterns : Assoc.find? node "patternProperties" = some (.obj members)) :
    ∃ name ∈ Assoc.keys members, next = path ++ ["patternProperties", name] := by
  rcases step_cases hnode h with ⟨text, htext, -⟩ | ⟨-, -, _, _, hproperties, -⟩ |
    ⟨-, -, -, others, name, hothers, hname, hnext⟩ | ⟨-, harray, -⟩
  · cases hplain.symm.trans htext
  · cases hnone.symm.trans hproperties
  · obtain rfl := Json.obj.inj (Option.some.inj (hpatterns.symm.trans hothers))
    exact ⟨name, hname, hnext⟩
  · exact absurd harray (not_hasArrayType hobject)

/-- From an object with neither properties nor patterns the walk goes no further. -/
theorem not_step_of_bare (hnode : document.at? path = some (.obj node))
    (hplain : textRef? node = none) (hobject : HasObjectType node)
    (hnone : Assoc.find? node "properties" = none)
    (hnone' : Assoc.find? node "patternProperties" = none) : ¬Step document path next := by
  intro h
  rcases step_cases hnode h with ⟨text, htext, -⟩ | ⟨-, -, _, _, hproperties, -⟩ |
    ⟨-, -, -, _, _, hpatterns, -⟩ | ⟨-, harray, -⟩
  · cases hplain.symm.trans htext
  · cases hnone.symm.trans hproperties
  · cases hnone'.symm.trans hpatterns
  · exact absurd harray (not_hasArrayType hobject)

/-- From a schema that is neither an object nor an array the walk goes no further. -/
theorem not_step_of_other (hnode : document.at? path = some (.obj node))
    (hplain : textRef? node = none) (hother : Shape.ofSchema node = .other) :
    ¬Step document path next := by
  intro h
  rcases step_cases hnode h with ⟨text, htext, -⟩ | ⟨-, hobject, -⟩ | ⟨-, hobject, -⟩ |
    ⟨-, harray, -⟩
  · cases hplain.symm.trans htext
  · cases (ofSchema_eq_object.mpr hobject).symm.trans hother
  · cases (ofSchema_eq_object.mpr hobject).symm.trans hother
  · cases (ofSchema_eq_array.mpr harray).symm.trans hother

/-- From a truth value the walk goes no further. -/
theorem not_step_of_bool {value : Bool} (hvalue : document.at? path = some (.bool value)) :
    ¬Step document path next := by
  intro h
  cases h with
  | ref hnode => cases hvalue.symm.trans hnode
  | property hnode => cases hvalue.symm.trans hnode
  | pattern hnode => cases hvalue.symm.trans hnode
  | items hnode => cases hvalue.symm.trans hnode

end Steps

/-! ### Normal forms, by what a schema is -/

section Forms

variable {target : SchemaPath} {node : Entries} {text : String}

/-- The normal form of a reference is that of its target. -/
theorem Normal.of_ref (h : Normal document listed path value)
    (hnode : document.at? path = some (.obj node)) (htext : textRef? node = some text)
    (htarget : SchemaPath.ofPointer text = .ok target) : Normal document listed target value := by
  have hnone : ∀ {other}, document.at? path = some (.obj other) → textRef? other ≠ none :=
    fun hother hplain => by
      obtain rfl := node_unique hnode hother
      cases hplain.symm.trans htext
  cases h with
  | ref hnode' htext' htarget' hvalue =>
    obtain rfl := node_unique hnode hnode'
    obtain rfl := Option.some.inj (htext.symm.trans htext')
    obtain rfl := Except.ok.inj (htarget.symm.trans htarget')
    exact hvalue
  | canonical hnode' hplain => exact absurd hplain (hnone hnode')
  | items hnode' hplain => exact absurd hplain (hnone hnode')
  | patterns hnode' hplain => exact absurd hplain (hnone hnode')
  | same hnode' hplain => exact absurd hplain (hnone hnode')
  | bool hvalue => cases hvalue.symm.trans hnode

/-- The normal form of a listed schema is a reference to it. -/
theorem Normal.of_listed (h : Normal document listed path value)
    (hnode : document.at? path = some (.obj node)) (hplain : textRef? node = none)
    (hlisted : listed path) : value = (Reference.canonical path).toSchema := by
  cases h with
  | ref hnode' htext =>
    obtain rfl := node_unique hnode hnode'
    cases hplain.symm.trans htext
  | canonical => rfl
  | items _ _ hnew => exact absurd hlisted hnew
  | patterns _ _ hnew => exact absurd hlisted hnew
  | same _ _ hnew => exact absurd hlisted hnew
  | bool hvalue => cases hvalue.symm.trans hnode

/-- The normal form of a schema that is neither a reference nor listed, by what it is. -/
theorem Normal.cases_plain (h : Normal document listed path value)
    (hnode : document.at? path = some (.obj node)) (hplain : textRef? node = none)
    (hnew : ¬listed path) :
    (HasArrayType node ∧ ∃ items inner, Assoc.find? node "items" = some items ∧
      Normal document listed (path.child "items") inner ∧
      value = .obj (Assoc.insert node "items" inner)) ∨
    (HasObjectType node ∧ ∃ members flat,
      Assoc.find? node "patternProperties" = some (.obj members) ∧
      Assoc.keys flat = Assoc.keys members ∧
      (∀ name value, (name, value) ∈ flat →
        Normal document listed (path ++ ["patternProperties", name]) value) ∧
      value = .obj (Assoc.insert node "patternProperties" (.obj flat))) ∨
    (HasArrayType node → Assoc.find? node "items" = none) ∧
      (HasObjectType node → Assoc.find? node "patternProperties" = none) ∧ value = .obj node := by
  cases h with
  | ref hnode' htext =>
    obtain rfl := node_unique hnode hnode'
    cases hplain.symm.trans htext
  | canonical _ _ hlisted => exact absurd hlisted hnew
  | items hnode' _ _ harray hitems hvalue =>
    obtain rfl := node_unique hnode hnode'
    exact .inl ⟨harray, _, _, hitems, hvalue, rfl⟩
  | patterns hnode' _ _ hobject hmembers hkeys hvalues =>
    obtain rfl := node_unique hnode hnode'
    exact .inr (.inl ⟨hobject, _, _, hmembers, hkeys, hvalues, rfl⟩)
  | same hnode' _ _ hitems hpatterns =>
    obtain rfl := node_unique hnode hnode'
    exact .inr (.inr ⟨hitems, hpatterns, rfl⟩)
  | bool hvalue => cases hvalue.symm.trans hnode

end Forms

/-- A schema has at most one normal form. -/
theorem Normal.unique (h : Normal document listed path value)
    (h' : Normal document listed path other) : value = other := by
  induction h generalizing other with
  | ref hnode htext htarget _ ih => exact ih (h'.of_ref hnode htext htarget)
  | canonical hnode hplain hlisted => exact (h'.of_listed hnode hplain hlisted).symm
  | items hnode hplain hnew harray hitems _ ih =>
    rcases h'.cases_plain hnode hplain hnew with ⟨-, _, _, hitems', hvalue', rfl⟩ |
      ⟨hobject, -⟩ | ⟨hnone, -⟩
    · obtain rfl := Option.some.inj (hitems.symm.trans hitems')
      rw [ih hvalue']
    · exact absurd harray (not_hasArrayType hobject)
    · cases hitems.symm.trans (hnone harray)
  | patterns hnode hplain hnew hobject hmembers hkeys _ ih =>
    rcases h'.cases_plain hnode hplain hnew with ⟨harray, -⟩ |
      ⟨-, _, _, hmembers', hkeys', hvalues', rfl⟩ | ⟨-, hnone, -⟩
    · exact absurd harray (not_hasArrayType hobject)
    · obtain rfl := Json.obj.inj (Option.some.inj (hmembers.symm.trans hmembers'))
      rw [Assoc.ext_of_keys_eq (hkeys.trans hkeys'.symm) fun name a b ha hb =>
        ih name a ha (hvalues' name b hb)]
    · cases hmembers.symm.trans (hnone hobject)
  | same hnode hplain hnew hitems hpatterns =>
    rcases h'.cases_plain hnode hplain hnew with ⟨harray, _, _, hitems', -⟩ |
      ⟨hobject, _, _, hmembers', -⟩ | ⟨-, -, rfl⟩
    · cases hitems'.symm.trans (hitems harray)
    · cases hmembers'.symm.trans (hpatterns hobject)
    · rfl
  | bool hvalue =>
    cases h' with
    | bool hvalue' => exact Option.some.inj (hvalue.symm.trans hvalue')
    | ref hnode => cases hvalue.symm.trans hnode
    | canonical hnode => cases hvalue.symm.trans hnode
    | items hnode => cases hvalue.symm.trans hnode
    | patterns hnode => cases hvalue.symm.trans hnode
    | same hnode => cases hvalue.symm.trans hnode

/-- Only the places that are reached count for what is listed. -/
theorem Normal.congr (h : Normal document (IsClass document) path value)
    (hagree : ∀ target, Reaches document path target → (IsClass document target ↔ listed target)) :
    Normal document listed path value := by
  induction h with
  | ref hnode htext htarget _ ih =>
    exact .ref hnode htext htarget
      (ih fun target h => hagree target (.head (.ref hnode htext htarget) h))
  | canonical hnode hplain hlisted =>
    exact .canonical hnode hplain ((hagree _ .refl).mp hlisted)
  | items hnode hplain hnew harray hitems _ ih =>
    have hnew' := fun hlisted => hnew ((hagree _ .refl).mpr hlisted)
    exact .items hnode hplain hnew' harray hitems
      (ih fun target h => hagree target (.head (.items hnode hplain harray hitems) h))
  | @patterns path node members flat hnode hplain hnew hobject hmembers hkeys _ ih =>
    have hnew' := fun hlisted => hnew ((hagree _ .refl).mpr hlisted)
    have hnone : Assoc.find? node "properties" = none := by
      cases hproperties : Assoc.find? node "properties" with
      | none => rfl
      | some _ => exact absurd ⟨node, hnode, hplain, hobject, by rw [hproperties]; rfl⟩ hnew
    refine .patterns hnode hplain hnew' hobject hmembers hkeys fun name value hmem => ?_
    have hname : name ∈ Assoc.keys members := hkeys ▸ Assoc.mem_keys_of_mem hmem
    exact ih name value hmem fun target h =>
      hagree target (.head (.pattern hnode hplain hobject hnone hmembers hname) h)
  | same hnode hplain hnew hitems hpatterns =>
    exact .same hnode hplain (fun hlisted => hnew ((hagree _ .refl).mpr hlisted)) hitems hpatterns
  | bool hvalue => exact .bool hvalue

end SchemaClasses.Flatten
