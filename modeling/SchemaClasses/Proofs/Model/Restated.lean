import SchemaClasses.Proofs.Coupling.Models
import SchemaClasses.Proofs.Flatten.Followed
import SchemaClasses.Proofs.Flatten.Orderly
import SchemaClasses.Proofs.Flatten.Restated
import SchemaClasses.Proofs.Model.Failures
import SchemaClasses.Proofs.Model.Naming

/-!
# Types of references that are stated once more

Main statement (`modelsWithin_restated`): if a document yields classes, then a property of the root
that is a reference still has the same type after a combiner is added whose only member states the
reference once more, under four conditions. None of them can be left out (`changes_restated`).

* The document is orderly, and all its references lead to values in it. So it is flattened to the
  same schemas, although these are walked in another order.
* What the reference has become leaves it what it is. A type would be added to the reference as an
  alternative, and so would a reference that leads to the same schema but is spelled in another way.
* The classes in the type are named alike in any order. Of several schemas with one base name the
  one that is listed first takes the name, so that is known of one which has its base name alone
  (`ClassName.IsSole.find?_eq`). A type that names only such classes is read from both tables
  (`Resolve.Typed.exists_typed`).
-/

namespace SchemaClasses

open Flatten

/-! ### Names in another order -/

namespace ClassName

/-- Whether a schema is named alike in whatever order schemas are listed: it is the root, or no
other listed schema has its base name. -/
def IsSole (schemas : FlatSchemas) (path : SchemaPath) : Prop :=
  path = .root ∨ ∀ other ∈ others schemas, base other = base path → other = path

instance (schemas : FlatSchemas) (path : SchemaPath) : Decidable (IsSole schemas path) :=
  inferInstanceAs (Decidable (path = .root ∨ ∀ other ∈ others schemas, _))

section Sole

variable {schemas schemas' : FlatSchemas} {rootName : String} {names names' : Table}
  {path : SchemaPath}

/-- Every listed place but the root is among the others. -/
theorem mem_others (hkey : path ∈ Assoc.keys schemas) (hroot : path ≠ .root) :
    path ∈ others schemas := by
  refine List.mem_filter.mpr ⟨hkey, ?_⟩
  obtain ⟨segments⟩ := path
  cases segments with
  | nil => exact absurd rfl hroot
  | cons segment rest => rfl

/-- The only schema with its base name is named before all that might take a name away. -/
theorem find?_table_of_sole (hsole : ∀ other ∈ others schemas, base other = base path →
      other = path) (hpath : path ∈ others schemas) (hnodup : (Assoc.keys schemas).Nodup)
    (h : table schemas rootName = .ok names) : ∃ name, base path = .ok name ∧
      Assoc.find? names path = some (underscored name
        (underscores (reservedName schemas rootName) name 0)) := by
  obtain ⟨front, back, hothers⟩ := List.append_of_mem hpath
  obtain ⟨name, hbase, hname⟩ := find?_table hnodup h hothers
  have hnew : (front ++ path :: back).Nodup := hothers ▸ hnodup.filter _
  have hfront : front.countP (hasBase name) = 0 := by
    refine List.countP_eq_zero.mpr fun other hother hsame => ?_
    have hmem : other ∈ others schemas := hothers ▸ List.mem_append_left _ hother
    obtain rfl := hsole other hmem ((hasBase_iff.mp hsame).trans hbase.symm)
    exact List.disjoint_of_nodup_append hnew hother List.mem_cons_self
  exact ⟨name, hbase, hfront ▸ hname⟩

/-- A schema that is named alike in any order has the same name in a table that lists the same
places in another order. -/
theorem IsSole.find?_eq (h : IsSole schemas path)
    (hkeys : (Assoc.keys schemas).Perm (Assoc.keys schemas')) (hkey : path ∈ Assoc.keys schemas)
    (hnodup : (Assoc.keys schemas).Nodup) (htable : table schemas rootName = .ok names)
    (htable' : table schemas' rootName = .ok names') :
    Assoc.find? names' path = Assoc.find? names path := by
  have hnodup' : (Assoc.keys schemas').Nodup := hkeys.nodup_iff.mp hnodup
  by_cases hroot : path = .root
  · subst hroot
    have hlisted := (Assoc.mem_keys_iff_contains _ _).mp hkey
    have hlisted' := (Assoc.mem_keys_iff_contains _ _).mp (hkeys.mem_iff.mp hkey)
    rw [(table_eq_ok hnodup htable).2.2.2 hlisted, (table_eq_ok hnodup' htable').2.2.2 hlisted']
  · have hsole := h.resolve_left hroot
    have hothers := others_perm hkeys
    have hpath := mem_others hkey hroot
    obtain ⟨name, hbase, hname⟩ := find?_table_of_sole hsole hpath hnodup htable
    obtain ⟨name', hbase', hname'⟩ := find?_table_of_sole
      (fun other hother => hsole other (hothers.mem_iff.mpr hother)) (hothers.mem_iff.mp hpath)
      hnodup' htable'
    obtain rfl := Except.ok.inj (hbase.symm.trans hbase')
    rw [hname, hname', reservedName_perm hkeys]

end Sole

end ClassName

namespace Resolve

/-! ### Types under other names -/

section Types

variable {names names' : ClassName.Table} {path : SchemaPath} {schema value : Json}
  {type : PropertyType} {pointer : String}

/-- A table that has not just one pattern allows all values. -/
theorem patternType_eq_anything {members : Json} (h : ∀ pattern member,
      some members ≠ some (.obj [(pattern, member)])) :
    patternType names path members = .ok .anything := by
  unfold patternType
  split
  · rename_i pattern member
    exact absurd rfl (h pattern member)
  · rfl

/-- An array with items has the type of their schema for its elements. -/
theorem itemsType_of_find? {schema : Entries} {items : Json}
    (h : Assoc.find? schema "items" = some items) :
    itemsType names path schema = typeOf names (path.child "items") items := by
  rw [itemsType_eq, h]

/-- A dictionary of one pattern has the type of its schema for its values. -/
theorem valuesType_of_find? {schema : Entries} {pattern : String} {member : Json}
    (h : Assoc.find? schema "patternProperties" = some (.obj [(pattern, member)])) :
    valuesType names path schema =
      typeOf names (path ++ ["patternProperties", pattern]) member := by
  rw [valuesType_eq, h]
  dsimp only
  rw [patternType]

/-- A schema of a single type has the type of an array, of a dictionary or of a primitive. -/
theorem typeOf_of_single {schema : Entries} {name : String}
    (hnone : Assoc.find? schema refKey = none)
    (htype : DeclaredType.ofSchema schema path = .ok (.single name)) :
    typeOf names path (.obj schema) =
      if name = "array" then (itemsType names path schema).map (arrayOf schema)
      else if name = "object" then (valuesType names path schema).map .dict
      else primitiveOf schema path name := by
  rw [typeOf_obj, hnone, htype]
  change (if name = "array" then _ else _) = _
  split_ifs
  · cases itemsType names path schema <;> rfl
  · cases valuesType names path schema <;> rfl
  · rfl

/-- A type that follows the rules is read. -/
theorem typeOf_of_typed (h : Typed names path value type) :
    typeOf names path value = .ok type := by
  induction h with
  | @anything _ value h =>
    cases value with
    | obj schema => exact absurd rfl (h schema)
    | _ => rfl
  | ref href h =>
    rw [typeOf_obj, href]
    exact h
  | pointer hnone htype h =>
    simp only [typeOf_obj, hnone, htype, bind, Except.bind]
    exact h
  | choice hnone htype =>
    rw [typeOf_obj, hnone, htype]
    rfl
  -- a primitive type is neither of the two names that are read further
  | @primitive path schema name type hnone htype h =>
    have harray : name ≠ "array" := by
      rintro rfl
      cases h
    have hobject : name ≠ "object" := by
      rintro rfl
      cases h
    rw [typeOf_of_single hnone htype, if_neg harray, if_neg hobject, h]
  | array hnone htype hitems =>
    rw [typeOf_of_single hnone htype, if_pos rfl, itemsType_eq, hitems]
    rfl
  | items hnone htype hitems _ ih =>
    rw [typeOf_of_single hnone htype, if_pos rfl, itemsType_of_find? hitems, ih]
    rfl
  | pattern hnone htype hmembers _ ih =>
    rw [typeOf_of_single hnone htype, if_neg (by decide), if_pos rfl, valuesType_of_find? hmembers,
      ih]
    rfl
  | @dict path schema hnone htype hmembers =>
    have hread : valuesType names path schema = .ok .anything := by
      rw [valuesType_eq]
      cases hfind : Assoc.find? schema "patternProperties" with
      | none => rfl
      | some members =>
        rw [hfind] at hmembers
        exact patternType_eq_anything hmembers
    rw [typeOf_of_single hnone htype, if_neg (by decide), if_pos rfl, hread]
    rfl

/-- Whether the classes that a type names are called the same in another table. -/
def KeepsNames (names names' : ClassName.Table) (type : PropertyType) : Prop :=
  ∀ path className, Assoc.find? names path = some className → type.Names className →
    Assoc.find? names' path = some className

/-- Where the classes of a type are called the same, so are those of a type with no others. -/
theorem KeepsNames.imp {type' : PropertyType} (h : KeepsNames names names' type)
    (hnames : ∀ className, type'.Names className → type.Names className) :
    KeepsNames names names' type' :=
  fun path className hname hother => h path className hname (hnames className hother)

/-- A class that is named in the type of the elements is named in the list or set of them. -/
theorem arrayOf_names {schema : Entries} {element : PropertyType} {className : String}
    (h : element.Names className) : (arrayOf schema element).Names className := by
  rcases arrayOf_cases schema element with heq | heq <;> rw [heq]
  · exact .set h
  · exact .list h

variable (hkeys : Assoc.keys names ⊆ Assoc.keys names')

include hkeys

/-- A pointer that has a class has one in a larger table, and the same one if it is called the
same. -/
theorem exists_modelOfPointer (h : modelOfPointer names pointer = .ok type) :
    ∃ type', modelOfPointer names' pointer = .ok type' ∧
      (KeepsNames names names' type → type' = type) := by
  obtain ⟨target, name, hpointer, hname, rfl⟩ := exists_of_modelOfPointer h
  obtain ⟨name', hname'⟩ := Assoc.exists_find?_of_mem_keys (hkeys (Assoc.mem_keys_of_find? hname))
  refine ⟨.model name', ?_, fun hkeeps => ?_⟩
  · unfold modelOfPointer
    simp only [hpointer, hname']
  · rw [Option.some.inj (hname'.symm.trans (hkeeps target name hname .model))]

/-- A schema has a type in any other table that names the same schemas as well, and it is the same
type if the classes in it are called the same. -/
theorem Typed.exists_typed (h : Typed names path value type) :
    ∃ type', Typed names' path value type' ∧ (KeepsNames names names' type → type' = type) := by
  induction h with
  | anything h => exact ⟨_, .anything h, fun _ => rfl⟩
  | ref href h =>
    obtain ⟨pointer, rfl, hpointer⟩ := exists_of_modelOfRef h
    obtain ⟨type', htype', hsame⟩ := exists_modelOfPointer hkeys hpointer
    exact ⟨type', .ref href htype', hsame⟩
  | pointer hnone htype h =>
    obtain ⟨type', htype', hsame⟩ := exists_modelOfPointer hkeys h
    exact ⟨type', .pointer hnone htype htype', hsame⟩
  | choice hnone htype => exact ⟨_, .choice hnone htype, fun _ => rfl⟩
  | primitive hnone htype h => exact ⟨_, .primitive hnone htype h, fun _ => rfl⟩
  | array hnone htype hitems => exact ⟨_, .array hnone htype hitems, fun _ => rfl⟩
  | @items _ schema _ _ hnone htype hitems _ ih =>
    obtain ⟨element', helement', hsame⟩ := ih
    refine ⟨_, .items hnone htype hitems helement', fun hkeeps => congrArg (arrayOf schema) ?_⟩
    exact hsame (hkeeps.imp fun _ => arrayOf_names)
  | pattern hnone htype hmembers _ ih =>
    obtain ⟨value', hvalue', hsame⟩ := ih
    refine ⟨_, .pattern hnone htype hmembers hvalue', fun hkeeps => congrArg _ ?_⟩
    exact hsame (hkeeps.imp fun _ => .dict)
  | dict hnone htype hmembers => exact ⟨_, .dict hnone htype hmembers, fun _ => rfl⟩

end Types

/-! ### Classes in another order -/

section Classes

variable {schemas schemas' : FlatSchemas} {names names' table : ClassName.Table}
  {path : SchemaPath} {members : Entries} {properties : Properties} {models : Models}

/-- Whether properties have types in another table of names, and the same one where the classes in
it are called the same. -/
def KeepsTypes (names names' : ClassName.Table) : Properties → Properties → Prop :=
  Assoc.Related fun _ type type' => KeepsNames names names' type → type' = type

/-- Properties that have types have types in a larger table, the same ones where classes are called
the same. -/
theorem exists_propertiesOf (hkeys : Assoc.keys names ⊆ Assoc.keys names')
    (h : propertiesOf names path members = .ok properties) :
    ∃ properties', propertiesOf names' path members = .ok properties' ∧
      KeepsTypes names names' properties properties' := by
  induction members generalizing properties with
  | nil =>
    obtain rfl := Except.ok.inj h
    exact ⟨[], rfl, .nil⟩
  | cons member rest ih =>
    rw [propertiesOf] at h
    obtain ⟨type, htype, h⟩ := exists_of_bind_eq_ok h
    obtain ⟨others, hothers, h⟩ := exists_of_bind_eq_ok h
    obtain rfl := Except.ok.inj h
    obtain ⟨type', htype', hsame⟩ := (typed_of_typeOf htype).exists_typed hkeys
    obtain ⟨others', hothers', hrelated⟩ := ih hothers
    refine ⟨(member.1, type') :: others', ?_, .cons ⟨rfl, hsame⟩ hrelated⟩
    rw [propertiesOf, typeOf_of_typed htype', hothers']
    rfl

/-- The class of a schema can be made of another table that lists the same schemas. -/
theorem exists_classOf (halike : ListsAlike schemas schemas')
    (hkeys : Assoc.keys names ⊆ Assoc.keys names')
    (h : classOf names schemas path = .ok properties) :
    ∃ properties', classOf names' schemas' path = .ok properties' ∧
      KeepsTypes names names' properties properties' := by
  obtain ⟨entry, members, hentry, hmembers, hproperties⟩ := exists_of_classOf h
  obtain ⟨entry', hentry', hsame⟩ := halike.entries path entry hentry
  obtain ⟨properties', hproperties', hrelated⟩ := exists_propertiesOf hkeys hproperties
  refine ⟨properties', ?_, hrelated⟩
  unfold classOf
  rw [hentry', Option.bind_some, hsame, hmembers]
  exact hproperties'

/-- Classes can be made if each of them can. -/
theorem exists_classesOf (h : ∀ path ∈ Assoc.keys table, ∃ properties,
      classOf names schemas path = .ok properties) :
    ∃ models, classesOf names schemas table = .ok models := by
  induction table with
  | nil => exact ⟨[], rfl⟩
  | cons named rest ih =>
    obtain ⟨path, name⟩ := named
    obtain ⟨properties, hproperties⟩ := h path List.mem_cons_self
    obtain ⟨others, hothers⟩ := ih fun other hother => h other (List.mem_cons_of_mem _ hother)
    refine ⟨(name, properties) :: others, ?_⟩
    rw [classesOf, hproperties, hothers]
    rfl

/-- A class has the properties of the schema that is named so. -/
theorem find?_of_classesOf (hnodup : (Assoc.values table).Nodup)
    (h : classesOf names schemas table = .ok models) {className : String}
    (hname : Assoc.find? table path = some className) : ∃ properties,
      classOf names schemas path = .ok properties ∧
      Assoc.find? models className = some properties := by
  obtain ⟨⟨name, properties⟩, hmodel, hsame, hclass⟩ :=
    exists_of_forall₂ (forall₂_of_classesOf h) (Assoc.mem_of_find? hname)
  obtain rfl : name = className := hsame
  have hmodels : (Assoc.keys models).Nodup := keys_of_classesOf h ▸ hnodup
  exact ⟨properties, hclass, (Assoc.find?_eq_some_iff hmodels).mpr hmodel⟩

/-- All classes can be made of another table that lists the same schemas. -/
theorem exists_classesOf_alike (halike : ListsAlike schemas schemas')
    (hkeys : Assoc.keys names ⊆ Assoc.keys names') (hkeys' : Assoc.keys names' ⊆ Assoc.keys names)
    (hnodup : (Assoc.values names).Nodup) (h : classesOf names schemas names = .ok models) :
    ∃ models', classesOf names' schemas' names' = .ok models' := by
  refine exists_classesOf fun path hpath => ?_
  obtain ⟨className, hname⟩ := Assoc.exists_find?_of_mem_keys (hkeys' hpath)
  obtain ⟨properties, hclass, -⟩ := find?_of_classesOf hnodup h hname
  obtain ⟨properties', hclass', -⟩ := exists_classOf halike hkeys hclass
  exact ⟨properties', hclass'⟩

end Classes

end Resolve

open Resolve

/-- Of a table that lists the same schemas in another order classes are made as well, and a property
of the root has the same type there if the classes in it are named alike in any order. -/
theorem exists_resolve {schemas schemas' : FlatSchemas} {rootName : String}
    {names : ClassName.Table} {models : Models} {properties : Properties}
    (halike : ListsAlike schemas schemas') (hnodup : (Assoc.keys schemas).Nodup)
    (hroot : SchemaPath.root ∈ Assoc.keys schemas)
    (hnames : ClassName.table schemas rootName = .ok names)
    (hmodels : resolve schemas rootName = .ok models)
    (hproperties : Assoc.find? models rootName = some properties) :
    ∃ models' properties', resolve schemas' rootName = .ok models' ∧
      Assoc.find? models' rootName = some properties' ∧
      ∀ name type, Assoc.find? properties name = some type →
        (∀ path className, Assoc.find? names path = some className → type.Names className →
          ClassName.IsSole schemas path) → Assoc.find? properties' name = some type := by
  have hnodup' : (Assoc.keys schemas').Nodup := halike.keys.nodup_iff.mp hnodup
  obtain ⟨found, hfound, hclasses⟩ := exists_of_resolve hmodels
  obtain rfl := Except.ok.inj (hfound.symm.trans hnames)
  obtain ⟨names', hnames'⟩ := ClassName.exists_table halike.keys hnames
  have hkeys : Assoc.keys found ⊆ Assoc.keys names' := fun path hpath =>
    ClassName.mem_keys_table hnames'
      (halike.keys.mem_iff.mp (ClassName.mem_keys_of_table hnames hpath))
  have hkeys' : Assoc.keys names' ⊆ Assoc.keys found := fun path hpath =>
    ClassName.mem_keys_table hnames
      (halike.keys.mem_iff.mpr (ClassName.mem_keys_of_table hnames' hpath))
  obtain ⟨-, -, hvalues, hrootName⟩ := ClassName.table_eq_ok hnodup hnames
  obtain ⟨-, -, hvalues', hrootName'⟩ := ClassName.table_eq_ok hnodup' hnames'
  obtain ⟨models', hclasses'⟩ := exists_classesOf_alike halike hkeys hkeys' hvalues hclasses
  obtain ⟨others, hclass, hothers⟩ := find?_of_classesOf hvalues hclasses
    (hrootName ((Assoc.mem_keys_iff_contains _ _).mp hroot))
  obtain rfl := Option.some.inj (hothers.symm.trans hproperties)
  obtain ⟨properties', hclass', hproperties'⟩ := find?_of_classesOf hvalues' hclasses'
    (hrootName' ((Assoc.mem_keys_iff_contains _ _).mp (halike.keys.mem_iff.mp hroot)))
  refine ⟨models', properties', ?_, hproperties', fun name type htype hsole => ?_⟩
  · unfold resolve Resolver.ofSchemas
    rw [hnames']
    exact hclasses'
  · obtain ⟨found', hfound', hrelated⟩ := exists_classOf halike hkeys hclass
    obtain rfl := Except.ok.inj (hfound'.symm.trans hclass')
    rcases hrelated.find?_cases name with ⟨hnone, -⟩ | ⟨type', other, htype', hother, hsame⟩
    · cases hnone.symm.trans htype
    · obtain rfl := Option.some.inj (htype'.symm.trans htype)
      rw [hother, hsame fun path className hname hnamed => ?_]
      have hlisted := ClassName.mem_keys_of_table hnames (Assoc.mem_keys_of_find? hname)
      rw [(hsole path className hname hnamed).find?_eq halike.keys hlisted hnodup hnames hnames',
        hname]

/-! ### References that are restated -/

/-- A property of the root of a flattened table. -/
def rootProperty? (schemas : FlatSchemas) (name : String) : Option Json :=
  (Assoc.find? schemas .root).bind fun entry => property? entry name

/-- Whether a property of the root has become something that leaves the reference what it is. -/
abbrev KeepsProperty (schemas : FlatSchemas) (name pointer : String) : Prop :=
  ∃ value ∈ rootProperty? schemas name, KeepsReference pointer value

/-- Whether all classes in a type are named alike in any order. -/
abbrev IsNamedAlike (schemas : FlatSchemas) (names : ClassName.Table) (type : PropertyType) :
    Prop :=
  ∀ named ∈ names, type.Names named.2 → ClassName.IsSole schemas named.1

/-- Whether all references of a document lead to values in it. -/
def refersToValues (document : Json) : Bool :=
  document.refs.all fun reference =>
    match SchemaPath.ofPointer reference.2 with
    | .ok path => (document.at? path).isSome
    | .error _ => false

/-- If all references lead to values, then they lead somewhere. -/
theorem allLead_of_refersToValues {document : Json} (hwf : document.wellFormed)
    (h : refersToValues document) : AllLead document [] document := by
  refine allLead_of_refs hwf fun place text hmem => ?_
  have hleads := List.all_eq_true.mp h _ hmem
  dsimp only at hleads
  split at hleads
  · rename_i path hpath
    exact ⟨path, hpath, hleads⟩
  · cases hleads

/-- If an orderly document whose references all lead to values yields classes, then a property of
the root that is a reference has the same type after the reference is stated once more by the only
member of a new combiner, provided that what it has become leaves it what it is and that the classes
in its type are named alike in any order. -/
theorem modelsWithin_restated {combiner name pointer rootName : String}
    {root members again : Entries} {depth : Nat} {schemas : FlatSchemas}
    {names : ClassName.Table} {models : Models} {properties : Properties} {type : PropertyType}
    (h : Restates combiner name pointer root members again) (hwf : (Json.obj root).wellFormed)
    (horderly : isOrderly (.obj root)) (hrefs : refersToValues (.obj root))
    (hflatten : flattenWithin depth (.obj root) = .ok schemas)
    (hnames : ClassName.table schemas rootName = .ok names)
    (hmodels : modelsWithin depth (.obj root) rootName = .ok models)
    (hproperties : Assoc.find? models rootName = some properties)
    (htype : Assoc.find? properties name = some type)
    (hkeeps : KeepsProperty schemas name pointer) (hsole : IsNamedAlike schemas names type) :
    ∃ least, ∀ deeper ≥ least, ∃ models' properties',
      modelsWithin deeper (.obj again) rootName = .ok models' ∧
      Assoc.find? models' rootName = some properties' ∧
      Assoc.find? properties' name = some type := by
  have hfaithful := faithful_of_isOrderly hwf horderly
  have hleads := allLead_of_refersToValues hwf hrefs
  obtain ⟨found, hfound, hresolve⟩ := exists_of_modelsWithin hmodels
  obtain rfl := Except.ok.inj (hfound.symm.trans hflatten)
  obtain ⟨value, hproperty, hkeeps⟩ := hkeeps
  obtain ⟨entry, hentry, hvalue⟩ := Option.bind_eq_some_iff.mp hproperty
  have hroot := Assoc.mem_keys_of_find? hentry
  have hclass := h.isClassRoot hfaithful hwf hleads hflatten hroot
  obtain rfl := Option.some.inj (hentry.symm.trans hclass.entry)
  rw [property?_of_find? (Assoc.find?_insert_self _ _ _)] at hvalue
  have hnodup := (grounded_of_flattenWithin (faith_kept hfaithful hwf)
    ⟨.refl, hfaithful.allReliable hwf⟩ hflatten).nodup_keys
  obtain ⟨least, hleast⟩ := h.exists_flatten hfaithful hwf hleads hflatten hroot hvalue hkeeps
  refine ⟨least, fun deeper hdeeper => ?_⟩
  obtain ⟨schemas', hflatten', halike⟩ := hleast deeper hdeeper
  obtain ⟨models', properties', hresolve', hproperties', hsame⟩ :=
    exists_resolve halike hnodup hroot hnames hresolve hproperties
  refine ⟨models', properties', ?_, hproperties', hsame name type htype
    fun path className hname => hsole (path, className) (Assoc.mem_of_find? hname)⟩
  unfold modelsWithin
  rw [hflatten']
  change (resolve schemas' rootName).mapError _ = _
  rw [hresolve']
  rfl

/-! ### Documents -/

/-- The entries of a document with a property `x` that is a reference, some properties before it,
and some definitions. -/
def referring (pointer : String) (before definitions : Entries) : Entries :=
  [("properties", .obj (before ++ [("x", .obj [(refKey, .str pointer)])])),
    ("definitions", .obj definitions)]

/-- The same document with a combiner in which the reference is stated once more. -/
def restated (combiner pointer : String) (root : Entries) : Entries :=
  root ++ [(combiner, .arr [restating "x" pointer])]

/-- The documents restate the reference under `x`. -/
theorem restates_restated {combiner pointer : String} {before definitions : Entries}
    (hcombiner : combiner ∈ combiners) (hbefore : "x" ∉ Assoc.keys before) :
    Restates combiner "x" pointer (referring pointer before definitions)
      (before ++ [("x", .obj [(refKey, .str pointer)])])
      (restated combiner pointer (referring pointer before definitions)) where
  mem := hcombiner
  absent other hother := by
    rw [referring, Assoc.find?, if_neg (ne_combiner hother (by decide)), Assoc.find?,
      if_neg (ne_combiner hother (by decide))]
    rfl
  properties := rfl
  reference := by
    rw [Assoc.find?_append, Assoc.find?_eq_none_iff.mpr hbefore]
    rfl
  nodup := by
    have hkeys : Assoc.keys (restated combiner pointer (referring pointer before definitions)) =
        ["properties", "definitions", combiner] := rfl
    have hproperties : "properties" ≠ combiner := ne_combiner hcombiner (by decide)
    have hdefinitions : "definitions" ≠ combiner := ne_combiner hcombiner (by decide)
    rw [hkeys]
    simp [hproperties, hdefinitions]
  restated := by
    have hproperties : "properties" ≠ combiner := ne_combiner hcombiner (by decide)
    have hdefinitions : "definitions" ≠ combiner := ne_combiner hcombiner (by decide)
    simp [restated, referring, Assoc.find?, hproperties, hdefinitions]
  others key hkey := by
    rw [restated, Assoc.find?_append, Assoc.find?, if_neg (Ne.symm hkey)]
    cases Assoc.find? (referring pointer before definitions) key <;> rfl

/-- The type of a property of the root class. -/
def typeOfProperty? (document : Json) (rootName name : String) : Option PropertyType := do
  let models ← (resolveModels document rootName).toOption
  let properties ← Assoc.find? models rootName
  Assoc.find? properties name

/-- Which of the conditions a document meets under which a reference can be stated once more: it is
orderly, its references lead to values, the reference stays what it is, and the classes in its type
are named alike in any order. -/
def conditions (document : Json) (rootName name pointer : String) : Option (List Bool) := do
  let schemas ← (flatten document).toOption
  let names ← (ClassName.table schemas rootName).toOption
  let type ← typeOfProperty? document rootName name
  return [isOrderly document, refersToValues document, decide (KeepsProperty schemas name pointer),
    decide (IsNamedAlike schemas names type)]

/-- A result that is kept is what the computation succeeds with. -/
theorem eq_ok_of_toOption {ε α : Type} {x : Except ε α} {a : α} (h : x.toOption = some a) :
    x = .ok a := by
  cases x with
  | error => cases h
  | ok => exact congrArg _ (Option.some.inj h)

/-- What it means that a document meets all of them. -/
theorem exists_of_conditions {document : Json} {rootName name pointer : String}
    {type : PropertyType}
    (h : conditions document rootName name pointer = some [true, true, true, true])
    (htype : typeOfProperty? document rootName name = some type) :
    isOrderly document ∧ refersToValues document ∧ ∃ schemas names models properties,
      flattenWithin (depthBound document) document = .ok schemas ∧
      ClassName.table schemas rootName = .ok names ∧
      modelsWithin (depthBound document) document rootName = .ok models ∧
      Assoc.find? models rootName = some properties ∧ Assoc.find? properties name = some type ∧
      KeepsProperty schemas name pointer ∧ IsNamedAlike schemas names type := by
  obtain ⟨schemas, hschemas, h⟩ := Option.bind_eq_some_iff.mp h
  obtain ⟨names, hnames, h⟩ := Option.bind_eq_some_iff.mp h
  rw [htype] at h
  simp only [Option.bind_eq_bind, Option.bind_some, Option.pure_def, Option.some.injEq,
    List.cons.injEq, decide_eq_true_iff, and_true] at h
  obtain ⟨horderly, hrefs, hkeeps, halike⟩ := h
  obtain ⟨models, hmodels, htype⟩ := Option.bind_eq_some_iff.mp htype
  obtain ⟨properties, hproperties, htype⟩ := Option.bind_eq_some_iff.mp htype
  exact ⟨horderly, hrefs, schemas, names, models, properties, eq_ok_of_toOption hschemas,
    eq_ok_of_toOption hnames, resolveModels_eq document rootName ▸ eq_ok_of_toOption hmodels,
    hproperties, htype, hkeeps, halike⟩

/-- A schema that becomes a class. -/
def blank : Json :=
  .obj [("properties", .obj [])]

/-- A document in which a reference leads to a dictionary of classes, and another class is listed
later as soon as the reference is stated once more. -/
def dashboard : Entries :=
  referring "#/definitions/gauges" [("lamp", .obj [(refKey, .str "#/definitions/lamp")])]
    [("lamp", blank), ("gauge", blank), ("gauges", .obj [
      ("patternProperties", .obj [(".*", .obj [(refKey, .str "#/definitions/gauge")])])])]

/-- The theorem at `dashboard`: the property stays a dictionary of the class of gauges. -/
theorem modelsWithin_restated_dashboard :
    (Json.obj dashboard).wellFormed ∧
      conditions (.obj dashboard) "M" "x" "#/definitions/gauges" = some [true, true, true, true] ∧
      typeOfProperty? (.obj dashboard) "M" "x" = some (.dict (.model "Gauge")) ∧
      ∃ least, ∀ deeper ≥ least, ∃ models properties,
        modelsWithin deeper (.obj (restated "oneOf" "#/definitions/gauges" dashboard)) "M" =
          .ok models ∧
        Assoc.find? models "M" = some properties ∧
        Assoc.find? properties "x" = some (.dict (.model "Gauge")) := by
  have hwf : (Json.obj dashboard).wellFormed := by decide +kernel
  have hmet : conditions (.obj dashboard) "M" "x" "#/definitions/gauges" =
      some [true, true, true, true] := by decide +kernel
  have htype : typeOfProperty? (.obj dashboard) "M" "x" = some (.dict (.model "Gauge")) := by
    decide +kernel
  have hrestates : Restates "oneOf" "x" "#/definitions/gauges" dashboard _
      (restated "oneOf" "#/definitions/gauges" dashboard) :=
    restates_restated (by decide) (by decide)
  obtain ⟨horderly, hrefs, schemas, names, models, properties, hflatten, hnames, hmodels,
    hproperties, hproperty, hkeeps, halike⟩ := exists_of_conditions hmet htype
  exact ⟨hwf, hmet, htype, modelsWithin_restated hrestates hwf horderly hrefs hflatten hnames
    hmodels hproperties hproperty hkeeps halike⟩

/-- One in which it leads to a primitive type. -/
def toPrimitive : Entries :=
  referring "#/definitions/s" [] [("s", .obj [(typeKey, .str "string")])]

/-- One in which it leads to a class by way of another reference. -/
def toAlias : Entries :=
  referring "#/definitions/s" [] [("s", .obj [(refKey, .str "#/definitions/t")]), ("t", blank)]

/-- One in which it leads to the second of two classes with the same base name. -/
def toHomonym : Entries :=
  referring "#/definitions/foo_bar" [("a", .obj [(refKey, .str "#/definitions/foo-bar")])]
    [("foo-bar", blank), ("foo_bar", blank)]

/-- One in which it leads to a property of the first property, which has a combiner. -/
def toCombined (members : Entries) (combined : List Json) : Entries :=
  referring "#/properties/a/properties/p"
    [("a", .obj [("properties", .obj members), ("allOf", .arr combined)])] []

/-- An object whose type is a list. It has no class, but gives its properties away. -/
def listedObject : Json :=
  .obj [(typeKey, .arr [.str "object"]), ("properties", .obj [])]

/-- A member with a property. -/
def declaring (property : Json) : Json :=
  .obj [("properties", .obj [("p", property)])]

/-- Whether a document meets some conditions, and a property that has a type has another one, or the
document yields no classes any more, once its reference is stated again. -/
def Changes (root : Entries) (pointer : String) (met : List Bool) (type : PropertyType)
    (changed : Option PropertyType) : Prop :=
  conditions (.obj root) "M" "x" pointer = some met ∧
    typeOfProperty? (.obj root) "M" "x" = some type ∧
    typeOfProperty? (.obj (restated "allOf" pointer root)) "M" "x" = changed ∧ changed ≠ some type

/-- None of the conditions can be left out: on each of these documents a single one is not met. -/
theorem changes_restated :
    Changes toPrimitive "#/definitions/s" [true, true, false, true] (.primitive .string "default")
      (some (.multiple ["#/definitions/s", "string"])) ∧
    Changes toAlias "#/definitions/s" [true, true, false, true] (.model "T")
      (some (.multiple ["#/definitions/s", "#/definitions/t"])) ∧
    Changes toHomonym "#/definitions/foo_bar" [true, true, true, false] (.model "FooBar_")
      (some (.model "FooBar")) ∧
    Changes (toCombined [("p", .obj [(typeKey, .str "object")])] [declaring listedObject])
      "#/properties/a/properties/p" [false, true, true, true] (.model "P")
      (some (.multiple ["#/properties/a/properties/p", "object"])) ∧
    Changes (toCombined [] [declaring (.obj [(typeKey, .str "object")]), declaring listedObject])
      "#/properties/a/properties/p" [true, false, true, true] (.model "P") none := by
  refine ⟨⟨?_, ?_, ?_, ?_⟩, ⟨?_, ?_, ?_, ?_⟩, ⟨?_, ?_, ?_, ?_⟩, ⟨?_, ?_, ?_, ?_⟩,
    ⟨?_, ?_, ?_, ?_⟩⟩ <;> decide +kernel

end SchemaClasses
