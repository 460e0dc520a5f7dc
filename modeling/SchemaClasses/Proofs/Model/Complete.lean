import SchemaClasses.Proofs.Model.Typing

/-!
# Complete class models

Main statement (`resolve_complete`): if classes can be made of a flattened table, by whatever means
the table came about, then there is one class for each schema, that of the root first and the
others in the order of the table; a class has the properties of its schema in their order; and a
class that is named anywhere in the type of a property is one of them, that of the schema which the
only reference met in that property leads to (`Resolve.Covers`).

Completeness rests on the names, because a class with the name of another one would take its place.
Underscores are appended at most as often as there are names taken, and that is enough
(`ClassName.free_not_mem`): otherwise the name with none, one, two, and so on, would be one name
more than there are. So a table of names grows by a new place and a new name with each schema
(`ClassName.assign_eq_ok`). That classes are closed rests on the types, whose every branch ends in a
look-up of a reference in that table (`Resolve.Typed.isClassMet`).
-/

namespace SchemaClasses

/-! ### Names -/

namespace ClassName

/-- A name with so many underscores behind it. -/
def underscored (name : String) : Nat → String
  | 0 => name
  | n + 1 => underscored (name ++ "_") n

/-- Each underscore makes a name longer by one. -/
theorem length_underscored (name : String) (n : Nat) :
    (underscored name n).length = name.length + n := by
  induction n generalizing name with
  | zero => rfl
  | succ n ih => rw [underscored, ih, String.length_append, Nat.add_assoc, Nat.add_comm n]; rfl

/-- Different numbers of underscores make different names. -/
theorem underscored_injective (name : String) : Function.Injective (underscored name) := by
  intro m n h
  have hlength := congrArg String.length h
  rw [length_underscored, length_underscored] at hlength
  exact Nat.add_left_cancel hlength

/-- If the name that is found is taken then so are all that were tried. -/
theorem underscored_mem {taken : List String} {name : String} {n : Nat}
    (h : appendUnderscores taken name n ∈ taken) : ∀ m ≤ n, underscored name m ∈ taken := by
  induction n generalizing name with
  | zero =>
    intro m hm
    obtain rfl := Nat.le_zero.mp hm
    exact h
  | succ n ih =>
    rw [appendUnderscores] at h
    split_ifs at h with hname
    · intro m hm
      cases m with
      | zero => exact hname
      | succ m => exact ih h m (Nat.le_of_succ_le_succ hm)
    · exact absurd h hname

/-- The name that is found is free. -/
theorem free_not_mem (taken : List String) (name : String) : free taken name ∉ taken := by
  intro h
  have hnodup : ((List.range (taken.length + 1)).map (underscored name)).Nodup :=
    List.nodup_range.map (underscored_injective name)
  have hsubset : (List.range (taken.length + 1)).map (underscored name) ⊆ taken := by
    intro tried htried
    obtain ⟨m, hm, rfl⟩ := List.mem_map.mp htried
    exact underscored_mem h m (Nat.le_of_lt_succ (List.mem_range.mp hm))
  have hlength := (List.subperm_of_subset hnodup hsubset).length_le
  rw [List.length_map, List.length_range] at hlength
  omega

/-- Naming schemas at new places appends them to the table in order, each with a new name. -/
theorem assign_eq_ok {names table : Table} {paths : List SchemaPath}
    (hpaths : (Assoc.keys names ++ paths).Nodup) (hnames : (Assoc.values names).Nodup)
    (h : assign names paths = .ok table) :
    names <+: table ∧ Assoc.keys table = Assoc.keys names ++ paths ∧
      (Assoc.values table).Nodup := by
  induction paths generalizing names with
  | nil =>
    obtain rfl := Except.ok.inj h
    exact ⟨List.prefix_refl _, (List.append_nil _).symm, hnames⟩
  | cons path rest ih =>
    rw [assign] at h
    obtain ⟨name, -, h⟩ := exists_of_bind_eq_ok h
    have hnew : path ∉ Assoc.keys names := fun hmem =>
      List.disjoint_of_nodup_append hpaths hmem List.mem_cons_self
    rw [Assoc.insert_of_not_mem hnew] at h
    have hkeys : Assoc.keys (names ++ [(path, free (Assoc.values names) name)]) =
        Assoc.keys names ++ [path] := List.map_append
    have hvalues : Assoc.values (names ++ [(path, free (Assoc.values names) name)]) =
        Assoc.values names ++ [free (Assoc.values names) name] := List.map_append
    have hnames' : (Assoc.values names ++ [free (Assoc.values names) name]).Nodup := by
      refine List.nodup_append.mpr ⟨hnames, List.nodup_singleton _, ?_⟩
      rintro taken htaken _ hlast rfl
      exact free_not_mem _ _ (List.mem_singleton.mp hlast ▸ htaken)
    obtain ⟨hstart, htable, hdistinct⟩ :=
      ih (by rwa [hkeys, List.append_assoc]) (by rwa [hvalues]) h
    refine ⟨(List.prefix_append _ _).trans hstart, ?_, hdistinct⟩
    rw [htable, hkeys, List.append_assoc]
    rfl

/-- The places of listed schemas: that of the root, if it is listed, and those of all others in
order. -/
def places (schemas : FlatSchemas) : List SchemaPath :=
  (if Assoc.contains schemas .root then [.root] else []) ++
    (Assoc.keys schemas).filter fun path => !path.isRoot

/-- The places of listed schemas are the keys of the table. -/
theorem mem_places {schemas : FlatSchemas} {path : SchemaPath} :
    path ∈ places schemas ↔ path ∈ Assoc.keys schemas := by
  have hroot : path.isRoot = true ↔ path = .root := by
    obtain ⟨segments⟩ := path
    rw [SchemaPath.isRoot, List.isEmpty_iff, SchemaPath.root, SchemaPath.mk.injEq]
  rw [places, List.mem_append, List.mem_filter, Bool.not_eq_true', Bool.eq_false_iff, ne_eq, hroot]
  split_ifs with hcontains
  · rw [← Assoc.mem_keys_iff_contains] at hcontains
    rw [List.mem_singleton]
    by_cases heq : path = .root
    · exact ⟨fun _ => heq ▸ hcontains, fun _ => .inl heq⟩
    · exact ⟨fun h => (h.resolve_left heq).1, fun h => .inr ⟨h, heq⟩⟩
  · rw [← Assoc.mem_keys_iff_contains] at hcontains
    refine ⟨fun h => (h.resolve_left List.not_mem_nil).1, fun h => .inr ⟨h, ?_⟩⟩
    rintro rfl
    exact hcontains h

/-- The names are those of all schemas, the root first, and no two of them are the same. -/
theorem table_eq_ok {schemas : FlatSchemas} {rootName : String} {names : Table}
    (hnodup : (Assoc.keys schemas).Nodup) (h : table schemas rootName = .ok names) :
    Assoc.keys names = places schemas ∧ (places schemas).Nodup ∧ (Assoc.values names).Nodup ∧
      (Assoc.contains schemas .root → Assoc.find? names .root = some rootName) := by
  unfold table at h
  have hothers := hnodup.filter fun path => !path.isRoot
  by_cases hroot : Assoc.contains schemas .root = true
  · rw [if_pos hroot] at h
    have hplaces :
        ([SchemaPath.root] ++ (Assoc.keys schemas).filter fun path => !path.isRoot).Nodup := by
      refine List.nodup_cons.mpr ⟨fun hmem => ?_, hothers⟩
      cases (List.mem_filter.mp hmem).2
    have hvalue : (Assoc.values [(SchemaPath.root, rootName)]).Nodup := List.nodup_singleton _
    obtain ⟨⟨rest, rfl⟩, hkeys, hvalues⟩ := assign_eq_ok hplaces hvalue h
    rw [places, if_pos hroot]
    exact ⟨hkeys, hplaces, hvalues, fun _ => rfl⟩
  · rw [if_neg hroot] at h
    have hvalue : (Assoc.values ([] : Table)).Nodup := List.nodup_nil
    obtain ⟨-, hkeys, hvalues⟩ := assign_eq_ok hothers hvalue h
    rw [places, if_neg hroot]
    exact ⟨hkeys, hothers, hvalues, fun hcontains => absurd hcontains hroot⟩

end ClassName

/-! ### Types -/

/-- Whether a class is named in a type, at any depth. -/
inductive PropertyType.Names (className : String) : PropertyType → Prop where
  /-- As the type itself. -/
  | model : Names className (.model className)
  /-- In the elements of a list. -/
  | list {element : PropertyType} (h : Names className element) : Names className (.list element)
  /-- In the elements of a set. -/
  | set {element : PropertyType} (h : Names className element) : Names className (.set element)
  /-- In the values of a dictionary. -/
  | dict {value : PropertyType} (h : Names className value) : Names className (.dict value)

/-- A class is named in a type or not. -/
def PropertyType.decidableNames (className : String) :
    (type : PropertyType) → Decidable (type.Names className)
  | .primitive _ _ => isFalse nofun
  | .model other => decidable_of_iff (other = className) ⟨fun h => h ▸ .model, fun | .model => rfl⟩
  | .list element =>
    have := decidableNames className element
    decidable_of_iff (element.Names className) ⟨.list, fun | .list h => h⟩
  | .set element =>
    have := decidableNames className element
    decidable_of_iff (element.Names className) ⟨.set, fun | .set h => h⟩
  | .dict value =>
    have := decidableNames className value
    decidable_of_iff (value.Names className) ⟨.dict, fun | .dict h => h⟩
  | .multiple _ => isFalse nofun

instance (className : String) (type : PropertyType) : Decidable (type.Names className) :=
  type.decidableNames className

namespace Resolve

/-- A schema meets one reference at most. -/
theorem Meets.unique {path : SchemaPath} {schema value other : Json} (h : Meets path schema value)
    (h' : Meets path schema other) : value = other := by
  induction h with
  | ref href =>
    cases h' with
    | ref href' => exact Option.some.inj (href.symm.trans href')
    | pointer hnone => cases href.symm.trans hnone
    | items hnone => cases href.symm.trans hnone
    | pattern hnone => cases href.symm.trans hnone
  | pointer hnone htype =>
    cases h' with
    | ref href => cases href.symm.trans hnone
    | pointer _ htype' =>
      obtain rfl := DeclaredType.reference.inj (Except.ok.inj (htype.symm.trans htype'))
      rfl
    | items _ htype' => cases htype.symm.trans htype'
    | pattern _ htype' => cases htype.symm.trans htype'
  | items hnone htype hitems _ ih =>
    cases h' with
    | ref href => cases href.symm.trans hnone
    | pointer _ htype' => cases htype.symm.trans htype'
    | items _ _ hitems' hother =>
      obtain rfl := Option.some.inj (hitems.symm.trans hitems')
      exact ih hother
    | pattern _ htype' =>
      have hname := DeclaredType.single.inj (Except.ok.inj (htype.symm.trans htype'))
      exact absurd hname (by decide)
  | pattern hnone htype hmembers _ ih =>
    cases h' with
    | ref href => cases href.symm.trans hnone
    | pointer _ htype' => cases htype.symm.trans htype'
    | items _ htype' =>
      have hname := DeclaredType.single.inj (Except.ok.inj (htype.symm.trans htype'))
      exact absurd hname (by decide)
    | pattern _ _ hmembers' hother =>
      obtain ⟨rfl, rfl⟩ : _ ∧ _ := by simpa using hmembers.symm.trans hmembers'
      exact ih hother

/-- Whether a class is that of the schema which the only reference met at a place leads to. -/
def IsClassMet (names : ClassName.Table) (path : SchemaPath) (schema : Json) (className : String) :
    Prop :=
  ∃ pointer target, (∀ value, Meets path schema value ↔ value = .str pointer) ∧
    SchemaPath.ofPointer pointer = .ok target ∧ Assoc.find? names target = some className

section Met

variable {names : ClassName.Table} {path place : SchemaPath} {schema member : Json}
  {className pointer : String} {type : PropertyType}

/-- A class that is met in a part of a schema is met in the schema, if nothing else is. -/
theorem IsClassMet.of_meets (h : IsClassMet names place member className)
    (hmeets : ∀ value, Meets place member value → Meets path schema value) :
    IsClassMet names path schema className := by
  obtain ⟨pointer, target, hall, hpointer, htarget⟩ := h
  have hmet := hmeets _ ((hall _).mpr rfl)
  exact ⟨pointer, target, fun value => ⟨fun h => h.unique hmet, fun h => h ▸ hmet⟩, hpointer,
    htarget⟩

/-- A pointer that is met is the class of the schema that it leads to. -/
theorem isClassMet_of_modelOfPointer (hmet : Meets path schema (.str pointer))
    (h : modelOfPointer names pointer = .ok type) (hnames : type.Names className) :
    IsClassMet names path schema className := by
  obtain ⟨target, name, hpointer, htarget, rfl⟩ := exists_of_modelOfPointer h
  cases hnames
  exact ⟨pointer, target, fun value => ⟨fun h => h.unique hmet, fun h => h ▸ hmet⟩, hpointer,
    htarget⟩

/-- A class that is named in a list or a set is named in the type of the elements. -/
theorem names_arrayOf {schema : Entries} {element : PropertyType}
    (h : (arrayOf schema element).Names className) : element.Names className := by
  rcases arrayOf_cases schema element with heq | heq <;> rw [heq] at h
  · cases h with
    | set h => exact h
  · cases h with
    | list h => exact h

/-- A class that is named in the type of a schema is the one that is met. -/
theorem Typed.isClassMet (h : Typed names path schema type) (hnames : type.Names className) :
    IsClassMet names path schema className := by
  induction h with
  | anything => cases hnames
  | ref href h =>
    obtain ⟨pointer, rfl, h⟩ := exists_of_modelOfRef h
    exact isClassMet_of_modelOfPointer (.ref href) h hnames
  | pointer hnone htype h => exact isClassMet_of_modelOfPointer (.pointer hnone htype) h hnames
  | choice => cases hnames
  | primitive _ _ h =>
    obtain ⟨kind, format, rfl⟩ := exists_of_primitiveOf h
    cases hnames
  | array => cases names_arrayOf hnames
  | items hnone htype hitems _ ih =>
    exact (ih (names_arrayOf hnames)).of_meets fun value => .items hnone htype hitems
  | pattern hnone htype hmembers _ ih =>
    cases hnames with
    | dict hnames => exact (ih hnames).of_meets fun value => .pattern hnone htype hmembers
  | dict =>
    cases hnames with
    | dict hnames => cases hnames

end Met

/-! ### Classes -/

variable {names : ClassName.Table}

/-- Whether classes are those of all flattened schemas, under the names in a table. -/
structure Covers (schemas : FlatSchemas) (rootName : String) (names : ClassName.Table)
    (models : Models) : Prop where
  /-- Each schema is named once. -/
  complete : (Assoc.keys names).Perm (Assoc.keys schemas)
  /-- The root comes first, and the others in the order of the table. -/
  places : Assoc.keys names = ClassName.places schemas
  /-- The root has the name that it is given. -/
  root : Assoc.contains schemas .root → Assoc.find? names .root = some rootName
  /-- There is one class for each name, in the same order. -/
  classes : Assoc.keys models = Assoc.values names
  /-- No two classes have the same name. -/
  distinct : (Assoc.keys models).Nodup
  /-- A class has the properties of its schema, in the same order, and each class that is named in
  the type of a property is the one of a schema that the property refers to. -/
  properties : ∀ path className, Assoc.find? names path = some className →
    ∃ entry members properties, Assoc.find? schemas path = some entry ∧
      Assoc.find? entry "properties" = some (.obj members) ∧
      Assoc.find? models className = some properties ∧
      List.Forall₂ (fun member property => property.1 = member.1 ∧
        ∀ other, property.2.Names other → other ∈ Assoc.keys models ∧
          IsClassMet names (path ++ ["properties", member.1]) member.2 other) members properties

/-- The classes that are made of a table cover it. -/
theorem covers_of_classesOf {schemas : FlatSchemas} {rootName : String} {models : Models}
    (hnodup : (Assoc.keys schemas).Nodup) (hnames : ClassName.table schemas rootName = .ok names)
    (h : classesOf names schemas names = .ok models) : Covers schemas rootName names models := by
  obtain ⟨hplaces, hdistinct, hvalues, hroot⟩ := ClassName.table_eq_ok hnodup hnames
  have hclasses := forall₂_of_classesOf h
  have hkeys := keys_of_classesOf h
  have hmodels : (Assoc.keys models).Nodup := hkeys ▸ hvalues
  constructor
  case complete =>
    rw [hplaces]
    exact (List.perm_ext_iff_of_nodup hdistinct hnodup).mpr fun _ => ClassName.mem_places
  case places => exact hplaces
  case root => exact hroot
  case classes => exact hkeys
  case distinct => exact hmodels
  case properties =>
    intro path className hname
    obtain ⟨⟨name, properties⟩, hmodel, hsame, hclass⟩ :=
      exists_of_forall₂ hclasses (Assoc.mem_of_find? hname)
    obtain rfl : name = className := hsame
    obtain ⟨entry, members, hentry, hmembers, hproperties⟩ := exists_of_classOf hclass
    refine ⟨entry, members, properties, hentry, hmembers, ?_, ?_⟩
    · exact (Assoc.find?_eq_some_iff hmodels).mpr hmodel
    · refine (forall₂_of_propertiesOf hproperties).imp fun member property hpair => ?_
      refine ⟨hpair.1, fun other hother => ?_⟩
      have hmet := hpair.2.isClassMet hother
      obtain ⟨_, target, -, -, htarget⟩ := id hmet
      exact ⟨hkeys ▸ List.mem_map.mpr ⟨(target, other), Assoc.mem_of_find? htarget, rfl⟩, hmet⟩

end Resolve

/-- Classes that are made of a flattened table are complete and closed: there is one for each
schema, with its properties, and no other class is named in their types. -/
theorem resolve_complete {schemas : FlatSchemas} {rootName : String} {models : Models}
    (hnodup : (Assoc.keys schemas).Nodup) (h : resolve schemas rootName = .ok models) :
    ∃ names, ClassName.table schemas rootName = .ok names ∧
      Resolve.Covers schemas rootName names models := by
  obtain ⟨names, hnames, hmodels⟩ := exists_of_resolve h
  exact ⟨names, hnames, Resolve.covers_of_classesOf hnodup hnames hmodels⟩

/-- Schemas whose names are all the same but for underscores, and which refer to each other inside
lists, dictionaries and one-element lists of types. -/
def namesakes : FlatSchemas :=
  [(⟨["definitions", "a"]⟩, [("properties", .obj [("up", .obj [(refKey, .str "#")])])]),
    (⟨["definitions", "A"]⟩, [("properties", .obj [])]),
    (.root, [("properties", .obj [("all", .obj [(typeKey, .str "array"),
        ("items", .obj [(refKey, .str "#/definitions/A")])]),
      ("by", .obj [("patternProperties", .obj [(".*", .obj [(typeKey,
        .arr [.str "#/definitions/a"])])])])])])]

/-- The theorem at `namesakes`: the underscores tell the classes apart wherever they are named. -/
theorem resolve_complete_namesakes : (Assoc.keys namesakes).Nodup ∧
    ∃ models, resolve namesakes "A" = .ok models ∧
      models.map (fun model => (model.1, model.2.map fun property =>
        (property.1, property.2.display))) =
        [("A", [("all", "List<A__>"), ("by", "Dict<A_>")]), ("A_", [("up", "A")]), ("A__", [])] ∧
      ∃ names, ClassName.table namesakes "A" = .ok names ∧
        Resolve.Covers namesakes "A" names models := by
  have hnodup : (Assoc.keys namesakes).Nodup := by decide
  have hshown : (resolve namesakes "A").toOption.map (fun models =>
      models.map (fun model => (model.1, model.2.map fun property =>
        (property.1, property.2.display)))) =
      some [("A", [("all", "List<A__>"), ("by", "Dict<A_>")]), ("A_", [("up", "A")]),
        ("A__", [])] := by
    decide +kernel
  cases h : resolve namesakes "A" with
  | error error =>
    rw [h] at hshown
    cases hshown
  | ok models =>
    rw [h] at hshown
    exact ⟨hnodup, models, rfl, Option.some.inj hshown, resolve_complete hnodup h⟩

end SchemaClasses
