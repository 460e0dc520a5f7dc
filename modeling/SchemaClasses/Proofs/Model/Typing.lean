import Mathlib.Data.List.Forall2
import SchemaClasses.Proofs.Model.Known

/-!
# What types schemas have

`Typed` says which type a property schema at a place has, with one rule for each way to read it. A
type that is read follows these rules (`typed_of_typeOf`), so what holds of all types that are read
is proved by induction on the rules. Classes have the types of the properties of their schemas, in
order (`forall₂_of_propertiesOf`, `forall₂_of_classesOf`).
-/

namespace SchemaClasses

/-- A computation in two steps succeeds only if the first step does and the second one with its
result. -/
theorem exists_of_bind_eq_ok {α β : Type} {x : Except ModelError α} {f : α → Except ModelError β}
    {b : β} (h : x >>= f = .ok b) : ∃ a, x = .ok a ∧ f a = .ok b := by
  cases x with
  | ok a => exact ⟨a, rfl, h⟩
  | error error => cases h

namespace Resolve

/-! ### Rules -/

/-- Whether a property schema at a place has a type. -/
inductive Typed (names : ClassName.Table) : SchemaPath → Json → PropertyType → Prop where
  /-- What is no object allows all values. -/
  | anything {path : SchemaPath} {value : Json} (h : ∀ schema, value ≠ .obj schema) :
      Typed names path value .anything
  /-- A reference is a class. -/
  | ref {path : SchemaPath} {schema : Entries} {value : Json} {type : PropertyType}
      (href : Assoc.find? schema refKey = some value) (h : modelOfRef names value = .ok type) :
      Typed names path (.obj schema) type
  /-- So is a pointer in place of a type. -/
  | pointer {path : SchemaPath} {schema : Entries} {pointer : String} {type : PropertyType}
      (hnone : Assoc.find? schema refKey = none)
      (htype : DeclaredType.ofSchema schema path = .ok (.reference pointer))
      (h : modelOfPointer names pointer = .ok type) : Typed names path (.obj schema) type
  /-- Several types are a choice between them. -/
  | choice {path : SchemaPath} {schema : Entries} {candidates : List String}
      (hnone : Assoc.find? schema refKey = none)
      (htype : DeclaredType.ofSchema schema path = .ok (.choice candidates)) :
      Typed names path (.obj schema) (.multiple candidates)
  /-- One type is a primitive one. -/
  | primitive {path : SchemaPath} {schema : Entries} {name : String} {type : PropertyType}
      (hnone : Assoc.find? schema refKey = none)
      (htype : DeclaredType.ofSchema schema path = .ok (.single name))
      (h : primitiveOf schema path name = .ok type) : Typed names path (.obj schema) type
  /-- An array without items may have any elements. -/
  | array {path : SchemaPath} {schema : Entries}
      (hnone : Assoc.find? schema refKey = none)
      (htype : DeclaredType.ofSchema schema path = .ok (.single "array"))
      (hitems : Assoc.find? schema "items" = none) :
      Typed names path (.obj schema) (arrayOf schema .anything)
  /-- Any other has elements of the type of its items. -/
  | items {path : SchemaPath} {schema : Entries} {items : Json} {element : PropertyType}
      (hnone : Assoc.find? schema refKey = none)
      (htype : DeclaredType.ofSchema schema path = .ok (.single "array"))
      (hitems : Assoc.find? schema "items" = some items)
      (h : Typed names (path.child "items") items element) :
      Typed names path (.obj schema) (arrayOf schema element)
  /-- A dictionary has the values of its only pattern. -/
  | pattern {path : SchemaPath} {schema : Entries} {pattern : String} {member : Json}
      {value : PropertyType} (hnone : Assoc.find? schema refKey = none)
      (htype : DeclaredType.ofSchema schema path = .ok (.single "object"))
      (hmembers : Assoc.find? schema "patternProperties" = some (.obj [(pattern, member)]))
      (h : Typed names (path ++ ["patternProperties", pattern]) member value) :
      Typed names path (.obj schema) (.dict value)
  /-- Any other may have all values. -/
  | dict {path : SchemaPath} {schema : Entries}
      (hnone : Assoc.find? schema refKey = none)
      (htype : DeclaredType.ofSchema schema path = .ok (.single "object"))
      (hmembers : ∀ pattern member, Assoc.find? schema "patternProperties" ≠
        some (.obj [(pattern, member)])) : Typed names path (.obj schema) (.dict .anything)

/-! ### Types that are read -/

/-- An array has the type of a set or of a list. -/
theorem arrayOf_cases (schema : Entries) (element : PropertyType) :
    arrayOf schema element = .set element ∨ arrayOf schema element = .list element := by
  unfold arrayOf
  split_ifs
  · exact .inl rfl
  · exact .inr rfl

variable {names : ClassName.Table}

/-- A reference is nothing but a class. -/
theorem exists_of_modelOfPointer {pointer : String} {type : PropertyType}
    (h : modelOfPointer names pointer = .ok type) : ∃ target name,
      SchemaPath.ofPointer pointer = .ok target ∧ Assoc.find? names target = some name ∧
      type = .model name := by
  unfold modelOfPointer at h
  split at h
  · cases h
  · rename_i target hpointer
    split at h
    · rename_i name hname
      exact ⟨target, name, hpointer, hname, (Except.ok.inj h).symm⟩
    · cases h

/-- A reference that has a type is a pointer with that type. -/
theorem exists_of_modelOfRef {value : Json} {type : PropertyType}
    (h : modelOfRef names value = .ok type) :
    ∃ pointer, value = .str pointer ∧ modelOfPointer names pointer = .ok type := by
  unfold modelOfRef at h
  split at h
  · exact ⟨_, rfl, h⟩
  · cases h

/-- A primitive type has a kind and a format. -/
theorem exists_of_primitiveOf {schema : Entries} {path : SchemaPath} {name : String}
    {type : PropertyType} (h : primitiveOf schema path name = .ok type) :
    ∃ kind format, type = .primitive kind format := by
  unfold primitiveOf at h
  split at h
  · exact ⟨_, _, (Except.ok.inj h).symm⟩
  · cases h

/-- Whether the type of a value that is read always follows the rules. -/
def ReadsTyped (names : ClassName.Table) (value : Json) : Prop :=
  ∀ path type, typeOf names path value = .ok type → Typed names path value type

/-- Reading an object follows the rules if reading its parts does. -/
theorem readsTyped_obj {schema : Entries} (hentries : ∀ entry ∈ schema, ReadsTyped names entry.2)
    (hpatterns : ∀ members, ("patternProperties", .obj members) ∈ schema →
      ∀ member ∈ members, ReadsTyped names member.2) : ReadsTyped names (.obj schema) := by
  intro path type h
  rw [typeOf_obj] at h
  cases href : Assoc.find? schema refKey with
  | some value =>
    rw [href] at h
    exact .ref href h
  | none =>
    rw [href] at h
    obtain ⟨declared, htype, h⟩ := exists_of_bind_eq_ok h
    cases declared with
    | reference pointer => exact .pointer href htype h
    | choice candidates =>
      obtain rfl := Except.ok.inj h
      exact .choice href htype
    | single name =>
      -- The name of the type decides between arrays, dictionaries and primitive types.
      dsimp only at h
      split_ifs at h with harray hobject
      · subst harray
        obtain ⟨element, helement, h⟩ := exists_of_bind_eq_ok h
        obtain rfl := Except.ok.inj h
        rw [itemsType_eq] at helement
        cases hitems : Assoc.find? schema "items" with
        | none =>
          rw [hitems] at helement
          obtain rfl := Except.ok.inj helement
          exact .array href htype hitems
        | some items =>
          rw [hitems] at helement
          exact .items href htype hitems
            (hentries _ (Assoc.mem_of_find? hitems) _ _ helement)
      · subst hobject
        obtain ⟨value, hvalue, h⟩ := exists_of_bind_eq_ok h
        obtain rfl := Except.ok.inj h
        rw [valuesType_eq] at hvalue
        cases hmembers : Assoc.find? schema "patternProperties" with
        | none =>
          rw [hmembers] at hvalue
          obtain rfl := Except.ok.inj hvalue
          exact .dict href htype fun _ _ heq => by cases hmembers.symm.trans heq
        | some members =>
          rw [hmembers] at hvalue
          dsimp only at hvalue
          unfold patternType at hvalue
          split at hvalue
          · rename_i pattern member
            exact .pattern href htype hmembers (hpatterns _ (Assoc.mem_of_find? hmembers)
              (pattern, member) List.mem_cons_self _ _ hvalue)
          · rename_i hother
            obtain rfl := Except.ok.inj hvalue
            refine .dict href htype fun pattern member heq => ?_
            exact hother pattern member (Option.some.inj (hmembers.symm.trans heq))
      · exact .primitive href htype h

/-- The schema of a pattern is two levels below, so the induction takes the entries along. -/
theorem readsTyped (value : Json) : ReadsTyped names value ∧
    ∀ schema, value = .obj schema → ∀ entry ∈ schema, ReadsTyped names entry.2 := by
  induction value using Json.induction with
  | obj schema ih =>
    have hentries : ∀ entry ∈ schema, ReadsTyped names entry.2 :=
      fun entry hentry => (ih entry hentry).1
    refine ⟨readsTyped_obj hentries fun members hmembers => ?_, fun others heq => ?_⟩
    · exact (ih _ hmembers).2 members rfl
    · exact Json.obj.inj heq ▸ hentries
  | _ => exact ⟨fun _ _ h => Except.ok.inj h ▸ .anything nofun, nofun⟩

/-- A type that is read follows the rules. -/
theorem typed_of_typeOf {path : SchemaPath} {value : Json} {type : PropertyType}
    (h : typeOf names path value = .ok type) : Typed names path value type :=
  (readsTyped value).1 path type h

/-! ### Classes -/

/-- The properties of a class are those of its schema, each with the type of its schema. -/
theorem forall₂_of_propertiesOf {path : SchemaPath} {members : Entries} {properties : Properties}
    (h : propertiesOf names path members = .ok properties) :
    List.Forall₂ (fun member property => property.1 = member.1 ∧
      Typed names (path ++ ["properties", member.1]) member.2 property.2) members properties := by
  induction members generalizing properties with
  | nil =>
    obtain rfl := Except.ok.inj h
    exact .nil
  | cons member rest ih =>
    rw [propertiesOf] at h
    obtain ⟨type, htype, h⟩ := exists_of_bind_eq_ok h
    obtain ⟨others, hothers, h⟩ := exists_of_bind_eq_ok h
    obtain rfl := Except.ok.inj h
    exact .cons ⟨rfl, typed_of_typeOf htype⟩ (ih hothers)

/-- The properties of a class are those that its listed schema has. -/
theorem exists_of_classOf {schemas : FlatSchemas} {path : SchemaPath} {properties : Properties}
    (h : classOf names schemas path = .ok properties) : ∃ entry members,
      Assoc.find? schemas path = some entry ∧
      Assoc.find? entry "properties" = some (.obj members) ∧
      propertiesOf names path members = .ok properties := by
  unfold classOf at h
  split at h
  · rename_i members hmembers
    obtain ⟨entry, hentry, hproperties⟩ := Option.bind_eq_some_iff.mp hmembers
    exact ⟨entry, members, hentry, hproperties, h⟩
  · cases h

/-- The classes are those of the named schemas, one by one. -/
theorem forall₂_of_classesOf {schemas : FlatSchemas} {table : ClassName.Table} {models : Models}
    (h : classesOf names schemas table = .ok models) :
    List.Forall₂ (fun named model => model.1 = named.2 ∧
      classOf names schemas named.1 = .ok model.2) table models := by
  induction table generalizing models with
  | nil =>
    obtain rfl := Except.ok.inj h
    exact .nil
  | cons named rest ih =>
    rw [classesOf] at h
    obtain ⟨properties, hproperties, h⟩ := exists_of_bind_eq_ok h
    obtain ⟨others, hothers, h⟩ := exists_of_bind_eq_ok h
    obtain rfl := Except.ok.inj h
    exact .cons ⟨rfl, hproperties⟩ (ih hothers)

/-- The classes have the names in the table, in their order. -/
theorem keys_of_classesOf {schemas : FlatSchemas} {table : ClassName.Table} {models : Models}
    (h : classesOf names schemas table = .ok models) :
    Assoc.keys models = Assoc.values table :=
  (map_eq_of_forall₂ (forall₂_of_classesOf h) fun _ _ hclass => hclass.1.symm).symm

/-- The type of each property of a class is that of a schema in the table of the class. -/
theorem exists_typed_of_classesOf {schemas : FlatSchemas} {table : ClassName.Table}
    {models : Models} (h : classesOf names schemas table = .ok models)
    {model : String × Properties} (hmodel : model ∈ models) {property : String × PropertyType}
    (hproperty : property ∈ model.2) :
    ∃ path entry members, ∃ member ∈ members, Assoc.find? schemas path = some entry ∧
      Assoc.find? entry "properties" = some (.obj members) ∧
      Typed names (path ++ ["properties", member.1]) member.2 property.2 := by
  obtain ⟨named, -, -, hclass⟩ := exists_of_forall₂ (forall₂_of_classesOf h).flip hmodel
  obtain ⟨entry, members, hentry, hmembers, hproperties⟩ := exists_of_classOf hclass
  obtain ⟨member, hmember, -, htyped⟩ :=
    exists_of_forall₂ (forall₂_of_propertiesOf hproperties).flip hproperty
  exact ⟨named.1, entry, members, member, hmember, hentry, hmembers, htyped⟩

end Resolve

/-- Classes are made under the names of a table. -/
theorem exists_of_resolve {schemas : FlatSchemas} {rootName : String} {models : Models}
    (h : resolve schemas rootName = .ok models) : ∃ names,
      ClassName.table schemas rootName = .ok names ∧
      Resolve.classesOf names schemas names = .ok models := by
  obtain ⟨resolver, hresolver, hmodels⟩ := exists_of_bind_eq_ok h
  obtain ⟨names, hnames, heq⟩ := exists_of_bind_eq_ok hresolver
  obtain rfl := Except.ok.inj heq
  exact ⟨names, hnames, hmodels⟩

end SchemaClasses
