import SchemaClasses.Model.Resolve
import SchemaClasses.Proofs.Json.Places
import SchemaClasses.Proofs.Tables

/-!
# References to known classes

Resolving fails with `unknownRef` only where a reference is looked up, and `Meets` says which
references that are. All listed schemas are named (`mem_keys_table`), so if everything that is met
in their properties is a pointer to a listed place then no reference is unknown
(`knowsRefs_resolve`).
-/

namespace SchemaClasses

/-- Whether a computation does not fail because of an unknown reference. -/
def KnowsRefs {α : Type} (result : Except ModelError α) : Prop :=
  ∀ reference, result ≠ .error (.unknownRef reference)

section Rules

variable {α β : Type}

/-- A result is no unknown reference. -/
theorem knowsRefs_ok (a : α) : KnowsRefs (.ok a : Except ModelError α) := nofun

/-- If no unknown reference comes up in two computations, none does in one after the other. -/
theorem KnowsRefs.bind {x : Except ModelError α} (h : KnowsRefs x) {f : α → Except ModelError β}
    (hf : ∀ a, x = .ok a → KnowsRefs (f a)) : KnowsRefs (x >>= f) := by
  cases x with
  | ok a => exact hf a rfl
  | error error =>
    rintro reference heq
    exact h reference (congrArg Except.error (Except.error.inj heq))

end Rules

/-! ### Names -/

namespace ClassName

/-- Finding the base name of a place looks up no reference. -/
theorem knowsRefs_base (path : SchemaPath) : KnowsRefs (base path) := by
  unfold base
  split
  · exact knowsRefs_ok _
  · exact nofun

/-- Giving names looks up no reference. -/
theorem knowsRefs_assign (names : Table) (paths : List SchemaPath) :
    KnowsRefs (assign names paths) := by
  induction paths generalizing names with
  | nil => exact knowsRefs_ok _
  | cons path rest ih => exact (knowsRefs_base path).bind fun _ _ => ih _

/-- The places that were named stay named, and all others are named as well. -/
theorem mem_keys_assign {names table : Table} {paths : List SchemaPath}
    (h : assign names paths = .ok table) {path : SchemaPath}
    (hpath : path ∈ Assoc.keys names ∨ path ∈ paths) : path ∈ Assoc.keys table := by
  induction paths generalizing names with
  | nil =>
    obtain rfl := Except.ok.inj h
    exact hpath.resolve_right List.not_mem_nil
  | cons first rest ih =>
    rw [assign] at h
    cases hbase : base first with
    | error error =>
      rw [hbase] at h
      cases h
    | ok name =>
      rw [hbase] at h
      refine ih h ?_
      rw [Assoc.mem_keys_insert]
      rcases hpath with hnamed | hmem
      · exact .inl (.inl hnamed)
      · rcases List.mem_cons.mp hmem with rfl | hrest
        · exact .inl (.inr rfl)
        · exact .inr hrest

/-- All listed schemas are named. -/
theorem mem_keys_table {schemas : FlatSchemas} {rootName : String} {names : Table}
    (h : table schemas rootName = .ok names) {path : SchemaPath}
    (hpath : path ∈ Assoc.keys schemas) : path ∈ Assoc.keys names := by
  refine mem_keys_assign h ?_
  by_cases hroot : path.isRoot
  · obtain ⟨segments⟩ := path
    obtain rfl := List.isEmpty_iff.mp hroot
    have hcontains : Assoc.contains schemas .root := (Assoc.mem_keys_iff_contains _ _).mp hpath
    rw [if_pos hcontains]
    exact .inl List.mem_cons_self
  · exact .inr (List.mem_filter.mpr ⟨hpath, by simpa using hroot⟩)

end ClassName

/-! ### Types -/

namespace Resolve

/-- The texts of a list are all that is found in it. -/
theorem mem_distinctTexts {types : List Json} {found texts : List String}
    (h : DeclaredType.distinctTexts types found = .ok texts) :
    (∀ text ∈ found, text ∈ texts) ∧ ∀ type ∈ types, ∃ text ∈ texts, type = .str text := by
  induction types generalizing found with
  | nil =>
    obtain rfl := Except.ok.inj h
    exact ⟨fun _ htext => htext, fun _ hmem => absurd hmem List.not_mem_nil⟩
  | cons first rest ih =>
    cases first with
    | str name =>
      rw [DeclaredType.distinctTexts] at h
      obtain ⟨hfound, hrest⟩ := ih h
      have hname : name ∈ texts := by
        refine hfound name ?_
        split_ifs with hmem
        · exact hmem
        · exact List.mem_append_right _ List.mem_cons_self
      refine ⟨fun text htext => hfound text ?_, fun type htype => ?_⟩
      · split_ifs
        · exact htext
        · exact List.mem_append_left _ htext
      · rcases List.mem_cons.mp htype with rfl | hmem
        · exact ⟨name, hname, rfl⟩
        · exact hrest type hmem
    | _ => cases h

/-- Whether resolving the schema at a place looks up a reference. -/
inductive Meets : SchemaPath → Json → Json → Prop where
  /-- The reference of the schema itself. -/
  | ref {path : SchemaPath} {schema : Entries} {value : Json}
      (href : Assoc.find? schema refKey = some value) : Meets path (.obj schema) value
  /-- A pointer in place of a type. -/
  | pointer {path : SchemaPath} {schema : Entries} {pointer : String}
      (hnone : Assoc.find? schema refKey = none)
      (htype : DeclaredType.ofSchema schema path = .ok (.reference pointer)) :
      Meets path (.obj schema) (.str pointer)
  /-- One in the items of an array. -/
  | items {path : SchemaPath} {schema : Entries} {items value : Json}
      (hnone : Assoc.find? schema refKey = none)
      (htype : DeclaredType.ofSchema schema path = .ok (.single "array"))
      (hitems : Assoc.find? schema "items" = some items)
      (h : Meets (path.child "items") items value) : Meets path (.obj schema) value
  /-- One in the schema of the only pattern of an object. -/
  | pattern {path : SchemaPath} {schema : Entries} {pattern : String} {member value : Json}
      (hnone : Assoc.find? schema refKey = none)
      (htype : DeclaredType.ofSchema schema path = .ok (.single "object"))
      (hmembers : Assoc.find? schema "patternProperties" = some (.obj [(pattern, member)]))
      (h : Meets (path ++ ["patternProperties", pattern]) member value) :
      Meets path (.obj schema) value

/-- Whether a value is a pointer to one of some places. -/
def PointsTo (places : List SchemaPath) (value : Json) : Prop :=
  ∃ pointer path, value = .str pointer ∧ SchemaPath.ofPointer pointer = .ok path ∧ path ∈ places

/-- A pointer to a place with a name is known. -/
theorem knowsRefs_modelOfPointer {names : ClassName.Table} {pointer : String}
    (h : PointsTo (Assoc.keys names) (.str pointer)) :
    KnowsRefs (modelOfPointer names pointer) := by
  obtain ⟨text, path, htext, hpath, hmem⟩ := h
  obtain rfl := Json.str.inj htext
  obtain ⟨name, hname⟩ := Assoc.exists_find?_of_mem_keys hmem
  have heq : modelOfPointer names pointer = .ok (.model name) := by
    unfold modelOfPointer
    simp only [hpath, hname]
  rw [heq]
  exact knowsRefs_ok _

/-- A reference to a place with a name is known. -/
theorem knowsRefs_modelOfRef {names : ClassName.Table} {value : Json}
    (h : PointsTo (Assoc.keys names) value) : KnowsRefs (modelOfRef names value) := by
  obtain ⟨pointer, path, rfl, hpath⟩ := h
  unfold modelOfRef
  exact knowsRefs_modelOfPointer ⟨pointer, path, rfl, hpath⟩

/-- The type of the items is that of their schema, or anything if there is none. -/
theorem itemsType_eq (names : ClassName.Table) (path : SchemaPath) (schema : Entries) :
    itemsType names path schema = match Assoc.find? schema "items" with
      | some items => typeOf names (path.child "items") items
      | none => .ok .anything := by
  induction schema with
  | nil => rfl
  | cons entry rest ih =>
    obtain ⟨key, value⟩ := entry
    rw [itemsType, Assoc.find?]
    split_ifs
    · rfl
    · exact ih

/-- The type of the values is that of the patterns, or anything if there are none. -/
theorem valuesType_eq (names : ClassName.Table) (path : SchemaPath) (schema : Entries) :
    valuesType names path schema = match Assoc.find? schema "patternProperties" with
      | some members => patternType names path members
      | none => .ok .anything := by
  induction schema with
  | nil => rfl
  | cons entry rest ih =>
    obtain ⟨key, value⟩ := entry
    rw [valuesType, Assoc.find?]
    split_ifs
    · rfl
    · exact ih

/-- A primitive type looks up no reference. -/
theorem knowsRefs_primitiveOf (schema : Entries) (path : SchemaPath) (name : String) :
    KnowsRefs (primitiveOf schema path name) := by
  unfold primitiveOf
  split
  · exact knowsRefs_ok _
  · exact nofun

/-- Reading what a schema declares looks up no reference. -/
theorem knowsRefs_ofSchema (schema : Entries) (path : SchemaPath) :
    KnowsRefs (DeclaredType.ofSchema schema path) := by
  unfold DeclaredType.ofSchema
  split
  · exact knowsRefs_ok _
  · exact knowsRefs_ok _
  · split
    · exact nofun
    · exact knowsRefs_ok _
    · exact knowsRefs_ok _
    · exact knowsRefs_ok _
  · exact nofun

/-- Whether the references of a schema are known if everything is that is met at its place. -/
def IsKnownIfMet (names : ClassName.Table) (schema : Json) : Prop :=
  ∀ path, (∀ value, Meets path schema value → PointsTo (Assoc.keys names) value) →
    KnowsRefs (typeOf names path schema)

section Met

variable {names : ClassName.Table} {entries : Entries}

/-- The type of an object schema is that of its reference, or else what its declared type says. -/
theorem typeOf_obj (path : SchemaPath) : typeOf names path (.obj entries) =
    match Assoc.find? entries refKey with
    | some ref => modelOfRef names ref
    | none => (do
      match ← DeclaredType.ofSchema entries path with
      | .reference pointer => modelOfPointer names pointer
      | .choice candidates => return .multiple candidates
      | .single name =>
        if name = "array" then return arrayOf entries (← itemsType names path entries)
        else if name = "object" then return .dict (← valuesType names path entries)
        else primitiveOf entries path name) :=
  rfl

/-- If the references in the parts of an object are known where they are met, so are its own. -/
theorem isKnownIfMet_obj (hentries : ∀ entry ∈ entries, IsKnownIfMet names entry.2)
    (hpatterns : ∀ members, ("patternProperties", .obj members) ∈ entries →
      ∀ member ∈ members, IsKnownIfMet names member.2) : IsKnownIfMet names (.obj entries) := by
  intro path h
  rw [typeOf_obj]
  cases href : Assoc.find? entries refKey with
  | some value => exact knowsRefs_modelOfRef (h value (.ref href))
  | none =>
    refine (knowsRefs_ofSchema entries path).bind fun declared htype => ?_
    cases declared with
    | reference pointer => exact knowsRefs_modelOfPointer (h _ (.pointer href htype))
    | choice => exact knowsRefs_ok _
    | single name =>
      dsimp only
      split_ifs with harray hobject
      · subst harray
        have hitems : KnowsRefs (itemsType names path entries) := by
          rw [itemsType_eq]
          cases hitems : Assoc.find? entries "items" with
          | none => exact knowsRefs_ok _
          | some items =>
            refine hentries _ (Assoc.mem_of_find? hitems) _ fun value hvalue => ?_
            exact h value (.items href htype hitems hvalue)
        exact hitems.bind fun _ _ => knowsRefs_ok _
      · subst hobject
        have hvalues : KnowsRefs (valuesType names path entries) := by
          rw [valuesType_eq]
          cases hmembers : Assoc.find? entries "patternProperties" with
          | none => exact knowsRefs_ok _
          | some members =>
            dsimp only
            unfold patternType
            split
            · rename_i pattern member
              refine hpatterns _ (Assoc.mem_of_find? hmembers) (pattern, member)
                List.mem_cons_self _ fun value hvalue => ?_
              exact h value (.pattern href htype hmembers hvalue)
            · exact knowsRefs_ok _
        exact hvalues.bind fun _ _ => knowsRefs_ok _
      · exact knowsRefs_primitiveOf _ _ _

/-- The references of a schema are known if everything that is met is. The schema of a pattern is
two levels below, so the induction takes the entries along. -/
theorem isKnownIfMet (schema : Json) :
    IsKnownIfMet names schema ∧
      ∀ entries, schema = .obj entries → ∀ entry ∈ entries, IsKnownIfMet names entry.2 := by
  induction schema using Json.induction with
  | obj entries ih =>
    have hentries : ∀ entry ∈ entries, IsKnownIfMet names entry.2 :=
      fun entry hentry => (ih entry hentry).1
    refine ⟨isKnownIfMet_obj hentries fun members hmembers => ?_, fun others heq => ?_⟩
    · exact (ih _ hmembers).2 members rfl
    · exact Json.obj.inj heq ▸ hentries
  | _ => exact ⟨fun _ _ => knowsRefs_ok _, nofun⟩

end Met

/-! ### Classes -/

variable {names : ClassName.Table}

/-- Whether a reference is met in a property of the schema that is listed under a place. -/
def MeetsAt (schemas : FlatSchemas) (path : SchemaPath) (value : Json) : Prop :=
  ∃ entry members member, Assoc.find? schemas path = some entry ∧
    Assoc.find? entry "properties" = some (.obj members) ∧ member ∈ members ∧
    Meets (path ++ ["properties", member.1]) member.2 value

/-- The references of some properties are known if all that is met in them points to named
places. -/
theorem knowsRefs_propertiesOf {path : SchemaPath} {members : Entries}
    (h : ∀ member ∈ members, ∀ value,
      Meets (path ++ ["properties", member.1]) member.2 value →
      PointsTo (Assoc.keys names) value) : KnowsRefs (propertiesOf names path members) := by
  induction members with
  | nil => exact knowsRefs_ok _
  | cons member rest ih =>
    refine ((isKnownIfMet member.2).1 _ (h member List.mem_cons_self)).bind fun _ _ => ?_
    exact (ih fun other hmem => h other (List.mem_cons_of_mem _ hmem)).bind fun _ _ =>
      knowsRefs_ok _

/-- The references of some classes are known if all that is met in listed schemas points to named
places. -/
theorem knowsRefs_classesOf {schemas : FlatSchemas} {table : ClassName.Table}
    (h : ∀ path value, MeetsAt schemas path value → PointsTo (Assoc.keys names) value) :
    KnowsRefs (classesOf names schemas table) := by
  have hclass : ∀ path, KnowsRefs (classOf names schemas path) := by
    intro path
    unfold classOf
    split
    · rename_i members hmembers
      obtain ⟨entry, hentry, hproperties⟩ := Option.bind_eq_some_iff.mp hmembers
      exact knowsRefs_propertiesOf fun member hmember value hvalue =>
        h path value ⟨entry, members, member, hentry, hproperties, hmember, hvalue⟩
    · exact nofun
  induction table with
  | nil => exact knowsRefs_ok _
  | cons named rest ih =>
    exact (hclass named.1).bind fun _ _ => ih.bind fun _ _ => knowsRefs_ok _

end Resolve

/-- No reference is unknown if everything that is met points to a listed place. -/
theorem knowsRefs_resolve {schemas : FlatSchemas} {rootName : String}
    (h : ∀ path value, Resolve.MeetsAt schemas path value →
      Resolve.PointsTo (Assoc.keys schemas) value) : KnowsRefs (resolve schemas rootName) := by
  have htable : KnowsRefs (Resolver.ofSchemas schemas rootName) :=
    (ClassName.knowsRefs_assign _ _).bind fun _ _ => knowsRefs_ok _
  refine htable.bind fun resolver hresolver => ?_
  cases hnames : ClassName.table schemas rootName with
  | error error =>
    rw [Resolver.ofSchemas, hnames] at hresolver
    cases hresolver
  | ok names =>
    rw [Resolver.ofSchemas, hnames] at hresolver
    obtain rfl := Except.ok.inj hresolver
    refine Resolve.knowsRefs_classesOf fun path value hmet => ?_
    obtain ⟨pointer, target, heq, hpointer, htarget⟩ := h path value hmet
    exact ⟨pointer, target, heq, hpointer, ClassName.mem_keys_table hnames htarget⟩

end SchemaClasses
