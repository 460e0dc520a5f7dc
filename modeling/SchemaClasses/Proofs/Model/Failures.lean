import SchemaClasses.Proofs.Model.Known

/-!
# Why classes cannot be made

Resolving fails with `noProperties` only where a class is made of a schema that has no table of
properties: reading the type of a property fails for its references and types alone
(`readsTypes`). So if all listed schemas have tables then every class has its properties
(`resolve_ne_noProperties`).
-/

namespace SchemaClasses

/-- Whether a computation fails with certain errors only. -/
def FailsWith {α : Type} (fail : ModelError → Prop) (result : Except ModelError α) : Prop :=
  ∀ error, result = .error error → fail error

section Rules

variable {α β : Type} {fail : ModelError → Prop}

/-- A result is no error. -/
theorem failsWith_ok (a : α) : FailsWith fail (.ok a : Except ModelError α) := nofun

/-- An error that is allowed for may be reported. -/
theorem failsWith_error {error : ModelError} (h : fail error) :
    FailsWith fail (.error error : Except ModelError α) :=
  fun _ heq => Except.error.inj heq ▸ h

/-- Of two computations in sequence, both may fail with such errors only. -/
theorem FailsWith.bind {x : Except ModelError α} (h : FailsWith fail x)
    {f : α → Except ModelError β} (hf : ∀ a, x = .ok a → FailsWith fail (f a)) :
    FailsWith fail (x >>= f) := by
  cases x with
  | ok a => exact hf a rfl
  | error error => exact fun other heq => h other (congrArg Except.error (Except.error.inj heq))

end Rules

/-- Whether an error is about the table of properties of some schema. -/
def ModelError.IsNoProperties (error : ModelError) : Prop :=
  ∃ path, error = .noProperties path

/-- An unknown type is not about the table of properties. -/
theorem failsWith_unknownType {α : Type} (path : SchemaPath) (name : String) :
    FailsWith (¬·.IsNoProperties) (.error (.unknownType path name) : Except ModelError α) :=
  failsWith_error nofun

/-! ### Names -/

namespace ClassName

/-- What goes wrong while names are given is not about the table of properties. -/
theorem failsWith_assign (names : Table) (paths : List SchemaPath) :
    FailsWith (¬·.IsNoProperties) (assign names paths) := by
  induction paths generalizing names with
  | nil => exact failsWith_ok _
  | cons path rest ih =>
    refine FailsWith.bind ?_ fun _ _ => ih _
    unfold base
    split
    · exact failsWith_ok _
    · exact failsWith_error nofun

/-- Only places that were named before or are listed are named. -/
theorem mem_of_mem_keys_assign {names table : Table} {paths : List SchemaPath}
    (h : assign names paths = .ok table) {path : SchemaPath} (hpath : path ∈ Assoc.keys table) :
    path ∈ Assoc.keys names ∨ path ∈ paths := by
  induction paths generalizing names with
  | nil =>
    obtain rfl := Except.ok.inj h
    exact .inl hpath
  | cons first rest ih =>
    rw [assign] at h
    cases hbase : base first with
    | error error =>
      rw [hbase] at h
      cases h
    | ok name =>
      rw [hbase] at h
      rcases ih h with hnamed | hrest
      · rw [Assoc.mem_keys_insert] at hnamed
        rcases hnamed with hold | rfl
        · exact .inl hold
        · exact .inr List.mem_cons_self
      · exact .inr (List.mem_cons_of_mem _ hrest)

/-- Only listed schemas are named. -/
theorem mem_keys_of_table {schemas : FlatSchemas} {rootName : String} {names : Table}
    (h : table schemas rootName = .ok names) {path : SchemaPath} (hpath : path ∈ Assoc.keys names) :
    path ∈ Assoc.keys schemas := by
  rcases mem_of_mem_keys_assign h hpath with hroot | hlisted
  · split_ifs at hroot with hcontains
    · obtain rfl := List.mem_singleton.mp hroot
      exact (Assoc.mem_keys_iff_contains _ _).mpr hcontains
    · exact absurd hroot List.not_mem_nil
  · exact List.mem_of_mem_filter hlisted

end ClassName

/-! ### Types -/

namespace Resolve

variable {names : ClassName.Table}

/-- What goes wrong with a pointer is not about the table of properties. -/
theorem failsWith_modelOfPointer (pointer : String) :
    FailsWith (¬·.IsNoProperties) (modelOfPointer names pointer) := by
  unfold modelOfPointer
  split
  · exact failsWith_error nofun
  · split
    · exact failsWith_ok _
    · exact failsWith_error nofun

/-- What goes wrong with a reference is not about the table of properties. -/
theorem failsWith_modelOfRef (value : Json) :
    FailsWith (¬·.IsNoProperties) (modelOfRef names value) := by
  unfold modelOfRef
  split
  · exact failsWith_modelOfPointer _
  · exact failsWith_error nofun

/-- What goes wrong with a declared type is not about the table of properties. -/
theorem failsWith_ofSchema (schema : Entries) (path : SchemaPath) :
    FailsWith (¬·.IsNoProperties) (DeclaredType.ofSchema schema path) := by
  unfold DeclaredType.ofSchema
  split
  · exact failsWith_ok _
  · exact failsWith_ok _
  · split
    · exact failsWith_unknownType _ _
    · exact failsWith_ok _
    · exact failsWith_ok _
    · exact failsWith_ok _
  · exact failsWith_unknownType _ _

/-- Whether reading a schema as a type never fails for a table of properties. -/
def ReadsType (names : ClassName.Table) (schema : Json) : Prop :=
  ∀ path, FailsWith (¬·.IsNoProperties) (typeOf names path schema)

/-- Reading an object as a type does not fail for its properties if reading its parts does not. -/
theorem readsType_obj {entries : Entries} (hentries : ∀ entry ∈ entries, ReadsType names entry.2)
    (hpatterns : ∀ members, ("patternProperties", .obj members) ∈ entries →
      ∀ member ∈ members, ReadsType names member.2) : ReadsType names (.obj entries) := by
  intro path
  rw [typeOf_obj]
  cases Assoc.find? entries refKey with
  | some value => exact failsWith_modelOfRef value
  | none =>
    refine (failsWith_ofSchema entries path).bind fun declared _ => ?_
    cases declared with
    | reference pointer => exact failsWith_modelOfPointer pointer
    | choice => exact failsWith_ok _
    | single name =>
      dsimp only
      split_ifs
      · refine FailsWith.bind ?_ fun _ _ => failsWith_ok _
        rw [itemsType_eq]
        cases hitems : Assoc.find? entries "items" with
        | none => exact failsWith_ok _
        | some items => exact hentries _ (Assoc.mem_of_find? hitems) _
      · refine FailsWith.bind ?_ fun _ _ => failsWith_ok _
        rw [valuesType_eq]
        cases hmembers : Assoc.find? entries "patternProperties" with
        | none => exact failsWith_ok _
        | some members =>
          dsimp only
          unfold patternType
          split
          · rename_i pattern member
            exact hpatterns _ (Assoc.mem_of_find? hmembers) (pattern, member) List.mem_cons_self _
          · exact failsWith_ok _
      · unfold primitiveOf
        split
        · exact failsWith_ok _
        · exact failsWith_unknownType _ _

/-- Every schema can be read so. The schema of a pattern is two levels below, so the induction takes
the entries along. -/
theorem readsTypes (schema : Json) : ReadsType names schema ∧
    ∀ entries, schema = .obj entries → ∀ entry ∈ entries, ReadsType names entry.2 := by
  induction schema using Json.induction with
  | obj entries ih =>
    have hentries : ∀ entry ∈ entries, ReadsType names entry.2 :=
      fun entry hentry => (ih entry hentry).1
    refine ⟨readsType_obj hentries fun members hmembers => ?_, fun others heq => ?_⟩
    · exact (ih _ hmembers).2 members rfl
    · exact Json.obj.inj heq ▸ hentries
  | _ => exact ⟨fun _ => failsWith_ok _, nofun⟩

/-- Reading the properties of a class does not fail for a table of properties. -/
theorem failsWith_propertiesOf (path : SchemaPath) (members : Entries) :
    FailsWith (¬·.IsNoProperties) (propertiesOf names path members) := by
  induction members with
  | nil => exact failsWith_ok _
  | cons member rest ih =>
    exact ((readsTypes member.2).1 _).bind fun _ _ => ih.bind fun _ _ => failsWith_ok _

/-- Every class has its properties if the schemas at all named places have tables of them. -/
theorem failsWith_classesOf {schemas : FlatSchemas} {table : ClassName.Table}
    (h : ∀ path ∈ Assoc.keys table, ∃ entry properties, Assoc.find? schemas path = some entry ∧
      Assoc.find? entry "properties" = some (.obj properties)) :
    FailsWith (¬·.IsNoProperties) (classesOf names schemas table) := by
  induction table with
  | nil => exact failsWith_ok _
  | cons named rest ih =>
    obtain ⟨entry, properties, hentry, hproperties⟩ := h named.1 List.mem_cons_self
    refine FailsWith.bind ?_ fun _ _ =>
      (ih fun path hpath => h path (List.mem_cons_of_mem _ hpath)).bind fun _ _ => failsWith_ok _
    unfold classOf
    rw [hentry, Option.bind_some, hproperties]
    exact failsWith_propertiesOf _ _

end Resolve

/-- No class lacks its properties if every listed schema has a table of them. -/
theorem resolve_ne_noProperties {schemas : FlatSchemas} (h : ∀ listed ∈ schemas,
      ∃ properties, Assoc.find? listed.2 "properties" = some (.obj properties))
    (rootName : String) (path : SchemaPath) :
    resolve schemas rootName ≠ .error (.noProperties path) := by
  have htable : FailsWith (¬·.IsNoProperties) (Resolver.ofSchemas schemas rootName) :=
    (ClassName.failsWith_assign _ _).bind fun _ _ => failsWith_ok _
  have hall : FailsWith (¬·.IsNoProperties) (resolve schemas rootName) := by
    refine htable.bind fun resolver hresolver => ?_
    cases hnames : ClassName.table schemas rootName with
    | error error =>
      rw [Resolver.ofSchemas, hnames] at hresolver
      cases hresolver
    | ok names =>
      rw [Resolver.ofSchemas, hnames] at hresolver
      obtain rfl := Except.ok.inj hresolver
      refine Resolve.failsWith_classesOf fun place hplace => ?_
      obtain ⟨entry, hentry⟩ :=
        Assoc.exists_find?_of_mem_keys (ClassName.mem_keys_of_table hnames hplace)
      obtain ⟨properties, hproperties⟩ := h _ (Assoc.mem_of_find? hentry)
      exact ⟨entry, properties, hentry, hproperties⟩
  exact fun heq => hall _ heq ⟨path, rfl⟩

end SchemaClasses
