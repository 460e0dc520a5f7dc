import SchemaClasses.Pipeline
import SchemaClasses.Proofs.Coupling.Walk
import SchemaClasses.Proofs.Model.Known

/-!
# The classes of coupled documents

Main statement (`modelsWithin_coupled`): coupled documents yield the same classes, or both yield
none, if the walk of the first one keeps to a guard.

Of the head of a property schema its reference and its type are read. `Coupling.Reads` says that
heads that may be left in place are read in the same way; the rest follows the recursion through
items and patterns.
-/

namespace SchemaClasses

open Merge Json Flatten

/-- The classes of a document if no walk goes below a depth. -/
def modelsWithin (depth : Nat) (document : Json) (rootName : String) :
    Except SchemaError Models := do
  let schemas ← (flattenWithin depth document).mapError .flatten
  (resolve schemas rootName).mapError .model

/-- Resolving the models of a document is reading the classes at the depth that suffices for it. -/
theorem resolveModels_eq (document : Json) (rootName : String) :
    resolveModels document rootName = modelsWithin (depthBound document) document rootName := by
  unfold resolveModels resolveFlattened modelsWithin
  rw [flatten]
  cases flattenWithin (depthBound document) document with
  | error error => rfl
  | ok schemas =>
    change Except.map Prod.snd (do
      let models ← (resolve schemas rootName).mapError SchemaError.model
      pure (schemas, models)) = (resolve schemas rootName).mapError .model
    cases resolve schemas rootName <;> rfl

/-- Documents that yield classes are flattened, and the classes are made of the table. -/
theorem exists_of_modelsWithin {depth : Nat} {document : Json} {rootName : String}
    {models : Models} (h : modelsWithin depth document rootName = .ok models) :
    ∃ schemas, flattenWithin depth document = .ok schemas ∧
      resolve schemas rootName = .ok models := by
  unfold modelsWithin at h
  cases hflatten : flattenWithin depth document with
  | error error =>
    rw [hflatten] at h
    cases h
  | ok schemas =>
    rw [hflatten] at h
    refine ⟨schemas, rfl, ?_⟩
    have hmap : (resolve schemas rootName).mapError SchemaError.model = .ok models := h
    cases hresolve : resolve schemas rootName with
    | error error =>
      rw [hresolve] at hmap
      cases hmap
    | ok found =>
      rw [hresolve] at hmap
      exact congrArg _ (Except.ok.inj hmap)

/-- Whether what may be left in place is read in the same way on both sides. -/
structure Coupling.Reads (coupling : Coupling) (guard : Guard) : Prop where
  /-- What stands in an object that may be left in place may be left in place. -/
  below : ∀ {schema : Entries}, guard.leaves (.obj schema) → ∀ entry ∈ schema, guard.leaves entry.2
  /-- Schemas have the same reference. -/
  ref : ∀ {schema schema' : Entries}, CoupledSchemas coupling schema schema' →
    guard.leaves (.obj schema) → Assoc.find? schema refKey = Assoc.find? schema' refKey
  /-- Without reference they declare the same type. -/
  declared : ∀ {schema schema' : Entries} (path : SchemaPath),
    CoupledSchemas coupling schema schema' → guard.leaves (.obj schema) →
    Assoc.find? schema refKey = none → (DeclaredType.ofSchema schema path).toOption =
      (DeclaredType.ofSchema schema' path).toOption

/-- A computation succeeds if its first part and then the rest do. -/
theorem toOption_bind {ε α β : Type} (x : Except ε α) (f : α → Except ε β) :
    (x >>= f).toOption = x.toOption.bind fun a => (f a).toOption := by
  cases x <;> rfl

/-- Two sequences succeed alike if their first steps do, and what comes after them. -/
theorem toOption_bind_congr {ε α β : Type} {x x' : Except ε α} {f f' : α → Except ε β}
    (hx : x.toOption = x'.toOption) (hf : ∀ a, (f a).toOption = (f' a).toOption) :
    (x >>= f).toOption = (x' >>= f').toOption := by
  rw [toOption_bind, toOption_bind, hx]
  exact congrArg _ (funext hf)

namespace Resolve

variable {coupling : Coupling} {guard : Guard} {names : ClassName.Table}

/-! ### Types -/

/-- Whether values that are coupled with this one are read as the same type. -/
def ReadAlike (coupling : Coupling) (guard : Guard) (names : ClassName.Table) (value : Json) :
    Prop :=
  ∀ {value' : Json} (path : SchemaPath), Coupled coupling .keywords value value' →
    guard.leaves value → (typeOf names path value).toOption = (typeOf names path value').toOption

/-- A switch depends on what is found under its keyword only. -/
theorem switch_eq {schema schema' : Entries} {keyword : String} (default : Bool)
    (h : Assoc.find? schema keyword = Assoc.find? schema' keyword) :
    switch schema keyword default = switch schema' keyword default := by
  unfold switch
  rw [h]

/-- Coupled values are the same text or no texts. -/
theorem text?_eq {keys : Keys} {value value' : Json} (h : Coupled coupling keys value value') :
    value.text? = value'.text? := by
  rcases h.cases_kind with ⟨-, rfl⟩ | ⟨_, _, rfl, rfl, -⟩ | ⟨_, _, rfl, rfl⟩ <;> rfl

/-- Coupled schemas are read as the same primitive type. -/
theorem primitiveOf_eq {schema schema' : Entries} (hlawful : coupling.Lawful)
    (h : CoupledSchemas coupling schema schema') (path : SchemaPath) (name : String) :
    primitiveOf schema path name = primitiveOf schema' path name := by
  have hformat : (Assoc.find? schema "format").bind text? =
      (Assoc.find? schema' "format").bind text? := by
    rcases h.find?_cases "format" (hlawful.counted _ (by decide)) with
      ⟨hnone, hnone'⟩ | ⟨value, value', hvalue, hvalue', hcoupled⟩
    · rw [hnone, hnone']
    · rw [hvalue, hvalue']
      exact text?_eq hcoupled
  unfold primitiveOf
  rw [hformat]

/-- Tables with one coupled schema each are read as its type, all others as anything. -/
theorem patternType_eq {members members' : Json} (path : SchemaPath)
    (hbelow : ∀ entries, members = .obj entries → ∀ entry ∈ entries,
      ReadAlike coupling guard names entry.2 ∧ guard.leaves entry.2)
    (h : Coupled coupling .names members members') :
    (patternType names path members).toOption = (patternType names path members').toOption := by
  rcases h.cases_kind with ⟨-, rfl⟩ | ⟨_, _, rfl, rfl, -⟩ | ⟨entries, others, rfl, rfl⟩
  · rfl
  · rw [patternType, patternType]
    · exact fun _ _ heq => by cases heq
    · exact fun _ _ heq => by cases heq
  · obtain ⟨-, hrelated⟩ := coupled_table_iff.mp h
    cases hrelated with
    | nil =>
      rw [patternType]
      exact fun _ _ heq => by cases heq
    | @cons entry other rest rest' hfirst hrest =>
      obtain ⟨pattern, member⟩ := entry
      obtain ⟨pattern', member'⟩ := other
      obtain ⟨hpattern, hcoupled⟩ := hfirst
      obtain rfl : pattern = pattern' := hpattern
      obtain ⟨hread, hleaves⟩ := hbelow _ rfl (pattern, member) List.mem_cons_self
      cases hrest with
      | nil =>
        rw [patternType, patternType]
        exact hread _ hcoupled hleaves
      | cons =>
        rw [patternType, patternType]
        · exact fun _ _ heq => by cases heq
        · exact fun _ _ heq => by cases heq

/-- Coupled schemas are read alike if their entries are, and the members of their patterns. -/
theorem readAlike_obj {schema : Entries} (hlawful : coupling.Lawful)
    (hreads : coupling.Reads guard)
    (hentries : ∀ entry ∈ schema, ReadAlike coupling guard names entry.2)
    (hpatterns : ∀ members, ("patternProperties", .obj members) ∈ schema →
      ∀ member ∈ members, ReadAlike coupling guard names member.2) :
    ReadAlike coupling guard names (.obj schema) := by
  intro value' path hcoupled hleaves
  obtain ⟨schema', rfl⟩ := hcoupled.exists_obj
  have h := coupled_schema_iff.mp hcoupled
  have href := hreads.ref h hleaves
  rw [typeOf_obj, typeOf_obj, ← href]
  cases hnone : Assoc.find? schema refKey with
  | some ref => rfl
  | none =>
    dsimp only
    refine toOption_bind_congr (hreads.declared path h hleaves hnone) fun declared => ?_
    cases declared with
    | reference pointer => rfl
    | choice candidates => rfl
    | single name =>
      dsimp only
      split_ifs
      -- the same switches decide between a list and a set of the elements
      · have hunique := switch_eq false (h.compared "uniqueItems" (by decide))
        have horder := switch_eq true (h.compared "insertionOrder" (by decide))
        refine toOption_bind_congr ?_ fun element => ?_
        · rw [itemsType_eq, itemsType_eq]
          rcases h.find?_cases "items" (hlawful.counted _ (by decide)) with
            ⟨hnone, hnone'⟩ | ⟨items, items', hitems, hitems', hbelow⟩
          · rw [hnone, hnone']
          · rw [hitems, hitems']
            exact hentries _ (Assoc.mem_of_find? hitems) _ hbelow
              (hreads.below hleaves _ (Assoc.mem_of_find? hitems))
        · unfold arrayOf
          rw [hunique, horder]
      · refine toOption_bind_congr ?_ fun value => rfl
        rw [valuesType_eq, valuesType_eq]
        rcases h.find?_cases "patternProperties" (hlawful.counted _ (by decide)) with
          ⟨hnone, hnone'⟩ | ⟨members, members', hmembers, hmembers', hbelow⟩
        · rw [hnone, hnone']
        · rw [hmembers, hmembers']
          have hmem := Assoc.mem_of_find? hmembers
          have hread : ∀ entries, members = .obj entries → ∀ entry ∈ entries,
              ReadAlike coupling guard names entry.2 ∧ guard.leaves entry.2 := by
            rintro entries rfl entry hentry
            exact ⟨hpatterns entries hmem entry hentry,
              hreads.below (hreads.below hleaves _ hmem) entry hentry⟩
          exact patternType_eq path hread hbelow
      · rw [primitiveOf_eq hlawful h]

/-- Coupled values are read as the same type. The schema of a pattern is two levels below, so the
induction takes the entries along. -/
theorem readAlike (hlawful : coupling.Lawful) (hreads : coupling.Reads guard) (value : Json) :
    ReadAlike coupling guard names value ∧ ∀ entries, value = .obj entries →
      ∀ entry ∈ entries, ReadAlike coupling guard names entry.2 := by
  have hother : ∀ {value : Json}, value.isObject = false →
      ReadAlike coupling guard names value := by
    intro value hvalue value' path h _
    rcases h.cases_kind with ⟨-, rfl⟩ | ⟨_, _, rfl, rfl, -⟩ | ⟨_, _, rfl, rfl⟩
    · rfl
    · rw [typeOf, typeOf] <;> exact fun _ heq => by cases heq
    · cases hvalue
  induction value using Json.induction with
  | obj entries ih =>
    have hentries : ∀ entry ∈ entries, ReadAlike coupling guard names entry.2 :=
      fun entry hentry => (ih entry hentry).1
    refine ⟨readAlike_obj hlawful hreads hentries fun members hmembers => ?_, fun others heq => ?_⟩
    · exact (ih _ hmembers).2 members rfl
    · exact Json.obj.inj heq ▸ hentries
  | _ => exact ⟨hother rfl, fun entries heq => by cases heq⟩

/-! ### Classes -/

/-- Coupled properties whose schemas may be left in place are read as the same types. -/
theorem propertiesOf_coupled (hlawful : coupling.Lawful) (hreads : coupling.Reads guard)
    (path : SchemaPath) {members members' : Entries}
    (h : Assoc.Related (fun _ => Coupled coupling .keywords) members members')
    (hleaves : ∀ member ∈ members, guard.leaves member.2) :
    (propertiesOf names path members).toOption = (propertiesOf names path members').toOption := by
  induction h with
  | nil => rfl
  | @cons entry other rest rest' hfirst _ ih =>
    obtain ⟨name, member⟩ := entry
    obtain ⟨name', member'⟩ := other
    obtain ⟨hname, hcoupled⟩ := hfirst
    obtain rfl : name = name' := hname
    have hrest := ih fun member hmember => hleaves member (List.mem_cons_of_mem _ hmember)
    refine toOption_bind_congr ((readAlike hlawful hreads member).1 _ hcoupled
      (hleaves _ List.mem_cons_self)) fun type => ?_
    exact toOption_bind_congr hrest fun others => rfl

/-- Coupled tables of schemas yield the same class at a place, or none. -/
theorem classOf_coupled (hlawful : coupling.Lawful) (hreads : coupling.Reads guard)
    {schemas schemas' : FlatSchemas}
    (h : Assoc.Related (CoupledEntries coupling guard) schemas schemas') (path : SchemaPath) :
    (classOf names schemas path).toOption = (classOf names schemas' path).toOption := by
  unfold classOf
  rcases h.find?_cases path with ⟨hnone, hnone'⟩ | ⟨entry, entry', hentry, hentry', hcoupled⟩
  · rw [hnone, hnone']
  rw [hentry, hentry', Option.bind_some, Option.bind_some]
  rcases hcoupled.coupled.find?_cases "properties" (hlawful.counted _ (by decide)) with
    ⟨hnone, hnone'⟩ | ⟨members, members', hmembers, hmembers', hbelow⟩
  · rw [hnone, hnone']
  rw [hmembers, hmembers']
  rcases hbelow.cases_kind with ⟨-, rfl⟩ | ⟨_, _, rfl, rfl, -⟩ | ⟨entries, others, rfl, rfl⟩
  · rfl
  · rfl
  · exact propertiesOf_coupled hlawful hreads path (coupled_table_iff.mp hbelow).2
      (hcoupled.members entries hmembers)

/-- Coupled tables are made into the same classes. -/
theorem resolve_coupled (hlawful : coupling.Lawful) (hreads : coupling.Reads guard)
    {schemas schemas' : FlatSchemas}
    (h : Assoc.Related (CoupledEntries coupling guard) schemas schemas') (rootName : String) :
    (resolve schemas rootName).toOption = (resolve schemas' rootName).toOption := by
  have htable : ClassName.table schemas rootName = ClassName.table schemas' rootName := by
    unfold ClassName.table
    rw [h.keys_eq, h.contains_eq]
  have hclasses : ∀ names table : ClassName.Table, (classesOf names schemas table).toOption =
      (classesOf names schemas' table).toOption := by
    intro names table
    induction table with
    | nil => rfl
    | cons named rest ih =>
      exact toOption_bind_congr (classOf_coupled hlawful hreads h named.1) fun properties =>
        toOption_bind_congr ih fun others => rfl
  unfold resolve Resolver.ofSchemas Resolver.models
  rw [htable]
  cases ClassName.table schemas' rootName with
  | error error => rfl
  | ok names => exact hclasses names names

end Resolve

/-- Coupled documents yield the same classes, or both yield none, if the walk of the first one keeps
to a guard. -/
theorem modelsWithin_coupled {coupling : Coupling} {guard : Guard} {document document' : Json}
    (hlawful : coupling.Lawful) (hfits : coupling.Fits guard)
    (hreads : coupling.Reads guard) (hdocuments : CoupledDocuments coupling document document')
    {depth : Nat} (hkeeps : KeepsTo guard depth document) (rootName : String) :
    (modelsWithin depth document rootName).toOption =
      (modelsWithin depth document' rootName).toOption := by
  have hmap : ∀ {ε δ α : Type} (x : Except ε α) (f : ε → δ),
      (x.mapError f).toOption = x.toOption := by
    intro ε δ α x f
    cases x <;> rfl
  unfold modelsWithin
  rw [toOption_bind, toOption_bind, hmap, hmap]
  rcases flattenWithin_coupled hlawful hfits hdocuments hkeeps with
    ⟨_, _, herror, herror'⟩ | ⟨schemas, schemas', hok, hok', hrelated⟩
  · rw [herror, herror']
    rfl
  · rw [hok, hok']
    change ((resolve schemas rootName).mapError _).toOption =
      ((resolve schemas' rootName).mapError _).toOption
    rw [hmap, hmap, Resolve.resolve_coupled hlawful hreads hrelated]

end SchemaClasses
