import SchemaClasses.Proofs.Flatten.Plain

/-!
# Settled schemas

A schema is settled if nothing is left to be flattened in it, as far as classes are made of it: its
reference names a listed place, and otherwise its items or the schemas of its patterns are settled,
whichever its type makes count. For an object whose combiners are being folded the patterns do not
count yet (`HalfSettled`).

Merging settled schemas gives settled schemas (`keepsSettled`): when the merged schema is an array
or an object by its type, so was each side that declared a type, and had settled what counts for it.
-/

namespace SchemaClasses.Flatten

variable {listed : SchemaPath → Prop} {typed : Bool} {good : String → Prop}

/-- Whether a value is a reference to a listed place. -/
def NamesListed (listed : SchemaPath → Prop) (value : Json) : Prop :=
  ∃ path, value = .str path.toPointer ∧ listed path

/-- A reference to a listed place still is one when more places are listed. -/
theorem NamesListed.mono {more : SchemaPath → Prop} (hmore : ∀ path, listed path → more path)
    {value : Json} (h : NamesListed listed value) : NamesListed more value := by
  obtain ⟨path, hpath, hlisted⟩ := h
  exact ⟨path, hpath, hmore path hlisted⟩

/-- Whether nothing is left to be flattened in a schema as far as classes are made of it. -/
inductive Settled (listed : SchemaPath → Prop) : Json → Prop where
  /-- A schema with keywords. -/
  | schema {entries : Entries}
      (href : ∀ value, Assoc.find? entries refKey = some value → NamesListed listed value)
      (hitems : Assoc.find? entries refKey = none → HasArrayType entries →
        ∀ items, Assoc.find? entries "items" = some items → Settled listed items)
      (hpatterns : Assoc.find? entries refKey = none → HasObjectType entries →
        ∀ members, Assoc.find? entries "patternProperties" = some (.obj members) →
        ∀ entry ∈ members, Settled listed entry.2) : Settled listed (.obj entries)
  /-- Anything else. -/
  | noObject {value : Json} (hvalue : ∀ entries, value ≠ .obj entries) : Settled listed value

/-- Whether the reference and the items of a schema are settled. -/
structure HalfSettled (listed : SchemaPath → Prop) (entries : Entries) : Prop where
  /-- The reference names a listed place. -/
  ref : ∀ value, Assoc.find? entries refKey = some value → NamesListed listed value
  /-- The items of an array are settled. -/
  items : Assoc.find? entries refKey = none → HasArrayType entries →
    ∀ items, Assoc.find? entries "items" = some items → Settled listed items

/-- A settled schema has a settled reference and settled items. -/
theorem Settled.half {entries : Entries} (h : Settled listed (.obj entries)) :
    HalfSettled listed entries := by
  cases h with
  | schema href hitems _ => exact ⟨href, hitems⟩
  | noObject hvalue => exact absurd rfl (hvalue entries)

/-- The patterns of a settled object schema are settled. -/
theorem Settled.patterns {entries : Entries} (h : Settled listed (.obj entries))
    (href : Assoc.find? entries refKey = none) (hobject : HasObjectType entries)
    {members : Entries} (hmembers : Assoc.find? entries "patternProperties" = some (.obj members))
    {entry : String × Json} (hentry : entry ∈ members) : Settled listed entry.2 := by
  cases h with
  | schema _ _ hpatterns => exact hpatterns href hobject members hmembers entry hentry
  | noObject hvalue => exact absurd rfl (hvalue entries)

/-- More places may be listed. -/
theorem Settled.mono {more : SchemaPath → Prop} (hmore : ∀ path, listed path → more path)
    {value : Json} (h : Settled listed value) : Settled more value := by
  induction h with
  | schema href _ _ ih ih' =>
    exact .schema (fun value hvalue => (href value hvalue).mono hmore) ih ih'
  | noObject hvalue => exact .noObject hvalue

/-- A reference and items that are settled stay so when more places are listed. -/
theorem HalfSettled.mono {more : SchemaPath → Prop} (hmore : ∀ path, listed path → more path)
    {entries : Entries} (h : HalfSettled listed entries) : HalfSettled more entries := by
  refine ⟨fun value hvalue => (h.ref value hvalue).mono hmore, fun href harray items hitems => ?_⟩
  exact (h.items href harray items hitems).mono hmore

/-- Only the reference, the type and the items count. -/
theorem HalfSettled.congr {entries others : Entries} (h : HalfSettled listed entries)
    (href : Assoc.find? others refKey = Assoc.find? entries refKey)
    (htype : Assoc.find? others typeKey = Assoc.find? entries typeKey)
    (hitems : Assoc.find? others "items" = Assoc.find? entries "items") :
    HalfSettled listed others := by
  refine ⟨fun value hvalue => h.ref value (href ▸ hvalue), fun hnone harray items hfind => ?_⟩
  refine h.items (href ▸ hnone) ?_ items (hitems ▸ hfind)
  exact htype.symm.trans harray

/-- A schema without reference is settled if what its type makes count is. -/
theorem settled_of_textRef {entries : Entries} (hplain : Plain typed good .schema (.obj entries))
    (htext : textRef? entries = none)
    (hitems : HasArrayType entries → ∀ items, Assoc.find? entries "items" = some items →
      Settled listed items)
    (hpatterns : HasObjectType entries → ∀ members,
      Assoc.find? entries "patternProperties" = some (.obj members) →
      ∀ entry ∈ members, Settled listed entry.2) : Settled listed (.obj entries) := by
  have hnone := hplain.find?_refKey htext
  refine .schema (fun value hvalue => ?_) (fun _ => hitems) (fun _ => hpatterns)
  cases hnone.symm.trans hvalue

/-- A reference to a listed place is settled. -/
theorem settled_reference {path : SchemaPath} (h : listed path) :
    Settled listed (Reference.canonical path).toSchema := by
  refine .schema (fun value hvalue => ⟨path, ?_, h⟩) nofun nofun
  exact (Option.some.inj hvalue).symm

/-! ### What both sides of a merge declare -/

/-- A pointer is not the name of a type. -/
theorem toPointer_ne_typeName {path : SchemaPath} {name : String}
    (hname : name = "array" ∨ name = "object") : path.toPointer ≠ name := by
  intro heq
  have hdecode := path.ofPointer_toPointer
  rw [heq] at hdecode
  rcases hname with rfl | rfl <;> cases hdecode

/-- A type that lists a single name is that name. -/
theorem eq_str_of_alternatives {name : String} (hname : name = "array" ∨ name = "object")
    {value : Json} (htype : isTypeValue value)
    (h : ∀ alternative ∈ Merge.alternatives value, alternative = .str name) :
    value = .str name := by
  cases value with
  | arr types =>
    rw [isTypeValue, Bool.and_eq_true, Bool.not_eq_true'] at htype
    have hstructural : isStructural name := by
      rcases hname with rfl | rfl <;> rfl
    have hone : namesOne types = true := namesOne_of_forall hstructural h
    rw [hone] at htype
    cases htype.2
  | _ => exact h _ List.mem_cons_self

section Sides

variable {target source : Entries} {path : SchemaPath}

/-- A schema that declares a single name has that name as its type, or none. -/
theorem typeKey_of_declaresOnly {name : String} (hname : name = "array" ∨ name = "object")
    (hplain : Plain typed good .schema (.obj target)) (h : Merge.DeclaresOnly name target) :
    Assoc.find? target typeKey = none ∨ Assoc.find? target typeKey = some (.str name) := by
  cases htype : Assoc.find? target typeKey with
  | none => exact .inl rfl
  | some value =>
    have hvalue : isTypeValue value := Plain.isTypeValue (hplain.of_find? htype)
    rw [eq_str_of_alternatives hname hvalue (h value (Merge.mem_declared.mpr (.inl htype)))]
    exact .inr rfl

/-- A schema that declares a single name has no reference, and that name or no type. -/
theorem declares_of_declaresOnly {name : String} (hname : name = "array" ∨ name = "object")
    (hplain : Plain true good .schema (.obj target)) (hhalf : HalfSettled listed target)
    (h : Merge.DeclaresOnly name target) :
    Assoc.find? target refKey = none ∧
      (Assoc.find? target typeKey = none ∨ Assoc.find? target typeKey = some (.str name)) := by
  refine ⟨?_, typeKey_of_declaresOnly hname hplain h⟩
  cases href : Assoc.find? target refKey with
  | none => rfl
  | some value =>
    obtain ⟨place, rfl, -⟩ := hhalf.ref value href
    have heq := h _ (Merge.mem_declared.mpr (.inr href)) _ List.mem_cons_self
    exact absurd (Json.str.inj heq) (toPointer_ne_typeName hname)

/-- What the merged schema declares as its only type neither side contradicts. -/
theorem declaresOnly_sides {name : String} (htarget : Plain typed good .schema (.obj target))
    (hsource : Plain typed good .schema (.obj source))
    (hagree : (merge target source path).conflict = none)
    (h : Merge.DeclaresOnly name (merge target source path).value) :
    Merge.DeclaresOnly name target ∧ Merge.DeclaresOnly name source := by
  have hflat : ∀ {entries : Entries}, Plain typed good .schema (.obj entries) →
      ∀ entry ∈ entries, entry.1 = typeKey ∨ entry.1 = refKey → Merge.IsFlat entry.2 := by
    rintro entries hplain ⟨key, value⟩ hentry (rfl | rfl)
    · exact isFlat_of_isTypeValue (Plain.isTypeValue (hplain.entry hentry))
    · obtain ⟨text, heq, -⟩ := Plain.exists_text (hplain.entry hentry)
      obtain rfl : value = .str text := heq
      exact isFlat_of_isTypeValue rfl
  obtain ⟨honly, hentries⟩ := Merge.declaresOnly_of_merge (hflat htarget) (hflat hsource) hagree h
  refine ⟨honly, fun value hvalue => ?_⟩
  rcases Merge.mem_declared.mp hvalue with hfind | hfind
  · exact hentries _ (Assoc.mem_of_find? hfind) (.inl rfl)
  · exact hentries _ (Assoc.mem_of_find? hfind) (.inr rfl)

/-- What the merged schema declares as its only type both sides declare, or nothing. -/
theorem sides_of_declaresOnly {name : String} (hname : name = "array" ∨ name = "object")
    (htarget : Plain true good .schema (.obj target))
    (hsource : Plain true good .schema (.obj source))
    (hhalf : HalfSettled listed target) (hhalf' : HalfSettled listed source)
    (hagree : (merge target source path).conflict = none)
    (h : Merge.DeclaresOnly name (merge target source path).value) :
    (Assoc.find? target refKey = none ∧
      (Assoc.find? target typeKey = none ∨ Assoc.find? target typeKey = some (.str name))) ∧
    Assoc.find? source refKey = none ∧
      (Assoc.find? source typeKey = none ∨ Assoc.find? source typeKey = some (.str name)) := by
  obtain ⟨honly, honly'⟩ := declaresOnly_sides htarget hsource hagree h
  exact ⟨declares_of_declaresOnly hname htarget hhalf honly,
    declares_of_declaresOnly hname hsource hhalf' honly'⟩

/-- If the merged schema has neither type nor reference then neither side has. -/
theorem declares_nothing_of_merge (hagree : (merge target source path).conflict = none)
    (htype : Assoc.find? (merge target source path).value typeKey = none)
    (href : Assoc.find? (merge target source path).value refKey = none) :
    (Assoc.find? target typeKey = none ∧ Assoc.find? target refKey = none) ∧
      Assoc.find? source typeKey = none ∧ Assoc.find? source refKey = none := by
  have hnothing : Merge.declared (merge target source path).value = [] := by
    rw [Merge.declared, htype, href]
    rfl
  have htarget : ∀ key, key = typeKey ∨ key = refKey → Assoc.find? target key = none := by
    intro key hkey
    by_contra hsome
    obtain ⟨value, hvalue⟩ := Option.ne_none_iff_exists'.mp hsome
    refine Merge.declared_mergeEntries_ne_nil hagree (.inl ?_) hnothing
    refine List.ne_nil_of_mem (a := value) (Merge.mem_declared.mpr ?_)
    rcases hkey with rfl | rfl
    · exact .inl hvalue
    · exact .inr hvalue
  have hsource : ∀ key, key = typeKey ∨ key = refKey → Assoc.find? source key = none := by
    intro key hkey
    by_contra hsome
    obtain ⟨value, hvalue⟩ := Option.ne_none_iff_exists'.mp hsome
    exact Merge.declared_mergeEntries_ne_nil hagree
      (.inr ⟨_, Assoc.mem_of_find? hvalue, hkey⟩) hnothing
  exact ⟨⟨htarget _ (.inl rfl), htarget _ (.inr rfl)⟩, hsource _ (.inl rfl), hsource _ (.inr rfl)⟩

/-- A schema with a single type and without reference declares that type only. -/
theorem declaresOnly_of_find? {entries : Entries} {name : String}
    (href : Assoc.find? entries refKey = none)
    (htype : Assoc.find? entries typeKey = some (.str name)) :
    Merge.DeclaresOnly name entries := by
  intro value hvalue alternative halternative
  rcases Merge.mem_declared.mp hvalue with hfind | hfind
  · obtain rfl := Option.some.inj (htype.symm.trans hfind)
    exact List.mem_singleton.mp halternative
  · cases href.symm.trans hfind

/-- What declares one of the two types only does not have the other one. -/
theorem not_declaresOnly {node : Entries} {name other : String} (hne : name ≠ other)
    (htype : Assoc.find? node typeKey = some (.str name)) : ¬Merge.DeclaresOnly other node := by
  intro honly
  have heq := honly _ (Merge.mem_declared.mpr (.inl htype)) _ List.mem_cons_self
  exact hne (Json.str.inj heq)

/-- An object without reference declares nothing else. -/
theorem declaresOnly_of_hasObjectType {node : Entries}
    (href : Assoc.find? node refKey = none) (hobject : HasObjectType node) :
    Merge.DeclaresOnly "object" node := by
  rcases hobject with hnone | htype
  · intro value hvalue
    rw [Merge.declared, hnone, href] at hvalue
    exact absurd hvalue List.not_mem_nil
  · exact declaresOnly_of_find? href htype

/-- The items of a schema that is an array, or has no type and hence no items. -/
theorem HalfSettled.of_mem_items (hplain : Plain true good .schema (.obj target))
    (hhalf : HalfSettled listed target) (href : Assoc.find? target refKey = none)
    (htype : Assoc.find? target typeKey = none ∨
      Assoc.find? target typeKey = some (.str "array"))
    {value : Json} (hmem : ("items", value) ∈ target) : Settled listed value := by
  have hfind := (Assoc.find?_eq_some_iff hplain.nodup).mpr hmem
  rcases htype with hnone | harray
  · have hdeclared := hplain.declared_ne_nil rfl (Assoc.mem_keys_of_mem hmem)
    rw [Merge.declared, hnone, href] at hdeclared
    exact absurd rfl hdeclared
  · exact hhalf.items href harray value hfind

end Sides

/-! ### Merging -/

/-- Whether merging some object into settled schemas, read as a schema, gives settled schemas. -/
def KeepsSettled (good : String → Prop) (listed : SchemaPath → Prop) (new : Entries) : Prop :=
  ∀ path old, (merge old new path).conflict = none → Plain true good .schema (.obj old) →
    Plain true good .schema (.obj new) → Settled listed (.obj old) → Settled listed (.obj new) →
    Settled listed (.obj (merge old new path).value)

/-- The same for an object that is read as a table of schemas. -/
def KeepsMembersSettled (good : String → Prop) (listed : SchemaPath → Prop) (new : Entries) :
    Prop :=
  ∀ path old, (Merge.mergeEntries .names path old new).conflict = none →
    Plain true good .table (.obj old) → Plain true good .table (.obj new) →
    (∀ entry ∈ old, Settled listed entry.2) → (∀ entry ∈ new, Settled listed entry.2) →
    ∀ entry ∈ (Merge.mergeEntries .names path old new).value, Settled listed entry.2

section Merging

variable {target source : Entries} {path : SchemaPath}

/-- A merge of plain schemas is plain. -/
theorem plain_merge (hagree : (merge target source path).conflict = none)
    (htarget : Plain true good .schema (.obj target))
    (hsource : Plain true good .schema (.obj source)) :
    Plain true good .schema (.obj (merge target source path).value) :=
  Plain.mergeEntries (.obj source) rfl .keywords hagree htarget hsource

/-- A merge keeps references and items settled, if the merges of items do. -/
theorem halfSettled_merge
    (hitems : ∀ new, ("items", .obj new) ∈ source → KeepsSettled good listed new)
    (hagree : (merge target source path).conflict = none)
    (htarget : Plain true good .schema (.obj target))
    (hsource : Plain true good .schema (.obj source))
    (hhalf : HalfSettled listed target) (hhalf' : HalfSettled listed source) :
    HalfSettled listed (merge target source path).value := by
  have hfound : ∀ {entries : Entries}, Plain true good .schema (.obj entries) →
      HalfSettled listed entries → ∀ entry ∈ entries, entry.1 = refKey →
      NamesListed listed entry.2 := by
    rintro entries hplain hhalf ⟨key, value⟩ hentry rfl
    exact hhalf.ref value ((Assoc.find?_eq_some_iff hplain.nodup).mpr hentry)
  refine ⟨fun value hvalue => ?_, fun href harray items hfind => ?_⟩
  · refine Merge.forall_mergeEntries (E := fun key value => key = refKey → NamesListed listed value)
      (fun _ _ _ _ htype _ _ hkey => absurd ⟨rfl, .inr hkey⟩ htype) (fun _ _ _ _ _ hkey => ?_)
      (fun _ _ _ _ hkey => ?_) hagree (hfound htarget hhalf) (hfound hsource hhalf') _
      (Assoc.mem_of_find? hvalue) rfl
    · exact absurd hkey (by decide)
    · exact absurd hkey (by decide)
  · obtain ⟨⟨hnone, htype⟩, hnone', htype'⟩ := sides_of_declaresOnly (.inl rfl) htarget hsource
      hhalf hhalf' hagree (declaresOnly_of_find? href harray)
    -- the items of both sides are settled, and so are those that are merged
    have hsides : ∀ {entries : Entries}, Plain true good .schema (.obj entries) →
        HalfSettled listed entries → Assoc.find? entries refKey = none →
        (Assoc.find? entries typeKey = none ∨ Assoc.find? entries typeKey = some (.str "array")) →
        ∀ entry ∈ entries, entry.1 = "items" →
          Plain true good .schema entry.2 ∧ Settled listed entry.2 := by
      rintro entries hplain hhalf hnone htype ⟨key, value⟩ hentry rfl
      exact ⟨hplain.entry hentry, hhalf.of_mem_items hplain hnone htype hentry⟩
    refine (Merge.forall_mergeEntries
      (E := fun key value => key = "items" → Plain true good .schema value ∧ Settled listed value)
      (fun key old new hmem _ hagree hold hkey => ?_) (fun _ _ _ _ _ hkey => ?_)
      (fun _ _ _ _ hkey => ?_) hagree (hsides htarget hhalf hnone htype)
      (hsides hsource hhalf' hnone' htype') _ (Assoc.mem_of_find? hfind) rfl).2
    · subst hkey
      obtain ⟨hplain, hsettled⟩ := hold rfl
      obtain ⟨hplain', hsettled'⟩ := hsides hsource hhalf' hnone' htype' _ hmem rfl
      exact ⟨plain_merge hagree hplain hplain',
        hitems new hmem _ old hagree hplain hplain' hsettled hsettled'⟩
    · exact absurd hkey (by decide)
    · exact absurd hkey (by decide)

/-- The schemas of patterns are settled after a merge if they were on both sides. -/
theorem patterns_merge
    (hpatterns : ∀ new, ("patternProperties", .obj new) ∈ source →
      KeepsMembersSettled good listed new)
    (hagree : (merge target source path).conflict = none)
    (htarget : Plain true good .schema (.obj target))
    (hsource : Plain true good .schema (.obj source))
    (hsettled : Settled listed (.obj target)) (hsettled' : Settled listed (.obj source))
    (href : Assoc.find? (merge target source path).value refKey = none)
    (hobject : HasObjectType (merge target source path).value) {members : Entries}
    (hmembers : Assoc.find? (merge target source path).value "patternProperties" =
      some (.obj members)) : ∀ entry ∈ members, Settled listed entry.2 := by
  have hdeclares : (Assoc.find? target refKey = none ∧ HasObjectType target) ∧
      Assoc.find? source refKey = none ∧ HasObjectType source := by
    rcases hobject with hnone | htype
    · obtain ⟨hdeclared, hsource⟩ := declares_nothing_of_merge hagree hnone href
      exact ⟨⟨hdeclared.2, .inl hdeclared.1⟩, hsource.2, .inl hsource.1⟩
    · exact sides_of_declaresOnly (.inr rfl) htarget hsource hsettled.half hsettled'.half hagree
        (declaresOnly_of_find? href htype)
  obtain ⟨⟨hnone, htype⟩, hnone', htype'⟩ := hdeclares
  have hsides : ∀ {entries : Entries}, Plain true good .schema (.obj entries) →
      Settled listed (.obj entries) → Assoc.find? entries refKey = none → HasObjectType entries →
      ∀ entry ∈ entries, entry.1 = "patternProperties" → ∀ members, entry.2 = .obj members →
        Plain true good .table (.obj members) ∧ ∀ member ∈ members, Settled listed member.2 := by
    rintro entries hplain hsettled hnone htype ⟨key, value⟩ hentry rfl members rfl
    have hfind := (Assoc.find?_eq_some_iff hplain.nodup).mpr hentry
    exact ⟨hplain.entry hentry, fun member hmember => hsettled.patterns hnone htype hfind hmember⟩
  refine (Merge.forall_mergeEntries
    (E := fun key value => key = "patternProperties" → ∀ members, value = .obj members →
      Plain true good .table (.obj members) ∧ ∀ member ∈ members, Settled listed member.2)
    (fun key old new hmem _ hagree hold hkey _ heq => ?_) (fun _ _ _ _ _ hkey => ?_)
    (fun _ _ _ _ hkey => ?_) hagree (hsides htarget hsettled hnone htype)
    (hsides hsource hsettled' hnone' htype') _ (Assoc.mem_of_find? hmembers) rfl members rfl).2
  · subst hkey
    obtain rfl := Json.obj.inj heq
    obtain ⟨hplain, hall⟩ := hold rfl old rfl
    obtain ⟨hplain', hall'⟩ := hsides hsource hsettled' hnone' htype' _ hmem rfl new rfl
    exact ⟨Plain.mergeEntries (.obj new) rfl .names hagree hplain hplain',
      hpatterns new hmem _ old hagree hplain hplain' hall hall'⟩
  · exact absurd hkey (by decide)
  · exact absurd hkey (by decide)

end Merging

/-- What is settled stays settled. -/
theorem keepsSettled (source : Json) :
    ∀ new, source = .obj new →
      KeepsSettled good listed new ∧ KeepsMembersSettled good listed new := by
  induction source using Json.induction with
  | obj entries ih =>
    intro new hnew
    obtain rfl := Json.obj.inj hnew
    constructor
    · intro path old hagree hplain hplain' hsettled hsettled'
      have hhalf := halfSettled_merge (fun new hmem => (ih _ hmem new rfl).1) hagree hplain hplain'
        hsettled.half hsettled'.half
      refine .schema hhalf.ref hhalf.items fun href hobject members hmembers => ?_
      exact patterns_merge (fun new hmem => (ih _ hmem new rfl).2) hagree hplain hplain' hsettled
        hsettled' href hobject hmembers
    · intro path old hagree hplain hplain' hall hall' entry hentry
      have hsides : ∀ {members : Entries}, Plain true good .table (.obj members) →
          (∀ entry ∈ members, Settled listed entry.2) → ∀ entry ∈ members,
          Plain true good .schema entry.2 ∧ Settled listed entry.2 :=
        fun hplain hall entry hentry => ⟨hplain.member hentry, hall entry hentry⟩
      refine (Merge.forall_mergeEntries
        (E := fun _ value => Plain true good .schema value ∧ Settled listed value)
        (fun key old new hmem _ hagree hold => ?_) (fun hkeys => absurd hkeys (by decide))
        (fun hkeys => absurd hkeys (by decide)) hagree (hsides hplain hall) (hsides hplain' hall')
        entry hentry).2
      have hnew := hsides hplain' hall' _ hmem
      exact ⟨plain_merge hagree hold.1 hnew.1,
        (ih _ hmem new rfl).1 _ old hagree hold.1 hnew.1 hold.2 hnew.2⟩
  | _ => exact nofun

/-- Merging settled schemas gives a settled schema, as far as its patterns do not count. -/
theorem HalfSettled.merge {target source : Entries} {path : SchemaPath}
    (hagree : (merge target source path).conflict = none)
    (htarget : Plain true good .schema (.obj target))
    (hsource : Plain true good .schema (.obj source))
    (hhalf : HalfSettled listed target) (hhalf' : HalfSettled listed source) :
    HalfSettled listed (SchemaClasses.merge target source path).value :=
  halfSettled_merge (fun _ _ => (keepsSettled _ _ rfl).1) hagree htarget hsource hhalf hhalf'

end SchemaClasses.Flatten
