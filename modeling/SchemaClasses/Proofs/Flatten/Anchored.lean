import SchemaClasses.Proofs.Flatten.CombinerFree
import SchemaClasses.Proofs.Flatten.Settled

/-!
# Where combiners may be folded

A combiner is folded at the place of the schema that has it. `Anchored` says that something holds of
all combiners that may be folded in a schema at or below its place, whatever it is merged with. What
does not count are schemas that declare another type: a merge takes no type away, so they are no
objects afterwards either (`declaresOnly_sides`).

A schema in which no combiner can be folded is `Inert`. The folded schema itself is treated as an
object in any case, so what is merged into it has to be `Spent`: its tables are inert whatever type
it has. Main statement (`keepsAnchored`): merging what is inert into a schema brings in no
combiners, so that all combiners stay anchored where they were. Both sides have to be plain, with
typed items: without a type it is not known yet whether items will count.
-/

namespace SchemaClasses.Flatten

/-- Whether something holds of all combiners that may be folded in a schema at a place, or below it,
and of their places. -/
inductive Anchored (holds : SchemaPath → String → Json → Prop) : SchemaPath → Json → Prop where
  /-- A schema with keywords. -/
  | schema {path : SchemaPath} {entries : Entries}
      (hcombiners : Merge.DeclaresOnly "object" entries → ∀ combiner ∈ combiners, ∀ value,
        Assoc.find? entries combiner = some value → holds path combiner value)
      (htables : Merge.DeclaresOnly "object" entries → ∀ keyword,
        keyword = "properties" ∨ keyword = "patternProperties" → ∀ members,
        Assoc.find? entries keyword = some (.obj members) → ∀ entry ∈ members,
        Anchored holds (path ++ [keyword, entry.1]) entry.2)
      (hitems : Merge.DeclaresOnly "array" entries → ∀ items,
        Assoc.find? entries "items" = some items → Anchored holds (path.child "items") items) :
      Anchored holds path (.obj entries)
  /-- Anything else. -/
  | noObject {path : SchemaPath} {value : Json} (hvalue : ∀ entries, value ≠ .obj entries) :
      Anchored holds path value

/-- Whether no combiner can be folded in a schema or below it, wherever it is put. -/
def Inert (schema : Json) : Prop :=
  ∀ path, Anchored (fun _ _ _ => False) path schema

/-- Whether something holds of all combiners that may be folded in the tables of a schema, whatever
its type. -/
def TablesAnchored (holds : SchemaPath → String → Json → Prop) (path : SchemaPath)
    (entries : Entries) : Prop :=
  ∀ keyword, keyword = "properties" ∨ keyword = "patternProperties" → ∀ members,
    Assoc.find? entries keyword = some (.obj members) → ∀ entry ∈ members,
    Anchored holds (path ++ [keyword, entry.1]) entry.2

/-- Whether no combiner can be folded in the items of a schema, if they count. -/
def ItemsInert (entries : Entries) : Prop :=
  Merge.DeclaresOnly "array" entries → ∀ items, Assoc.find? entries "items" = some items →
    Inert items

/-- What is merged into a schema whose combiners are being folded: it has no combiners, and none can
be folded below it. -/
structure Spent (entries : Entries) : Prop where
  lacks : lacksCombiners (.obj entries)
  /-- The tables count whatever the type is. -/
  tables : ∀ path, TablesAnchored (fun _ _ _ => False) path entries
  items : ItemsInert entries

variable {holds : SchemaPath → String → Json → Prop} {path place : SchemaPath}
  {entries target source : Entries} {typed : Bool} {good : String → Prop}

section Parts

variable (h : Anchored holds path (.obj entries))

include h

/-- What holds of all combiners of an anchored object holds of each of them. -/
theorem Anchored.combiner (hobject : Merge.DeclaresOnly "object" entries) {combiner : String}
    (hcombiner : combiner ∈ combiners) {value : Json}
    (hvalue : Assoc.find? entries combiner = some value) : holds path combiner value := by
  cases h with
  | schema hcombiners => exact hcombiners hobject combiner hcombiner value hvalue
  | noObject hother => exact absurd rfl (hother entries)

/-- The tables of an anchored object are anchored. -/
theorem Anchored.tables (hobject : Merge.DeclaresOnly "object" entries) :
    TablesAnchored holds path entries := by
  cases h with
  | schema _ htables => exact htables hobject
  | noObject hother => exact absurd rfl (hother entries)

/-- The items of an anchored array are anchored. -/
theorem Anchored.items (harray : Merge.DeclaresOnly "array" entries) {items : Json}
    (hitems : Assoc.find? entries "items" = some items) :
    Anchored holds (path.child "items") items := by
  cases h with
  | schema _ _ hall => exact hall harray items hitems
  | noObject hother => exact absurd rfl (hother entries)

end Parts

/-- What holds of the combiners may be weakened. -/
theorem Anchored.mono {holds' : SchemaPath → String → Json → Prop}
    (himp : ∀ path combiner value, holds path combiner value → holds' path combiner value)
    {value : Json} (h : Anchored holds path value) : Anchored holds' path value := by
  induction h with
  | schema hcombiners _ _ ihtables ihitems =>
    exact .schema (fun hobject combiner hcombiner value hvalue =>
      himp _ _ _ (hcombiners hobject combiner hcombiner value hvalue)) ihtables ihitems
  | noObject hother => exact .noObject hother

/-- Below what is inert there are no combiners of which anything would have to hold. -/
theorem Anchored.of_false {value : Json} (h : Anchored (fun _ _ _ => False) path value) :
    Anchored holds path value :=
  h.mono fun _ _ _ => False.elim

/-- What is no object is inert. -/
theorem inert_of_ne {value : Json} (h : ∀ entries, value ≠ .obj entries) : Inert value :=
  fun _ => .noObject h

/-- A spent schema is inert, since it has no combiners left to fold. -/
theorem Spent.inert (h : Spent entries) : Inert (.obj entries) := by
  refine fun path => .schema (fun _ combiner hcombiner value hvalue => ?_)
    (fun _ => h.tables path) fun harray items hitems => h.items harray items hitems _
  cases (find?_combiner h.lacks hcombiner).symm.trans hvalue

/-- A schema without combiners is spent if its tables are inert, and so are its items if they
count. -/
theorem spent_of_inert (hlacks : lacksCombiners (.obj entries))
    (htables : ∀ keyword, keyword = "properties" ∨ keyword = "patternProperties" → ∀ members,
      Assoc.find? entries keyword = some (.obj members) → ∀ entry ∈ members, Inert entry.2)
    (hitems : ItemsInert entries) : Spent entries :=
  ⟨hlacks, fun _ keyword hkeyword members hmembers entry hentry =>
    htables keyword hkeyword members hmembers entry hentry _, hitems⟩

/-- A reference put in place of a schema is spent. -/
theorem spent_reference (target : SchemaPath) : Spent [(refKey, .str target.toPointer)] := by
  have hother : ∀ keyword, keyword ≠ refKey →
      Assoc.find? [(refKey, Json.str target.toPointer)] keyword = none :=
    fun keyword hne => if_neg (Ne.symm hne)
  refine spent_of_inert rfl (fun keyword hkeyword members hmembers => ?_) fun _ items hitems => ?_
  · have hne : keyword ≠ refKey := by rcases hkeyword with rfl | rfl <;> decide
    cases (hother keyword hne).symm.trans hmembers
  · cases (hother "items" (by decide)).symm.trans hitems

/-- Without combiners a schema is inert, and so are the schemas of a table. -/
theorem inert_of_combinerFree (value : Json) (hfree : combinerFree value) :
    Inert value ∧ ∀ members, value = .obj members → ∀ entry ∈ members, Inert entry.2 := by
  induction value using Json.induction with
  | obj entries ih =>
    obtain ⟨hlacks, hbelow⟩ := Json.everywhere_obj.mp hfree
    have hinert := fun entry hentry => ih entry hentry (hbelow entry hentry)
    have hspent : Spent entries := spent_of_inert hlacks
      (fun keyword _ members hmembers => (hinert _ (Assoc.mem_of_find? hmembers)).2 members rfl)
      fun _ items hitems => (hinert _ (Assoc.mem_of_find? hitems)).1
    refine ⟨hspent.inert, fun members hmembers entry hentry => (hinert entry ?_).1⟩
    exact Json.obj.inj hmembers ▸ hentry
  | _ => exact ⟨inert_of_ne nofun, nofun⟩

/-- A schema without combiners anywhere in it is spent. -/
theorem spent_of_combinerFree (hfree : combinerFree (.obj entries)) : Spent entries := by
  obtain ⟨hlacks, hbelow⟩ := Json.everywhere_obj.mp hfree
  refine spent_of_inert hlacks (fun keyword _ members hmembers => ?_) fun _ items hitems => ?_
  · exact (inert_of_combinerFree _ (hbelow _ (Assoc.mem_of_find? hmembers))).2 members rfl
  · exact (inert_of_combinerFree _ (hbelow _ (Assoc.mem_of_find? hitems))).1

/-- No combiner is folded in an array but below its items. -/
theorem inert_array (harray : HasArrayType entries)
    (hitems : ∀ items, Assoc.find? entries "items" = some items → Inert items) :
    Inert (.obj entries) := by
  have hnot : ¬Merge.DeclaresOnly "object" entries := not_declaresOnly (by decide) harray
  exact fun path => .schema (fun h => absurd h hnot) (fun h => absurd h hnot)
    fun _ items hfind => hitems items hfind _

/-- A schema of another type is not walked. -/
theorem inert_other (hplain : Plain typed good .schema (.obj entries))
    (hshape : Shape.ofSchema entries = .other) : Inert (.obj entries) := by
  have hobject : ¬HasObjectType entries := fun h =>
    absurd ((ofSchema_eq_object.mpr h).symm.trans hshape) (by decide)
  have harray : ¬HasArrayType entries := fun h =>
    absurd ((ofSchema_eq_array.mpr h).symm.trans hshape) (by decide)
  have hnot : ¬Merge.DeclaresOnly "object" entries := fun h =>
    hobject (typeKey_of_declaresOnly (.inr rfl) hplain h)
  have hnot' : ¬Merge.DeclaresOnly "array" entries := fun h =>
    (typeKey_of_declaresOnly (.inl rfl) hplain h).elim (fun h => hobject (.inl h)) harray
  exact fun path => .schema (fun h => absurd h hnot) (fun h => absurd h hnot)
    fun h => absurd h hnot'

/-- Items that were walked may take the place of others. -/
theorem spent_insert_items (hfree : combinerFree (.obj entries)) {items : Json}
    (hitems : Inert items) : Spent (Assoc.insert entries "items" items) := by
  have hspent := spent_of_combinerFree hfree
  refine ⟨lacksCombiners_insert hspent.lacks (by decide), fun path keyword hkeyword => ?_,
    fun _ other hother => ?_⟩
  · have hne : "items" ≠ keyword := by rcases hkeyword with rfl | rfl <;> decide
    rw [Assoc.find?_insert_of_ne _ _ hne]
    exact hspent.tables path keyword hkeyword
  · rw [Assoc.find?_insert_self] at hother
    exact Option.some.inj hother ▸ hitems

/-! ### Merging -/

/-- Whether merging some object into anchored schemas, read as a schema, leaves them anchored. -/
def KeepsAnchored (good : String → Prop) (holds : SchemaPath → String → Json → Prop)
    (new : Entries) : Prop :=
  ∀ path place old, (merge old new place).conflict = none → Plain true good .schema (.obj old) →
    Plain true good .schema (.obj new) → Anchored holds path (.obj old) →
    Anchored (fun _ _ _ => False) path (.obj new) →
    Anchored holds path (.obj (merge old new place).value)

/-- The same for an object that is read as a table of schemas. -/
def KeepsTablesAnchored (good : String → Prop) (holds : SchemaPath → String → Json → Prop)
    (new : Entries) : Prop :=
  ∀ (path : SchemaPath) (keyword : String) (place : SchemaPath) old,
    (Merge.mergeEntries .names place old new).conflict = none →
    Plain true good .table (.obj old) → Plain true good .table (.obj new) →
    (∀ entry ∈ old, Anchored holds (path ++ [keyword, entry.1]) entry.2) →
    (∀ entry ∈ new, Anchored (fun _ _ _ => False) (path ++ [keyword, entry.1]) entry.2) →
    ∀ entry ∈ (Merge.mergeEntries .names place old new).value,
      Anchored holds (path ++ [keyword, entry.1]) entry.2

section Merging

variable (hagree : (merge target source place).conflict = none)
  (htarget : Plain true good .schema (.obj target))
  (hsource : Plain true good .schema (.obj source))

include hagree htarget

/-- What holds of the combiners of a schema holds of those that it has after a merge. -/
theorem combiners_merge {has : String → Json → Prop}
    (hlacks : ∀ combiner ∈ combiners, Assoc.find? source combiner = none)
    (h : ∀ combiner ∈ combiners, ∀ value, Assoc.find? target combiner = some value →
      has combiner value) :
    ∀ combiner ∈ combiners, ∀ value,
      Assoc.find? (merge target source place).value combiner = some value →
      has combiner value := by
  have hnone : ∀ key value, (key, value) ∈ source → key ∉ combiners := fun key _ hmem hkey =>
    Assoc.find?_eq_none_iff.mp (hlacks key hkey) (Assoc.mem_keys_of_mem hmem)
  intro combiner hcombiner value hvalue
  refine Merge.forall_mergeEntries (E := fun key value => key ∈ combiners → has key value)
    (fun key _ new hmem _ _ _ hkey => absurd hkey (hnone key _ hmem))
    (fun _ _ _ _ _ hkey => absurd hkey (by decide)) (fun _ _ _ _ hkey => absurd hkey (by decide))
    hagree (fun entry hentry hkey => ?_) (fun entry hentry hkey => absurd hkey (hnone _ _ hentry))
    _ (Assoc.mem_of_find? hvalue) hcombiner
  exact h _ hkey _ ((Assoc.find?_eq_some_iff htarget.nodup).mpr hentry)

include hsource

/-- Merging a spent source leaves the tables of an anchored target anchored, if that is so one level
below. -/
theorem tables_merge (hbelow : ∀ keyword, keyword = "properties" ∨ keyword = "patternProperties" →
      ∀ new, (keyword, .obj new) ∈ source → KeepsTablesAnchored good holds new)
    (h : TablesAnchored holds path target)
    (h' : TablesAnchored (fun _ _ _ => False) path source) :
    TablesAnchored holds path (merge target source place).value := by
  -- what stands under such a key is plain, and anchored on either side
  have hsides : ∀ {holds : SchemaPath → String → Json → Prop} {entries : Entries},
      Plain true good .schema (.obj entries) → TablesAnchored holds path entries →
      ∀ entry ∈ entries, entry.1 = "properties" ∨ entry.1 = "patternProperties" →
      ∀ members, entry.2 = .obj members → Plain true good .table (.obj members) ∧
        ∀ member ∈ members, Anchored holds (path ++ [entry.1, member.1]) member.2 := by
    rintro holds entries hplain htables ⟨key, value⟩ hentry hkey members rfl
    have hfind := (Assoc.find?_eq_some_iff hplain.nodup).mpr hentry
    refine ⟨?_, htables key hkey members hfind⟩
    have htable := hplain.entry hentry
    rcases hkey with rfl | rfl <;> exact htable
  intro keyword hkeyword members hmembers
  refine (Merge.forall_mergeEntries
    (E := fun key value => key = "properties" ∨ key = "patternProperties" → ∀ members,
      value = .obj members → Plain true good .table (.obj members) ∧
        ∀ member ∈ members, Anchored holds (path ++ [key, member.1]) member.2)
    (fun key old new hmem _ hinner hold hkey _ heq => ?_) (fun _ _ _ _ _ hkey => ?_)
    (fun _ _ _ _ hkey => ?_) hagree (hsides htarget h) (fun entry hentry hkey members heq => ?_) _
    (Assoc.mem_of_find? hmembers) hkeyword members rfl).2
  · obtain rfl := Json.obj.inj heq
    obtain ⟨hplain, hall⟩ := hold hkey old rfl
    obtain ⟨hplain', hall'⟩ := hsides hsource h' _ hmem hkey new rfl
    have hnames : Merge.Keys.below .keywords key = .names := by
      rcases hkey with rfl | rfl <;> rfl
    rw [hnames] at hinner ⊢
    exact ⟨Plain.mergeEntries (.obj new) rfl .names hinner hplain hplain',
      hbelow key hkey new hmem path key _ old hinner hplain hplain' hall hall'⟩
  · exact absurd hkey (by decide)
  · exact absurd hkey (by decide)
  · obtain ⟨hplain, hall⟩ := hsides hsource h' entry hentry hkey members heq
    exact ⟨hplain, fun member hmember => (hall member hmember).of_false⟩

/-- The same for items. -/
theorem items_merge (hbelow : ∀ new, ("items", .obj new) ∈ source → KeepsAnchored good holds new)
    (h : ∀ items, Assoc.find? target "items" = some items → Anchored holds path items)
    (h' : ∀ items, Assoc.find? source "items" = some items →
      Anchored (fun _ _ _ => False) path items) :
    ∀ items, Assoc.find? (merge target source place).value "items" = some items →
      Anchored holds path items := by
  have hsides : ∀ {holds : SchemaPath → String → Json → Prop} {entries : Entries},
      Plain true good .schema (.obj entries) →
      (∀ items, Assoc.find? entries "items" = some items → Anchored holds path items) →
      ∀ entry ∈ entries, entry.1 = "items" →
        Plain true good .schema entry.2 ∧ Anchored holds path entry.2 := by
    rintro holds entries hplain hall ⟨key, value⟩ hentry rfl
    exact ⟨hplain.entry hentry, hall value ((Assoc.find?_eq_some_iff hplain.nodup).mpr hentry)⟩
  intro items hitems
  refine (Merge.forall_mergeEntries
    (E := fun key value => key = "items" →
      Plain true good .schema value ∧ Anchored holds path value)
    (fun key old new hmem _ hinner hold hkey => ?_) (fun _ _ _ _ _ hkey => ?_)
    (fun _ _ _ _ hkey => ?_) hagree (hsides htarget h) (fun entry hentry hkey => ?_) _
    (Assoc.mem_of_find? hitems) rfl).2
  · subst hkey
    obtain ⟨hplain, hanchored⟩ := hold rfl
    obtain ⟨hplain', hinert⟩ := hsides hsource h' _ hmem rfl
    exact ⟨plain_merge hinner hplain hplain',
      hbelow new hmem _ _ old hinner hplain hplain' hanchored hinert⟩
  · exact absurd hkey (by decide)
  · exact absurd hkey (by decide)
  · obtain ⟨hplain, hinert⟩ := hsides hsource h' entry hentry hkey
    exact ⟨hplain, hinert.of_false⟩

end Merging

/-- What is anchored stays anchored when something inert is merged into it. -/
theorem keepsAnchored (source : Json) : ∀ new, source = .obj new →
    KeepsAnchored good holds new ∧ KeepsTablesAnchored good holds new := by
  induction source using Json.induction with
  | obj entries ih =>
    intro new hnew
    obtain rfl := Json.obj.inj hnew
    constructor
    · intro path place old hagree hplain hplain' h h'
      have honly : ∀ {name : String}, Merge.DeclaresOnly name (merge old entries place).value →
          Merge.DeclaresOnly name old ∧ Merge.DeclaresOnly name entries :=
        declaresOnly_sides hplain hplain' hagree
      refine .schema (fun hobject => ?_) (fun hobject => ?_) fun harray => ?_
      · obtain ⟨hobject, hobject'⟩ := honly hobject
        refine combiners_merge hagree hplain (fun combiner hcombiner => ?_)
          fun combiner hcombiner value hvalue => h.combiner hobject hcombiner hvalue
        exact Option.eq_none_iff_forall_ne_some.mpr fun value hvalue =>
          h'.combiner hobject' hcombiner hvalue
      · obtain ⟨hobject, hobject'⟩ := honly hobject
        exact tables_merge hagree hplain hplain' (fun _ _ new hmem => (ih _ hmem new rfl).2)
          (h.tables hobject) (h'.tables hobject')
      · obtain ⟨harray, harray'⟩ := honly harray
        exact items_merge hagree hplain hplain' (fun new hmem => (ih _ hmem new rfl).1)
          (fun _ => h.items harray) fun _ => h'.items harray'
    · intro path keyword place old hagree hplain hplain' hall hall' entry hentry
      refine (Merge.forall_mergeEntries
        (E := fun key value => Plain true good .schema value ∧
          Anchored holds (path ++ [keyword, key]) value)
        (fun key old new hmem _ hinner hold => ?_) (fun hkeys => absurd hkeys (by decide))
        (fun hkeys => absurd hkeys (by decide)) hagree
        (fun entry hentry => ⟨hplain.member hentry, hall entry hentry⟩)
        (fun entry hentry => ⟨hplain'.member hentry, (hall' entry hentry).of_false⟩)
        entry hentry).2
      have hnew := hplain'.member hmem
      exact ⟨plain_merge hinner hold.1 hnew,
        (ih _ hmem new rfl).1 _ _ old hinner hold.1 hnew hold.2 (hall' _ hmem)⟩
  | _ => exact nofun

section Folded

variable (hagree : (merge target source place).conflict = none)
  (htarget : Plain true good .schema (.obj target))
  (hsource : Plain true good .schema (.obj source)) (h' : Spent source)

include hagree htarget hsource h'

/-- What is spent can be merged into a schema whatever type it has. -/
theorem TablesAnchored.merge (h : TablesAnchored holds path target) :
    TablesAnchored holds path (SchemaClasses.merge target source place).value :=
  tables_merge hagree htarget hsource (fun _ _ _ _ => (keepsAnchored _ _ rfl).2) h (h'.tables path)

/-- Items that are inert stay so in a merge with a spent source. -/
theorem ItemsInert.merge (h : ItemsInert target) :
    ItemsInert (SchemaClasses.merge target source place).value := by
  intro harray
  obtain ⟨harray, harray'⟩ := declaresOnly_sides htarget hsource hagree harray
  intro items hitems path
  exact items_merge hagree htarget hsource (fun _ _ => (keepsAnchored _ _ rfl).1)
    (fun items hitems => h harray items hitems path)
    (fun items hitems => h'.items harray' items hitems path) items hitems

end Folded

end SchemaClasses.Flatten
