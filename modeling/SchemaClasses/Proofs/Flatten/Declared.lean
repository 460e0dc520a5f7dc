import SchemaClasses.Proofs.Flatten.Reachability
import SchemaClasses.Proofs.Json.Throughout
import SchemaClasses.Proofs.Merge.LookUp

/-!
# The properties that a schema declares

A merge of two schemas declares the properties of both (`Declares.merge_left`,
`Declares.merge_right`), provided that `properties` is a table on both sides (`isTabled`), and a
property that both declare as an object is merged in turn (`property?_merge`). A schema is `isTidy`
if this goes on one level down: the property with a given name keeps its own properties in a table
as well. Tidy schemas make a tidy schema (`isTidy_merge`).
-/

namespace SchemaClasses.Flatten

/-! ### Tables of properties -/

/-- The schema of a property that a schema declares. -/
def property? (schema : Entries) (name : String) : Option Json :=
  (Assoc.find? schema "properties").bind fun table => table.get? name

/-- Whether a schema has a table of properties, with some names among them. -/
def Declares (schema : Entries) (names : List String) : Prop :=
  ∃ members, Assoc.find? schema "properties" = some (.obj members) ∧ names ⊆ Assoc.keys members

/-- Whether a value is no truth value, and its `properties`, if it has any, are a table. -/
def isTabled : Json → Bool
  | .obj schema => (Assoc.find? schema "properties").all Json.isObject
  | .bool _ => false
  | _ => true

/-- Whether a schema keeps its properties in a table, and so does its property with some name, which
is an object then. -/
def isTidy (name : String) (schema : Entries) : Bool :=
  isTabled (.obj schema) &&
    (property? schema name).all fun property => property.isObject && isTabled property

section Tables

variable {schema members : Entries} {name : String} {names : List String}

/-- In a schema with a table of properties they are looked up in that. -/
theorem property?_of_find? (h : Assoc.find? schema "properties" = some (.obj members)) :
    property? schema name = Assoc.find? members name := by
  rw [property?, h]
  rfl

/-- A schema that declares a property has a table of properties. -/
theorem exists_of_property? {property : Json} (h : property? schema name = some property) :
    ∃ members, Assoc.find? schema "properties" = some (.obj members) ∧
      Assoc.find? members name = some property := by
  obtain ⟨table, htable, hproperty⟩ := Option.bind_eq_some_iff.mp h
  cases table with
  | obj members => exact ⟨members, htable, hproperty⟩
  | _ => cases hproperty

/-- Each name that a schema declares has a schema there. -/
theorem Declares.isSome (h : Declares schema names) (hname : name ∈ names) :
    (property? schema name).isSome := by
  obtain ⟨members, hmembers, hnames⟩ := h
  rw [property?_of_find? hmembers]
  exact (Assoc.mem_keys_iff_contains _ _).mp (hnames hname)

/-- A property depends only on what is found under `properties`. -/
theorem property?_congr {other : Entries}
    (h : Assoc.find? other "properties" = Assoc.find? schema "properties") :
    property? other name = property? schema name := by
  rw [property?, property?, h]

/-- The names that are declared depend only on what is found under `properties`. -/
theorem Declares.congr {other : Entries} (h : Declares schema names)
    (hother : Assoc.find? other "properties" = Assoc.find? schema "properties") :
    Declares other names := by
  obtain ⟨members, hmembers, hnames⟩ := h
  exact ⟨members, hother.trans hmembers, hnames⟩

/-- A schema is tabled if what it has under `properties` is a table. -/
theorem isTabled_iff : isTabled (.obj schema) ↔
    ∀ table, Assoc.find? schema "properties" = some table → ∃ members, table = .obj members := by
  rw [isTabled, Option.all_eq_true]
  constructor
  · exact fun h table htable => Json.exists_of_isObject (h table htable)
  · intro h table htable
    obtain ⟨members, rfl⟩ := h table htable
    rfl

/-- Whether a schema is tabled depends only on what is found under `properties`. -/
theorem isTabled_congr {other : Entries}
    (h : Assoc.find? other "properties" = Assoc.find? schema "properties") :
    isTabled (.obj other) = isTabled (.obj schema) := by
  rw [isTabled, isTabled, h]

/-- A schema that declares names is tabled. -/
theorem Declares.tabled (h : Declares schema names) : isTabled (.obj schema) := by
  obtain ⟨members, hmembers, -⟩ := h
  refine isTabled_iff.mpr fun table htable => ⟨members, ?_⟩
  exact Option.some.inj (htable.symm.trans hmembers)

/-- A schema with a property is tabled. -/
theorem tabled_of_property? {property : Json} (h : property? schema name = some property) :
    isTabled (.obj schema) := by
  obtain ⟨members, hmembers, -⟩ := exists_of_property? h
  have hdeclares : Declares schema [] := ⟨members, hmembers, List.nil_subset _⟩
  exact hdeclares.tabled

/-- A schema is tidy if it is tabled and its property is an object that is tabled as well. -/
theorem isTidy_iff : isTidy name schema ↔ isTabled (.obj schema) ∧
    ∀ property, property? schema name = some property →
      ∃ inner, property = .obj inner ∧ isTabled (.obj inner) := by
  rw [isTidy, Bool.and_eq_true, Option.all_eq_true]
  refine and_congr_right fun _ => forall₂_congr fun property _ => ?_
  rw [Bool.and_eq_true]
  constructor
  · rintro ⟨hobject, htabled⟩
    obtain ⟨inner, rfl⟩ := Json.exists_of_isObject hobject
    exact ⟨inner, rfl, htabled⟩
  · rintro ⟨inner, rfl, htabled⟩
    exact ⟨rfl, htabled⟩

/-- Whether a schema is tidy depends only on what is found under `properties`. -/
theorem isTidy_congr {other : Entries}
    (h : Assoc.find? other "properties" = Assoc.find? schema "properties") :
    isTidy name other = isTidy name schema := by
  rw [isTidy, isTidy, isTabled_congr h, property?_congr h]

/-- Without properties there is nothing to be kept in a table. -/
theorem isTidy_of_none (h : Assoc.find? schema "properties" = none) : isTidy name schema := by
  rw [isTidy, isTabled, property?, h]
  rfl

end Tables

/-- What holds throughout a schema holds throughout its properties. -/
theorem throughout_of_property? {E : String → Json → Prop} {schema : Entries} {name : String}
    {property : Json} (h : Json.Throughout E (.obj schema))
    (hproperty : property? schema name = some property) : Json.Throughout E property := by
  obtain ⟨members, hmembers, hfind⟩ := exists_of_property? hproperty
  exact (h.of_find? hmembers).of_find? hfind

/-! ### Merging -/

section Merging

open Merge

/-- No combiner comes in from a source that has none. -/
theorem find?_combiner_merge {target source : Entries} {path : SchemaPath} {combiner : String}
    (hagree : (merge target source path).conflict = none) (htarget : (Assoc.keys target).Nodup)
    (hsource : (Assoc.keys source).Nodup) (hcombiner : combiner ∈ combiners)
    (hnone : Assoc.find? source combiner = none) :
    Assoc.find? (merge target source path).value combiner = Assoc.find? target combiner := by
  have hkey : IsOrdinary .keywords combiner := by
    intro _
    refine ⟨?_, ?_, ?_⟩ <;> exact ne_of_mem_of_not_mem hcombiner (by decide)
  have hlook := find?_mergeEntries hkey htarget hsource hagree
  rwa [hnone, joined_none] at hlook

variable {E : String → Json → Prop} {target source : Entries} {path : SchemaPath} {name : String}
  {names : List String} (hagree : (merge target source path).conflict = none)
  (htarget : Json.Throughout E (.obj target)) (hsource : Json.Throughout E (.obj source))

include hagree htarget hsource

/-- Under most keywords a merge joins the values on both sides. -/
theorem find?_merge {keyword : String} (hkey : IsOrdinary .keywords keyword) :
    Assoc.find? (merge target source path).value keyword =
      joined .keywords path keyword (Assoc.find? target keyword) (Assoc.find? source keyword) :=
  find?_mergeEntries hkey htarget.nodup hsource.nodup hagree

/-- Two tables of properties become one. -/
theorem find?_properties_merge {old new : Entries}
    (hold : Assoc.find? target "properties" = some (.obj old))
    (hnew : Assoc.find? source "properties" = some (.obj new)) :
    ∃ merged, Assoc.find? (merge target source path).value "properties" = some (.obj merged) ∧
      (∀ key, Assoc.find? merged key = joined .names (path.child "properties") key
        (Assoc.find? old key) (Assoc.find? new key)) ∧
      ∀ key inner source, Assoc.find? old key = some (.obj inner) →
        Assoc.find? new key = some (.obj source) →
        (merge inner source ((path.child "properties").child key)).conflict = none := by
  have hkey : IsOrdinary .keywords "properties" := by decide
  have hinner := agree_of_objects hkey htarget.nodup hagree hold hnew
  have hlook := find?_merge hagree htarget hsource hkey
  rw [hold, hnew] at hlook
  have hname : ∀ key, IsOrdinary .names key := fun _ => nofun
  have hnodup := (htarget.of_find? hold).nodup
  refine ⟨_, hlook, fun key => ?_, fun key inner source hinner' hsource' => ?_⟩
  · exact find?_mergeEntries (hname key) hnodup (hsource.of_find? hnew).nodup hinner
  · exact agree_of_objects (hname key) hnodup hinner hinner' hsource'

/-- What the target declares is still declared. -/
theorem Declares.merge_left (h : Declares target names) (htabled : isTabled (.obj source)) :
    Declares (merge target source path).value names := by
  obtain ⟨old, hold, hnames⟩ := h
  cases hnew : Assoc.find? source "properties" with
  | none =>
    refine ⟨old, ?_, hnames⟩
    rw [find?_merge hagree htarget hsource (by decide), hnew, joined_none, hold]
  | some table =>
    obtain ⟨new, rfl⟩ := isTabled_iff.mp htabled table hnew
    obtain ⟨merged, hmerged, hlook, -⟩ := find?_properties_merge hagree htarget hsource hold hnew
    refine ⟨merged, hmerged, fun key hkey => ?_⟩
    rw [Assoc.mem_keys_iff_contains, Assoc.contains, hlook]
    apply isSome_joined
    left
    exact (Assoc.mem_keys_iff_contains _ _).mp (hnames hkey)

/-- What the source of a merge declares is declared by the result. -/
theorem Declares.merge_right (h : Declares source names) (htabled : isTabled (.obj target)) :
    Declares (merge target source path).value names := by
  obtain ⟨new, hnew, hnames⟩ := h
  cases hold : Assoc.find? target "properties" with
  | none =>
    refine ⟨new, ?_, hnames⟩
    rw [find?_merge hagree htarget hsource (by decide), hold, hnew]
    rfl
  | some table =>
    obtain ⟨old, rfl⟩ := isTabled_iff.mp htabled table hold
    obtain ⟨merged, hmerged, hlook, -⟩ := find?_properties_merge hagree htarget hsource hold hnew
    refine ⟨merged, hmerged, fun key hkey => ?_⟩
    rw [Assoc.mem_keys_iff_contains, Assoc.contains, hlook]
    apply isSome_joined
    right
    exact (Assoc.mem_keys_iff_contains _ _).mp (hnames hkey)

/-- Tables of properties make a table. -/
theorem isTabled_merge (htabled : isTabled (.obj target)) (htabled' : isTabled (.obj source)) :
    isTabled (.obj (merge target source path).value) := by
  cases hnew : Assoc.find? source "properties" with
  | none =>
    have hlook := find?_merge hagree htarget hsource (by decide : IsOrdinary .keywords "properties")
    rw [hnew, joined_none] at hlook
    rwa [isTabled_congr hlook]
  | some table =>
    obtain ⟨new, rfl⟩ := isTabled_iff.mp htabled' table hnew
    have hdeclares : Declares source [] := ⟨new, hnew, List.nil_subset _⟩
    exact (hdeclares.merge_right hagree htarget hsource htabled).tabled

/-- A property is joined from both sides. -/
theorem property?_merge (htabled : isTabled (.obj target)) (htabled' : isTabled (.obj source)) :
    property? (merge target source path).value name =
      joined .names (path.child "properties") name (property? target name)
        (property? source name) := by
  have hlook := find?_merge hagree htarget hsource (by decide : IsOrdinary .keywords "properties")
  cases hnew : Assoc.find? source "properties" with
  | none =>
    have hnone : property? source name = none := by rw [property?, hnew, Option.bind_none]
    rw [hnew, joined_none] at hlook
    rw [property?_congr hlook, hnone, joined_none]
  | some table =>
    obtain ⟨new, rfl⟩ := isTabled_iff.mp htabled' table hnew
    cases hold : Assoc.find? target "properties" with
    | none =>
      have hnone : property? target name = none := by rw [property?, hold, Option.bind_none]
      rw [hold, none_joined] at hlook
      rw [property?_congr hlook, hnone, none_joined]
    | some table =>
      obtain ⟨old, rfl⟩ := isTabled_iff.mp htabled table hold
      obtain ⟨merged, hmerged, hjoined, -⟩ :=
        find?_properties_merge hagree htarget hsource hold hnew
      rw [property?_of_find? hmerged, property?_of_find? hold, property?_of_find? hnew, hjoined]

/-- If both declare it as an object then the objects are merged without disagreement. -/
theorem exists_merge_of_property? {old new : Entries}
    (hold : property? target name = some (.obj old))
    (hnew : property? source name = some (.obj new)) :
    ∃ place, (merge old new place).conflict = none ∧
      property? (merge target source path).value name =
        some (.obj (merge old new place).value) := by
  obtain ⟨members, hmembers, hold⟩ := exists_of_property? hold
  obtain ⟨others, hothers, hnew⟩ := exists_of_property? hnew
  obtain ⟨merged, hmerged, hjoined, hinner⟩ :=
    find?_properties_merge hagree htarget hsource hmembers hothers
  refine ⟨_, hinner name old new hold hnew, ?_⟩
  rw [property?_of_find? hmerged, hjoined, hold, hnew]
  rfl

/-- Tidy schemas make a tidy schema. -/
theorem isTidy_merge (htidy : isTidy name target) (htidy' : isTidy name source) :
    isTidy name (merge target source path).value := by
  obtain ⟨htabled, hproperty⟩ := isTidy_iff.mp htidy
  obtain ⟨htabled', hproperty'⟩ := isTidy_iff.mp htidy'
  have hlook : property? (merge target source path).value name = joined .names _ name _ _ :=
    property?_merge hagree htarget hsource htabled htabled'
  refine isTidy_iff.mpr ⟨isTabled_merge hagree htarget hsource htabled htabled',
    fun property hmerged => ?_⟩
  cases hnew : property? source name with
  | none =>
    rw [hnew, joined_none] at hlook
    exact hproperty property (hlook.symm.trans hmerged)
  | some value =>
    obtain ⟨new, rfl, hnewTabled⟩ := hproperty' value hnew
    cases hold : property? target name with
    | none =>
      rw [hold, hnew, none_joined] at hlook
      obtain rfl := Option.some.inj (hlook.symm.trans hmerged)
      exact ⟨new, rfl, hnewTabled⟩
    | some value =>
      obtain ⟨old, rfl, holdTabled⟩ := hproperty value hold
      obtain ⟨place, hinner, hboth⟩ := exists_merge_of_property? hagree htarget hsource hold hnew
      obtain rfl := Option.some.inj (hboth.symm.trans hmerged)
      have holdFits := throughout_of_property? htarget hold
      have hnewFits := throughout_of_property? hsource hnew
      exact ⟨_, rfl, isTabled_merge hinner holdFits hnewFits holdTabled hnewTabled⟩

end Merging

end SchemaClasses.Flatten
