import SchemaClasses.Flatten.Basic
import SchemaClasses.Proofs.Json.Places
import SchemaClasses.Proofs.Merge

/-!
# What holds throughout a value

A value is made up of objects whose entries satisfy a property if that holds for every entry of
every object in it, and no object repeats a key (`Json.Throughout`). Taking values out of objects
and putting them into objects keeps this, and so does merging, as long as the property asks nothing
of the entries that a merge makes up: objects, types and lists of required names
(`throughout_merge`).
-/

namespace SchemaClasses

namespace Json

/-- Whether no object in a value repeats a key, and all entries of all objects in it have a
property. -/
def Throughout (E : String → Json → Prop) (value : Json) : Prop :=
  ∀ place entries, StandsAt value place (.obj entries) →
    (Assoc.keys entries).Nodup ∧ ∀ entry ∈ entries, E entry.1 entry.2

section Values

variable {E : String → Json → Prop} {value : Json} {entries : Entries} {key : String}

/-- An object and the values of its entries. -/
theorem throughout_obj :
    Throughout E (.obj entries) ↔ (Assoc.keys entries).Nodup ∧
      ∀ entry ∈ entries, E entry.1 entry.2 ∧ Throughout E entry.2 := by
  constructor
  · intro h
    obtain ⟨hnodup, hentries⟩ := h [] entries (.here _)
    refine ⟨hnodup, fun entry hentry => ⟨hentries entry hentry, fun place below hbelow => ?_⟩⟩
    exact h _ below (.entry hentry hbelow)
  · rintro ⟨hnodup, hentries⟩ place below hbelow
    cases hbelow with
    | here => exact ⟨hnodup, fun entry hentry => (hentries entry hentry).1⟩
    | entry hmem hbelow => exact (hentries _ hmem).2 _ below hbelow

/-- An array and its items. -/
theorem throughout_arr {items : List Json} :
    Throughout E (.arr items) ↔ ∀ item ∈ items, Throughout E item := by
  constructor
  · intro h item hitem place entries hentries
    obtain ⟨index, hindex⟩ := List.mem_iff_getElem?.mp hitem
    exact h _ entries (.item hindex hentries)
  · intro h place entries hentries
    cases hentries with
    | item hmem hentries => exact h _ (List.mem_of_getElem? hmem) _ entries hentries

/-- A text has no entries that could lack a property. -/
theorem throughout_str (text : String) : Throughout E (.str text) := by
  intro place entries h
  cases h

/-- A truth value has no entries that could lack a property. -/
theorem throughout_bool (value : Bool) : Throughout E (.bool value) := by
  intro place entries h
  cases h

/-- Entries that have a property have each weaker one as well. -/
theorem Throughout.mono {F : String → Json → Prop} (hE : ∀ key value, E key value → F key value)
    (h : Throughout E value) : Throughout F value :=
  fun place entries hentries => (h place entries hentries).imp id fun hall entry hentry =>
    hE _ _ (hall entry hentry)

/-- What stands in a value. -/
theorem Throughout.of_standsAt {place : List String} {v : Json} (hv : StandsAt value place v)
    (h : Throughout E value) : Throughout E v :=
  fun _ entries hentries => h _ entries (hv.trans hentries)

/-- What is found at a place has the property throughout if the whole value does. -/
theorem Throughout.of_at? {path : SchemaPath} {v : Json} (hv : value.at? path = some v)
    (h : Throughout E value) : Throughout E v := by
  obtain ⟨place, hplace⟩ := exists_standsAt_of_descend? hv
  exact h.of_standsAt hplace

/-- An object with a property throughout repeats no key. -/
theorem Throughout.nodup (h : Throughout E (.obj entries)) : (Assoc.keys entries).Nodup :=
  (throughout_obj.mp h).1

/-- The entries of an object with a property throughout have it, and their values have it
throughout. -/
theorem Throughout.of_mem (h : Throughout E (.obj entries)) {entry : String × Json}
    (hentry : entry ∈ entries) : E entry.1 entry.2 ∧ Throughout E entry.2 :=
  (throughout_obj.mp h).2 entry hentry

/-- What is found under a key of an object with a property throughout has it throughout. -/
theorem Throughout.of_find? (h : Throughout E (.obj entries))
    (hfind : Assoc.find? entries key = some value) : Throughout E value :=
  (h.of_mem (Assoc.mem_of_find? hfind)).2

/-- A property throughout is kept if a value that has it is put under a key where it holds. -/
theorem Throughout.insert (h : Throughout E (.obj entries)) (hentry : E key value)
    (hvalue : Throughout E value) : Throughout E (.obj (Assoc.insert entries key value)) := by
  apply throughout_obj.mpr
  constructor
  · exact Assoc.nodup_keys_insert h.nodup key value
  · intro entry hmem
    rcases Assoc.mem_insert hmem with hold | rfl
    · exact h.of_mem hold
    · exact ⟨hentry, hvalue⟩

/-- A property throughout is kept if a key is taken out. -/
theorem Throughout.swapErase (h : Throughout E (.obj entries)) (key : String) :
    Throughout E (.obj (Assoc.swapErase entries key)) := by
  apply throughout_obj.mpr
  constructor
  · exact Assoc.nodup_keys_swapErase h.nodup key
  · exact fun entry hentry => h.of_mem (Assoc.mem_of_mem_swapErase hentry)

/-- A reference is an object of one entry. -/
theorem throughout_toSchema {path : SchemaPath} (h : E refKey (.str path.toPointer)) :
    Throughout E (Reference.canonical path).toSchema := by
  apply throughout_obj.mpr
  constructor
  · exact List.nodup_singleton _
  · intro entry hentry
    obtain rfl := List.mem_singleton.mp hentry
    exact ⟨h, throughout_str _⟩

end Values

/-- A well-formed value repeats no key. -/
theorem throughout_of_wellFormed {E : String → Json → Prop} {value : Json} (hwf : value.wellFormed)
    (h : ∀ place entries, StandsAt value place (.obj entries) →
      ∀ entry ∈ entries, E entry.1 entry.2) : Throughout E value := by
  intro place entries hentries
  exact ⟨(wellFormed_obj.mp (hentries.everywhere hwf)).1, h place entries hentries⟩

end Json

/-! ### Merging -/

section Merging

open Merge Json

variable {E : String → Json → Prop}

/-- A type that is made up of alternatives is made up of what those are made up of. -/
theorem throughout_typeOfAlternatives {values : List Json}
    (hvalues : ∀ value ∈ values, Throughout E value) :
    Throughout E (typeOfAlternatives (collect values)) := by
  have hall : ∀ type ∈ collect values, Throughout E type := by
    intro type htype
    obtain ⟨value, hvalue, halternative⟩ := mem_collect htype
    cases value with
    | arr items => exact throughout_arr.mp (hvalues _ hvalue) type halternative
    | _ => exact List.mem_singleton.mp halternative ▸ hvalues _ hvalue
  generalize collect values = types at hall
  unfold typeOfAlternatives
  split
  · exact hall _ List.mem_cons_self
  · exact throughout_arr.mpr hall

variable (hobject : ∀ key entries, E key (.obj entries)) (htype : ∀ value, E typeKey value)
  (hrequired : ∀ value, E "required" value)

include hobject htype hrequired

/-- A merge keeps a property throughout that objects, types and required names have anyway. -/
theorem throughout_mergeEntries (source : Json) :
    ∀ {new : Entries}, source = .obj new → ∀ {keys : Keys} {path : SchemaPath} {target : Entries},
      (mergeEntries keys path target new).conflict = none → Throughout E (.obj target) →
      Throughout E source → Throughout E (.obj (mergeEntries keys path target new).value) := by
  induction source using Json.induction with
  | obj entries ih =>
    rintro new hnew keys path target hagree htarget hsource
    obtain rfl := Json.obj.inj hnew
    apply throughout_obj.mpr
    constructor
    · exact nodup_keys_mergeEntries hagree htarget.nodup
    refine forall_mergeEntries (E := fun key value => E key value ∧ Throughout E value)
      (fun key old new hmem _ hagree hold => ⟨hobject _ _, ?_⟩)
      (fun _ old new _ _ => ⟨hrequired _, ?_⟩) (fun _ values _ hvalues => ⟨htype _, ?_⟩) hagree
      (throughout_obj.mp htarget).2 (throughout_obj.mp hsource).2
    · exact ih _ hmem rfl hagree hold.2 (hsource.of_mem hmem).2
    · apply throughout_arr.mpr
      intro item hitem
      obtain ⟨name, -, rfl⟩ := List.mem_map.mp hitem
      exact throughout_str name
    · exact throughout_typeOfAlternatives fun value hvalue =>
        (hvalues value hvalue).elim And.right And.right
  | _ => exact nofun

/-- A merge of two schemas is made up of what they are made up of. -/
theorem throughout_merge {target source : Entries} {path : SchemaPath}
    (hagree : (merge target source path).conflict = none) (htarget : Throughout E (.obj target))
    (hsource : Throughout E (.obj source)) :
    Throughout E (.obj (merge target source path).value) :=
  throughout_mergeEntries hobject htype hrequired (.obj source) rfl hagree htarget hsource

end Merging

end SchemaClasses
