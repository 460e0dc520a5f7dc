import SchemaClasses.Proofs.Flatten.Outcome
import SchemaClasses.Proofs.Json.Alike

/-!
# Schemas that differ in what they declare

A `Coupling` sets some keywords of schemas apart, `type` and `$ref` among them, and says how two
schemas may differ in those. Two values are `Coupled` if they are the same but for that: schemas
have the same other keywords with coupled values under them, in any order, and tables of schemas
have the same names in the same order.

Nothing in this module depends on what the heads of schemas have in common. What has to be shown of
them is collected in `Coupling.Lawful`.
-/

namespace SchemaClasses

open Merge (Keys mergeEntries)
open Flatten (isOn isOn_insert_of_ne isOn_insert_self)

/-- The keywords that anything depends on, besides `type` and `$ref`. -/
def countedKeywords : List String :=
  ["oneOf", "anyOf", "allOf", "properties", "patternProperties", "items", "additionalProperties",
    "additionalItems", "required", "uniqueItems", "insertionOrder", "format"]

/-- The keywords of which it counts whether they are switched on. -/
def switches : List String :=
  ["additionalProperties", "additionalItems"]

/-- The keywords whose values are compared. -/
def comparedKeywords : List String :=
  ["uniqueItems", "insertionOrder"]

/-- How two schemas may differ. -/
structure Coupling where
  /-- The keywords that are set apart. -/
  apart : List String
  /-- Whether two schemas differ as they may under the keywords that are set apart. -/
  heads : Entries → Entries → Prop

/-- Two values that differ in the heads of schemas at most. -/
inductive Coupled (coupling : Coupling) : Keys → Json → Json → Prop where
  /-- A value without parts. -/
  | atom {keys : Keys} {value : Json} (hatom : value.isAtom) : Coupled coupling keys value value
  /-- Arrays of coupled items. -/
  | arr {keys : Keys} {items others : List Json} (hlength : items.length = others.length)
      (hitems : ∀ (index : Nat) (item other : Json), items[index]? = some item →
        others[index]? = some other → Coupled coupling .keywords item other) :
      Coupled coupling keys (.arr items) (.arr others)
  /-- Tables of coupled schemas under the same names. -/
  | table {entries others : Entries} (hnodup : (Assoc.keys entries).Nodup)
      (hkeys : Assoc.keys entries = Assoc.keys others)
      (hentries : ∀ name value other, Assoc.find? entries name = some value →
        Assoc.find? others name = some other → Coupled coupling .keywords value other) :
      Coupled coupling .names (.obj entries) (.obj others)
  /-- Schemas with coupled values under the same keywords, as far as those are not set apart. -/
  | schema {entries others : Entries} (hnodup : (Assoc.keys entries).Nodup)
      (hnodup' : (Assoc.keys others).Nodup) (hheads : coupling.heads entries others)
      (hswitches : ∀ key ∈ switches, isOn entries key = isOn others key)
      (hcompared : ∀ key ∈ comparedKeywords, Assoc.find? entries key = Assoc.find? others key)
      (hmem : ∀ key ∉ coupling.apart, key ∈ Assoc.keys entries ↔ key ∈ Assoc.keys others)
      (hentries : ∀ key value other, key ∉ coupling.apart → Assoc.find? entries key = some value →
        Assoc.find? others key = some other → Coupled coupling (.under key) value other) :
      Coupled coupling .keywords (.obj entries) (.obj others)

/-- What has to be shown of the heads of schemas. -/
structure Coupling.Lawful (coupling : Coupling) : Prop where
  /-- Only `type` and `$ref` count among the keywords that are set apart. -/
  counted : ∀ key ∈ countedKeywords, key ∉ coupling.apart
  /-- The type is set apart. -/
  type_mem : typeKey ∈ coupling.apart
  /-- The reference is set apart. -/
  ref_mem : refKey ∈ coupling.apart
  /-- Whatever else is set apart has no value. -/
  null : ∀ {entries others : Entries}, coupling.heads entries others → ∀ key ∈ coupling.apart,
    ¬(key = typeKey ∨ key = refKey) → (∀ value, Assoc.find? entries key = some value →
      value = .null) ∧ ∀ value, Assoc.find? others key = some value → value = .null
  /-- Heads stay related when the other keywords change. -/
  insert : ∀ {entries others : Entries} {key : String} (value other : Json),
    coupling.heads entries others → key ∉ coupling.apart →
    (key ∈ Assoc.keys entries ↔ key ∈ Assoc.keys others) →
    coupling.heads (Assoc.insert entries key value) (Assoc.insert others key other)
  /-- They stay related when other keywords are erased. -/
  swapErase : ∀ {entries others : Entries} {key : String}, (Assoc.keys entries).Nodup →
    (Assoc.keys others).Nodup → coupling.heads entries others → key ∉ coupling.apart →
    coupling.heads (Assoc.swapErase entries key) (Assoc.swapErase others key)
  /-- They stay related when schemas are merged. -/
  merge : ∀ {path : SchemaPath} {target target' source source' : Entries},
    (Assoc.keys target).Nodup → (Assoc.keys target').Nodup → (Assoc.keys source).Nodup →
    (Assoc.keys source').Nodup → coupling.heads target target' → coupling.heads source source' →
    (mergeEntries .keywords path target source).conflict = none →
    (mergeEntries .keywords path target' source').conflict = none →
    coupling.heads (mergeEntries .keywords path target source).value
      (mergeEntries .keywords path target' source').value

/-! ### What coupled values are -/

namespace Coupled

variable {coupling : Coupling} {keys : Keys} {value other : Json} {entries others : Entries}
  {key : String}

/-- A value that is neither an array nor an object is coupled with itself only. -/
theorem eq_of_isAtom (h : Coupled coupling keys value other) (hatom : value.isAtom) :
    other = value := by
  cases h with
  | atom => rfl
  | arr => cases hatom
  | table => cases hatom
  | schema => cases hatom

/-- An array is coupled with arrays of the same length only, item by item. -/
theorem exists_arr {items : List Json} (h : Coupled coupling keys (.arr items) other) :
    ∃ others, other = .arr others ∧ List.Forall₂ (Coupled coupling .keywords) items others := by
  cases h with
  | atom hatom => cases hatom
  | arr hlength hitems =>
    refine ⟨_, rfl, List.forall₂_iff_get.mpr ⟨hlength, fun index hleft hright => ?_⟩⟩
    exact hitems index _ _ (List.getElem?_eq_getElem hleft) (List.getElem?_eq_getElem hright)

/-- An object is coupled with objects only. -/
theorem exists_obj (h : Coupled coupling keys (.obj entries) other) :
    ∃ others, other = .obj others := by
  cases h with
  | atom hatom => cases hatom
  | table => exact ⟨_, rfl⟩
  | schema => exact ⟨_, rfl⟩

/-- One of two coupled values is an object if the other one is. -/
theorem exists_obj' (h : Coupled coupling keys value (.obj others)) :
    ∃ entries, value = .obj entries := by
  cases h with
  | atom hatom => cases hatom
  | table => exact ⟨_, rfl⟩
  | schema => exact ⟨_, rfl⟩

/-- The three kinds of coupled values. -/
theorem cases_kind (h : Coupled coupling keys value other) :
    (value.isAtom ∧ other = value) ∨ (∃ items others, value = .arr items ∧ other = .arr others ∧
      List.Forall₂ (Coupled coupling .keywords) items others) ∨
      ∃ entries others, value = .obj entries ∧ other = .obj others := by
  cases value with
  | arr items =>
    obtain ⟨others, rfl, hitems⟩ := h.exists_arr
    exact .inr (.inl ⟨items, others, rfl, rfl, hitems⟩)
  | obj entries =>
    obtain ⟨others, rfl⟩ := h.exists_obj
    exact .inr (.inr ⟨entries, others, rfl, rfl⟩)
  | null => exact .inl ⟨rfl, h.eq_of_isAtom rfl⟩
  | bool => exact .inl ⟨rfl, h.eq_of_isAtom rfl⟩
  | num => exact .inl ⟨rfl, h.eq_of_isAtom rfl⟩
  | str => exact .inl ⟨rfl, h.eq_of_isAtom rfl⟩

/-- Arrays of coupled items are coupled. -/
theorem of_forall₂ {items others : List Json}
    (h : List.Forall₂ (Coupled coupling .keywords) items others) :
    Coupled coupling keys (.arr items) (.arr others) := by
  obtain ⟨hlength, hitems⟩ := List.forall₂_iff_get.mp h
  refine .arr hlength fun index item other hitem hother => ?_
  obtain ⟨hleft, rfl⟩ := List.getElem?_eq_some_iff.mp hitem
  obtain ⟨hright, rfl⟩ := List.getElem?_eq_some_iff.mp hother
  exact hitems index hleft hright

/-- A list of texts is coupled with itself. -/
theorem texts (texts : List String) :
    Coupled coupling keys (.arr (texts.map .str)) (.arr (texts.map .str)) := by
  apply of_forall₂
  rw [List.forall₂_map_left_iff, List.forall₂_map_right_iff]
  exact List.forall₂_same.mpr fun text _ => .atom rfl

end Coupled

/-! ### Tables -/

section Tables

variable {coupling : Coupling} {entries others : Entries}

/-- Tables of schemas are coupled if they are related side by side. -/
theorem coupled_table_iff :
    Coupled coupling .names (.obj entries) (.obj others) ↔ (Assoc.keys entries).Nodup ∧
      Assoc.Related (fun _ => Coupled coupling .keywords) entries others := by
  constructor
  · intro h
    cases h with
    | atom hatom => cases hatom
    | table hnodup hkeys hentries =>
      exact ⟨hnodup, (Assoc.related_iff hnodup).mpr ⟨hkeys, hentries⟩⟩
  · rintro ⟨hnodup, hrelated⟩
    obtain ⟨hkeys, hentries⟩ := (Assoc.related_iff hnodup).mp hrelated
    exact .table hnodup hkeys hentries

/-- Coupled tables have the same names in the same order. -/
theorem Coupled.keys_eq (h : Coupled coupling .names (.obj entries) (.obj others)) :
    Assoc.keys entries = Assoc.keys others :=
  (coupled_table_iff.mp h).2.keys_eq

/-- Under a name stands nothing on either side, or coupled schemas do. -/
theorem Coupled.find?_name (h : Coupled coupling .names (.obj entries) (.obj others))
    (name : String) : (Assoc.find? entries name = none ∧ Assoc.find? others name = none) ∨
      ∃ value other, Assoc.find? entries name = some value ∧ Assoc.find? others name = some other ∧
        Coupled coupling .keywords value other :=
  (coupled_table_iff.mp h).2.find?_cases name

end Tables

/-! ### Schemas -/

/-- What coupled schemas have in common. -/
structure CoupledSchemas (coupling : Coupling) (schema schema' : Entries) : Prop where
  /-- No keyword is repeated on the left. -/
  nodup : (Assoc.keys schema).Nodup
  /-- Nor on the right. -/
  nodup' : (Assoc.keys schema').Nodup
  /-- The heads are related. -/
  heads : coupling.heads schema schema'
  /-- The same is switched on. -/
  switches : ∀ key ∈ switches, isOn schema key = isOn schema' key
  /-- What is compared is the same. -/
  compared : ∀ key ∈ comparedKeywords, Assoc.find? schema key = Assoc.find? schema' key
  /-- Under a keyword that is not set apart stands nothing on either side, or coupled values do. -/
  find?_cases : ∀ key ∉ coupling.apart,
    (Assoc.find? schema key = none ∧ Assoc.find? schema' key = none) ∨
      ∃ value other, Assoc.find? schema key = some value ∧ Assoc.find? schema' key = some other ∧
        Coupled coupling (.under key) value other

/-- Objects are coupled as schemas if they have in common what `CoupledSchemas` lists. -/
theorem coupled_schema_iff {coupling : Coupling} {schema schema' : Entries} :
    Coupled coupling .keywords (.obj schema) (.obj schema') ↔
      CoupledSchemas coupling schema schema' := by
  constructor
  · intro h
    cases h with
    | atom hatom => cases hatom
    | schema hnodup hnodup' hheads hswitches hcompared hmem hentries =>
      refine ⟨hnodup, hnodup', hheads, hswitches, hcompared, fun key hkey => ?_⟩
      cases hvalue : Assoc.find? schema key with
      | none =>
        rw [Assoc.find?_eq_none_iff, hmem key hkey, ← Assoc.find?_eq_none_iff] at hvalue
        exact .inl ⟨rfl, hvalue⟩
      | some value =>
        obtain ⟨other, hother⟩ := Assoc.exists_find?_of_mem_keys
          ((hmem key hkey).mp (Assoc.mem_keys_of_find? hvalue))
        exact .inr ⟨value, other, rfl, hother, hentries key value other hkey hvalue hother⟩
  · rintro ⟨hnodup, hnodup', hheads, hswitches, hcompared, hcases⟩
    refine .schema hnodup hnodup' hheads hswitches hcompared (fun key hkey => ?_)
      fun key value other hkey hvalue hother => ?_
    · rcases hcases key hkey with ⟨hnone, hnone'⟩ | ⟨_, _, hvalue, hother, -⟩
      · exact iff_of_false (Assoc.find?_eq_none_iff.mp hnone) (Assoc.find?_eq_none_iff.mp hnone')
      · exact iff_of_true (Assoc.mem_keys_of_find? hvalue) (Assoc.mem_keys_of_find? hother)
    · rcases hcases key hkey with ⟨hnone, -⟩ | ⟨v, w, hv, hw, hcoupled⟩
      · cases hvalue.symm.trans hnone
      · obtain rfl := Option.some.inj (hvalue.symm.trans hv)
        obtain rfl := Option.some.inj (hother.symm.trans hw)
        exact hcoupled

namespace CoupledSchemas

variable {coupling : Coupling} {schema schema' : Entries} {key : String} {value other : Json}

/-- Coupled schemas have the same keywords but for those that are set apart. -/
theorem mem_keys_iff (h : CoupledSchemas coupling schema schema') (hkey : key ∉ coupling.apart) :
    key ∈ Assoc.keys schema ↔ key ∈ Assoc.keys schema' := by
  rcases h.find?_cases key hkey with ⟨hnone, hnone'⟩ | ⟨_, _, hvalue, hother, -⟩
  · exact iff_of_false (Assoc.find?_eq_none_iff.mp hnone) (Assoc.find?_eq_none_iff.mp hnone')
  · exact iff_of_true (Assoc.mem_keys_of_find? hvalue) (Assoc.mem_keys_of_find? hother)

/-- A coupled value may be put under a keyword that is not set apart. -/
theorem insert (hlawful : coupling.Lawful) (h : CoupledSchemas coupling schema schema')
    (hkey : key ∉ coupling.apart) (hvalue : Coupled coupling (.under key) value other)
    (hswitch : key ∈ SchemaClasses.switches → value.isTruthy = other.isTruthy)
    (hcompared : key ∉ comparedKeywords) :
    CoupledSchemas coupling (Assoc.insert schema key value) (Assoc.insert schema' key other) where
  nodup := Assoc.nodup_keys_insert h.nodup _ _
  nodup' := Assoc.nodup_keys_insert h.nodup' _ _
  heads := hlawful.insert value other h.heads hkey (h.mem_keys_iff hkey)
  switches := by
    intro k hk
    by_cases heq : key = k
    · subst heq
      rw [isOn_insert_self, isOn_insert_self, hswitch hk]
    · rw [isOn_insert_of_ne _ heq, isOn_insert_of_ne _ heq, h.switches k hk]
  compared := by
    intro k hk
    have hne : key ≠ k := fun heq => hcompared (heq ▸ hk)
    rw [Assoc.find?_insert_of_ne _ _ hne, Assoc.find?_insert_of_ne _ _ hne, h.compared k hk]
  find?_cases := by
    intro k hk
    by_cases heq : key = k
    · subst heq
      exact .inr ⟨value, other, Assoc.find?_insert_self _ _ _, Assoc.find?_insert_self _ _ _,
        hvalue⟩
    · rw [Assoc.find?_insert_of_ne _ _ heq, Assoc.find?_insert_of_ne _ _ heq]
      exact h.find?_cases k hk

/-- A keyword that is neither set apart nor a switch nor compared may be erased. -/
theorem swapErase (hlawful : coupling.Lawful) (h : CoupledSchemas coupling schema schema')
    (hkey : key ∉ coupling.apart) (hswitch : key ∉ SchemaClasses.switches)
    (hcompared : key ∉ comparedKeywords) :
    CoupledSchemas coupling (Assoc.swapErase schema key) (Assoc.swapErase schema' key) where
  nodup := Assoc.nodup_keys_swapErase h.nodup _
  nodup' := Assoc.nodup_keys_swapErase h.nodup' _
  heads := hlawful.swapErase h.nodup h.nodup' h.heads hkey
  switches := by
    intro k hk
    have hne : key ≠ k := fun heq => hswitch (heq ▸ hk)
    have hsame := h.switches k hk
    unfold isOn at hsame ⊢
    rw [Assoc.find?_swapErase_of_ne h.nodup hne, Assoc.find?_swapErase_of_ne h.nodup' hne, hsame]
  compared := by
    intro k hk
    have hne : key ≠ k := fun heq => hcompared (heq ▸ hk)
    rw [Assoc.find?_swapErase_of_ne h.nodup hne, Assoc.find?_swapErase_of_ne h.nodup' hne,
      h.compared k hk]
  find?_cases := by
    intro k hk
    by_cases heq : key = k
    · subst heq
      exact .inl ⟨Assoc.find?_swapErase_self h.nodup _, Assoc.find?_swapErase_self h.nodup' _⟩
    · rw [Assoc.find?_swapErase_of_ne h.nodup heq, Assoc.find?_swapErase_of_ne h.nodup' heq]
      exact h.find?_cases k hk

end CoupledSchemas

end SchemaClasses
