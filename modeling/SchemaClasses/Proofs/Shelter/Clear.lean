import SchemaClasses.Proofs.Flatten.Fate
import SchemaClasses.Proofs.Flatten.Plain

/-!
# Schemas that are clear of a text

A schema is clear of a text if no type and no reference in it lists that text, as far as types and
references are read: in the schema itself, in the schemas that it consists of, and in the members
of its combiners, which must not have parts of their own (`isClear`). Other keywords do not count,
so the definitions of a document may hold what they like.

What is clear stays clear when schemas are merged (`isClear_mergeEntries`), since a unified type
lists nothing that was not listed before (`lists_typeOfAlternatives`).
-/

namespace SchemaClasses.Flatten

open Merge

/-! ### What types list -/

mutual

/-- Whether a value is a text or lists it, in lists in it as well. -/
def lists (text : String) : Json → Bool
  | .str other => other = text
  | .arr items => anyLists text items
  | _ => false

/-- Whether one of some values is a text or lists it. -/
def anyLists (text : String) : List Json → Bool
  | [] => false
  | item :: rest => lists text item || anyLists text rest

end

section Lists

variable {text : String}

/-- An array lists a text if one of its items does. -/
theorem lists_arr {items : List Json} :
    lists text (.arr items) = false ↔ ∀ item ∈ items, lists text item = false := by
  rw [lists]
  induction items with
  | nil => exact ⟨fun _ _ h => absurd h List.not_mem_nil, fun _ => rfl⟩
  | cons item rest ih => rw [anyLists, Bool.or_eq_false_iff, ih, List.forall_mem_cons]

/-- A text lists itself and no other one. -/
theorem lists_str {other : String} : lists text (.str other) = false ↔ other ≠ text := by
  rw [lists, decide_eq_false_iff_not]

/-- The alternatives of a type list nothing that the type does not list. -/
theorem lists_alternatives {type alternative : Json} (h : lists text type = false)
    (hmem : alternative ∈ alternatives type) : lists text alternative = false := by
  cases type with
  | arr items => exact lists_arr.mp h alternative hmem
  | _ => exact List.mem_singleton.mp hmem ▸ h

/-- A unified type lists what was listed before. -/
theorem lists_typeOfAlternatives {types : List Json} (h : ∀ type ∈ types, lists text type = false) :
    lists text (typeOfAlternatives (collect types)) = false := by
  have hall : ∀ alternative ∈ collect types, lists text alternative = false := by
    intro alternative hmem
    obtain ⟨type, htype, halternative⟩ := mem_collect hmem
    exact lists_alternatives (h type htype) halternative
  generalize collect types = alternatives at hall
  unfold typeOfAlternatives
  split
  · exact hall _ List.mem_cons_self
  · exact lists_arr.mpr hall

end Lists

/-! ### Schemas -/

/-- The keywords under which a schema has other schemas that it is merged with or listed for. -/
def linkKeywords : List String := refKey :: (tables ++ combiners)

/-- Whether a schema has none of them. -/
def isBare : Json → Bool
  | .obj schema => linkKeywords.all fun keyword => !Assoc.contains schema keyword
  | _ => true

mutual

/-- Whether a value that is read in some way is clear of a text. -/
def isClear (text : String) : Reading → Json → Bool
  | .schema, .obj schema => areClearKeywords text schema
  | .table, .obj members => areClearMembers text members
  | .list, .arr items => areClearItems text items
  | .type, value => !lists text value
  | .reference, value => !lists text value
  | _, _ => true

/-- Whether the values of the keywords of a schema are clear of a text. -/
def areClearKeywords (text : String) : Entries → Bool
  | [] => true
  | (keyword, value) :: rest => isClear text (.under keyword) value && areClearKeywords text rest

/-- Whether the schemas of a table are clear of a text. -/
def areClearMembers (text : String) : Entries → Bool
  | [] => true
  | (_, schema) :: rest => isClear text .schema schema && areClearMembers text rest

/-- Whether the members of a combiner are bare and clear of a text. -/
def areClearItems (text : String) : List Json → Bool
  | [] => true
  | schema :: rest => (isBare schema && isClear text .schema schema) && areClearItems text rest

end

section Clear

variable {text : String} {entries : Entries}

/-- A bare schema has nothing under a keyword that brings in others. -/
theorem find?_of_isBare (h : isBare (.obj entries)) {keyword : String}
    (hkeyword : keyword ∈ linkKeywords) : Assoc.find? entries keyword = none := by
  have hlacks := List.all_eq_true.mp h keyword hkeyword
  rwa [Bool.not_eq_true', Assoc.contains, Option.isSome_eq_false_iff, Option.isNone_iff_eq_none]
    at hlacks

/-- A schema is clear of a text if the values of its keywords are, each read as its keyword says. -/
theorem isClear_schema :
    isClear text .schema (.obj entries) ↔
      ∀ entry ∈ entries, isClear text (.under entry.1) entry.2 := by
  change areClearKeywords text entries ↔ _
  induction entries with
  | nil => exact ⟨fun _ _ h => absurd h List.not_mem_nil, fun _ => rfl⟩
  | cons entry rest ih =>
    change (isClear text (.under entry.1) entry.2 && areClearKeywords text rest) ↔ _
    rw [Bool.and_eq_true, ih, List.forall_mem_cons]

/-- A table is clear if its schemas are. -/
theorem isClear_table :
    isClear text .table (.obj entries) ↔ ∀ entry ∈ entries, isClear text .schema entry.2 := by
  change areClearMembers text entries ↔ _
  induction entries with
  | nil => exact ⟨fun _ _ h => absurd h List.not_mem_nil, fun _ => rfl⟩
  | cons entry rest ih =>
    change (isClear text .schema entry.2 && areClearMembers text rest) ↔ _
    rw [Bool.and_eq_true, ih, List.forall_mem_cons]

/-- A combiner is clear if its members are, and they are bare. -/
theorem isClear_list {items : List Json} :
    isClear text .list (.arr items) ↔
      ∀ item ∈ items, isBare item ∧ isClear text .schema item := by
  change areClearItems text items ↔ _
  induction items with
  | nil => exact ⟨fun _ _ h => absurd h List.not_mem_nil, fun _ => rfl⟩
  | cons item rest ih =>
    change ((isBare item && isClear text .schema item) && areClearItems text rest) ↔ _
    rw [Bool.and_eq_true, Bool.and_eq_true, ih, List.forall_mem_cons]

/-- A type is clear if it does not list the text. -/
theorem isClear_type {value : Json} : isClear text .type value ↔ lists text value = false := by
  have hsame : isClear text .type value = !lists text value := by cases value <;> rfl
  rw [hsame, Bool.not_eq_true']

/-- A reference is clear if it does not list the text. -/
theorem isClear_reference {value : Json} :
    isClear text .reference value ↔ lists text value = false := by
  have hsame : isClear text .reference value = !lists text value := by cases value <;> rfl
  rw [hsame, Bool.not_eq_true']

/-- A keyword that is looked up is enough, since no other value under it is read. -/
theorem isClear_of_find? (hnodup : (Assoc.keys entries).Nodup)
    (h : ∀ keyword value, Assoc.find? entries keyword = some value →
      isClear text (.under keyword) value) : isClear text .schema (.obj entries) :=
  isClear_schema.mpr fun entry hentry =>
    h entry.1 entry.2 ((Assoc.find?_eq_some_iff hnodup).mpr hentry)

/-- What is found under a keyword of a clear schema is clear. -/
theorem isClear_under (h : isClear text .schema (.obj entries)) {keyword : String} {value : Json}
    (hfind : Assoc.find? entries keyword = some value) : isClear text (.under keyword) value :=
  isClear_schema.mp h _ (Assoc.mem_of_find? hfind)

/-- A reference is clear of any other text. -/
theorem isClear_toSchema {path : SchemaPath} (h : path.toPointer ≠ text) :
    isClear text .schema (Reference.canonical path).toSchema := by
  refine isClear_schema.mpr fun entry hentry => ?_
  obtain rfl := List.mem_singleton.mp hentry
  exact isClear_reference.mpr (lists_str.mpr h)

/-- The keywords of tables have values that are read as tables. -/
theorem under_table {keyword : String} (h : keyword ∈ tables) : Reading.under keyword = .table := by
  have hall : ∀ keyword ∈ tables, Reading.under keyword = .table := by decide
  exact hall keyword h

/-! ### Merging -/

/-- An object is clear, whatever its keys are read as, if its entries are. -/
theorem isClear_obj_iff {keys : Keys} :
    isClear text (readingOf keys) (.obj entries) ↔
      ∀ entry ∈ entries, isClear text (entryReading keys entry.1) entry.2 := by
  cases keys with
  | keywords => exact isClear_schema
  | names => exact isClear_table

/-- What is clear of a text stays so. -/
theorem isClear_mergeEntries (source : Json) :
    ∀ {new : Entries}, source = .obj new → ∀ (keys : Keys) {path : SchemaPath} {target : Entries},
      (mergeEntries keys path target new).conflict = none →
      isClear text (readingOf keys) (.obj target) → isClear text (readingOf keys) source →
      isClear text (readingOf keys) (.obj (mergeEntries keys path target new).value) := by
  induction source using Json.induction with
  | obj entries ih =>
    rintro new hnew keys path target hagree htarget hsource
    obtain rfl := Json.obj.inj hnew
    have hentries := isClear_obj_iff.mp hsource
    refine isClear_obj_iff.mpr (forall_mergeEntries
      (E := fun key value => isClear text (entryReading keys key) value)
      (fun key old new hmem htype hagree hold => ?_) (fun hkeys _ _ _ _ => ?_)
      (fun hkeys values _ hvalues => ?_) hagree (isClear_obj_iff.mp htarget) hentries)
    · rcases entryReading_cases htype with heq | heq | heq
      · rw [heq] at hold ⊢
        exact ih _ hmem rfl _ hagree hold (heq ▸ hentries _ hmem)
      · rw [heq]
        rfl
      · rw [heq]
        rfl
    · subst hkeys
      rfl
    · subst hkeys
      refine isClear_type.mpr (lists_typeOfAlternatives fun value hvalue => ?_)
      exact (hvalues value hvalue).elim isClear_type.mp isClear_reference.mp
  | _ => exact nofun

end Clear

end SchemaClasses.Flatten
