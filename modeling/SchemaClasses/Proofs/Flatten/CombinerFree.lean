import Mathlib.Data.List.Perm.Subperm
import SchemaClasses.Proofs.Flatten.Outcome
import SchemaClasses.Proofs.Flatten.Reachability
import SchemaClasses.Proofs.Json.References

/-!
# Flattening without combiners is reachability

Main statement (`flatten_combinerFree`): the walk of a document without combiners never goes below
the depth that is allowed for, and if it succeeds, then a place is listed if and only if it is
reached from the root and holds a class, and its entry is that class with all properties in normal
form.

The places that are being walked are all different, and each of them is one of `walkable`: the root
or the target of a reference, extended by a place of the value that stands there. So the walk is
never deeper than there are such places (`length_walkable_lt`). What a walk finds is `Sound`, and
once the walk of a schema is over, all classes that are reached from it are listed (`Complete`);
`walks_walk` proves both at once by induction on the depth.
-/

namespace SchemaClasses.Flatten

open FlattenM

/-! ### Documents without combiners -/

/-- Whether a value is no object with a combiner. -/
def lacksCombiners : Json → Bool
  | .obj entries => combiners.all fun keyword => !Assoc.contains entries keyword
  | _ => true

/-- Whether no object in a document has a combiner. -/
def combinerFree (document : Json) : Bool :=
  document.everywhere lacksCombiners

/-- Nothing is found under a combiner in an object without combiners. -/
theorem find?_combiner {node : Entries} (h : lacksCombiners (.obj node)) {keyword : String}
    (hkeyword : keyword ∈ combiners) : Assoc.find? node keyword = none := by
  have hall := List.all_eq_true.mp h keyword hkeyword
  rw [Bool.not_eq_true', Assoc.contains, Option.isSome_eq_false_iff] at hall
  exact Option.isNone_iff_eq_none.mp hall

/-- An object lacks combiners if nothing is found under any of them. -/
theorem lacksCombiners_obj {node : Entries} :
    lacksCombiners (.obj node) ↔ ∀ combiner ∈ combiners, Assoc.find? node combiner = none := by
  refine ⟨fun h _ hcombiner => find?_combiner h hcombiner, fun h => ?_⟩
  refine List.all_eq_true.mpr fun combiner hcombiner => ?_
  rw [Bool.not_eq_true', Assoc.contains, h combiner hcombiner]
  rfl

/-- Setting another keyword brings no combiner in. -/
theorem lacksCombiners_insert {node : Entries} {key : String} {value : Json}
    (h : lacksCombiners (.obj node)) (hkey : key ∉ combiners) :
    lacksCombiners (.obj (Assoc.insert node key value)) := by
  rw [lacksCombiners_obj] at h ⊢
  intro combiner hcombiner
  have hne : key ≠ combiner := fun heq => hkey (heq ▸ hcombiner)
  rw [Assoc.find?_insert_of_ne _ _ hne, h combiner hcombiner]

/-- A combiner does not come up again among those that are folded after it. -/
theorem ne_of_behind {combiner other : String} {rest : List String}
    (h : combiner :: rest <:+ combiners) (hother : other ∈ rest) : combiner ≠ other := by
  have hnodup : (combiner :: rest).Nodup := (show combiners.Nodup by decide).sublist h.sublist
  rintro rfl
  exact (List.nodup_cons.mp hnodup).1 hother

/-- Whether all combiners of a schema are folded but for some. -/
def FoldedBut (rest : List String) (node : Entries) : Prop :=
  ∀ combiner ∈ combiners, combiner ∉ rest → Assoc.find? node combiner = none

/-- A combiner that the schema does not have is folded already. -/
theorem FoldedBut.skip {combiner : String} {rest : List String} {node : Entries}
    (h : FoldedBut (combiner :: rest) node) (hnone : Assoc.find? node combiner = none) :
    FoldedBut rest node := by
  intro other hother hnot
  by_cases heq : other = combiner
  · exact heq ▸ hnone
  · exact h other hother fun hmem => hnot ((List.mem_cons.mp hmem).resolve_left heq)

/-- A combiner that is dropped is folded. -/
theorem FoldedBut.drop {combiner : String} {rest : List String} {node : Entries}
    (h : FoldedBut (combiner :: rest) node) (hnodup : (Assoc.keys node).Nodup) :
    FoldedBut rest (Assoc.swapErase node combiner) := by
  intro other hother hnot
  by_cases heq : combiner = other
  · exact heq ▸ Assoc.find?_swapErase_self hnodup combiner
  · rw [Assoc.find?_swapErase_of_ne hnodup heq]
    exact h other hother fun hmem => hnot ((List.mem_cons.mp hmem).resolve_left (Ne.symm heq))

/-- In the end there are no combiners. -/
theorem FoldedBut.lacksCombiners {node : Entries} (h : FoldedBut [] node) :
    lacksCombiners (.obj node) :=
  lacksCombiners_obj.mpr fun combiner hcombiner => h combiner hcombiner List.not_mem_nil

/-- What stands in a document without combiners lacks them. -/
theorem lacksCombiners_of_at? {document value : Json} {path : SchemaPath}
    (h : document.at? path = some value) (hfree : combinerFree document) : lacksCombiners value :=
  Json.test_of_everywhere (@Json.everywhere_of_descend? lacksCombiners _ _ _ h hfree)

/-- The walk of an object without combiners, if it may break rules. -/
theorem ensures_flattenObject_of_lacksCombiners {document : Json} {walk : Walker}
    {state : FlattenState} {path : SchemaPath} {node : Entries}
    {good : Walked → FlattenState → Prop} {fail : FlattenError → Prop}
    (hfree : lacksCombiners (.obj node)) (hviolation : ∀ rule, fail (.violation path rule))
    (hproperties : isOn node "additionalProperties" = false → ∀ members,
      Assoc.find? node "properties" = some (.obj members) →
      Assoc.find? node "patternProperties" = none →
      Ensures (flattenEntries walk path "properties" members) state
        (fun flat after => good (.canonical path)
          { after with schemas :=
              Assoc.insert after.schemas path (Assoc.insert node "properties" (.obj flat)) }) fail)
    (hpatterns : isOn node "additionalProperties" = false → ∀ members,
      Assoc.find? node "properties" = none →
      Assoc.find? node "patternProperties" = some (.obj members) →
      Ensures (flattenEntries walk path "patternProperties" members) state
        (fun flat after =>
          good (.inPlace (.obj (Assoc.insert node "patternProperties" (.obj flat)))) after) fail)
    (hbare : isOn node "additionalProperties" = false → Assoc.find? node "properties" = none →
      Assoc.find? node "patternProperties" = none → good (.inPlace (.obj node)) state) :
    Ensures (flattenObject document walk node path) state good fail := by
  refine ensures_flattenObject (ensures_foldCombiners_absent (fun _ h => find?_combiner hfree h)
    ⟨fun _ => hviolation _, fun _ _ _ _ => hviolation _, fun hon =>
      ⟨fun members hfind hnone => ?_, fun members hnone hfind => ?_, hbare hon⟩⟩)
  · refine ensures_flattenMembers (fun _ => hviolation _) fun entries hentries => ?_
    subst hentries
    exact hproperties hon entries hfind hnone
  · refine ensures_flattenMembers (fun _ => hviolation _) fun entries hentries => ?_
    subst hentries
    exact hpatterns hon entries hnone hfind

/-! ### The places that can be walked -/

/-- The places where a walk can begin: the root and the targets of the references. -/
def origins (document : Json) : List SchemaPath :=
  .root :: document.refs.filterMap fun ref => (SchemaPath.ofPointer ref.2).toOption

/-- The places that can be walked in a document without combiners. -/
def walkable (document : Json) : List SchemaPath :=
  (origins document).flatMap fun origin =>
    match document.at? origin with
    | some value => value.places.map fun place => origin ++ place
    | none => []

/-- Lists of bounded lengths are together no longer than their number times the bound. -/
theorem length_flatMap_le {α β : Type} {f : α → List β} {bound : Nat} (l : List α)
    (h : ∀ a ∈ l, (f a).length ≤ bound) : (l.flatMap f).length ≤ l.length * bound := by
  induction l with
  | nil => exact Nat.zero_le _
  | cons a rest ih =>
    have hfirst := h a List.mem_cons_self
    have hrest := ih fun b hb => h b (List.mem_cons_of_mem _ hb)
    rw [List.flatMap_cons, List.length_append, List.length_cons, Nat.succ_mul]
    omega

/-- The depth that is allowed for is more than the number of places. -/
theorem length_walkable_lt (document : Json) :
    (walkable document).length < depthBound document := by
  have horigins : (origins document).length ≤ document.size + 1 := by
    have hrefs := document.length_refs_le
    have hfilter := List.length_filterMap_le
      (fun ref : List String × String => (SchemaPath.ofPointer ref.2).toOption) document.refs
    rw [origins, List.length_cons]
    omega
  have heach : ∀ origin ∈ origins document, (match document.at? origin with
      | some value => value.places.map fun place => origin ++ place
      | none => []).length ≤ document.size := by
    intro origin _
    split
    · rename_i value hvalue
      obtain ⟨place, hplace⟩ := Json.exists_standsAt_of_descend? hvalue
      rw [List.length_map, Json.length_places]
      exact hplace.size_le
    · exact Nat.zero_le _
  have hle := length_flatMap_le _ heach
  have hmul : (origins document).length * document.size ≤ (document.size + 1) * document.size :=
    Nat.mul_le_mul_right _ horigins
  have hbound : (document.size + 1) * document.size <
      (document.size + 2) * (document.size + 2) := by
    rw [Nat.add_mul, Nat.add_mul, Nat.mul_add]
    omega
  unfold walkable depthBound
  omega

/-- Whether a schema stands in a document at a place that can be walked. -/
def Stands (document : Json) (path : SchemaPath) (schema : Json) : Prop :=
  ∃ origin ∈ origins document, ∃ value place, document.at? origin = some value ∧
    Json.StandsAt value place schema ∧ path = origin ++ place

section Stands

variable {document schema : Json} {path : SchemaPath} {node : Entries}

/-- The document itself stands at the root. -/
theorem stands_root (document : Json) : Stands document .root document :=
  ⟨.root, List.mem_cons_self, document, [], rfl, .here _, rfl⟩

/-- A place where a schema stands can be walked. -/
theorem Stands.mem_walkable (h : Stands document path schema) : path ∈ walkable document := by
  obtain ⟨origin, horigin, value, place, hvalue, hplace, rfl⟩ := h
  refine List.mem_flatMap.mpr ⟨origin, horigin, ?_⟩
  rw [hvalue]
  exact List.mem_map_of_mem hplace.mem_places

/-- The schema that stands at a place is found there. -/
theorem Stands.at? (h : Stands document path schema) (hwf : document.wellFormed) :
    document.at? path = some schema := by
  obtain ⟨origin, -, value, place, hvalue, hplace, rfl⟩ := h
  have hvaluewf := Json.wellFormed_of_descend? hvalue hwf
  unfold Json.at? at hvalue ⊢
  rw [SchemaPath.segments_append, Json.descend?_append, hvalue]
  exact hplace.descend? hvaluewf

/-- What holds everywhere in the document holds everywhere in a schema of it. -/
theorem Stands.everywhere {test : Json → Bool} (h : Stands document path schema)
    (hall : document.everywhere test) : schema.everywhere test := by
  obtain ⟨_, -, value, place, hvalue, hplace, rfl⟩ := h
  exact hplace.everywhere (Json.everywhere_of_descend? hvalue hall)

/-- What lies inside a schema of the document stands in the document as well. -/
theorem Stands.below (h : Stands document path schema) {back : List String} {value : Json}
    (hvalue : Json.StandsAt schema back value) : Stands document (path ++ back) value := by
  obtain ⟨origin, horigin, first, place, hfirst, hplace, rfl⟩ := h
  refine ⟨origin, horigin, first, place ++ back, hfirst, hplace.trans hvalue, ?_⟩
  exact congrArg SchemaPath.mk (List.append_assoc _ _ _)

/-- The target of a reference is a place where a walk can begin. -/
theorem stands_of_mem_refs {place : List String} {text : String} {target : SchemaPath}
    (hmem : (place, text) ∈ document.refs) (htarget : SchemaPath.ofPointer text = .ok target)
    (hschema : document.at? target = some schema) : Stands document target schema := by
  refine ⟨target, ?_, schema, [], hschema, .here _, ?_⟩
  · refine List.mem_cons_of_mem _ (List.mem_filterMap.mpr ⟨_, hmem, ?_⟩)
    rw [htarget]
    rfl
  · exact congrArg SchemaPath.mk (List.append_nil _).symm

/-- The target of a reference stands in the document. -/
theorem stands_target {text : String} {target : SchemaPath}
    (hnode : document.at? path = some (.obj node)) (htext : textRef? node = some text)
    (htarget : SchemaPath.ofPointer text = .ok target)
    (hschema : document.at? target = some schema) : Stands document target schema := by
  obtain ⟨place, hplace⟩ := Json.exists_standsAt_of_descend? hnode
  exact stands_of_mem_refs (Json.mem_refs.mpr ⟨_, hplace, htext⟩) htarget hschema

end Stands

/-! ### What a walk finds -/

/-- Whether a table holds classes that are reached from the root, with everything that is reached
from them, and the right entries. -/
structure Sound (document : Json) (schemas : FlatSchemas) : Prop where
  /-- No place is listed twice. -/
  nodup : (Assoc.keys schemas).Nodup
  /-- Each place is reached from the root. -/
  reaches : ∀ path ∈ Assoc.keys schemas, Reaches document .root path
  /-- Each place holds a class. -/
  isClass : ∀ path ∈ Assoc.keys schemas, IsClass document path
  /-- The classes that are reached from a listed place are listed. -/
  closed : ∀ path ∈ Assoc.keys schemas, ∀ target, Reaches document path target →
    IsClass document target → target ∈ Assoc.keys schemas
  /-- Each entry is a class with its properties in normal form. -/
  isEntry : ∀ path entry, Assoc.find? schemas path = some entry →
    IsEntry document (IsClass document) path entry

/-- What may become of a state in the course of a walk. -/
structure Extends (document : Json) (state after : FlattenState) : Prop where
  /-- The same places are being walked. -/
  inProgress : after.inProgress = state.inProgress
  /-- What has been found is sound. -/
  sound : Sound document after.schemas
  /-- What had been listed still is. -/
  keys : ∀ path ∈ Assoc.keys state.schemas, path ∈ Assoc.keys after.schemas

/-- Whether all classes that are reached from a place are listed. -/
def Complete (document : Json) (path : SchemaPath) (after : FlattenState) : Prop :=
  ∀ target, Reaches document path target → IsClass document target →
    target ∈ Assoc.keys after.schemas

/-- What the walk of a schema ends with. -/
def Found (document : Json) (path : SchemaPath) (state : FlattenState) (walked : Walked)
    (after : FlattenState) : Prop :=
  Extends document state after ∧ Normal document (IsClass document) path walked.toJson ∧
    Complete document path after

/-- What the walk of the schemas of some members ends with. -/
def FoundAll (document : Json) (path : SchemaPath) (keyword : String) (members : Entries)
    (state : FlattenState) (flat : Entries) (after : FlattenState) : Prop :=
  Extends document state after ∧ Assoc.keys flat = Assoc.keys members ∧
    (∀ name value, (name, value) ∈ flat →
      Normal document (IsClass document) (path ++ [keyword, name]) value) ∧
    ∀ name ∈ Assoc.keys members, Complete document (path ++ [keyword, name]) after

/-- Whether a walk does what is expected of it while some places are being walked. -/
def Walks (document : Json) (walk : Walker) (inProgress : List SchemaPath) : Prop :=
  ∀ schema path state, state.inProgress = inProgress → Sound document state.schemas →
    Reaches document .root path →
    (Stands document path schema ∨ path ∈ Assoc.keys state.schemas) →
    Ensures (walk schema path) state (Found document path state) (· ≠ .tooDeep)

/-- A sound table is an extension of itself. -/
theorem Extends.refl {document : Json} {state : FlattenState}
    (h : Sound document state.schemas) : Extends document state state :=
  ⟨rfl, h, fun _ h => h⟩

/-- Extending a table twice is extending it. -/
theorem Extends.trans {document : Json} {state between after : FlattenState}
    (h : Extends document state between) (h' : Extends document between after) :
    Extends document state after :=
  ⟨h'.inProgress.trans h.inProgress, h'.sound, fun path hpath => h'.keys path (h.keys path hpath)⟩

/-- A schema is complete once all that its steps lead to is, and it is listed if it is a class. -/
theorem complete_of_steps {document : Json} {path : SchemaPath} {after : FlattenState}
    (hself : IsClass document path → path ∈ Assoc.keys after.schemas)
    (hsteps : ∀ next, Step document path next → Complete document next after) :
    Complete document path after := by
  intro target hreach hclass
  rcases Relation.ReflTransGen.cases_head hreach with rfl | ⟨next, hstep, hrest⟩
  · exact hself hclass
  · exact hsteps next hstep target hrest hclass

/-- What was complete stays complete. -/
theorem Complete.mono {document : Json} {path : SchemaPath} {between after : FlattenState}
    (h : Complete document path between) (hextends : Extends document between after) :
    Complete document path after :=
  fun target hreach hclass => hextends.keys target (h target hreach hclass)

/-! ### The steps of the walk -/

section Steps

variable {document : Json} {walk : Walker} {inProgress : List SchemaPath} {path : SchemaPath}
  {node : Entries} {state : FlattenState}

/-- Following a reference ends as the walk of its target. -/
theorem found_followRef (hwalk : Walks document walk inProgress)
    (hprogress : state.inProgress = inProgress) (hsound : Sound document state.schemas)
    (hreach : Reaches document .root path) (hnode : document.at? path = some (.obj node))
    {text : String} (htext : textRef? node = some text) :
    Ensures (followRef document walk (.unresolved text)) state (Found document path state)
      (· ≠ .tooDeep) := by
  have hfound : ∀ target, SchemaPath.ofPointer text = .ok target → ∀ walked after,
      Found document target state walked after → Found document path state walked after := by
    rintro target hpointer walked after ⟨hextends, hnormal, hcomplete⟩
    refine ⟨hextends, .ref hnode htext hpointer hnormal, complete_of_steps ?_ fun next hnext => ?_⟩
    · rintro ⟨node', hnode', hplain, -⟩
      obtain rfl := node_unique hnode hnode'
      cases htext.symm.trans hplain
    · obtain rfl := Except.ok.inj (hpointer.symm.trans (hnext.of_ref hnode htext))
      exact hcomplete
  refine ensures_followRef (fun _ _ _ => nofun) (fun target entry hpointer hentry => ?_)
    fun target schema hpointer _ hschema => ?_
  · have hwalked := hwalk (.obj entry) target state hprogress hsound
      (hreach.tail (.ref hnode htext hpointer)) (.inr (Assoc.mem_keys_of_find? hentry))
    exact hwalked.mono (hfound target hpointer) fun _ h => h
  · have hwalked := hwalk schema target state hprogress hsound
      (hreach.tail (.ref hnode htext hpointer))
      (.inl (stands_target hnode htext hpointer hschema))
    exact hwalked.mono (hfound target hpointer) fun _ h => h

/-- The walk of the schemas of some members finds them all. -/
theorem found_flattenEntries (hwalk : Walks document walk inProgress)
    (hprogress : state.inProgress = inProgress) (hsound : Sound document state.schemas)
    {keyword : String} {members : Entries}
    (hmembers : ∀ name value, (name, value) ∈ members →
      Reaches document .root (path ++ [keyword, name]) ∧
        Stands document (path ++ [keyword, name]) value) :
    Ensures (flattenEntries walk path keyword members) state
      (FoundAll document path keyword members state) (· ≠ .tooDeep) := by
  induction members generalizing state with
  | nil =>
    exact ensures_pure ⟨.refl hsound, rfl, fun _ _ h => absurd h List.not_mem_nil,
      fun _ h => absurd h List.not_mem_nil⟩
  | cons member rest ih =>
    obtain ⟨name, value⟩ := member
    obtain ⟨hreach, hstands⟩ := hmembers name value List.mem_cons_self
    refine ensures_flattenEntries_cons ((hwalk value _ state hprogress hsound hreach
      (.inl hstands)).mono (fun walked between hfound => ?_) fun _ h => h)
    obtain ⟨hextends, hnormal, hcomplete⟩ := hfound
    refine (ih (hextends.inProgress.trans hprogress) hextends.sound fun k v h =>
      hmembers k v (List.mem_cons_of_mem _ h)).mono (fun flat after hrest => ?_) fun _ h => h
    obtain ⟨hextends', hkeys, hvalues, hall⟩ := hrest
    refine ⟨hextends.trans hextends', congrArg (name :: ·) hkeys, fun k v h => ?_, fun k h => ?_⟩
    · rcases List.mem_cons.mp h with heq | hmem
      · obtain ⟨rfl, rfl⟩ := Prod.mk.inj heq
        exact hnormal
      · exact hvalues k v hmem
    · rcases List.mem_cons.mp h with rfl | hmem
      · exact hcomplete.mono hextends'
      · exact hall k hmem

/-- The walk of an array finds its items. -/
theorem found_flattenArray (hwalk : Walks document walk inProgress)
    (hprogress : state.inProgress = inProgress) (hsound : Sound document state.schemas)
    (hreach : Reaches document .root path) (hwf : document.wellFormed)
    (hstands : Stands document path (.obj node)) (hplain : textRef? node = none)
    (harray : HasArrayType node) :
    Ensures (flattenArray walk node path) state (Found document path state) (· ≠ .tooDeep) := by
  have hnode := hstands.at? hwf
  have hnotclass : ¬IsClass document path := by
    rintro ⟨node', hnode', -, hobject, -⟩
    obtain rfl := node_unique hnode hnode'
    exact not_hasArrayType hobject harray
  refine ensures_flattenArray (fun _ => nofun) (fun _ _ => nofun) (fun _ hnone => ?_)
    fun _ items hitems _ => ?_
  · refine ⟨.refl hsound, .same hnode hplain hnotclass (fun _ => hnone)
      fun hobject => absurd harray (not_hasArrayType hobject), complete_of_steps
      (fun hclass => absurd hclass hnotclass) fun next hnext => ?_⟩
    obtain ⟨items, hitems, -⟩ := hnext.of_array hnode hplain harray
    cases hnone.symm.trans hitems
  · have hstep : Step document path (path.child "items") := .items hnode hplain harray hitems
    have hbelow : Stands document (path.child "items") items :=
      hstands.below (.entry (Assoc.mem_of_find? hitems) (.here _))
    refine (hwalk items _ state hprogress hsound (hreach.tail hstep) (.inl hbelow)).mono
      (fun walked after hfound => ?_) fun _ h => h
    obtain ⟨hextends, hnormal, hcomplete⟩ := hfound
    refine ⟨hextends, .items hnode hplain hnotclass harray hitems hnormal, complete_of_steps
      (fun hclass => absurd hclass hnotclass) fun next hnext => ?_⟩
    obtain ⟨-, -, rfl⟩ := hnext.of_array hnode hplain harray
    exact hcomplete

/-- A class whose steps are complete may be listed. -/
theorem Sound.insert {schemas : FlatSchemas} (h : Sound document schemas) {entry : Entries}
    (hreach : Reaches document .root path) (hclass : IsClass document path)
    (hcomplete : ∀ target, Reaches document path target → IsClass document target →
      target ∈ Assoc.keys (Assoc.insert schemas path entry))
    (hentry : IsEntry document (IsClass document) path entry) :
    Sound document (Assoc.insert schemas path entry) where
  nodup := Assoc.nodup_keys_insert h.nodup path entry
  reaches := by
    intro other hother
    rcases Assoc.mem_keys_insert.mp hother with hold | rfl
    · exact h.reaches other hold
    · exact hreach
  isClass := by
    intro other hother
    rcases Assoc.mem_keys_insert.mp hother with hold | rfl
    · exact h.isClass other hold
    · exact hclass
  closed := by
    intro other hother target htarget htargetclass
    rcases Assoc.mem_keys_insert.mp hother with hold | rfl
    · exact Assoc.mem_keys_insert.mpr (.inl (h.closed other hold target htarget htargetclass))
    · exact hcomplete target htarget htargetclass
  isEntry := by
    intro other found hfound
    by_cases heq : path = other
    · subst heq
      rw [Assoc.find?_insert_self] at hfound
      obtain rfl := Option.some.inj hfound
      exact hentry
    · rw [Assoc.find?_insert_of_ne _ _ heq] at hfound
      exact h.isEntry other found hfound

/-- An object without properties is no class. -/
theorem not_isClass_of_none (hnode : document.at? path = some (.obj node))
    (hnone : Assoc.find? node "properties" = none) : ¬IsClass document path := by
  rintro ⟨node', hnode', -, -, hproperties⟩
  obtain rfl := node_unique hnode hnode'
  rw [hnone] at hproperties
  cases hproperties

/-- The walk of an object finds its members. -/
theorem found_flattenObject (hwalk : Walks document walk inProgress)
    (hprogress : state.inProgress = inProgress) (hsound : Sound document state.schemas)
    (hreach : Reaches document .root path) (hwf : document.wellFormed)
    (hstands : Stands document path (.obj node)) (hplain : textRef? node = none)
    (hobject : HasObjectType node) (hfree : lacksCombiners (.obj node)) :
    Ensures (flattenObject document walk node path) state (Found document path state)
      (· ≠ .tooDeep) := by
  have hnode := hstands.at? hwf
  have hnotarray := not_hasArrayType hobject
  -- the members of either keyword, once steps lead to them
  have hmembers : ∀ keyword members, Assoc.find? node keyword = some (.obj members) →
      (∀ name ∈ Assoc.keys members, Step document path (path ++ [keyword, name])) →
      Ensures (flattenEntries walk path keyword members) state
        (FoundAll document path keyword members state) (· ≠ .tooDeep) := by
    intro keyword members hfind hsteps
    refine found_flattenEntries hwalk hprogress hsound fun name value hmem =>
      ⟨hreach.tail (hsteps name (Assoc.mem_keys_of_mem hmem)), ?_⟩
    exact hstands.below (.entry (Assoc.mem_of_find? hfind) (.entry hmem (.here _)))
  refine ensures_flattenObject_of_lacksCombiners hfree (fun _ => nofun)
    (fun _ members hproperties _ => ?_) (fun _ members hnone hpatterns => ?_)
    fun _ hnone hnone' => ?_
  · have hclass : IsClass document path := ⟨node, hnode, hplain, hobject, by rw [hproperties]; rfl⟩
    refine (hmembers "properties" members hproperties fun name hname =>
      .property hnode hplain hobject hproperties hname).mono (fun flat after hall => ?_)
      fun _ h => h
    obtain ⟨hextends, hkeys, hvalues, hcomplete⟩ := hall
    have hlisted : ∀ target, Reaches document path target → IsClass document target →
        target ∈ Assoc.keys (Assoc.insert after.schemas path
          (Assoc.insert node "properties" (.obj flat))) := by
      intro target htarget htargetclass
      rcases Relation.ReflTransGen.cases_head htarget with rfl | ⟨next, hnext, hrest⟩
      · exact Assoc.mem_keys_insert.mpr (.inr rfl)
      · obtain ⟨name, hname, rfl⟩ := hnext.of_properties hnode hplain hobject hproperties
        exact Assoc.mem_keys_insert.mpr (.inl (hcomplete name hname target hrest htargetclass))
    refine ⟨⟨hextends.inProgress, ?_, fun other hother =>
      Assoc.mem_keys_insert.mpr (.inl (hextends.keys other hother))⟩,
      .canonical hnode hplain hclass, hlisted⟩
    exact hextends.sound.insert hreach hclass hlisted
      ⟨node, members, flat, hnode, hproperties, rfl, hkeys, hvalues⟩
  · have hnotclass := not_isClass_of_none hnode hnone
    refine (hmembers "patternProperties" members hpatterns fun name hname =>
      .pattern hnode hplain hobject hnone hpatterns hname).mono (fun flat after hall => ?_)
      fun _ h => h
    obtain ⟨hextends, hkeys, hvalues, hcomplete⟩ := hall
    refine ⟨hextends, .patterns hnode hplain hnotclass hobject hpatterns hkeys hvalues,
      complete_of_steps (fun hclass => absurd hclass hnotclass) fun next hnext => ?_⟩
    obtain ⟨name, hname, rfl⟩ := hnext.of_patterns hnode hplain hobject hnone hpatterns
    exact hcomplete name hname
  · have hnotclass := not_isClass_of_none hnode hnone
    exact ⟨.refl hsound, .same hnode hplain hnotclass (fun harray => absurd harray hnotarray)
      fun _ => hnone', complete_of_steps (fun hclass => absurd hclass hnotclass) fun _ hnext =>
        absurd hnext (not_step_of_bare hnode hplain hobject hnone hnone')⟩

/-- A schema that is neither object nor array stays as it is. -/
theorem found_other (hsound : Sound document state.schemas)
    (hnode : document.at? path = some (.obj node)) (hplain : textRef? node = none)
    (hshape : Shape.ofSchema node = .other) :
    Found document path state (.inPlace (.obj node)) state := by
  have hnotobject : ¬HasObjectType node := by
    intro h
    cases hshape.symm.trans (ofSchema_eq_object.mpr h)
  have hnotarray : ¬HasArrayType node := by
    intro h
    cases hshape.symm.trans (ofSchema_eq_array.mpr h)
  have hnotclass : ¬IsClass document path := by
    rintro ⟨node', hnode', -, hobject, -⟩
    obtain rfl := node_unique hnode hnode'
    exact hnotobject hobject
  exact ⟨.refl hsound, .same hnode hplain hnotclass (fun h => absurd h hnotarray)
    fun h => absurd h hnotobject, complete_of_steps (fun h => absurd h hnotclass)
    fun _ hnext => absurd hnext (not_step_of_other hnode hplain hshape)⟩

/-- The walk of a schema finds all that it leads to. -/
theorem found_flattenSchema (hwalk : Walks document walk inProgress)
    (hprogress : state.inProgress = inProgress) (hsound : Sound document state.schemas)
    (hreach : Reaches document .root path) (hwf : document.wellFormed)
    (hstands : Stands document path (.obj node)) (hfree : lacksCombiners (.obj node)) :
    Ensures (flattenSchema document walk node path) state (Found document path state)
      (· ≠ .tooDeep) := by
  have hnode := hstands.at? hwf
  refine ensures_flattenSchema (fun reference href => ?_) (fun href hshape => ?_)
    (fun href hshape => ?_) fun href hshape => ?_
  · obtain ⟨text, htext, rfl⟩ := Option.map_eq_some_iff.mp href
    exact found_followRef hwalk hprogress hsound hreach hnode htext
  · exact found_flattenObject hwalk hprogress hsound hreach hwf hstands
      (Option.map_eq_none_iff.mp href) (ofSchema_eq_object.mp hshape) hfree
  · exact found_flattenArray hwalk hprogress hsound hreach hwf hstands
      (Option.map_eq_none_iff.mp href) (ofSchema_eq_array.mp hshape)
  · exact found_other hsound hnode (Option.map_eq_none_iff.mp href) hshape

/-- What was found while a place was being walked is found. -/
theorem Found.leave {walked : Walked} {after : FlattenState} (hnew : path ∉ state.inProgress)
    (h : Found document path { state with inProgress := state.inProgress ++ [path] } walked after) :
    Found document path state walked
      { after with inProgress := after.inProgress.erase path } := by
  obtain ⟨hextends, hnormal, hcomplete⟩ := h
  refine ⟨⟨?_, hextends.sound, hextends.keys⟩, hnormal, hcomplete⟩
  change after.inProgress.erase path = state.inProgress
  rw [hextends.inProgress]
  exact erase_last hnew

end Steps

/-! ### The whole walk -/

variable {document : Json}

/-- A walk with more depth than there are places left does what is expected of it. -/
theorem walks_walk (hwf : document.wellFormed) (hfree : combinerFree document) {depth : Nat}
    {inProgress : List SchemaPath} (hnodup : inProgress.Nodup)
    (hwalkable : ∀ path ∈ inProgress, path ∈ walkable document)
    (hdepth : (walkable document).length < depth + inProgress.length) :
    Walks document (walk document depth) inProgress := by
  induction depth generalizing inProgress with
  | zero =>
    have hle := (List.subperm_of_subset hnodup hwalkable).length_le
    omega
  | succ depth ih =>
    intro schema path state hprogress hsound hreach hschema
    refine ensures_visit (fun _ => nofun) (fun _ hkey => ?_) (fun node hobj hnew hkey => ?_)
      (fun value hbool _ hkey => ?_) fun _ _ => nofun
    · obtain ⟨node, hnode, hplain, -⟩ := id (hsound.isClass path hkey)
      exact ⟨.refl hsound, .canonical hnode hplain (hsound.isClass path hkey),
        hsound.closed path hkey⟩
    · subst hobj
      have hstands := hschema.resolve_right hkey
      have hlacks := lacksCombiners_of_at? (hstands.at? hwf) hfree
      have hwalk : Walks document (walk document depth) (inProgress ++ [path]) := by
        refine ih (nodup_append_last hnodup (hprogress ▸ hnew)) (fun other hother => ?_) ?_
        · rcases List.mem_append.mp hother with hold | hlast
          · exact hwalkable other hold
          · exact List.mem_singleton.mp hlast ▸ hstands.mem_walkable
        · rw [List.length_append, List.length_singleton]
          omega
      have hprogress' : ({ state with inProgress := state.inProgress ++ [path] } :
          FlattenState).inProgress = inProgress ++ [path] := congrArg (· ++ [path]) hprogress
      exact (found_flattenSchema hwalk hprogress' hsound hreach hwf hstands hlacks).mono
        (fun _ _ h => h.leave hnew) fun _ h => h
    · subst hbool
      have hvalue := (hschema.resolve_right hkey).at? hwf
      refine ⟨.refl hsound, .bool hvalue, complete_of_steps ?_ fun _ hnext =>
        absurd hnext (not_step_of_bool hvalue)⟩
      rintro ⟨node, hnode, -⟩
      cases hvalue.symm.trans hnode

/-- An empty table is sound. -/
theorem sound_nil (document : Json) : Sound document [] where
  nodup := List.nodup_nil
  reaches := fun _ h => absurd h List.not_mem_nil
  isClass := fun _ h => absurd h List.not_mem_nil
  closed := fun _ h => absurd h List.not_mem_nil
  isEntry := nofun

/-- The walk from the root finds what is reached from it and never goes too deep. -/
theorem found_root (hwf : document.wellFormed) (hfree : combinerFree document) {depth : Nat}
    (hdepth : depthBound document ≤ depth) :
    Ensures (walk document depth document .root) {} (Found document .root {}) (· ≠ .tooDeep) := by
  have hbound := length_walkable_lt document
  have hwalk : Walks document (walk document depth) [] :=
    walks_walk hwf hfree List.nodup_nil (fun _ h => absurd h List.not_mem_nil)
      (by rw [List.length_nil]; omega)
  exact hwalk document .root {} rfl (sound_nil document) .refl (.inl (stands_root document))

/-- Flattening a document without combiners never gives up for its depth. -/
theorem flatten_ne_tooDeep (hwf : document.wellFormed) (hfree : combinerFree document) :
    flatten document ≠ .error .tooDeep := by
  have hroot := found_root hwf hfree (Nat.le_refl _)
  unfold flatten
  by_cases hobject : document.isObject
  · rw [flattenWithin_eq hobject]
    cases hrun : (walk document (depthBound document) document .root).run {} with
    | ok result => exact nofun
    | error e =>
      intro h
      obtain rfl := Except.error.inj h
      exact hroot.of_eq_error hrun rfl
  · unfold flattenWithin
    rw [if_neg hobject]
    exact nofun

/-- Without combiners flattening never goes too deep, whatever more depth it is given, and it lists
exactly the classes that are reached from the root, with their properties in normal form. -/
theorem flatten_combinerFree (hwf : document.wellFormed) (hfree : combinerFree document) :
    (∀ depth, depthBound document ≤ depth → flattenWithin depth document = flatten document) ∧
    flatten document ≠ .error .tooDeep ∧
    ∀ schemas, flatten document = .ok schemas →
      (∀ path, path ∈ Assoc.keys schemas ↔ Reaches document .root path ∧ IsClass document path) ∧
      ∀ path entry, Assoc.find? schemas path = some entry →
        IsEntry document (fun place => place ∈ Assoc.keys schemas) path entry := by
  have hroot := found_root hwf hfree (Nat.le_refl _)
  have hdeep := flatten_ne_tooDeep hwf hfree
  refine ⟨fun depth hdepth => flattenWithin_of_le hdepth hdeep, hdeep, fun schemas hok => ?_⟩
  obtain ⟨walked, after, hrun, rfl⟩ := exists_run_of_flattenWithin hok
  obtain ⟨hextends, -, hcomplete⟩ := hroot.of_eq_ok hrun
  have hsound := hextends.sound
  have hkeys : ∀ path, path ∈ Assoc.keys after.schemas ↔
      Reaches document .root path ∧ IsClass document path :=
    fun path => ⟨fun h => ⟨hsound.reaches path h, hsound.isClass path h⟩,
      fun h => hcomplete path h.1 h.2⟩
  refine ⟨hkeys, fun path entry hentry => ?_⟩
  obtain ⟨node, members, flat, hnode, hmembers, hinsert, hsame, hvalues⟩ :=
    hsound.isEntry path entry hentry
  refine ⟨node, members, flat, hnode, hmembers, hinsert, hsame, fun name value hmem => ?_⟩
  refine (hvalues name value hmem).congr fun target htarget =>
    ⟨fun hclass => ?_, hsound.isClass target⟩
  -- the property is reached from its class, and this from the root
  obtain ⟨node', hnode', hplain, hobjecttype, -⟩ :=
    hsound.isClass path (Assoc.mem_keys_of_find? hentry)
  obtain rfl := node_unique hnode hnode'
  have hname : name ∈ Assoc.keys members := hsame ▸ Assoc.mem_keys_of_mem hmem
  have hpath := hsound.reaches path (Assoc.mem_keys_of_find? hentry)
  have hstep : Step document path (path ++ ["properties", name]) :=
    .property hnode hplain hobjecttype hmembers hname
  exact hcomplete target ((hpath.tail hstep).trans htarget) hclass

/-- A document that refers to one definition twice, once from the items of an array. -/
def sharedDefinition : Json :=
  .obj [
    ("properties", .obj [
      ("a", .obj [(refKey, .str "#/definitions/n")]),
      ("b", .obj [(typeKey, .str "array"), ("items", .obj [(refKey, .str "#/definitions/n")])])]),
    ("definitions", .obj [("n", .obj [("properties", .obj [("s", .bool true)])])])]

/-- The shared definition is listed once, before the document itself. -/
theorem flatten_combinerFree_shared : sharedDefinition.wellFormed ∧
    combinerFree sharedDefinition ∧
    (flatten sharedDefinition).toOption.map Assoc.keys =
      some [⟨["definitions", "n"]⟩, .root] ∧
    (∀ depth, depthBound sharedDefinition ≤ depth →
      flattenWithin depth sharedDefinition = flatten sharedDefinition) ∧
    flatten sharedDefinition ≠ .error .tooDeep ∧
    ∀ schemas, flatten sharedDefinition = .ok schemas →
      (∀ path, path ∈ Assoc.keys schemas ↔
        Reaches sharedDefinition .root path ∧ IsClass sharedDefinition path) ∧
      ∀ path entry, Assoc.find? schemas path = some entry →
        IsEntry sharedDefinition (fun place => place ∈ Assoc.keys schemas) path entry := by
  have hwf : sharedDefinition.wellFormed := by decide
  have hfree : combinerFree sharedDefinition := by decide
  have hkeys : (flatten sharedDefinition).toOption.map Assoc.keys =
      some [⟨["definitions", "n"]⟩, .root] := by decide +kernel
  exact ⟨hwf, hfree, hkeys, flatten_combinerFree hwf hfree⟩

end SchemaClasses.Flatten
