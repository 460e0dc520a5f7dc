import SchemaClasses.Proofs.Pointer
import SchemaClasses.Proofs.Tables

/-!
# The values that stand in a value

`StandsAt value place v` says that `v` is what stands in `value` at a place whose segments are the
keys of entries and the decimal positions of items. In a value that is well formed, so that no
object repeats a key and every position of an array can be written as a segment, following that
place leads to `v` (`StandsAt.descend?`). A test that holds everywhere in a value holds for all
values that stand in it (`everywhere_iff`).
-/

namespace SchemaClasses.Json

/-- Induction on a value by way of the items of arrays and the entries of objects. -/
@[elab_as_elim]
theorem induction {motive : Json → Prop} (null : motive null) (bool : ∀ value, motive (bool value))
    (num : ∀ value, motive (num value)) (str : ∀ value, motive (str value))
    (arr : ∀ items : List Json, (∀ item ∈ items, motive item) → motive (arr items))
    (obj : ∀ entries : Entries, (∀ entry ∈ entries, motive entry.2) → motive (obj entries))
    (value : Json) : motive value := by
  refine @Json.rec motive (fun items => ∀ item ∈ items, motive item)
    (fun entries => ∀ entry ∈ entries, motive entry.2) (fun entry => motive entry.2)
    null bool num str arr obj ?_ ?_ ?_ ?_ ?_ value
  · exact fun item h => absurd h List.not_mem_nil
  · intro head tail hhead htail item hitem
    rcases List.mem_cons.mp hitem with rfl | hmem
    · exact hhead
    · exact htail item hmem
  · exact fun entry h => absurd h List.not_mem_nil
  · intro head tail hhead htail entry hentry
    rcases List.mem_cons.mp hentry with rfl | hmem
    · exact hhead
    · exact htail entry hmem
  · exact fun key value h => h

/-- An object has entries. -/
theorem exists_of_isObject {value : Json} (h : value.isObject) :
    ∃ entries, value = .obj entries := by
  cases value with
  | obj entries => exact ⟨entries, rfl⟩
  | _ => cases h

/-! ### Tests that hold everywhere -/

mutual

/-- Whether a test holds for a value and for all values in it. -/
def everywhere (test : Json → Bool) : Json → Bool
  | arr items => test (arr items) && everywhereItems test items
  | obj entries => test (obj entries) && everywhereEntries test entries
  | value => test value

/-- Whether a test holds everywhere in the items of an array. -/
def everywhereItems (test : Json → Bool) : List Json → Bool
  | [] => true
  | item :: rest => everywhere test item && everywhereItems test rest

/-- Whether a test holds everywhere in the entries of an object. -/
def everywhereEntries (test : Json → Bool) : Entries → Bool
  | [] => true
  | (_, value) :: rest => everywhere test value && everywhereEntries test rest

end

variable {test : Json → Bool}

/-- A test holds everywhere in an array if it holds of the array and everywhere in its items. -/
theorem everywhere_arr {items : List Json} :
    (arr items).everywhere test ↔
      test (arr items) ∧ ∀ item ∈ items, item.everywhere test := by
  have all : everywhereItems test items ↔ ∀ item ∈ items, item.everywhere test := by
    induction items with
    | nil => simp [everywhereItems]
    | cons item rest ih => simp [everywhereItems, ih]
  rw [everywhere, Bool.and_eq_true, all]

/-- A test holds everywhere in an object if it holds of the object and everywhere in its entries. -/
theorem everywhere_obj {entries : Entries} :
    (obj entries).everywhere test ↔
      test (obj entries) ∧ ∀ entry ∈ entries, entry.2.everywhere test := by
  have all : everywhereEntries test entries ↔ ∀ entry ∈ entries, entry.2.everywhere test := by
    induction entries with
    | nil => simp [everywhereEntries]
    | cons entry rest ih => simp [everywhereEntries, ih]
  rw [everywhere, Bool.and_eq_true, all]

/-- What holds everywhere in a value holds for the value. -/
theorem test_of_everywhere {value : Json} (h : value.everywhere test) : test value := by
  cases value with
  | arr items => exact (everywhere_arr.mp h).1
  | obj entries => exact (everywhere_obj.mp h).1
  | null => exact h
  | bool => exact h
  | num => exact h
  | str => exact h

/-! ### Places -/

/-- `v` is what stands in a value at a place of keys and decimal positions. -/
inductive StandsAt : Json → List String → Json → Prop where
  /-- The value itself. -/
  | here (value : Json) : StandsAt value [] value
  /-- What stands in the value of an entry. -/
  | entry {entries : Entries} {key : String} {value v : Json} {place : List String}
      (hmem : (key, value) ∈ entries) (below : StandsAt value place v) :
      StandsAt (obj entries) (key :: place) v
  /-- What stands in an item. -/
  | item {items : List Json} {index : Nat} {value v : Json} {place : List String}
      (hmem : items[index]? = some value) (below : StandsAt value place v) :
      StandsAt (arr items) (SchemaPath.ofIndex index :: place) v

/-- A test that holds everywhere in a value holds everywhere in what stands at a place in it. -/
theorem StandsAt.everywhere {value v : Json} {place : List String} (h : StandsAt value place v)
    (hall : value.everywhere test) : v.everywhere test := by
  induction h with
  | here => exact hall
  | entry hmem _ ih => exact ih ((everywhere_obj.mp hall).2 _ hmem)
  | item hmem _ ih => exact ih ((everywhere_arr.mp hall).2 _ (List.mem_of_getElem? hmem))

/-- A test holds everywhere in a value if it holds for all values that stand in it. -/
theorem everywhere_iff {value : Json} :
    value.everywhere test ↔ ∀ place v, StandsAt value place v → test v := by
  refine ⟨fun hall place v h => test_of_everywhere (h.everywhere hall), fun h => ?_⟩
  induction value using Json.induction with
  | arr items ih =>
    refine everywhere_arr.mpr ⟨h [] _ (.here _), fun item hitem => ih item hitem ?_⟩
    intro place v hv
    obtain ⟨index, hindex⟩ := List.mem_iff_getElem?.mp hitem
    exact h _ v (.item hindex hv)
  | obj entries ih =>
    refine everywhere_obj.mpr ⟨h [] _ (.here _), fun entry hentry => ih entry hentry ?_⟩
    intro place v hv
    exact h _ v (.entry hentry hv)
  | null => exact h [] _ (.here _)
  | bool => exact h [] _ (.here _)
  | num => exact h [] _ (.here _)
  | str => exact h [] _ (.here _)

/-! ### Well-formed values -/

/-- Whether every place of the values directly below leads to one of them only: no key is
repeated, and every position can be written as a segment. -/
def hasClearPlaces : Json → Bool
  | obj entries => (Assoc.keys entries).Nodup
  | arr items => items.length < 2 ^ 64
  | _ => true

/-- Whether the places of all values in a value are clear, as they are in every value that is held
as a table with different keys or an array of some machine. -/
def wellFormed (value : Json) : Bool :=
  value.everywhere hasClearPlaces

/-- An object is well-formed if it repeats no key and its entries are well-formed. -/
theorem wellFormed_obj {entries : Entries} :
    (obj entries).wellFormed ↔
      (Assoc.keys entries).Nodup ∧ ∀ entry ∈ entries, entry.2.wellFormed := by
  rw [wellFormed, everywhere_obj, hasClearPlaces, decide_eq_true_iff]
  rfl

/-- An array is well-formed if its positions can be written and its items are well-formed. -/
theorem wellFormed_arr {items : List Json} :
    (arr items).wellFormed ↔ items.length < 2 ^ 64 ∧ ∀ item ∈ items, item.wellFormed := by
  rw [wellFormed, everywhere_arr, hasClearPlaces, decide_eq_true_iff]
  rfl

/-- Following the place of a value leads to it. -/
theorem StandsAt.descend? {value v : Json} {place : List String} (h : StandsAt value place v)
    (hwf : value.wellFormed) : value.descend? place = some v := by
  induction h with
  | here => rfl
  | entry hmem _ ih =>
    obtain ⟨hnodup, hentries⟩ := wellFormed_obj.mp hwf
    rw [Json.descend?, step?, (Assoc.find?_eq_some_iff hnodup).mpr hmem]
    exact ih (hentries _ hmem)
  | @item items index _ _ _ hmem _ ih =>
    obtain ⟨hlength, hitems⟩ := wellFormed_arr.mp hwf
    obtain ⟨hindex, -⟩ := List.getElem?_eq_some_iff.mp hmem
    rw [Json.descend?, step?, arrayIndex?_ofIndex (by omega), Option.bind_some, hmem]
    exact ih (hitems _ (List.mem_of_getElem? hmem))

/-- At one place there is one value. -/
theorem StandsAt.unique {value v w : Json} {place : List String} (hv : StandsAt value place v)
    (hw : StandsAt value place w) (hwf : value.wellFormed) : v = w :=
  Option.some.inj ((hv.descend? hwf).symm.trans (hw.descend? hwf))

/-- What stands in a value that stands in another one stands in that as well. -/
theorem StandsAt.trans {value v w : Json} {front back : List String}
    (hfront : StandsAt value front v) (hback : StandsAt v back w) :
    StandsAt value (front ++ back) w := by
  induction hfront with
  | here => exact hback
  | entry hmem _ ih => exact .entry hmem (ih hback)
  | item hmem _ ih => exact .item hmem (ih hback)

/-! ### What is found by following a path -/

/-- What is found at the end of a path stands in the value, though perhaps at a place that is
written in another way. -/
theorem exists_standsAt_of_descend? {value v : Json} {path : List String}
    (h : value.descend? path = some v) : ∃ place, StandsAt value place v := by
  induction path generalizing value with
  | nil =>
    obtain rfl := Option.some.inj h
    exact ⟨[], .here _⟩
  | cons segment rest ih =>
    obtain ⟨next, hstep, hrest⟩ := Option.bind_eq_some_iff.mp h
    obtain ⟨place, hplace⟩ := ih hrest
    cases value with
    | obj entries => exact ⟨_, .entry (Assoc.mem_of_find? hstep) hplace⟩
    | arr items =>
      obtain ⟨index, -, hindex⟩ := Option.bind_eq_some_iff.mp hstep
      exact ⟨_, .item hindex hplace⟩
    | null => cases hstep
    | bool => cases hstep
    | num => cases hstep
    | str => cases hstep

/-- What holds everywhere in a value holds everywhere in what is found in it. -/
theorem everywhere_of_descend? {value v : Json} {path : List String}
    (h : value.descend? path = some v) (hall : value.everywhere test) : v.everywhere test := by
  obtain ⟨place, hplace⟩ := exists_standsAt_of_descend? h
  exact hplace.everywhere hall

/-- What is found in a well-formed value is well-formed. -/
theorem wellFormed_of_descend? {value v : Json} {path : List String}
    (h : value.descend? path = some v) (hwf : value.wellFormed) : v.wellFormed :=
  @everywhere_of_descend? hasClearPlaces _ _ _ h hwf

/-! ### All places -/

mutual

/-- The places of the values in a value. -/
def places : Json → List (List String)
  | arr items => [] :: placesOfItems 0 items
  | obj entries => [] :: placesOfEntries entries
  | _ => [[]]

/-- The places in the items of an array from some position on. -/
def placesOfItems (index : Nat) : List Json → List (List String)
  | [] => []
  | item :: rest =>
    (places item).map (SchemaPath.ofIndex index :: ·) ++ placesOfItems (index + 1) rest

/-- The places in the entries of an object. -/
def placesOfEntries : Entries → List (List String)
  | [] => []
  | (key, value) :: rest => (places value).map (key :: ·) ++ placesOfEntries rest

end

/-- A place where something stands is one of the places of the value. -/
theorem StandsAt.mem_places {value v : Json} {place : List String} (h : StandsAt value place v) :
    place ∈ value.places := by
  induction h with
  | here value => cases value <;> exact List.mem_cons_self
  | @entry entries key value _ place hmem _ ih =>
    refine List.mem_cons_of_mem _ ?_
    induction entries with
    | nil => cases hmem
    | cons entry rest ihrest =>
      rw [placesOfEntries, List.mem_append]
      rcases List.mem_cons.mp hmem with rfl | hrest
      · exact .inl (List.mem_map_of_mem ih)
      · exact .inr (ihrest hrest)
  | @item items index value _ place hmem _ ih =>
    refine List.mem_cons_of_mem _ ?_
    have behind : ∀ (rest : List Json) (start index : Nat), rest[index]? = some value →
        SchemaPath.ofIndex (start + index) :: place ∈ placesOfItems start rest := by
      intro rest
      induction rest with
      | nil => exact fun _ _ h => by cases h
      | cons item rest ihrest =>
        intro start index hindex
        rw [placesOfItems, List.mem_append]
        cases index with
        | zero =>
          obtain rfl := Option.some.inj hindex
          exact .inl (List.mem_map_of_mem ih)
        | succ index =>
          have := ihrest (start + 1) index hindex
          rw [Nat.add_assoc, Nat.add_comm 1] at this
          exact .inr this
    have := behind items 0 index hmem
    rwa [Nat.zero_add] at this

/-- There are as many places as values. -/
theorem length_places (value : Json) : value.places.length = value.size := by
  induction value using Json.induction with
  | arr items ih =>
    have below : ∀ start, (placesOfItems start items).length = sizeItems items := by
      induction items with
      | nil => exact fun _ => rfl
      | cons item rest ihrest =>
        intro start
        rw [placesOfItems, List.length_append, List.length_map, sizeItems,
          ih item List.mem_cons_self, ihrest fun v hv => ih v (List.mem_cons_of_mem _ hv)]
    rw [places, List.length_cons, below, size, Nat.add_comm]
  | obj entries ih =>
    have below : (placesOfEntries entries).length = sizeEntries entries := by
      induction entries with
      | nil => rfl
      | cons entry rest ihrest =>
        rw [placesOfEntries, List.length_append, List.length_map, sizeEntries,
          ih entry List.mem_cons_self, ihrest fun e he => ih e (List.mem_cons_of_mem _ he)]
    rw [places, List.length_cons, below, size, Nat.add_comm]
  | null => rfl
  | bool => rfl
  | num => rfl
  | str => rfl

/-- An item is no larger than the items of its array together. -/
theorem size_le_of_mem_items {items : List Json} {item : Json} (h : item ∈ items) :
    item.size ≤ sizeItems items := by
  induction items with
  | nil => cases h
  | cons first rest ih =>
    rw [sizeItems]
    rcases List.mem_cons.mp h with rfl | hrest
    · exact Nat.le_add_right _ _
    · exact Nat.le_trans (ih hrest) (Nat.le_add_left _ _)

/-- The value of an entry is no larger than the entries of its object together. -/
theorem size_le_of_mem_entries {entries : Entries} {entry : String × Json} (h : entry ∈ entries) :
    entry.2.size ≤ sizeEntries entries := by
  induction entries with
  | nil => cases h
  | cons first rest ih =>
    rw [sizeEntries]
    rcases List.mem_cons.mp h with rfl | hrest
    · exact Nat.le_add_right _ _
    · exact Nat.le_trans (ih hrest) (Nat.le_add_left _ _)

/-- An object is larger than the values of its entries. -/
theorem size_lt_of_mem_entries {entries : Entries} {entry : String × Json}
    (h : entry ∈ entries) : entry.2.size < (obj entries).size := by
  have hentry := size_le_of_mem_entries h
  rw [size]
  omega

/-- What stands in a value is no larger than the value. -/
theorem StandsAt.size_le {value v : Json} {place : List String} (h : StandsAt value place v) :
    v.size ≤ value.size := by
  induction h with
  | here => exact Nat.le_refl _
  | entry hmem _ ih => exact Nat.le_trans ih (Nat.le_of_lt (size_lt_of_mem_entries hmem))
  | item hmem _ ih =>
    have hitem := size_le_of_mem_items (List.mem_of_getElem? hmem)
    rw [size]
    omega

end SchemaClasses.Json
