import SchemaClasses.Inline.Basic
import SchemaClasses.Proofs.Json.Places

/-!
# The references in a value

The references that are found in a value are those of the objects that stand in it (`mem_refs`), at
different places (`nodup_places_refs`). There are no more of them than there are values
(`length_refs_le`).
-/

namespace SchemaClasses.Json

/-! ### The references in a value -/

/-- A reference below a segment has the segment before its place. -/
theorem mem_underSegment {segment : String} {found : List (List String × String)}
    {place : List String} {text : String} :
    (place, text) ∈ underSegment segment found ↔
      ∃ below, place = segment :: below ∧ (below, text) ∈ found := by
  unfold underSegment
  rw [List.mem_map]
  constructor
  · rintro ⟨⟨below, t⟩, hmem, heq⟩
    obtain ⟨rfl, rfl⟩ := Prod.mk.inj heq
    exact ⟨below, rfl, hmem⟩
  · rintro ⟨below, rfl, hmem⟩
    exact ⟨(below, text), hmem, rfl⟩

/-- A reference in the entries of an object is one in the value of an entry, with the key before
it. -/
theorem mem_refsOfEntries {entries : Entries} {place : List String} {text : String} :
    (place, text) ∈ refsOfEntries entries ↔
      ∃ key value below, (key, value) ∈ entries ∧ place = key :: below ∧
        (below, text) ∈ value.refs := by
  induction entries with
  | nil => simp [refsOfEntries]
  | cons entry rest ih =>
    obtain ⟨k, v⟩ := entry
    rw [refsOfEntries, List.mem_append, mem_underSegment, ih]
    constructor
    · rintro (⟨below, rfl, hmem⟩ | ⟨key, value, below, hentry, rfl, hmem⟩)
      · exact ⟨k, v, below, List.mem_cons_self, rfl, hmem⟩
      · exact ⟨key, value, below, List.mem_cons_of_mem _ hentry, rfl, hmem⟩
    · rintro ⟨key, value, below, hentry, rfl, hmem⟩
      rcases List.mem_cons.mp hentry with heq | hrest
      · obtain ⟨rfl, rfl⟩ := Prod.mk.inj heq
        exact .inl ⟨below, rfl, hmem⟩
      · exact .inr ⟨key, value, below, hrest, rfl, hmem⟩

/-- A reference in some items is one in an item, with the position of the item before it. -/
theorem mem_refsOfItems {items : List Json} {start : Nat} {place : List String} {text : String} :
    (place, text) ∈ refsOfItems start items ↔
      ∃ index value below, items[index]? = some value ∧
        place = SchemaPath.ofIndex (start + index) :: below ∧ (below, text) ∈ value.refs := by
  induction items generalizing start with
  | nil => simp [refsOfItems]
  | cons item rest ih =>
    rw [refsOfItems, List.mem_append, mem_underSegment, ih]
    constructor
    · rintro (⟨below, rfl, hmem⟩ | ⟨index, value, below, hitem, rfl, hmem⟩)
      · exact ⟨0, item, below, rfl, rfl, hmem⟩
      · refine ⟨index + 1, value, below, hitem, ?_, hmem⟩
        rw [Nat.add_assoc, Nat.add_comm 1]
    · rintro ⟨index, value, below, hitem, rfl, hmem⟩
      cases index with
      | zero =>
        obtain rfl := Option.some.inj hitem
        exact .inl ⟨below, rfl, hmem⟩
      | succ index =>
        refine .inr ⟨index, value, below, hitem, ?_, hmem⟩
        rw [Nat.add_assoc, Nat.add_comm 1]

/-- The references of an object are its own and those in its entries. -/
theorem mem_refs_obj {entries : Entries} {place : List String} {text : String} :
    (place, text) ∈ (obj entries).refs ↔
      place = [] ∧ (obj entries).ref? = some text ∨
        ∃ key value below, (key, value) ∈ entries ∧ place = key :: below ∧
          (below, text) ∈ value.refs := by
  rw [refs, List.mem_append, mem_refsOfEntries]
  simp only [List.mem_map, Option.mem_toList, Prod.mk.injEq, exists_eq_right_right]
  rw [and_comm (a := place = []), eq_comm (a := place) (b := [])]

/-- The references in a value are those of the objects that stand in it. -/
theorem mem_refs {value : Json} {place : List String} {text : String} :
    (place, text) ∈ value.refs ↔ ∃ v, StandsAt value place v ∧ v.ref? = some text := by
  constructor
  · intro h
    induction value using Json.induction generalizing place with
    | arr items ih =>
      rw [refs, mem_refsOfItems] at h
      obtain ⟨index, item, below, hitem, rfl, hmem⟩ := h
      obtain ⟨v, hv, href⟩ := ih item (List.mem_of_getElem? hitem) hmem
      exact ⟨v, by simpa using StandsAt.item hitem hv, href⟩
    | obj entries ih =>
      rcases mem_refs_obj.mp h with ⟨rfl, href⟩ | ⟨key, value, below, hentry, rfl, hmem⟩
      · exact ⟨_, .here _, href⟩
      · obtain ⟨v, hv, href⟩ := ih (key, value) hentry hmem
        exact ⟨v, .entry hentry hv, href⟩
    | null => cases h
    | bool => cases h
    | num => cases h
    | str => cases h
  · rintro ⟨v, hv, href⟩
    induction hv with
    | here value =>
      cases value with
      | obj entries => exact mem_refs_obj.mpr (.inl ⟨rfl, href⟩)
      | arr => cases href
      | null => cases href
      | bool => cases href
      | num => cases href
      | str => cases href
    | entry hmem _ ih => exact mem_refs_obj.mpr (.inr ⟨_, _, _, hmem, rfl, ih href⟩)
    | item hmem _ ih =>
      rw [refs, mem_refsOfItems]
      exact ⟨_, _, _, hmem, by rw [Nat.zero_add], ih href⟩

/-- A text under `$ref` in an object of a value is a reference of the value. -/
theorem mem_refs_of_mem {value : Json} (hwf : value.wellFormed) {place : List String}
    {entries : Entries} (hstands : StandsAt value place (obj entries)) {text : String}
    (hentry : (refKey, str text) ∈ entries) : (place, text) ∈ value.refs := by
  have hnodup := (wellFormed_obj.mp (hstands.everywhere hwf)).1
  refine mem_refs.mpr ⟨_, hstands, ?_⟩
  rw [ref?, get?, (Assoc.find?_eq_some_iff hnodup).mpr hentry]
  rfl

/-! ### No place comes twice -/

/-- Putting references below a segment puts their places below it. -/
theorem map_fst_underSegment (segment : String) (found : List (List String × String)) :
    (underSegment segment found).map Prod.fst = (found.map Prod.fst).map (segment :: ·) := by
  rw [underSegment, List.map_map, List.map_map]
  rfl

/-- What is found under a segment stands at other places than what is found elsewhere. -/
theorem nodup_underSegment_append {segment : String} {found rest : List (List String × String)}
    (hfound : (found.map Prod.fst).Nodup) (hrest : (rest.map Prod.fst).Nodup)
    (hapart : ∀ place text, (place, text) ∈ rest → place.head? ≠ some segment) :
    ((underSegment segment found ++ rest).map Prod.fst).Nodup := by
  rw [List.map_append, map_fst_underSegment]
  refine List.nodup_append.mpr
    ⟨hfound.map fun _ _ => List.tail_eq_of_cons_eq, hrest, fun place hplace other hother => ?_⟩
  obtain ⟨below, -, rfl⟩ := List.mem_map.mp hplace
  obtain ⟨⟨_, text⟩, hmem, rfl⟩ := List.mem_map.mp hother
  rintro rfl
  exact hapart _ text hmem rfl

/-- The references in some items have different places if those in each item have. -/
theorem nodup_refsOfItems {items : List Json} (start : Nat)
    (h : ∀ item ∈ items, (item.refs.map Prod.fst).Nodup) :
    ((refsOfItems start items).map Prod.fst).Nodup := by
  induction items generalizing start with
  | nil => exact List.nodup_nil
  | cons item rest ih =>
    refine nodup_underSegment_append (h item List.mem_cons_self)
      (ih (start + 1) fun other hother => h other (List.mem_cons_of_mem _ hother))
      fun place text hmem => ?_
    obtain ⟨index, _, below, -, rfl, -⟩ := mem_refsOfItems.mp hmem
    intro hhead
    have hindex := Text.decimal_injective (Option.some.inj hhead)
    omega

/-- The references in the entries of an object have different places if it repeats no key and those
in each entry have. -/
theorem nodup_refsOfEntries {entries : Entries} (hnodup : (Assoc.keys entries).Nodup)
    (h : ∀ entry ∈ entries, (entry.2.refs.map Prod.fst).Nodup) :
    ((refsOfEntries entries).map Prod.fst).Nodup := by
  induction entries with
  | nil => exact List.nodup_nil
  | cons entry rest ih =>
    obtain ⟨hnew, hrest⟩ := List.nodup_cons.mp hnodup
    have hlater := ih hrest fun other hother => h other (List.mem_cons_of_mem _ hother)
    refine nodup_underSegment_append (h entry List.mem_cons_self) hlater fun place text hmem => ?_
    obtain ⟨key, value, below, hentry, rfl, -⟩ := mem_refsOfEntries.mp hmem
    rintro ⟨⟩
    exact hnew (Assoc.mem_keys_of_mem hentry)

/-- The references of a value stand at different places. -/
theorem nodup_places_refs {value : Json} (hwf : value.wellFormed) :
    (value.refs.map Prod.fst).Nodup := by
  induction value using Json.induction with
  | arr items ih =>
    have hitems := (wellFormed_arr.mp hwf).2
    exact nodup_refsOfItems 0 fun item hitem => ih item hitem (hitems item hitem)
  | obj entries ih =>
    obtain ⟨hnodup, hentries⟩ := wellFormed_obj.mp hwf
    have hbelow := nodup_refsOfEntries hnodup fun entry hentry =>
      ih entry hentry (hentries entry hentry)
    rw [refs, List.map_append]
    cases (obj entries).ref? with
    | none => exact hbelow
    | some own =>
      refine List.nodup_cons.mpr ⟨fun hmem => ?_, hbelow⟩
      obtain ⟨⟨_, text⟩, hmem, rfl⟩ := List.mem_map.mp hmem
      obtain ⟨_, _, _, -, heq, -⟩ := mem_refsOfEntries.mp hmem
      cases heq
  | null => exact List.nodup_nil
  | bool => exact List.nodup_nil
  | num => exact List.nodup_nil
  | str => exact List.nodup_nil

/-! ### How many there are -/

/-- There are no more references than values. -/
theorem length_refs_le (value : Json) : value.refs.length ≤ value.size := by
  induction value using Json.induction with
  | arr items ih =>
    have below : ∀ start, (refsOfItems start items).length ≤ sizeItems items := by
      induction items with
      | nil => exact fun _ => Nat.le_refl _
      | cons item rest ihrest =>
        intro start
        have hitem := ih item List.mem_cons_self
        have hrest := ihrest (fun v hv => ih v (List.mem_cons_of_mem _ hv)) (start + 1)
        rw [refsOfItems, List.length_append, underSegment, List.length_map, sizeItems]
        omega
    rw [refs, size]
    exact Nat.le_trans (below 0) (Nat.le_add_left _ _)
  | obj entries ih =>
    have below : (refsOfEntries entries).length ≤ sizeEntries entries := by
      induction entries with
      | nil => exact Nat.le_refl _
      | cons entry rest ihrest =>
        have hentry := ih entry List.mem_cons_self
        have hrest := ihrest fun e he => ih e (List.mem_cons_of_mem _ he)
        rw [refsOfEntries, List.length_append, underSegment, List.length_map, sizeEntries]
        omega
    have own : ((obj entries).ref?.toList.map fun text =>
        (([], text) : List String × String)).length ≤ 1 := by
      rw [List.length_map]
      cases (obj entries).ref? with
      | none => exact Nat.zero_le _
      | some text => exact Nat.le_refl _
    rw [refs, List.length_append, size]
    omega
  | null => exact Nat.zero_le _
  | bool => exact Nat.zero_le _
  | num => exact Nat.zero_le _
  | str => exact Nat.zero_le _

end SchemaClasses.Json
