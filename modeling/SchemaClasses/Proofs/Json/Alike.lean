import SchemaClasses.Proofs.Json.References
import SchemaClasses.Proofs.Merge

/-!
# Values that differ in the order of their tables of schemas

Under `properties` and `patternProperties` the keys of an object are names of schemas, everywhere
else they are keywords. Two values are `Alike` if they differ in the order of such names only. Then
they are the same value (`Alike.same`), no comparison with a third one tells them apart
(`Alike.same_left`), the same path leads to alike values (`Alike.descend?`), and they hold the same
references (`Alike.refersTo_iff`). How a path reads the last of its values says `keysAt`.
-/

namespace SchemaClasses

open Merge (Keys)

namespace Json

/-- Whether a value has no parts. -/
def isAtom : Json → Bool
  | arr _ => false
  | obj _ => false
  | _ => true

/-- Two values that differ at most in the order of the names of schemas. No object in them repeats a
key. -/
inductive Alike : Keys → Json → Json → Prop where
  /-- A value without parts. -/
  | atom {keys : Keys} {value : Json} (hatom : value.isAtom) : Alike keys value value
  /-- Arrays of alike items. -/
  | arr {keys : Keys} {items others : List Json} (hlength : items.length = others.length)
      (hitems : ∀ (index : Nat) (item other : Json), items[index]? = some item →
        others[index]? = some other → Alike .keywords item other) :
      Alike keys (arr items) (arr others)
  /-- Objects with alike values under the same keys. Keywords are in the same order. -/
  | obj {keys : Keys} {entries others : Entries} (hnodup : (Assoc.keys entries).Nodup)
      (hnodup' : (Assoc.keys others).Nodup)
      (hmem : ∀ key, key ∈ Assoc.keys entries ↔ key ∈ Assoc.keys others)
      (horder : keys = .keywords → Assoc.keys entries = Assoc.keys others)
      (hentries : ∀ key value other, Assoc.find? entries key = some value →
        Assoc.find? others key = some other → Alike (keys.below key) value other) :
      Alike keys (obj entries) (obj others)

section Alike

variable {keys : Keys} {value other : Json} {entries others : Entries} {key : String}

/-- Being alike goes both ways. -/
theorem Alike.symm (h : Alike keys value other) : Alike keys other value := by
  induction h with
  | atom hatom => exact .atom hatom
  | arr hlength _ ih =>
    exact .arr hlength.symm fun index item other hitem hother => ih index other item hother hitem
  | obj hnodup hnodup' hmem horder _ ih =>
    exact .obj hnodup' hnodup (fun key => (hmem key).symm) (fun hkeys => (horder hkeys).symm)
      fun key value other hvalue hother => ih key other value hother hvalue

/-- A value in which no object repeats a key is like itself. -/
theorem alike_refl (h : value.wellFormed) : Alike keys value value := by
  induction value using Json.induction generalizing keys with
  | arr items ih =>
    refine .arr rfl fun index item other hitem hother => ?_
    obtain rfl := Option.some.inj (hitem.symm.trans hother)
    have hmem := List.mem_of_getElem? hitem
    exact ih item hmem ((wellFormed_arr.mp h).2 item hmem)
  | obj entries ih =>
    obtain ⟨hnodup, hentries⟩ := wellFormed_obj.mp h
    refine .obj hnodup hnodup (fun _ => .rfl) (fun _ => rfl) fun key value other hvalue hother => ?_
    obtain rfl := Option.some.inj (hvalue.symm.trans hother)
    have hmem := Assoc.mem_of_find? hvalue
    exact ih _ hmem (hentries _ hmem)
  | null => exact .atom rfl
  | bool => exact .atom rfl
  | num => exact .atom rfl
  | str => exact .atom rfl

/-! ### What alike values are -/

/-- Only an atom itself is alike to it. -/
theorem Alike.eq_of_isAtom (h : Alike keys value other) (hatom : value.isAtom) : other = value := by
  cases h with
  | atom => rfl
  | arr => cases hatom
  | obj => cases hatom

/-- A value alike to an array is an array of as many items, each alike to its counterpart. -/
theorem Alike.exists_arr {items : List Json} (h : Alike keys (.arr items) other) :
    ∃ others, other = .arr others ∧ items.length = others.length ∧
      ∀ (index : Nat) (item other : Json), items[index]? = some item →
        others[index]? = some other → Alike .keywords item other := by
  cases h with
  | atom hatom => cases hatom
  | arr hlength hitems => exact ⟨_, rfl, hlength, hitems⟩

/-- A value alike to an object is an object. -/
theorem Alike.exists_obj (h : Alike keys (.obj entries) other) :
    ∃ others, other = .obj others := by
  cases h with
  | atom hatom => cases hatom
  | obj => exact ⟨_, rfl⟩

/-- Objects that are alike to others repeat no key. -/
theorem Alike.nodup (h : Alike keys (.obj entries) (.obj others)) :
    (Assoc.keys entries).Nodup := by
  cases h with
  | atom hatom => cases hatom
  | obj hnodup => exact hnodup

/-- Alike objects have the same keys. -/
theorem Alike.mem_keys_iff (h : Alike keys (.obj entries) (.obj others)) :
    key ∈ Assoc.keys entries ↔ key ∈ Assoc.keys others := by
  cases h with
  | atom => rfl
  | obj _ _ hmem => exact hmem key

/-- Alike objects have their keys in the same order where these are read as keywords. -/
theorem Alike.keys_eq (h : Alike .keywords (.obj entries) (.obj others)) :
    Assoc.keys entries = Assoc.keys others := by
  cases h with
  | atom => rfl
  | obj _ _ _ horder => exact horder rfl

/-- Under the same key stand alike values. -/
theorem Alike.of_find? (h : Alike keys (.obj entries) (.obj others))
    (hvalue : Assoc.find? entries key = some value) (hother : Assoc.find? others key = some other) :
    Alike (keys.below key) value other := by
  cases h with
  | atom hatom => cases hatom
  | obj _ _ _ _ hentries => exact hentries key value other hvalue hother

/-- Alike objects have alike values under each key. -/
theorem Alike.exists_find? (h : Alike keys (.obj entries) (.obj others))
    (hvalue : Assoc.find? entries key = some value) :
    ∃ other, Assoc.find? others key = some other ∧ Alike (keys.below key) value other := by
  obtain ⟨other, hother⟩ := Assoc.exists_find?_of_mem_keys
    (h.mem_keys_iff.mp (Assoc.mem_keys_of_find? hvalue))
  exact ⟨other, hother, h.of_find? hvalue hother⟩

/-- What one of two alike objects lacks the other one lacks, too. -/
theorem Alike.find?_eq_none (h : Alike keys (.obj entries) (.obj others))
    (hnone : Assoc.find? entries key = none) : Assoc.find? others key = none := by
  rw [Assoc.find?_eq_none_iff] at hnone ⊢
  exact fun hmem => hnone (h.mem_keys_iff.mpr hmem)

/-- Under a key stands nothing on either side, or alike values do. -/
theorem Alike.find?_cases (h : Alike keys (.obj entries) (.obj others)) (key : String) :
    (Assoc.find? entries key = none ∧ Assoc.find? others key = none) ∨
      ∃ value other, Assoc.find? entries key = some value ∧ Assoc.find? others key = some other ∧
        Alike (keys.below key) value other := by
  cases hvalue : Assoc.find? entries key with
  | none => exact .inl ⟨rfl, h.find?_eq_none hvalue⟩
  | some value =>
    obtain ⟨other, hother, hlike⟩ := h.exists_find? hvalue
    exact .inr ⟨value, other, rfl, hother, hlike⟩

/-- Objects with alike values under the same keys are alike, if keywords stand in the same order. -/
theorem alike_of_find?_cases (hnodup : (Assoc.keys entries).Nodup)
    (hnodup' : (Assoc.keys others).Nodup)
    (horder : keys = .keywords → Assoc.keys entries = Assoc.keys others)
    (h : ∀ key, (Assoc.find? entries key = none ∧ Assoc.find? others key = none) ∨
      ∃ value other, Assoc.find? entries key = some value ∧ Assoc.find? others key = some other ∧
        Alike (keys.below key) value other) : Alike keys (.obj entries) (.obj others) := by
  refine .obj hnodup hnodup' (fun key => ?_) horder fun key value other hvalue hother => ?_
  · rcases h key with ⟨hnone, hnone'⟩ | ⟨_, _, hvalue, hother, -⟩
    · exact iff_of_false (Assoc.find?_eq_none_iff.mp hnone) (Assoc.find?_eq_none_iff.mp hnone')
    · exact iff_of_true (Assoc.mem_keys_of_find? hvalue) (Assoc.mem_keys_of_find? hother)
  · rcases h key with ⟨hnone, -⟩ | ⟨v, w, hv, hw, hlike⟩
    · cases hvalue.symm.trans hnone
    · obtain rfl := Option.some.inj (hvalue.symm.trans hv)
      obtain rfl := Option.some.inj (hother.symm.trans hw)
      exact hlike

/-- A text stands under the same keys in alike objects. -/
theorem Alike.find?_str (h : Alike keys (.obj entries) (.obj others)) {text : String}
    (hvalue : Assoc.find? entries key = some (.str text)) :
    Assoc.find? others key = some (.str text) := by
  obtain ⟨other, hother, hlike⟩ := h.exists_find? hvalue
  rw [hother, hlike.eq_of_isAtom rfl]

/-! ### Changing alike objects -/

/-- Alike objects stay alike when alike values are put under a key. -/
theorem Alike.insert (h : Alike keys (.obj entries) (.obj others))
    (hvalue : Alike (keys.below key) value other) :
    Alike keys (.obj (Assoc.insert entries key value)) (.obj (Assoc.insert others key other)) := by
  refine .obj (Assoc.nodup_keys_insert h.nodup _ _) (Assoc.nodup_keys_insert h.symm.nodup _ _)
    (fun k => ?_) (fun hkeys => ?_) fun k v w hv hw => ?_
  · rw [Assoc.mem_keys_insert, Assoc.mem_keys_insert, h.mem_keys_iff]
  · subst hkeys
    have hcontains : Assoc.contains entries key = Assoc.contains others key := by
      rw [Bool.eq_iff_iff, ← Assoc.mem_keys_iff_contains, ← Assoc.mem_keys_iff_contains,
        h.mem_keys_iff]
    rw [Assoc.keys_insert, Assoc.keys_insert, h.keys_eq, hcontains]
  · by_cases hk : key = k
    · subst hk
      rw [Assoc.find?_insert_self] at hv hw
      exact Option.some.inj hv ▸ Option.some.inj hw ▸ hvalue
    · rw [Assoc.find?_insert_of_ne _ _ hk] at hv hw
      exact h.of_find? hv hw

/-- Alike schemas stay alike when a keyword is taken from both. -/
theorem Alike.swapErase (h : Alike .keywords (.obj entries) (.obj others)) (key : String) :
    Alike .keywords (.obj (Assoc.swapErase entries key)) (.obj (Assoc.swapErase others key)) := by
  have horder := Assoc.keys_swapErase_congr h.keys_eq key
  refine .obj (Assoc.nodup_keys_swapErase h.nodup _) (Assoc.nodup_keys_swapErase h.symm.nodup _)
    (fun _ => by rw [horder]) (fun _ => horder) fun k v w hv hw => ?_
  have hne : key ≠ k := by
    rintro rfl
    rw [Assoc.find?_swapErase_self h.nodup] at hv
    cases hv
  rw [Assoc.find?_swapErase_of_ne h.nodup hne] at hv
  rw [Assoc.find?_swapErase_of_ne h.symm.nodup hne] at hw
  exact h.of_find? hv hw

end Alike

/-! ### Lists of alike values -/

/-- Arrays are alike if their items are, one by one. -/
theorem alike_arr_iff {keys : Keys} {items others : List Json} :
    Alike keys (.arr items) (.arr others) ↔ List.Forall₂ (Alike .keywords) items others := by
  rw [List.forall₂_iff_get]
  constructor
  · intro h
    obtain ⟨_, heq, hlength, hitems⟩ := h.exists_arr
    obtain rfl := Json.arr.inj heq
    exact ⟨hlength, fun index hleft hright => hitems index _ _ (List.getElem?_eq_getElem hleft)
      (List.getElem?_eq_getElem hright)⟩
  · rintro ⟨hlength, hall⟩
    refine .arr hlength fun index item other hitem hother => ?_
    obtain ⟨hleft, rfl⟩ := List.getElem?_eq_some_iff.mp hitem
    obtain ⟨hright, rfl⟩ := List.getElem?_eq_some_iff.mp hother
    exact hall index hleft hright

/-- A list of texts is like itself. -/
theorem alike_texts {keys : Keys} (texts : List String) :
    Alike keys (.arr (texts.map .str)) (.arr (texts.map .str)) := by
  apply alike_arr_iff.mpr
  rw [List.forall₂_map_left_iff, List.forall₂_map_right_iff]
  exact List.forall₂_same.mpr fun text _ => .atom rfl

/-- Keywords are in the same order, so the first entries belong together. -/
theorem Alike.exists_cons {key : String} {value : Json} {rest others : Entries}
    (h : Alike .keywords (.obj ((key, value) :: rest)) (.obj others)) :
    ∃ other rest', others = (key, other) :: rest' ∧ Alike (.under key) value other ∧
      Alike .keywords (.obj rest) (.obj rest') := by
  have horder := h.keys_eq
  cases others with
  | nil => cases horder
  | cons first rest' =>
    obtain ⟨key', other⟩ := first
    obtain ⟨hkey, hrest⟩ := List.cons.inj horder
    obtain rfl : key = key' := hkey
    obtain ⟨hmissing, hnodup⟩ := List.nodup_cons.mp h.nodup
    obtain ⟨hmissing', hnodup'⟩ := List.nodup_cons.mp h.symm.nodup
    have hself : ∀ (v : Json) (others : Entries),
        Assoc.find? ((key, v) :: others) key = some v := fun _ _ => if_pos rfl
    refine ⟨other, rest', rfl, h.of_find? (hself _ _) (hself _ _), ?_⟩
    refine .obj hnodup hnodup' (fun _ => by rw [Assoc.keys, hrest, Assoc.keys]) (fun _ => hrest)
      fun k v w hv hw => ?_
    have hne : key ≠ k := fun heq => hmissing (heq ▸ Assoc.mem_keys_of_find? hv)
    exact h.of_find? (by rw [Assoc.find?, if_neg hne, hv]) (by rw [Assoc.find?, if_neg hne, hw])

/-! ### Comparing alike values -/

section Same

variable {keys : Keys} {value other third : Json}

/-- Two lists of items are the same if they are as long and the same at each position. -/
theorem sameItems_iff {items others : List Json} :
    sameItems items others ↔ items.length = others.length ∧
      ∀ (index : Nat) (item other : Json), items[index]? = some item →
        others[index]? = some other → item.same other := by
  induction items generalizing others with
  | nil => cases others <;> simp [sameItems]
  | cons item rest ih =>
    cases others with
    | nil => simp [sameItems]
    | cons other rest' =>
      rw [sameItems, Bool.and_eq_true, ih, List.length_cons, List.length_cons]
      constructor
      · rintro ⟨hfirst, hlength, hrest⟩
        refine ⟨by rw [hlength], fun index v w hv hw => ?_⟩
        cases index with
        | zero => exact Option.some.inj hv ▸ Option.some.inj hw ▸ hfirst
        | succ index => exact hrest index v w hv hw
      · rintro ⟨hlength, hall⟩
        exact ⟨hall 0 item other rfl rfl, Nat.succ.inj hlength, fun index => hall (index + 1)⟩

/-- Entries are the same as others if each has its counterpart there under its key. -/
theorem sameEntries_iff {entries others : Entries} :
    sameEntries entries others ↔ ∀ entry ∈ entries, ∃ other,
      Assoc.find? others entry.1 = some other ∧ entry.2.same other := by
  induction entries with
  | nil => simp [sameEntries]
  | cons entry rest ih =>
    obtain ⟨key, value⟩ := entry
    rw [sameEntries, Bool.and_eq_true, ih, List.forall_mem_cons]
    cases Assoc.find? others key <;> simp

/-- Two objects are the same if they are as large and each entry has its counterpart in the other
one. -/
theorem same_obj {entries others : Entries} :
    (obj entries).same (obj others) ↔ entries.length = others.length ∧
      ∀ entry ∈ entries, ∃ other, Assoc.find? others entry.1 = some other ∧ entry.2.same other := by
  rw [same, Bool.and_eq_true, decide_eq_true_iff, sameEntries_iff]

/-- Two arrays are the same if their items are, one by one. -/
theorem same_arr {items others : List Json} :
    (arr items).same (arr others) ↔ items.length = others.length ∧
      ∀ (index : Nat) (item other : Json), items[index]? = some item →
        others[index]? = some other → item.same other := by
  rw [same, sameItems_iff]

/-- An atom is the same as itself. -/
theorem same_self (hatom : value.isAtom) : value.same value := by
  cases value with
  | num number =>
    rw [same]
    cases number <;> simp [Number.same, Binary64.same]
  | null => rfl
  | bool => simp [same]
  | str => simp [same]
  | arr => cases hatom
  | obj => cases hatom

/-- Alike objects have equally many entries. -/
theorem Alike.length_eq {entries others : Entries} (h : Alike keys (.obj entries) (.obj others)) :
    entries.length = others.length := by
  have hperm := (List.perm_ext_iff_of_nodup h.nodup h.symm.nodup).mpr fun _ => h.mem_keys_iff
  have hlength := hperm.length_eq
  rwa [Assoc.keys, Assoc.keys, List.length_map, List.length_map] at hlength

/-- Alike values are the same value. -/
theorem Alike.same (h : Alike keys value other) : value.same other := by
  induction h with
  | atom hatom => exact same_self hatom
  | arr hlength _ ih => exact same_arr.mpr ⟨hlength, ih⟩
  | @obj keys entries others hnodup hnodup' hmem horder hentries ih =>
    have hlike : Alike keys (.obj entries) (.obj others) :=
      .obj hnodup hnodup' hmem horder hentries
    refine same_obj.mpr ⟨hlike.length_eq, fun entry hentry => ?_⟩
    have hvalue := (Assoc.find?_eq_some_iff hnodup).mpr hentry
    obtain ⟨other, hother, -⟩ := hlike.exists_find? hvalue
    exact ⟨other, hother, ih _ _ _ hvalue hother⟩

/-- What is the same as a value is the same as a value like it. -/
theorem Alike.same_right (h : Alike keys value other) (hsame : third.same value) :
    third.same other := by
  induction h generalizing third with
  | atom => exact hsame
  | @arr keys items others hlength _ ih =>
    cases third with
    | arr thirds =>
      obtain ⟨hlength', hitems⟩ := same_arr.mp hsame
      refine same_arr.mpr ⟨hlength'.trans hlength, fun index item other hitem hother => ?_⟩
      have hindex : index < items.length := hlength ▸ (List.getElem?_eq_some_iff.mp hother).1
      have hbetween := List.getElem?_eq_getElem hindex
      exact ih index _ other hbetween hother (hitems index item _ hitem hbetween)
    | _ => simp [Json.same] at hsame
  | @obj keys entries others hnodup hnodup' hmem horder hentries ih =>
    have hlike : Alike keys (.obj entries) (.obj others) :=
      .obj hnodup hnodup' hmem horder hentries
    cases third with
    | obj thirds =>
      obtain ⟨hlength, hall⟩ := same_obj.mp hsame
      refine same_obj.mpr ⟨hlength.trans hlike.length_eq, fun entry hentry => ?_⟩
      obtain ⟨value, hvalue, hsame'⟩ := hall entry hentry
      obtain ⟨other, hother, -⟩ := hlike.exists_find? hvalue
      exact ⟨other, hother, ih _ _ _ hvalue hother hsame'⟩
    | _ => simp [Json.same] at hsame

/-- What a value is the same as, a value like it is the same as. -/
theorem Alike.same_left (h : Alike keys value other) (hsame : value.same third) :
    other.same third := by
  induction h generalizing third with
  | atom => exact hsame
  | @arr keys items others hlength _ ih =>
    cases third with
    | arr thirds =>
      obtain ⟨hlength', hitems⟩ := same_arr.mp hsame
      refine same_arr.mpr ⟨hlength.symm.trans hlength', fun index other third hother hthird => ?_⟩
      have hindex : index < items.length := hlength ▸ (List.getElem?_eq_some_iff.mp hother).1
      have hbetween := List.getElem?_eq_getElem hindex
      exact ih index _ other hbetween hother (hitems index _ third hbetween hthird)
    | _ => simp [Json.same] at hsame
  | @obj keys entries others hnodup hnodup' hmem horder hentries ih =>
    have hlike : Alike keys (.obj entries) (.obj others) :=
      .obj hnodup hnodup' hmem horder hentries
    cases third with
    | obj thirds =>
      obtain ⟨hlength, hall⟩ := same_obj.mp hsame
      refine same_obj.mpr ⟨hlike.length_eq.symm.trans hlength, fun entry hentry => ?_⟩
      have hother := (Assoc.find?_eq_some_iff hnodup').mpr hentry
      obtain ⟨value, hvalue, -⟩ := hlike.symm.exists_find? hother
      obtain ⟨third, hthird, hsame'⟩ := hall (entry.1, value) (Assoc.mem_of_find? hvalue)
      exact ⟨third, hthird, ih _ _ _ hvalue hother hsame'⟩
    | _ => simp [Json.same] at hsame

/-- Comparing alike values gives the same answer. -/
theorem Alike.same_eq {keys' : Keys} {value' other' : Json} (h : Alike keys value other)
    (h' : Alike keys' value' other') : value.same value' = other.same other' :=
  Bool.eq_iff_iff.mpr ⟨fun hsame => h'.same_right (h.same_left hsame),
    fun hsame => h'.symm.same_right (h.symm.same_left hsame)⟩

end Same

/-! ### Following a path in alike values -/

section Paths

variable {keys : Keys} {value other : Json}

/-- What stands below a position is read as a schema, however the keys are read. -/
theorem below_of_arrayIndex? {segment : String} {index : Nat}
    (h : arrayIndex? segment = some index) : keys.below segment = .keywords := by
  have hne : ¬(segment = "properties" ∨ segment = "patternProperties") := by
    have hwords : arrayIndex? "properties" = none ∧ arrayIndex? "patternProperties" = none := by
      decide
    rintro (rfl | rfl)
    · cases hwords.1.symm.trans h
    · cases hwords.2.symm.trans h
  cases keys with
  | names => rfl
  | keywords => exact if_neg hne

/-- A step leads from alike values to alike values. -/
theorem Alike.step? (h : Alike keys value other) {segment : String} {next : Json}
    (hstep : value.step? segment = some next) :
    ∃ next', other.step? segment = some next' ∧ Alike (keys.below segment) next next' := by
  cases h with
  | atom hatom =>
    cases value with
    | arr => cases hatom
    | obj => cases hatom
    | _ => cases hstep
  | arr hlength hitems =>
    obtain ⟨index, hindex, hitem⟩ := Option.bind_eq_some_iff.mp hstep
    have hlt := hlength ▸ (List.getElem?_eq_some_iff.mp hitem).1
    have hother := List.getElem?_eq_getElem hlt
    refine ⟨_, Option.bind_eq_some_iff.mpr ⟨index, hindex, hother⟩, ?_⟩
    rw [below_of_arrayIndex? hindex]
    exact hitems index _ _ hitem hother
  | obj hnodup hnodup' hmem horder hentries =>
    exact (Alike.obj hnodup hnodup' hmem horder hentries).exists_find? hstep

/-- The same path leads from alike values to alike values. -/
theorem Alike.descend? (h : Alike keys value other) {path : List String} {v : Json}
    (hv : value.descend? path = some v) :
    ∃ w, other.descend? path = some w ∧ Alike (path.foldl Keys.below keys) v w := by
  induction path generalizing keys value other with
  | nil =>
    obtain rfl := Option.some.inj hv
    exact ⟨other, rfl, h⟩
  | cons segment rest ih =>
    obtain ⟨next, hstep, hrest⟩ := Option.bind_eq_some_iff.mp hv
    obtain ⟨next', hstep', hnext⟩ := h.step? hstep
    obtain ⟨w, hw, hlike⟩ := ih hnext hrest
    exact ⟨w, Option.bind_eq_some_iff.mpr ⟨next', hstep', hw⟩, hlike⟩

/-- How the keys of the value at a place are read, if it is an object. -/
def keysAt (path : SchemaPath) : Keys :=
  path.segments.foldl Keys.below .keywords

/-- How the keys are read at a place is determined segment by segment. -/
theorem keysAt_child (path : SchemaPath) (segment : String) :
    keysAt (path.child segment) = (keysAt path).below segment := by
  rw [keysAt, SchemaPath.segments_child, List.foldl_append]
  rfl

/-- Alike values have alike values at the same place. -/
theorem Alike.at? (h : Alike .keywords value other) {path : SchemaPath} {v : Json}
    (hv : value.at? path = some v) :
    ∃ w, other.at? path = some w ∧ Alike (keysAt path) v w :=
  h.descend? hv

/-- Alike values hold the same references at the same places. -/
theorem Alike.mem_refs (h : Alike keys value other) {place : List String} {text : String}
    (hmem : (place, text) ∈ value.refs) : (place, text) ∈ other.refs := by
  induction h generalizing place with
  | atom => exact hmem
  | @arr keys items others hlength _ ih =>
    rw [refs, mem_refsOfItems] at hmem ⊢
    obtain ⟨index, item, below, hitem, hplace, hbelow⟩ := hmem
    have hlt := hlength ▸ (List.getElem?_eq_some_iff.mp hitem).1
    have hother := List.getElem?_eq_getElem hlt
    exact ⟨index, _, below, hother, hplace, ih index _ _ hitem hother hbelow⟩
  | @obj keys entries others hnodup hnodup' hsame horder hentries ih =>
    have hlike : Alike keys (.obj entries) (.obj others) :=
      .obj hnodup hnodup' hsame horder hentries
    rcases mem_refs_obj.mp hmem with ⟨hplace, href⟩ | ⟨key, value, below, hentry, hplace, hbelow⟩
    · refine mem_refs_obj.mpr (.inl ⟨hplace, ?_⟩)
      obtain ⟨value, hvalue, htext⟩ := Option.bind_eq_some_iff.mp href
      obtain rfl : value = .str text := by
        cases value with
        | str found => exact congrArg _ (Option.some.inj htext)
        | _ => cases htext
      exact Option.bind_eq_some_iff.mpr ⟨_, hlike.find?_str hvalue, rfl⟩
    · have hvalue := (Assoc.find?_eq_some_iff hnodup).mpr hentry
      obtain ⟨other, hother, -⟩ := hlike.exists_find? hvalue
      exact mem_refs_obj.mpr (.inr ⟨key, other, below, Assoc.mem_of_find? hother, hplace,
        ih _ _ _ hvalue hother hbelow⟩)

end Paths

/-! ### Checking that values are alike -/

mutual

/-- Whether two values are alike. -/
def isAlike (keys : Keys) : Json → Json → Bool
  | arr items, arr others => items.length = others.length && areAlikeItems items others
  | obj entries, obj others =>
    (Assoc.keys entries).Nodup && (Assoc.keys others).Nodup &&
      (keys = .names || Assoc.keys entries = Assoc.keys others) &&
      (Assoc.keys others ⊆ Assoc.keys entries : Bool) && areAlikeEntries keys entries others
  | null, null => true
  | bool a, bool b => a = b
  | num a, num b => a = b
  | str a, str b => a = b
  | _, _ => false

/-- Whether the items of two arrays are alike. -/
def areAlikeItems : List Json → List Json → Bool
  | item :: rest, other :: others => isAlike .keywords item other && areAlikeItems rest others
  | _, _ => true

/-- Whether each entry of an object has one like it under the same key of another object. -/
def areAlikeEntries (keys : Keys) : Entries → Entries → Bool
  | [], _ => true
  | (key, value) :: rest, others =>
    (match Assoc.find? others key with
      | some other => isAlike (keys.below key) value other
      | none => false) && areAlikeEntries keys rest others

end

/-- Alike lists of items have alike items at the same position. -/
theorem areAlikeItems_getElem? {items others : List Json} (h : areAlikeItems items others)
    {index : Nat} {item other : Json} (hitem : items[index]? = some item)
    (hother : others[index]? = some other) : isAlike .keywords item other := by
  induction items generalizing others index with
  | nil => cases hitem
  | cons first rest ih =>
    cases others with
    | nil => cases hother
    | cons first' rest' =>
      rw [areAlikeItems, Bool.and_eq_true] at h
      cases index with
      | zero => exact Option.some.inj hitem ▸ Option.some.inj hother ▸ h.1
      | succ index => exact ih h.2 hitem hother

/-- Alike entries have their counterparts under the same keys. -/
theorem areAlikeEntries_iff {keys : Keys} {entries others : Entries} :
    areAlikeEntries keys entries others ↔ ∀ entry ∈ entries, ∃ other,
      Assoc.find? others entry.1 = some other ∧ isAlike (keys.below entry.1) entry.2 other := by
  induction entries with
  | nil => simp [areAlikeEntries]
  | cons entry rest ih =>
    obtain ⟨key, value⟩ := entry
    rw [areAlikeEntries, Bool.and_eq_true, ih, List.forall_mem_cons]
    cases Assoc.find? others key <;> simp

/-- Values that pass the test are alike. -/
theorem alike_of_isAlike {keys : Keys} {value other : Json} (h : isAlike keys value other) :
    Alike keys value other := by
  induction value using Json.induction generalizing keys other with
  | arr items ih =>
    cases other with
    | arr others =>
      rw [isAlike, Bool.and_eq_true, decide_eq_true_iff] at h
      exact .arr h.1 fun index item other hitem hother =>
        ih item (List.mem_of_getElem? hitem) (areAlikeItems_getElem? h.2 hitem hother)
    | _ => simp [isAlike] at h
  | obj entries ih =>
    cases other with
    | obj others =>
      simp only [isAlike, Bool.and_eq_true, Bool.or_eq_true, decide_eq_true_iff] at h
      obtain ⟨⟨⟨⟨hnodup, hnodup'⟩, horder⟩, hsubset⟩, hentries⟩ := h
      rw [areAlikeEntries_iff] at hentries
      -- that each entry has its counterpart gives one inclusion of keys; the other one is tested
      have hfind : ∀ entry ∈ entries, entry.1 ∈ Assoc.keys others := fun entry hentry =>
        have ⟨_, hother, _⟩ := hentries entry hentry
        Assoc.mem_keys_of_find? hother
      refine .obj hnodup hnodup' (fun key => ⟨fun hkey => ?_, fun hkey => hsubset hkey⟩)
        (fun hkeys => horder.resolve_left ?_) fun key value other hvalue hother => ?_
      · obtain ⟨entry, hentry, rfl⟩ := List.mem_map.mp hkey
        exact hfind entry hentry
      · rw [hkeys]
        exact nofun
      · obtain ⟨found, hfound, hlike⟩ := hentries _ (Assoc.mem_of_find? hvalue)
        obtain rfl := Option.some.inj (hother.symm.trans hfound)
        exact ih _ (Assoc.mem_of_find? hvalue) hlike
    | _ => simp [isAlike] at h
  | null =>
    cases other with
    | null => exact .atom rfl
    | _ => simp [isAlike] at h
  | bool value =>
    cases other with
    | bool other =>
      rw [isAlike, decide_eq_true_iff] at h
      exact h ▸ .atom rfl
    | _ => simp [isAlike] at h
  | num value =>
    cases other with
    | num other =>
      rw [isAlike, decide_eq_true_iff] at h
      exact h ▸ .atom rfl
    | _ => simp [isAlike] at h
  | str value =>
    cases other with
    | str other =>
      rw [isAlike, decide_eq_true_iff] at h
      exact h ▸ .atom rfl
    | _ => simp [isAlike] at h

end Json

end SchemaClasses
