import SchemaClasses.Proofs.Merge

/-!
# What a merge leaves under a key

Under a key that names no type and lists no required names a merge joins the values on both sides:
two objects are merged in turn, and otherwise the value of the source counts if there is one
(`find?_mergeEntries`). Types and references are collected. What a schema with a type offers as an
alternative it still offers after a merge (`offers_mergeEntries`), and what the source names as a
type or by reference becomes one more alternative (`offers_of_mem`), so no reference comes into such
a schema (`find?_refKey_mergeEntries`).
-/

namespace SchemaClasses.Merge

/-! ### Looking up -/

/-- What stands under a key after a merge if one value or two stood there before. -/
def joined (keys : Keys) (path : SchemaPath) (key : String) :
    Option Json → Option Json → Option Json
  | some (.obj old), some (.obj new) =>
    some (.obj (mergeEntries (keys.below key) (path.child key) old new).value)
  | _, some new => some new
  | old, none => old

/-- Without a new value the old one stays. -/
theorem joined_none {keys : Keys} {path : SchemaPath} {key : String} (old : Option Json) :
    joined keys path key old none = old := by
  rcases old with - | value
  · rfl
  · cases value <;> rfl

/-- Without an old value the new one is taken over. -/
theorem none_joined {keys : Keys} {path : SchemaPath} {key : String} (new : Option Json) :
    joined keys path key none new = new := by
  cases new <;> rfl

/-- What is no object is replaced. -/
theorem joined_of_ne {keys : Keys} {path : SchemaPath} {key : String} {old : Option Json}
    (h : ∀ entries, old ≠ some (.obj entries)) (new : Json) :
    joined keys path key old (some new) = some new := by
  rcases old with - | value
  · exact none_joined _
  · cases value with
    | obj entries => exact absurd rfl (h entries)
    | _ => rfl

/-- What is joined comes from both sides, or else from one of them. -/
theorem joined_eq_some {keys : Keys} {path : SchemaPath} {key : String} {old new : Option Json}
    {value : Json} (h : joined keys path key old new = some value) :
    (∃ o n, old = some (.obj o) ∧ new = some (.obj n) ∧
      value = .obj (mergeEntries (keys.below key) (path.child key) o n).value) ∨
    new = some value ∨ (new = none ∧ old = some value) := by
  unfold joined at h
  split at h
  · exact .inl ⟨_, _, rfl, rfl, (Option.some.inj h).symm⟩
  · exact .inr (.inl h)
  · exact .inr (.inr ⟨rfl, h⟩)

/-- Nothing gets lost altogether. -/
theorem isSome_joined {keys : Keys} {path : SchemaPath} {key : String} {old new : Option Json}
    (h : old.isSome ∨ new.isSome) : (joined keys path key old new).isSome := by
  unfold joined
  split
  · rfl
  · rfl
  · exact h.resolve_right Bool.false_ne_true

/-- Whether the value under a key is merged like any other: it names no type and lists no required
names. -/
abbrev IsOrdinary (keys : Keys) (key : String) : Prop :=
  keys = .keywords → key ≠ typeKey ∧ key ≠ refKey ∧ key ≠ "required"

/-- Every name of a schema is ordinary. -/
theorem isOrdinary_names (key : String) : IsOrdinary .names key := nofun

section LookUp

variable {keys : Keys} {path : SchemaPath} {target source : Entries} {key : String} {value : Json}

/-- An ordinary key names no type. -/
theorem IsOrdinary.not_namesType (h : IsOrdinary keys key) : ¬NamesType keys key :=
  fun htype => htype.2.elim (h htype.1).1 (h htype.1).2.1

/-- Unifying types changes nothing but the type, the reference and the key that is added. -/
theorem find?_unifyType_of_ne (hnodup : (Assoc.keys target).Nodup) {other : String}
    (hne : key ≠ other) (htype : typeKey ≠ other) (href : refKey ≠ other) :
    Assoc.find? (unifyType target key value) other = Assoc.find? target other := by
  rcases unifyType_cases target key value with ⟨-, heq⟩ | ⟨-, -, heq⟩ | ⟨-, heq⟩ <;> rw [heq]
  · exact Assoc.find?_insert_of_ne _ _ hne
  · rw [Assoc.find?_insert_of_ne _ _ htype,
      Assoc.find?_swapErase_of_ne (Assoc.nodup_keys_swapErase hnodup _) href,
      Assoc.find?_swapErase_of_ne hnodup htype]

/-- Merging an entry changes nothing under other keys. -/
theorem find?_mergeEntry_of_isOrdinary (hnodup : (Assoc.keys target).Nodup) {other : String}
    (hother : IsOrdinary keys other) (hne : key ≠ other) :
    Assoc.find? (mergeEntry keys path target key value).value other =
      Assoc.find? target other := by
  by_cases htype : NamesType keys key
  · obtain ⟨hnotType, hnotRef, -⟩ := hother htype.1
    rw [mergeEntry_of_namesType htype]
    exact find?_unifyType_of_ne hnodup hne (Ne.symm hnotType) (Ne.symm hnotRef)
  · exact find?_mergeEntry_of_ne htype hne

/-- Objects on both sides are merged. -/
theorem mergeEntry_objects (htype : ¬NamesType keys key) {old new : Entries}
    (hold : Assoc.find? target key = some (.obj old)) :
    mergeEntry keys path target key (.obj new) =
      (mergeEntries (keys.below key) (path.child key) old new).map fun entries =>
        Assoc.insert target key (.obj entries) := by
  unfold mergeEntry
  dsimp only
  rw [if_neg htype]
  simp only [hold]
  cases keys <;> rfl

/-- Under its own key it joins both values. -/
theorem find?_mergeEntry_self (hkey : IsOrdinary keys key)
    (hagree : (mergeEntry keys path target key value).conflict = none) :
    Assoc.find? (mergeEntry keys path target key value).value key =
      joined keys path key (Assoc.find? target key) (some value) := by
  have htype := hkey.not_namesType
  have hplain : keys = .keywords → ∀ old new,
      (mergePlain path target key old new).conflict = none →
      Assoc.find? (mergePlain path target key old new).value key = some new := by
    intro hkeys old new hagree
    unfold mergePlain at hagree ⊢
    rw [if_neg (hkey hkeys).2.2] at hagree ⊢
    split_ifs at hagree ⊢
    exact Assoc.find?_insert_self _ _ _
  unfold mergeEntry at hagree ⊢
  cases value with
  | obj new =>
    dsimp only at hagree ⊢
    rw [if_neg htype] at hagree ⊢
    cases hold : Assoc.find? target key with
    | none => exact Assoc.find?_insert_self _ _ _
    | some old =>
      rw [hold] at hagree
      cases old with
      | obj => cases keys <;> exact Assoc.find?_insert_self _ _ _
      | _ =>
        cases keys with
        | names => exact Assoc.find?_insert_self _ _ _
        | keywords => exact hplain rfl _ _ hagree
  | _ =>
    dsimp only at hagree ⊢
    rw [if_neg htype] at hagree ⊢
    cases hold : Assoc.find? target key with
    | none => cases keys <;> exact Assoc.find?_insert_self _ _ _
    | some old =>
      rw [hold] at hagree
      cases keys with
      | names => cases old <;> exact Assoc.find?_insert_self _ _ _
      | keywords => cases old <;> exact hplain rfl _ _ hagree

/-- A merge joins the values under each ordinary key. -/
theorem find?_mergeEntries (hkey : IsOrdinary keys key) (htarget : (Assoc.keys target).Nodup)
    (hsource : (Assoc.keys source).Nodup)
    (hagree : (mergeEntries keys path target source).conflict = none) :
    Assoc.find? (mergeEntries keys path target source).value key =
      joined keys path key (Assoc.find? target key) (Assoc.find? source key) := by
  induction source generalizing target with
  | nil =>
    rw [mergeEntries]
    exact (joined_none _).symm
  | cons entry rest ih =>
    obtain ⟨k, v⟩ := entry
    obtain ⟨hfirst, heq⟩ := mergeEntries_cons hagree
    obtain ⟨hmissing, hrest⟩ := List.nodup_cons.mp hsource
    rw [heq] at hagree ⊢
    rw [ih (nodup_keys_mergeEntry htarget) hrest hagree]
    by_cases hk : k = key
    · subst hk
      rw [find?_mergeEntry_self hkey hfirst, Assoc.find?_eq_none_iff.mpr hmissing, Assoc.find?,
        if_pos rfl]
      exact joined_none _
    · rw [find?_mergeEntry_of_isOrdinary htarget hkey hk, Assoc.find?, if_neg hk]

/-- Objects under the same key do not disagree if the merge does not. -/
theorem agree_of_objects (hkey : IsOrdinary keys key) (htarget : (Assoc.keys target).Nodup)
    (hagree : (mergeEntries keys path target source).conflict = none) {old new : Entries}
    (hold : Assoc.find? target key = some (.obj old))
    (hnew : Assoc.find? source key = some (.obj new)) :
    (mergeEntries (keys.below key) (path.child key) old new).conflict = none := by
  induction source generalizing target with
  | nil => cases hnew
  | cons entry rest ih =>
    obtain ⟨k, v⟩ := entry
    obtain ⟨hfirst, heq⟩ := mergeEntries_cons hagree
    rw [heq] at hagree
    by_cases hk : k = key
    · subst hk
      rw [Assoc.find?, if_pos rfl] at hnew
      obtain rfl := Option.some.inj hnew
      rw [mergeEntry_objects hkey.not_namesType hold] at hfirst
      exact hfirst
    · rw [Assoc.find?, if_neg hk] at hnew
      refine ih (nodup_keys_mergeEntry htarget) hagree ?_ hnew
      rwa [find?_mergeEntry_of_isOrdinary htarget hkey hk]

end LookUp

/-! ### Types with alternatives -/

/-- Whether a text is one of the alternatives of the type that a schema has. -/
def Offers (schema : Entries) (text : String) : Prop :=
  ∃ value, Assoc.find? schema typeKey = some value ∧ .str text ∈ alternatives value

section Offered

variable {path : SchemaPath} {target source : Entries} {key text : String} {value : Json}

/-- Only the text itself is the same as a text. -/
theorem eq_str_of_same_str (h : value.same (.str text)) : value = .str text := by
  cases value with
  | str other =>
    rw [Json.same, decide_eq_true_eq] at h
    rw [h]
  | _ => simp [Json.same] at h

/-- A text that is in a list, or is appended to it, is there after appending. -/
theorem mem_appendNew_str {types values : List Json} (h : .str text ∈ types ∨ .str text ∈ values) :
    .str text ∈ appendNew types values := by
  induction values generalizing types with
  | nil => exact h.resolve_right List.not_mem_nil
  | cons first rest ih =>
    rw [appendNew, List.foldl_cons]
    apply ih
    split_ifs with hfound
    · rcases h with hold | hmem
      · exact .inl hold
      rcases List.mem_cons.mp hmem with rfl | hrest
      · obtain ⟨u, hu, hsame⟩ := List.any_eq_true.mp hfound
        exact .inl (eq_str_of_same_str hsame ▸ hu)
      · exact .inr hrest
    · rcases h with hold | hmem
      · exact .inl (List.mem_append_left _ hold)
      · refine (List.mem_cons.mp hmem).imp_left fun heq => ?_
        exact List.mem_append_right _ (heq ▸ List.mem_cons_self)

/-- The alternatives of several values are offered by the type that is made of them. -/
theorem mem_alternatives_collect {values : List Json} (hvalue : value ∈ values)
    (h : .str text ∈ alternatives value) :
    .str text ∈ alternatives (typeOfAlternatives (collect values)) := by
  have hmem : .str text ∈ collect values :=
    mem_appendNew_str (.inr (List.mem_flatMap.mpr ⟨value, hvalue, h⟩))
  generalize collect values = types at hmem ⊢
  unfold typeOfAlternatives
  split
  · rw [← List.mem_singleton.mp hmem]
    exact List.mem_singleton_self _
  · exact hmem

/-- If there is a type already then all becomes one type. -/
theorem unifyType_of_offers (h : Offers target text) :
    unifyType target key value =
      Assoc.insert (Assoc.swapErase (Assoc.swapErase target typeKey) refKey) typeKey
        (typeOfAlternatives (collect (declared target ++ [value]))) := by
  obtain ⟨type, htype, -⟩ := h
  unfold unifyType declared
  dsimp only
  rw [collect_append_singleton, htype]
  rfl

/-- What a schema offers it still offers after a merge. -/
theorem offers_mergeEntry (h : Offers target text) :
    Offers (mergeEntry .keywords path target key value).value text := by
  by_cases htype : NamesType .keywords key
  · rw [mergeEntry_of_namesType htype, unifyType_of_offers h]
    obtain ⟨type, hfind, hmem⟩ := h
    refine ⟨_, Assoc.find?_insert_self _ _ _, mem_alternatives_collect ?_ hmem⟩
    exact List.mem_append_left _ (mem_declared.mpr (.inl hfind))
  · obtain ⟨type, hfind, hmem⟩ := h
    refine ⟨type, ?_, hmem⟩
    rw [find?_mergeEntry_of_ne htype fun hkey => htype ⟨rfl, .inl hkey⟩]
    exact hfind

/-- A text that the target of a merge offers as a type is offered by the result. -/
theorem offers_mergeEntries (hagree : (mergeEntries .keywords path target source).conflict = none)
    (h : Offers target text) : Offers (mergeEntries .keywords path target source).value text :=
  mergeEntries_keeps (I := fun t => Offers t text) (fun _ _ _ _ _ h => offers_mergeEntry h) hagree h

/-- A merge offers the types and references of its source if its target has a type. -/
theorem offers_of_mem (hagree : (mergeEntries .keywords path target source).conflict = none)
    {name : String} (h : Offers target name) (hkey : key = typeKey ∨ key = refKey)
    (hmem : (key, value) ∈ source) (htext : .str text ∈ alternatives value) :
    Offers (mergeEntries .keywords path target source).value text := by
  refine mergeEntries_gains (J := fun t => Offers t name) (I := fun t => Offers t text)
    (fun _ _ _ _ _ h => offers_mergeEntry h) (fun _ _ _ _ _ _ h => offers_mergeEntry h) hmem
    (fun between _ hbetween => ?_) hagree h
  rw [mergeEntry_of_namesType ⟨rfl, hkey⟩, unifyType_of_offers hbetween]
  refine ⟨_, Assoc.find?_insert_self _ _ _, mem_alternatives_collect ?_ htext⟩
  exact List.mem_append_right _ List.mem_cons_self

/-- No reference comes into a schema that has a type. -/
theorem find?_refKey_mergeEntries
    (hagree : (mergeEntries .keywords path target source).conflict = none)
    (hnodup : (Assoc.keys target).Nodup) (h : Offers target text)
    (href : ∀ ref, Assoc.find? target refKey ≠ some (.str ref)) :
    ∀ ref, Assoc.find? (mergeEntries .keywords path target source).value refKey ≠
      some (.str ref) := by
  refine (mergeEntries_keeps (I := fun t => (Assoc.keys t).Nodup ∧ Offers t text ∧
    ∀ ref, Assoc.find? t refKey ≠ some (.str ref)) (fun key value _ between _ hbetween => ?_) hagree
    ⟨hnodup, h, href⟩).2.2
  obtain ⟨hnodup, hoffers, href⟩ := hbetween
  refine ⟨nodup_keys_mergeEntry hnodup, offers_mergeEntry hoffers, fun ref hfind => ?_⟩
  by_cases htype : NamesType .keywords key
  · rw [mergeEntry_of_namesType htype, unifyType_of_offers hoffers,
      Assoc.find?_insert_of_ne _ _ (by decide),
      Assoc.find?_swapErase_self (Assoc.nodup_keys_swapErase hnodup _)] at hfind
    cases hfind
  · rw [find?_mergeEntry_of_ne htype fun hkey => htype ⟨rfl, .inr hkey⟩] at hfind
    exact href ref hfind

end Offered

end SchemaClasses.Merge
