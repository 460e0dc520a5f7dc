import Mathlib.Tactic.SplitIfs
import SchemaClasses.Merge
import SchemaClasses.Proofs.Tables

/-!
# What a merge makes of its target

`MergesEntry` says case by case what merging one entry does, and `mergesEntry` that there are no
other cases. Whatever holds of all entries on both sides holds of all entries that a merge leaves
behind, provided that it survives where both sides have the same keyword (`forall_mergeEntries`).

Of `type` and `$ref` a merge loses nothing: the alternatives on both sides end up under one of the
two keywords. So if all that is declared in the end is one name (`DeclaresOnly`), then neither side
declares anything else (`declaresOnly_of_merge`).
-/

namespace SchemaClasses.Merge

/-- How the keys of an object that stands under a key are read. -/
def Keys.below (keys : Keys) (key : String) : Keys :=
  match keys with
  | .names => .keywords
  | .keywords => .under key

/-- Whether a key names the type of a schema. -/
abbrev NamesType (keys : Keys) (key : String) : Prop :=
  keys = .keywords ∧ (key = typeKey ∨ key = refKey)

/-! ### One entry -/

/-- What merging one entry into the entries of an object does. -/
inductive MergesEntry (keys : Keys) (path : SchemaPath) (target : Entries) (key : String) :
    Json → Merged Entries → Prop where
  /-- A type or reference is unified with those of the target. -/
  | unify {value : Json} (htype : NamesType keys key) :
      MergesEntry keys path target key value ⟨unifyType target key value, none⟩
  /-- The target takes over the value. -/
  | put {value : Json} (htype : ¬NamesType keys key) :
      MergesEntry keys path target key value ⟨Assoc.insert target key value, none⟩
  /-- Objects on both sides are merged. -/
  | objects {old new : Entries} (htype : ¬NamesType keys key)
      (hold : Assoc.find? target key = some (.obj old)) :
      MergesEntry keys path target key (.obj new)
        ((mergeEntries (keys.below key) (path.child key) old new).map fun entries =>
          Assoc.insert target key (.obj entries))
  /-- Lists of required names are united. -/
  | required {old value : Json} (hkeys : keys = .keywords) (hkey : key = "required")
      (hold : Assoc.find? target key = some old) :
      MergesEntry keys path target key value
        ⟨Assoc.insert target key (unionRequired old value), none⟩
  /-- Values that have to agree do not. -/
  | disagree {value : Json} {conflict : Conflict} :
      MergesEntry keys path target key value ⟨target, some conflict⟩

section Entry

variable {keys : Keys} {path : SchemaPath} {target : Entries} {key : String}

/-- Merging a plain entry does one of the things that merging an entry may do. -/
theorem mergesEntry_mergePlain {old value : Json} (htype : ¬NamesType .keywords key)
    (hold : Assoc.find? target key = some old) :
    MergesEntry .keywords path target key value (mergePlain path target key old value) := by
  unfold mergePlain
  split_ifs with hrequired
  · exact .required rfl hrequired hold
  · exact .disagree
  · exact .put htype

/-- There are no other cases. -/
theorem mergesEntry (keys : Keys) (path : SchemaPath) (target : Entries) (key : String)
    (value : Json) :
    MergesEntry keys path target key value (mergeEntry keys path target key value) := by
  unfold mergeEntry
  cases value with
  | obj new =>
    dsimp only
    by_cases htype : NamesType keys key
    · rw [if_pos htype]
      exact .unify htype
    rw [if_neg htype]
    split
    · rename_i old hold
      cases keys with
      | names => exact .objects htype hold
      | keywords => exact .objects htype hold
    · rename_i old _ hold
      cases keys with
      | names => exact .put htype
      | keywords => exact mergesEntry_mergePlain htype hold
    · exact .put htype
  | _ =>
    dsimp only
    by_cases htype : NamesType keys key
    · rw [if_pos htype]
      exact .unify htype
    rw [if_neg htype]
    split
    · rename_i hold
      exact mergesEntry_mergePlain htype hold
    · exact .put htype

end Entry

/-! ### Types and references -/

/-- The alternatives of some values, each of them once. -/
def collect (values : List Json) : List Json :=
  appendNew [] (values.flatMap alternatives)

/-- The values under `type` and `$ref`. -/
def declared (target : Entries) : List Json :=
  (Assoc.find? target typeKey).toList ++ (Assoc.find? target refKey).toList

/-- A schema declares what it has under `type` or `$ref`. -/
theorem mem_declared {target : Entries} {value : Json} :
    value ∈ declared target ↔
      Assoc.find? target typeKey = some value ∨ Assoc.find? target refKey = some value := by
  rw [declared, List.mem_append, Option.mem_toList, Option.mem_toList]

/-- What is put under `type` or `$ref` is declared. -/
theorem mem_declared_insert (target : Entries) {key : String} (value : Json)
    (hkey : key = typeKey ∨ key = refKey) : value ∈ declared (Assoc.insert target key value) := by
  rcases hkey with rfl | rfl
  · exact mem_declared.mpr (.inl (Assoc.find?_insert_self _ _ _))
  · exact mem_declared.mpr (.inr (Assoc.find?_insert_self _ _ _))

/-- Appending the alternatives of values one after the other appends all of them. -/
theorem foldl_appendNew (values types : List Json) :
    values.foldl (fun types value => appendNew types (alternatives value)) types =
      appendNew types (values.flatMap alternatives) := by
  induction values generalizing types with
  | nil => rfl
  | cons first rest ih =>
    rw [List.foldl_cons, ih, List.flatMap_cons, appendNew, appendNew, appendNew, List.foldl_append]

/-- One more value is collected last. -/
theorem collect_append_singleton (values : List Json) (value : Json) :
    appendNew (values.foldl (fun types v => appendNew types (alternatives v)) [])
      (alternatives value) = collect (values ++ [value]) := by
  rw [foldl_appendNew, collect, List.flatMap_append, List.flatMap_singleton, appendNew, appendNew,
    appendNew, List.foldl_append]

/-- Of a target without type or reference nothing changes but the key that is added; the same
reference changes nothing; otherwise all alternatives become the type. -/
theorem unifyType_cases (target : Entries) (key : String) (value : Json) :
    (declared target = [] ∧ unifyType target key value = Assoc.insert target key value) ∨
    (declared target ≠ [] ∧ (∃ ref, Assoc.find? target refKey = some ref ∧ ref.same value) ∧
      unifyType target key value = target) ∨
    (declared target ≠ [] ∧ unifyType target key value =
      Assoc.insert (Assoc.swapErase (Assoc.swapErase target typeKey) refKey) typeKey
        (typeOfAlternatives (collect (declared target ++ [value])))) := by
  unfold unifyType declared
  dsimp only
  rw [collect_append_singleton]
  cases htype : Assoc.find? target typeKey with
  | some type => exact .inr (.inr ⟨by simp, by simp⟩)
  | none =>
    cases href : Assoc.find? target refKey with
    | none => exact .inl ⟨by simp, by simp⟩
    | some ref =>
      by_cases hsame : key = refKey ∧ ref.same value
      · exact .inr (.inl ⟨by simp, ⟨ref, rfl, hsame.2⟩, by simp [hsame.1, hsame.2]⟩)
      · refine .inr (.inr ⟨by simp, ?_⟩)
        have hdiffers : (decide (key = refKey) && ref.same value) = false := by
          simpa using hsame
        simp [hdiffers]

/-- An entry of a unified target is an old one, the new one, or the list of all alternatives. -/
theorem mem_unifyType {target : Entries} {key : String} {value : Json} {entry : String × Json}
    (h : entry ∈ unifyType target key value) :
    entry ∈ target ∨ entry = (key, value) ∨
      entry = (typeKey, typeOfAlternatives (collect (declared target ++ [value]))) := by
  rcases unifyType_cases target key value with ⟨-, heq⟩ | ⟨-, -, heq⟩ | ⟨-, heq⟩ <;> rw [heq] at h
  · exact (Assoc.mem_insert h).imp id .inl
  · exact .inl h
  · rcases Assoc.mem_insert h with hmem | hnew
    · exact .inl (Assoc.mem_of_mem_swapErase (Assoc.mem_of_mem_swapErase hmem))
    · exact .inr (.inr hnew)

/-- What is in a list after appending was in it before or is one of the values appended. -/
theorem mem_appendNew {types values : List Json} {value : Json}
    (h : value ∈ appendNew types values) : value ∈ types ∨ value ∈ values := by
  induction values generalizing types with
  | nil => exact .inl h
  | cons first rest ih =>
    rw [appendNew, List.foldl_cons] at h
    rcases ih h with hold | hrest
    · split_ifs at hold
      · exact .inl hold
      · rcases List.mem_append.mp hold with hold | hnew
        · exact .inl hold
        · exact .inr (List.mem_singleton.mp hnew ▸ List.mem_cons_self)
    · exact .inr (List.mem_cons_of_mem _ hrest)

/-- What is collected is an alternative of one of the values. -/
theorem mem_collect {values : List Json} {value : Json} (h : value ∈ collect values) :
    ∃ v ∈ values, value ∈ alternatives v :=
  List.mem_flatMap.mp ((mem_appendNew h).resolve_left List.not_mem_nil)

/-- No two values that are appended are the same. -/
theorem pairwise_appendNew {types values : List Json}
    (h : types.Pairwise fun u v => u.same v = false) :
    (appendNew types values).Pairwise fun u v => u.same v = false := by
  induction values generalizing types with
  | nil => exact h
  | cons first rest ih =>
    rw [appendNew, List.foldl_cons]
    split_ifs with hfound
    · exact ih h
    · refine ih (List.pairwise_append.mpr ⟨h, List.pairwise_singleton _ _, fun u hu v hv => ?_⟩)
      obtain rfl := List.mem_singleton.mp hv
      exact Bool.eq_false_iff.mpr fun hsame => hfound (List.any_eq_true.mpr ⟨u, hu, hsame⟩)

/-- A list is not empty after appending if it was not before or if something is appended. -/
theorem appendNew_ne_nil {types values : List Json} (h : types ≠ [] ∨ values ≠ []) :
    appendNew types values ≠ [] := by
  induction values generalizing types with
  | nil => exact h.resolve_right fun hne => hne rfl
  | cons first rest ih =>
    rw [appendNew, List.foldl_cons]
    split_ifs with hfound
    · obtain ⟨u, hu, -⟩ := List.any_eq_true.mp hfound
      exact ih (.inl (List.ne_nil_of_mem hu))
    · exact ih (.inl (List.append_ne_nil_of_right_ne_nil _ (List.cons_ne_nil _ _)))

/-- Only the text itself is the same as a text. -/
theorem eq_str_of_same {name : String} {value : Json} (h : (Json.str name).same value) :
    value = .str name := by
  cases value with
  | str other =>
    rw [Json.same, decide_eq_true_eq] at h
    rw [h]
  | _ => simp [Json.same] at h

/-- A text that all that is left is equal to is all that was there. -/
theorem eq_of_appendNew {name : String} {types values : List Json}
    (h : ∀ value ∈ appendNew types values, value = .str name) :
    (∀ value ∈ types, value = .str name) ∧ ∀ value ∈ values, value = .str name := by
  induction values generalizing types with
  | nil => exact ⟨h, fun _ hmem => absurd hmem List.not_mem_nil⟩
  | cons first rest ih =>
    rw [appendNew, List.foldl_cons] at h
    have hboth : (∀ value ∈ types, value = .str name) ∧ first = .str name ∧
        ∀ value ∈ rest, value = .str name := by
      split_ifs at h with hfound
      · obtain ⟨htypes, hrest⟩ := ih h
        obtain ⟨u, hu, hsame⟩ := List.any_eq_true.mp hfound
        exact ⟨htypes, eq_str_of_same (htypes u hu ▸ hsame), hrest⟩
      · obtain ⟨htypes, hrest⟩ := ih h
        exact ⟨fun value hvalue => htypes value (List.mem_append_left _ hvalue),
          htypes first (List.mem_append_right _ List.mem_cons_self), hrest⟩
    obtain ⟨htypes, hfirst, hrest⟩ := hboth
    refine ⟨htypes, fun value hvalue => ?_⟩
    rcases List.mem_cons.mp hvalue with rfl | hmem
    · exact hfirst
    · exact hrest value hmem

/-! ### All entries -/

section Entries

variable {keys : Keys} {path : SchemaPath} {E : String → Json → Prop}

/-- What holds of all entries on both sides holds of all entries after one of them is merged. -/
theorem forall_mergeEntry {target : Entries} {key : String} {value : Json}
    (hobjects : ∀ old new, value = .obj new → ¬NamesType keys key →
      (mergeEntries (keys.below key) (path.child key) old new).conflict = none → E key (.obj old) →
      E key (.obj (mergeEntries (keys.below key) (path.child key) old new).value))
    (hrequired : keys = .keywords → ∀ old new, E "required" old → E "required" new →
      E "required" (unionRequired old new))
    (htypes : keys = .keywords → ∀ values, values ≠ [] → (∀ v ∈ values, E typeKey v ∨ E refKey v) →
      E typeKey (typeOfAlternatives (collect values)))
    (hagree : (mergeEntry keys path target key value).conflict = none)
    (htarget : ∀ entry ∈ target, E entry.1 entry.2) (hvalue : E key value) :
    ∀ entry ∈ (mergeEntry keys path target key value).value, E entry.1 entry.2 := by
  have hput : ∀ new, E key new → ∀ entry ∈ Assoc.insert target key new, E entry.1 entry.2 := by
    intro new hnew entry hentry
    rcases Assoc.mem_insert hentry with hmem | rfl
    · exact htarget entry hmem
    · exact hnew
  generalize hmerged : mergeEntry keys path target key value = merged at hagree
  cases hmerged ▸ mergesEntry keys path target key value with
  | unify htype =>
    intro entry hentry
    rcases mem_unifyType hentry with hmem | rfl | rfl
    · exact htarget entry hmem
    · exact hvalue
    · refine htypes htype.1 _ (List.append_ne_nil_of_right_ne_nil _ (List.cons_ne_nil _ _))
        fun v hv => ?_
      rcases List.mem_append.mp hv with hold | hnew
      · rcases mem_declared.mp hold with h | h
        · exact .inl (htarget _ (Assoc.mem_of_find? h))
        · exact .inr (htarget _ (Assoc.mem_of_find? h))
      · obtain rfl := List.mem_singleton.mp hnew
        rcases htype.2 with rfl | rfl
        · exact .inl hvalue
        · exact .inr hvalue
  | put htype => exact hput value hvalue
  | objects htype hold =>
    exact hput _ (hobjects _ _ rfl htype hagree (htarget _ (Assoc.mem_of_find? hold)))
  | required hkeys hkey hold =>
    subst hkey
    exact hput _ (hrequired hkeys _ _ (htarget _ (Assoc.mem_of_find? hold)) hvalue)
  | disagree => cases hagree

/-- A merge without disagreement merges the first entry and then the others. -/
theorem mergeEntries_cons {target rest : Entries} {key : String} {value : Json}
    (hagree : (mergeEntries keys path target ((key, value) :: rest)).conflict = none) :
    (mergeEntry keys path target key value).conflict = none ∧
      mergeEntries keys path target ((key, value) :: rest) =
        mergeEntries keys path (mergeEntry keys path target key value).value rest := by
  rw [mergeEntries] at hagree ⊢
  split at hagree
  · rename_i hentry
    exact ⟨hentry, rfl⟩
  · rename_i conflict hentry
    cases hagree.symm.trans hentry

/-- What each entry that is merged leaves in place holds after the merge. -/
theorem mergeEntries_keeps {I : Entries → Prop} {target source : Entries}
    (hentry : ∀ key value, (key, value) ∈ source → ∀ target,
      (mergeEntry keys path target key value).conflict = none → I target →
      I (mergeEntry keys path target key value).value)
    (hagree : (mergeEntries keys path target source).conflict = none) (h : I target) :
    I (mergeEntries keys path target source).value := by
  induction source generalizing target with
  | nil =>
    rw [mergeEntries]
    exact h
  | cons entry rest ih =>
    obtain ⟨key, value⟩ := entry
    obtain ⟨hfirst, heq⟩ := mergeEntries_cons hagree
    rw [heq] at hagree ⊢
    exact ih (fun k v hmem => hentry k v (List.mem_cons_of_mem _ hmem)) hagree
      (hentry key value List.mem_cons_self target hfirst h)

/-- What one entry brings about and no other entry takes away holds after the merge. -/
theorem mergeEntries_gains {J I : Entries → Prop} {target source : Entries}
    (hJ : ∀ key value, (key, value) ∈ source → ∀ target,
      (mergeEntry keys path target key value).conflict = none → J target →
      J (mergeEntry keys path target key value).value)
    (hI : ∀ key value, (key, value) ∈ source → ∀ target,
      (mergeEntry keys path target key value).conflict = none → J target → I target →
      I (mergeEntry keys path target key value).value)
    {key : String} {value : Json} (hmem : (key, value) ∈ source)
    (hgain : ∀ target, (mergeEntry keys path target key value).conflict = none → J target →
      I (mergeEntry keys path target key value).value)
    (hagree : (mergeEntries keys path target source).conflict = none) (h : J target) :
    I (mergeEntries keys path target source).value := by
  induction source generalizing target with
  | nil => cases hmem
  | cons entry rest ih =>
    obtain ⟨k, v⟩ := entry
    obtain ⟨hfirst, heq⟩ := mergeEntries_cons hagree
    rw [heq] at hagree ⊢
    have hbetween := hJ k v List.mem_cons_self target hfirst h
    have hJrest := fun k' v' h' => hJ k' v' (List.mem_cons_of_mem (k, v) h')
    have hIrest := fun k' v' h' => hI k' v' (List.mem_cons_of_mem (k, v) h')
    rcases List.mem_cons.mp hmem with hhere | hrest
    · obtain ⟨rfl, rfl⟩ := Prod.mk.inj hhere
      refine (mergeEntries_keeps (I := fun t => J t ∧ I t) (fun k' v' h' t ht hboth => ?_) hagree
        ⟨hbetween, hgain target hfirst h⟩).2
      exact ⟨hJrest k' v' h' t ht hboth.1, hIrest k' v' h' t ht hboth.1 hboth.2⟩
    · exact ih hJrest hIrest hrest hagree hbetween

/-- What holds of all entries on both sides holds of all entries after the merge. -/
theorem forall_mergeEntries {target source : Entries}
    (hobjects : ∀ key old new, (key, .obj new) ∈ source → ¬NamesType keys key →
      (mergeEntries (keys.below key) (path.child key) old new).conflict = none → E key (.obj old) →
      E key (.obj (mergeEntries (keys.below key) (path.child key) old new).value))
    (hrequired : keys = .keywords → ∀ old new, E "required" old → E "required" new →
      E "required" (unionRequired old new))
    (htypes : keys = .keywords → ∀ values, values ≠ [] → (∀ v ∈ values, E typeKey v ∨ E refKey v) →
      E typeKey (typeOfAlternatives (collect values)))
    (hagree : (mergeEntries keys path target source).conflict = none)
    (htarget : ∀ entry ∈ target, E entry.1 entry.2)
    (hsource : ∀ entry ∈ source, E entry.1 entry.2) :
    ∀ entry ∈ (mergeEntries keys path target source).value, E entry.1 entry.2 := by
  refine mergeEntries_keeps (I := fun t => ∀ entry ∈ t, E entry.1 entry.2)
    (fun key value hmem t ht hall => ?_) hagree htarget
  exact forall_mergeEntry (fun old new hnew => hobjects key old new (hnew ▸ hmem)) hrequired htypes
    ht hall (hsource _ hmem)

end Entries

/-! ### What a merge declares -/

/-- Whether a value that lists types lists no lists. -/
def IsFlat (value : Json) : Prop :=
  ∀ alternative ∈ alternatives value, ∀ items, alternative ≠ .arr items

/-- Whether all that a schema declares as its type is one text. -/
def DeclaresOnly (name : String) (target : Entries) : Prop :=
  ∀ value ∈ declared target, ∀ alternative ∈ alternatives value, alternative = .str name

/-- The alternatives of a type that is made of alternatives are these, if none is a list. -/
theorem alternatives_typeOfAlternatives {types : List Json}
    (h : ∀ type ∈ types, ∀ items, type ≠ .arr items) :
    alternatives (typeOfAlternatives types) = types := by
  unfold typeOfAlternatives
  split
  · rename_i single
    unfold alternatives
    split
    · exact absurd rfl (h _ List.mem_cons_self _)
    · rfl
  · rfl

/-- A type that is made of flat values is flat. -/
theorem isFlat_typeOfAlternatives {values : List Json} (h : ∀ value ∈ values, IsFlat value) :
    IsFlat (typeOfAlternatives (collect values)) := by
  have hcollect : ∀ type ∈ collect values, ∀ items, type ≠ .arr items := by
    intro type htype
    obtain ⟨value, hvalue, halternative⟩ := mem_collect htype
    exact h value hvalue type halternative
  intro alternative hmem
  rw [alternatives_typeOfAlternatives hcollect] at hmem
  exact hcollect alternative hmem

section Declared

variable {path : SchemaPath} {target source : Entries} {key : String} {value : Json}

/-- Merging an entry under one key leaves what stands under another key as it was. -/
theorem find?_mergeEntry_of_ne {keys : Keys} {other : String} (htype : ¬NamesType keys key)
    (hne : key ≠ other) :
    Assoc.find? (mergeEntry keys path target key value).value other =
      Assoc.find? target other := by
  generalize hmerged : mergeEntry keys path target key value = merged
  cases hmerged ▸ mergesEntry keys path target key value with
  | unify h => exact absurd h htype
  | put => exact Assoc.find?_insert_of_ne _ _ hne
  | objects => exact Assoc.find?_insert_of_ne _ _ hne
  | required => exact Assoc.find?_insert_of_ne _ _ hne
  | disagree => rfl

/-- Merging an entry that is no type or reference leaves the types declared as they were. -/
theorem declared_mergeEntry (htype : ¬NamesType .keywords key) :
    declared (mergeEntry .keywords path target key value).value = declared target := by
  have hne : key ≠ typeKey ∧ key ≠ refKey :=
    ⟨fun h => htype ⟨rfl, .inl h⟩, fun h => htype ⟨rfl, .inr h⟩⟩
  rw [declared, find?_mergeEntry_of_ne htype hne.1, find?_mergeEntry_of_ne htype hne.2, declared]

/-- Merging a type or a reference unifies it with those declared. -/
theorem mergeEntry_of_namesType {keys : Keys} (htype : NamesType keys key) :
    mergeEntry keys path target key value = ⟨unifyType target key value, none⟩ := by
  unfold mergeEntry
  cases value <;> exact if_pos htype

/-- Something is declared once a type or reference is merged. -/
theorem declared_unifyType_ne_nil (hkey : key = typeKey ∨ key = refKey) :
    declared (unifyType target key value) ≠ [] := by
  rcases unifyType_cases target key value with ⟨-, heq⟩ | ⟨hne, -, heq⟩ | ⟨-, heq⟩ <;> rw [heq]
  · exact List.ne_nil_of_mem (mem_declared_insert target value hkey)
  · exact hne
  · exact List.ne_nil_of_mem (mem_declared_insert _ _ (.inl rfl))

/-- What either side declares keeps something declared. -/
theorem declared_mergeEntries_ne_nil
    (hagree : (mergeEntries .keywords path target source).conflict = none)
    (h : declared target ≠ [] ∨ ∃ entry ∈ source, entry.1 = typeKey ∨ entry.1 = refKey) :
    declared (mergeEntries .keywords path target source).value ≠ [] := by
  have hstep : ∀ key value, (key, value) ∈ source → ∀ target,
      (mergeEntry .keywords path target key value).conflict = none → declared target ≠ [] →
      declared (mergeEntry .keywords path target key value).value ≠ [] := by
    intro key value _ target _ hdeclared
    by_cases htype : NamesType .keywords key
    · rw [mergeEntry_of_namesType htype]
      exact declared_unifyType_ne_nil htype.2
    · rwa [declared_mergeEntry htype]
  rcases h with hdeclared | ⟨⟨key, value⟩, hmem, hkey⟩
  · exact mergeEntries_keeps hstep hagree hdeclared
  · refine mergeEntries_gains (J := fun _ => True) (fun _ _ _ _ _ _ => trivial)
      (fun k v hmem t ht _ => hstep k v hmem t ht) hmem (fun t _ _ => ?_) hagree trivial
    rw [mergeEntry_of_namesType ⟨rfl, hkey⟩]
    exact declared_unifyType_ne_nil hkey

/-- Items that are the same as copies of one text are copies of that text. -/
theorem eq_str_of_sameItems {name : String} {items others : List Json}
    (h : Json.sameItems items others) (hall : ∀ item ∈ items, item = .str name) :
    ∀ other ∈ others, other = .str name := by
  induction items generalizing others with
  | nil =>
    cases others with
    | nil => exact fun _ hmem => absurd hmem List.not_mem_nil
    | cons => simp [Json.sameItems] at h
  | cons item rest ih =>
    cases others with
    | nil => simp [Json.sameItems] at h
    | cons other more =>
      rw [Json.sameItems, Bool.and_eq_true] at h
      intro o ho
      rcases List.mem_cons.mp ho with rfl | hmem
      · exact eq_str_of_same (hall item List.mem_cons_self ▸ h.1)
      · exact ih h.2 (fun i hi => hall i (List.mem_cons_of_mem _ hi)) o hmem

/-- The same value has the same alternatives, if those are one text. -/
theorem alternatives_of_same {name : String} {other : Json} (hsame : value.same other)
    (h : ∀ alternative ∈ alternatives value, alternative = .str name) :
    ∀ alternative ∈ alternatives other, alternative = .str name := by
  cases value with
  | arr items =>
    cases other with
    | arr others => exact eq_str_of_sameItems (by rwa [Json.same] at hsame) h
    | _ => simp [Json.same] at hsame
  | _ =>
    have hvalue := h _ List.mem_cons_self
    rw [hvalue] at hsame
    rw [eq_str_of_same hsame]
    exact fun _ hmem => List.mem_singleton.mp hmem

/-- If a single text is declared after a type or reference is merged, then neither the target nor
the value declare anything else. -/
theorem declaresOnly_of_unifyType {name : String} (hkey : key = typeKey ∨ key = refKey)
    (htarget : ∀ v ∈ declared target, IsFlat v) (hvalue : IsFlat value)
    (h : DeclaresOnly name (unifyType target key value)) :
    DeclaresOnly name target ∧ ∀ alternative ∈ alternatives value, alternative = .str name := by
  rcases unifyType_cases target key value with
    ⟨hnone, heq⟩ | ⟨-, ⟨ref, href, hsame⟩, heq⟩ | ⟨-, heq⟩ <;> rw [heq] at h
  · refine ⟨fun v hv => ?_, h value (mem_declared_insert target value hkey)⟩
    rw [hnone] at hv
    exact absurd hv List.not_mem_nil
  · exact ⟨h, alternatives_of_same hsame (h ref (mem_declared.mpr (.inr href)))⟩
  · have hall : ∀ v ∈ declared target ++ [value], IsFlat v := by
      intro v hv
      rcases List.mem_append.mp hv with hold | hnew
      · exact htarget v hold
      · exact List.mem_singleton.mp hnew ▸ hvalue
    have hflat : ∀ type ∈ collect (declared target ++ [value]), ∀ items, type ≠ .arr items := by
      intro type htype
      obtain ⟨v, hv, halternative⟩ := mem_collect htype
      exact hall v hv type halternative
    have htypes := h _ (mem_declared_insert _ _ (.inl rfl))
    rw [alternatives_typeOfAlternatives hflat] at htypes
    obtain ⟨-, hvalues⟩ := eq_of_appendNew htypes
    refine ⟨fun v hv a ha => hvalues a (List.mem_flatMap.mpr ⟨v, ?_, ha⟩),
      fun a ha => hvalues a (List.mem_flatMap.mpr ⟨value, ?_, ha⟩)⟩
    · exact List.mem_append_left _ hv
    · exact List.mem_append_right _ List.mem_cons_self

/-- If a single text is declared after a merge, then neither side declares anything else. -/
theorem declaresOnly_of_merge {name : String}
    (htarget : ∀ entry ∈ target, entry.1 = typeKey ∨ entry.1 = refKey → IsFlat entry.2)
    (hsource : ∀ entry ∈ source, entry.1 = typeKey ∨ entry.1 = refKey → IsFlat entry.2)
    (hagree : (mergeEntries .keywords path target source).conflict = none)
    (h : DeclaresOnly name (mergeEntries .keywords path target source).value) :
    DeclaresOnly name target ∧ ∀ entry ∈ source, entry.1 = typeKey ∨ entry.1 = refKey →
      ∀ alternative ∈ alternatives entry.2, alternative = .str name := by
  have hdeclared : ∀ t : Entries,
      (∀ entry ∈ t, entry.1 = typeKey ∨ entry.1 = refKey → IsFlat entry.2) →
      ∀ v ∈ declared t, IsFlat v := by
    intro t ht v hv
    rcases mem_declared.mp hv with hfind | hfind
    · exact ht _ (Assoc.mem_of_find? hfind) (.inl rfl)
    · exact ht _ (Assoc.mem_of_find? hfind) (.inr rfl)
  have hflat : ∀ key value, (key, value) ∈ source → ∀ t,
      (mergeEntry .keywords path t key value).conflict = none →
      (∀ entry ∈ t, entry.1 = typeKey ∨ entry.1 = refKey → IsFlat entry.2) →
      ∀ entry ∈ (mergeEntry .keywords path t key value).value,
        entry.1 = typeKey ∨ entry.1 = refKey → IsFlat entry.2 := by
    intro key value hmem t hagree ht
    refine forall_mergeEntry (E := fun k v => k = typeKey ∨ k = refKey → IsFlat v)
      (fun _ _ _ htype _ _ hkey => absurd ⟨rfl, hkey⟩ htype) (fun _ _ _ _ _ hkey => ?_)
      (fun _ values _ hvalues _ => ?_) hagree ht (hsource _ hmem)
    · exact absurd hkey (by decide)
    · exact isFlat_typeOfAlternatives fun v hv =>
        (hvalues v hv).elim (fun h => h (.inl rfl)) fun h => h (.inr rfl)
  -- what else is declared stays declared
  have hstep : ∀ key value, (key, value) ∈ source → ∀ t,
      (mergeEntry .keywords path t key value).conflict = none →
      (∀ entry ∈ t, entry.1 = typeKey ∨ entry.1 = refKey → IsFlat entry.2) →
      ¬DeclaresOnly name t → ¬DeclaresOnly name (mergeEntry .keywords path t key value).value := by
    intro key value hmem t _ ht hother honly
    by_cases htype : NamesType .keywords key
    · rw [mergeEntry_of_namesType htype] at honly
      exact hother (declaresOnly_of_unifyType htype.2 (hdeclared t ht)
        (hsource _ hmem htype.2) honly).1
    · unfold DeclaresOnly at honly
      rw [declared_mergeEntry htype] at honly
      exact hother honly
  constructor
  · by_contra hother
    refine (mergeEntries_keeps (I := fun t =>
      (∀ entry ∈ t, entry.1 = typeKey ∨ entry.1 = refKey → IsFlat entry.2) ∧ ¬DeclaresOnly name t)
      (fun k v hmem t ht hboth => ?_) hagree ⟨htarget, hother⟩).2 h
    exact ⟨hflat k v hmem t ht hboth.1, hstep k v hmem t ht hboth.1 hboth.2⟩
  · rintro ⟨key, value⟩ hmem hkey
    by_contra hother
    refine mergeEntries_gains hflat hstep hmem (fun t _ ht honly => hother ?_) hagree htarget h
    rw [mergeEntry_of_namesType ⟨rfl, hkey⟩] at honly
    exact (declaresOnly_of_unifyType hkey (hdeclared t ht) (hsource _ hmem hkey) honly).2

end Declared

/-! ### Keys -/

/-- A merge adds no keys but `type`. -/
theorem mem_keys_of_mergeEntries {keys : Keys} {path : SchemaPath} {target source : Entries}
    (hagree : (mergeEntries keys path target source).conflict = none) {key : String}
    (h : key ∈ Assoc.keys (mergeEntries keys path target source).value) :
    key = typeKey ∨ key ∈ Assoc.keys target ∨ key ∈ Assoc.keys source := by
  obtain ⟨value, hvalue⟩ := Assoc.exists_find?_of_mem_keys h
  refine forall_mergeEntries (E := fun k _ => k = typeKey ∨ k ∈ Assoc.keys target ∨
    k ∈ Assoc.keys source) (fun _ _ _ _ _ _ h => h) (fun _ _ _ h _ => h) (fun _ _ _ _ => .inl rfl)
    hagree (fun entry hentry => .inr (.inl (Assoc.mem_keys_of_mem hentry)))
    (fun entry hentry => .inr (.inr (Assoc.mem_keys_of_mem hentry))) _ (Assoc.mem_of_find? hvalue)

/-- Merging an entry repeats no key. -/
theorem nodup_keys_mergeEntry {keys : Keys} {path : SchemaPath} {target : Entries} {key : String}
    {value : Json} (hnodup : (Assoc.keys target).Nodup) :
    (Assoc.keys (mergeEntry keys path target key value).value).Nodup := by
  generalize hmerged : mergeEntry keys path target key value = merged
  cases hmerged ▸ mergesEntry keys path target key value with
  | unify =>
    rcases unifyType_cases target key value with ⟨-, heq⟩ | ⟨-, -, heq⟩ | ⟨-, heq⟩ <;> rw [heq]
    · exact Assoc.nodup_keys_insert hnodup _ _
    · exact hnodup
    · exact Assoc.nodup_keys_insert
        (Assoc.nodup_keys_swapErase (Assoc.nodup_keys_swapErase hnodup _) _) _ _
  | put => exact Assoc.nodup_keys_insert hnodup _ _
  | objects => exact Assoc.nodup_keys_insert hnodup _ _
  | required => exact Assoc.nodup_keys_insert hnodup _ _
  | disagree => exact hnodup

/-- A merge that succeeds repeats no key. -/
theorem nodup_keys_mergeEntries {keys : Keys} {path : SchemaPath} {target source : Entries}
    (hagree : (mergeEntries keys path target source).conflict = none)
    (hnodup : (Assoc.keys target).Nodup) :
    (Assoc.keys (mergeEntries keys path target source).value).Nodup :=
  mergeEntries_keeps (I := fun t => (Assoc.keys t).Nodup)
    (fun _ _ _ _ _ h => nodup_keys_mergeEntry h) hagree hnodup

end SchemaClasses.Merge
