import SchemaClasses.Proofs.Merge.Associative

/-!
# Types and references that come twice

Main statement (`sameTyping_unifyAll_iff`): if the types and references of a source are unified with
those of a target twice, then the second time changes nothing, with one exception: a target without
either of them has taken over a type as it was written, and it was not written as a merge writes it
(`IsPlain`).

* What a merge does to the type and the reference of a target depends on these two alone, so it is
  an operation on the pair of them (`unify`, `typing_mergeEntries`).
* A merge writes a list of alternatives that are different, and not one list alone (`IsCollected`):
  a single alternative is written without the list around it, so it would be read as the list.
  Such a list absorbs any value all of whose alternatives it has (`collect_of_holds`), and it has
  those of all that was unified into it.
* What a target has become of its own and of what was unified with it is listed case by case by
  `Taken`, and one more value leads from each case to one of them (`Taken.unify`).
-/

namespace SchemaClasses.Merge

open Json

/-! ### Lists that have a value -/

section Lists

variable {types more values items : List Json} {value other : Json}

/-- A list has a value if something in it is the same. -/
theorem hasValue_iff : hasValue types value ↔ ∃ type ∈ types, type.same value :=
  List.any_eq_true

/-- Two lists together have what either of them has. -/
theorem hasValue_append : hasValue (types ++ more) value ↔
    hasValue types value ∨ hasValue more value := by
  rw [hasValue, List.any_append, Bool.or_eq_true, hasValue, hasValue]

/-- Values that a list has already are not appended. -/
theorem appendNew_of_hasValue (h : ∀ value ∈ values, hasValue types value) :
    appendNew types values = types := by
  induction values with
  | nil => rfl
  | cons first rest ih =>
    rw [appendNew, List.foldl_cons, if_pos (h first List.mem_cons_self)]
    exact ih fun value hvalue => h value (List.mem_cons_of_mem _ hvalue)

/-- Values that are all different are appended as they are. -/
theorem appendNew_of_apart (h : (types ++ values).Pairwise fun u v => u.same v = false) :
    appendNew types values = types ++ values := by
  induction values generalizing types with
  | nil => exact (List.append_nil types).symm
  | cons first rest ih =>
    have hnew : ¬hasValue types first := by
      intro hfound
      obtain ⟨type, htype, hsame⟩ := hasValue_iff.mp hfound
      have hapart := (List.pairwise_append.mp h).2.2 type htype first List.mem_cons_self
      exact Bool.false_ne_true (hapart.symm.trans hsame)
    rw [List.append_cons] at h ⊢
    rw [appendNew, List.foldl_cons, if_neg hnew]
    exact ih h

/-- No value is appended twice, and none that did not come. -/
theorem appendNew_sublist (types values : List Json) :
    (appendNew types values).Sublist (types ++ values) := by
  induction values generalizing types with
  | nil => exact (List.append_nil types).symm ▸ List.Sublist.refl _
  | cons first rest ih =>
    rw [appendNew, List.foldl_cons]
    split_ifs with hfound
    · exact (ih types).trans ((List.sublist_cons_self first rest).append_left types)
    · exact (ih (types ++ [first])).trans (List.append_cons types first rest ▸ .refl _)

/-- What a list has it still has after appending. -/
theorem hasValue_appendNew_of_hasValue (h : hasValue types value) :
    hasValue (appendNew types values) value := by
  induction values generalizing types with
  | nil => exact h
  | cons first rest ih =>
    rw [appendNew, List.foldl_cons]
    split_ifs
    · exact ih h
    · exact ih (hasValue_append.mpr (.inl h))

/-- What has been appended is there. -/
theorem hasValue_appendNew_of_mem (hmem : value ∈ values) (hrefl : value.same value) :
    hasValue (appendNew types values) value := by
  induction values generalizing types with
  | nil => exact absurd hmem List.not_mem_nil
  | cons first rest ih =>
    rw [appendNew, List.foldl_cons]
    rcases List.mem_cons.mp hmem with rfl | hrest
    · split_ifs with hfound
      · exact hasValue_appendNew_of_hasValue hfound
      · refine hasValue_appendNew_of_hasValue (hasValue_append.mpr (.inr ?_))
        exact hasValue_iff.mpr ⟨value, List.mem_cons_self, hrefl⟩
    · exact ih hrest

end Lists

/-! ### Lists of alternatives -/

/-- Whether a list has all alternatives of a value. -/
def Holds (types : List Json) (value : Json) : Prop :=
  ∀ alternative ∈ alternatives value, hasValue types alternative

/-- Whether a value is a list of one list alone, which may stand there several times. -/
def Nests (value : Json) : Prop :=
  alternatives value ≠ [] ∧
    ∃ items, ∀ alternative ∈ alternatives value, alternative.same (.arr items)

/-- Whether a list is one of different alternatives, as merges make them. -/
structure IsCollected (types : List Json) : Prop where
  /-- They are not one list alone. -/
  unnested : ∀ items, types ≠ [.arr items]
  /-- No two of them are the same. -/
  apart : types.Pairwise fun u v => u.same v = false
  /-- No object in them repeats a key. -/
  distinct : ∀ type ∈ types, Distinct type

/-- Whether a value is read as a type or reference without trouble. -/
structure Sound (value : Json) : Prop where
  /-- It is no list of one list alone. -/
  unnested : ¬Nests value
  /-- No object in it repeats a key. -/
  distinct : Distinct value

/-- Whether a value is written as a merge writes the types of a schema: a list has several
alternatives, or none, and all of them are different. -/
def IsPlain (value : Json) : Prop :=
  ∀ items, value = .arr items →
    items.length ≠ 1 ∧ items.Pairwise fun u v => u.same v = false

section Alternatives

variable {types more values : List Json} {value other : Json}

/-- The alternatives of a value that repeats no key repeat none. -/
theorem distinct_of_mem_alternatives (h : Distinct value) {alternative : Json}
    (hmem : alternative ∈ alternatives value) : Distinct alternative := by
  cases value with
  | arr items => exact throughout_arr.mp h alternative hmem
  | _ => exact List.mem_singleton.mp hmem ▸ h

/-- The same value has the same alternatives. -/
theorem Holds.of_same (h : Holds types value) (hsame : value.same other) : Holds types other := by
  have hcarry : ∀ alternative alternative', alternative ∈ alternatives value →
      alternative.same alternative' → hasValue types alternative' := by
    intro alternative alternative' hmem hsame'
    obtain ⟨type, htype, hfound⟩ := hasValue_iff.mp (h alternative hmem)
    exact hasValue_iff.mpr ⟨type, htype, same_trans hfound hsame'⟩
  intro alternative hmem
  cases value with
  | arr items =>
    cases other with
    | arr others =>
      obtain ⟨hlength, hall⟩ := same_arr.mp hsame
      obtain ⟨index, hindex⟩ := List.mem_iff_getElem?.mp hmem
      have hlt : index < items.length := hlength ▸ (List.getElem?_eq_some_iff.mp hindex).1
      have hitem := List.getElem?_eq_getElem hlt
      exact hcarry items[index] alternative (List.mem_of_getElem? hitem)
        (hall index _ _ hitem hindex)
    | _ => simp [same] at hsame
  | _ =>
    cases other with
    | arr others => simp [same] at hsame
    | _ => exact hcarry _ _ List.mem_cons_self (List.mem_singleton.mp hmem ▸ hsame)

/-- A value that has been collected is there. -/
theorem holds_collect (h : Distinct value) (hmem : value ∈ values) :
    Holds (collect values) value :=
  fun _ halternative => hasValue_appendNew_of_mem (List.mem_flatMap.mpr ⟨value, hmem, halternative⟩)
    (same_refl (distinct_of_mem_alternatives h halternative))

/-- Collecting sound values gives a list as merges make them. -/
theorem isCollected_collect (h : ∀ value ∈ values, Sound value) : IsCollected (collect values) where
  unnested := by
    intro items hnested
    -- every alternative is the same as the one that is left, so there is none
    have hnone : ∀ value ∈ values, alternatives value = [] := by
      intro value hvalue
      by_contra hsome
      refine (h value hvalue).unnested ⟨hsome, items, fun alternative hmem => ?_⟩
      have hheld := holds_collect (h value hvalue).distinct hvalue alternative hmem
      rw [hnested, hasValue_iff] at hheld
      obtain ⟨type, htype, hsame⟩ := hheld
      obtain rfl := List.mem_singleton.mp htype
      obtain ⟨other, hother, halternative⟩ :=
        mem_collect (hnested.symm ▸ List.mem_cons_self : Json.arr items ∈ collect values)
      exact same_symm (distinct_of_mem_alternatives (h other hother).distinct halternative) hsame
    have hempty : collect values = [] := by
      rw [collect, List.flatMap_eq_nil_iff.mpr hnone]
      rfl
    exact List.cons_ne_nil _ _ (hnested.symm.trans hempty)
  apart := pairwise_appendNew .nil
  distinct := by
    intro type htype
    obtain ⟨value, hvalue, halternative⟩ := mem_collect htype
    exact distinct_of_mem_alternatives (h value hvalue).distinct halternative

/-- Collecting goes on where it stopped. -/
theorem collect_append (values more : List Json) :
    collect (values ++ more) = appendNew (collect values) (more.flatMap alternatives) := by
  rw [collect, List.flatMap_append, appendNew, List.foldl_append]
  rfl

/-- A list that was written as a type has the same alternatives. -/
theorem IsCollected.alternatives_eq (h : IsCollected types) :
    alternatives (typeOfAlternatives types) = types := by
  unfold typeOfAlternatives
  split
  · rename_i single
    cases single with
    | arr items => exact absurd rfl (h.unnested items)
    | _ => rfl
  · rfl

/-- Of a list that was written as a type the same alternatives are collected. -/
theorem IsCollected.collect_cons (h : IsCollected types) (values : List Json) :
    collect (typeOfAlternatives types :: values)
      = appendNew types (values.flatMap alternatives) := by
  have hstart : collect [typeOfAlternatives types] = types := by
    rw [collect, List.flatMap_singleton, h.alternatives_eq]
    exact appendNew_of_apart h.apart
  rw [← List.singleton_append, collect_append, hstart]

/-- A list absorbs a value whose alternatives it has. -/
theorem IsCollected.collect_of_holds (h : IsCollected types) (hheld : Holds types value) :
    collect [typeOfAlternatives types, value] = types := by
  rw [h.collect_cons, List.flatMap_singleton]
  exact appendNew_of_hasValue hheld

/-- The type that is made of such a list is sound. -/
theorem IsCollected.sound (h : IsCollected types) : Sound (typeOfAlternatives types) where
  unnested := by
    rintro ⟨hsome, items, hsame⟩
    rw [h.alternatives_eq] at hsome hsame
    cases types with
    | nil => exact hsome rfl
    | cons first rest =>
      have hfirst := hsame first List.mem_cons_self
      cases rest with
      | nil =>
        cases first with
        | arr others => exact h.unnested others rfl
        | _ => simp [same] at hfirst
      | cons second rest =>
        have hsecond := hsame second (List.mem_cons_of_mem _ List.mem_cons_self)
        have hdistinct := h.distinct second (List.mem_cons_of_mem _ List.mem_cons_self)
        have hapart := (List.pairwise_cons.mp h.apart).1 second List.mem_cons_self
        have hboth := same_trans hfirst (same_symm hdistinct hsecond)
        exact Bool.false_ne_true (hapart.symm.trans hboth)
  distinct := by
    unfold typeOfAlternatives
    split
    · exact h.distinct _ List.mem_cons_self
    · exact throughout_arr.mpr h.distinct

/-- What a list had it has once more is collected. -/
theorem IsCollected.holds_collect_cons (h : IsCollected types) (hheld : Holds types value)
    (values : List Json) : Holds (collect (typeOfAlternatives types :: values)) value :=
  fun alternative hmem => h.collect_cons values ▸
    hasValue_appendNew_of_hasValue (hheld alternative hmem)

/-- A merge writes plain types. -/
theorem IsCollected.isPlain (h : IsCollected types) : IsPlain (typeOfAlternatives types) := by
  intro items hitems
  unfold typeOfAlternatives at hitems
  split at hitems
  · exact absurd (congrArg (fun type => [type]) hitems) (h.unnested items)
  · rename_i hmany
    obtain rfl := Json.arr.inj hitems
    exact ⟨fun hlength => (List.length_eq_one_iff.mp hlength).elim hmany, h.apart⟩

/-- A value that comes twice is collected once. -/
theorem collect_pair (h : Distinct value) : collect [value, value] = collect [value] := by
  have hheld : Holds (collect [value]) value := holds_collect h List.mem_cons_self
  rw [← List.singleton_append, collect_append, List.flatMap_singleton]
  exact appendNew_of_hasValue hheld

/-- A type that is unified with itself stays the same just if it is plain. -/
theorem same_unified_iff (h : Sound value) :
    (typeOfAlternatives (collect [value, value])).same value ↔ IsPlain value := by
  have hcollected : IsCollected (collect [value]) :=
    isCollected_collect (List.forall_mem_singleton.mpr h)
  rw [collect_pair h.distinct]
  cases value with
  | arr items =>
    have hitems : collect [.arr items] = appendNew [] items := by
      rw [collect, List.flatMap_singleton, alternatives]
    rw [hitems] at hcollected ⊢
    constructor
    · intro hsame
      unfold typeOfAlternatives at hsame
      split at hsame
      · rename_i single hsingle
        -- a single alternative is no list
        cases single with
        | arr others => exact absurd hsingle (hcollected.unnested others)
        | _ => simp [same] at hsame
      · rename_i hmany
        have hlength := (same_arr.mp hsame).1
        have heq : appendNew [] items = items :=
          (appendNew_sublist [] items).eq_of_length hlength
        rw [heq] at hcollected hmany
        rintro _ ⟨⟩
        exact ⟨fun hone => (List.length_eq_one_iff.mp hone).elim hmany, hcollected.apart⟩
    · intro hplain
      obtain ⟨hlength, hapart⟩ := hplain items rfl
      have heq : appendNew [] items = items := appendNew_of_apart hapart
      rw [heq]
      unfold typeOfAlternatives
      split
      · exact absurd rfl hlength
      · exact same_refl h.distinct
  | _ => exact iff_of_true (same_refl h.distinct) (by rintro _ ⟨⟩)

end Alternatives

/-! ### The type and the reference of a target -/

/-- A type and a reference, as far as there are any. -/
abbrev Typing := Option Json × Option Json

/-- The type and the reference of a target. -/
def typing (target : Entries) : Typing :=
  (Assoc.find? target typeKey, Assoc.find? target refKey)

/-- Unifies one more type or reference with a type and a reference. -/
def unify (typing : Typing) (key : String) (value : Json) : Typing :=
  match typing with
  | (none, none) => if key = refKey then (none, some value) else (some value, none)
  | (none, some ref) =>
    if key = refKey ∧ ref.same value then (none, some ref)
    else (some (typeOfAlternatives (collect [ref, value])), none)
  | (some type, ref) =>
    (some (typeOfAlternatives (collect (type :: (ref.toList ++ [value])))), none)

/-- Unifies several of them, one after the other. -/
def unifyAll (typing : Typing) (given : Entries) : Typing :=
  given.foldl (fun typing entry => unify typing entry.1 entry.2) typing

/-- Whether two types are the same, and two references are. -/
def SameTyping (typing other : Typing) : Prop :=
  SameFound typing.1 other.1 ∧ SameFound typing.2 other.2

section Typing

variable {path : SchemaPath} {target source : Entries} {key : String} {value : Json}

/-- A schema contributes what it has under `type` or `$ref`. -/
theorem mem_contributions_iff : (key, value) ∈ contributions source ↔
    (key, value) ∈ source ∧ (key = typeKey ∨ key = refKey) := by
  rw [contributions, List.mem_filter, Bool.or_eq_true, decide_eq_true_eq, decide_eq_true_eq]

/-- Unifying a type with a target unifies it with the type and the reference of the target. -/
theorem typing_unifyType (hnodup : (Assoc.keys target).Nodup)
    (hkey : key = typeKey ∨ key = refKey) :
    typing (unifyType target key value) = unify (typing target) key value := by
  have hne : typeKey ≠ refKey := typeKey_ne_refKey
  -- what is left if all alternatives become the type
  have hcollected : ∀ types, typing (Assoc.insert
      (Assoc.swapErase (Assoc.swapErase target typeKey) refKey) typeKey types)
        = (some types, none) := by
    intro types
    unfold typing
    rw [Assoc.find?_insert_self, Assoc.find?_insert_of_ne _ _ hne,
      Assoc.find?_swapErase_self (Assoc.nodup_keys_swapErase hnodup _)]
  unfold unifyType
  dsimp only
  rw [collect_append_singleton]
  cases htype : Assoc.find? target typeKey with
  | some type =>
    have htarget : typing target = (some type, Assoc.find? target refKey) := by rw [typing, htype]
    rw [htarget]
    simp only [Option.isNone_some, Bool.false_and, Bool.false_eq_true, if_false]
    exact hcollected _
  | none =>
    cases href : Assoc.find? target refKey with
    | none =>
      have htarget : typing target = (none, none) := by rw [typing, htype, href]
      rw [htarget]
      rcases hkey with rfl | rfl
      · simp [typing, unify, hne, href, Assoc.find?_insert_of_ne]
      · simp [typing, unify, hne.symm, htype, Assoc.find?_insert_of_ne]
    | some ref =>
      have htarget : typing target = (none, some ref) := by rw [typing, htype, href]
      rw [htarget]
      by_cases hsame : key = refKey ∧ ref.same value
      · simp [unify, hsame, htarget]
      · have hdiffers : (decide (key = refKey) && ref.same value) = false := by
          simpa using hsame
        simp only [hdiffers, unify, if_neg hsame, Option.isNone_some, Bool.and_false,
          Bool.false_eq_true, if_false]
        exact hcollected _

/-- What a merge makes of the type and the reference of its target. -/
theorem typing_mergeEntries (hnodup : (Assoc.keys target).Nodup)
    (hagree : (mergeEntries .keywords path target source).conflict = none) :
    typing (mergeEntries .keywords path target source).value
      = unifyAll (typing target) (contributions source) := by
  induction source generalizing target with
  | nil =>
    rw [mergeEntries]
    rfl
  | cons entry rest ih =>
    obtain ⟨key, value⟩ := entry
    obtain ⟨hfirst, heq⟩ := mergeEntries_cons hagree
    rw [heq] at hagree ⊢
    rw [ih (nodup_keys_mergeEntry hnodup) hagree]
    by_cases htype : NamesType .keywords key
    · have hcontributions : contributions ((key, value) :: rest) =
          (key, value) :: contributions rest := List.filter_cons_of_pos (by simpa using htype.2)
      rw [hcontributions, mergeEntry_of_namesType htype, typing_unifyType hnodup htype.2]
      rfl
    · have hcontributions : contributions ((key, value) :: rest) = contributions rest :=
        List.filter_cons_of_neg (by simpa using fun h => htype ⟨rfl, h⟩)
      have hsame : typing (mergeEntry .keywords path target key value).value = typing target := by
        unfold typing
        rw [find?_mergeEntry_of_ne htype fun heq => htype ⟨rfl, .inl heq⟩,
          find?_mergeEntry_of_ne htype fun heq => htype ⟨rfl, .inr heq⟩]
      rw [hcontributions, hsame]

end Typing

/-! ### What has been unified -/

/-- What has become of a type and a reference, and of those that were unified with them. -/
inductive Taken (start : Typing) : Entries → Typing → Prop where
  /-- Nothing has come yet. -/
  | start : Taken start [] start
  /-- A type was taken over as it was. -/
  | type (hnone : start = (none, none)) {value : Json} (hvalue : Sound value) :
      Taken start [(typeKey, value)] (some value, none)
  /-- Only the same reference has come. -/
  | reference {given : Entries} {ref : Json} (href : Sound ref)
      (hsame : ∀ entry ∈ given, entry.1 = refKey ∧ ref.same entry.2) :
      Taken start given (none, some ref)
  /-- All alternatives have become the type. -/
  | types {given : Entries} {types : List Json} (hcollected : IsCollected types)
      (hheld : ∀ entry ∈ given, Holds types entry.2) :
      Taken start given (some (typeOfAlternatives types), none)

section Taken

variable {start typing : Typing} {given more : Entries} {key : String} {value : Json}

/-- All alternatives become the type, those of one more value last. -/
theorem taken_snoc {olds : List Json} (holds : ∀ old ∈ olds, Sound old) (hvalue : Sound value)
    (hgiven : ∀ entry ∈ given, Holds (collect (olds ++ [value])) entry.2) :
    Taken start (given ++ [(key, value)])
      (some (typeOfAlternatives (collect (olds ++ [value]))), none) := by
  have hcollected : IsCollected (collect (olds ++ [value])) :=
    isCollected_collect (List.forall_mem_append.mpr
      ⟨holds, List.forall_mem_singleton.mpr hvalue⟩)
  have hlast : Holds (collect (olds ++ [value])) value :=
    holds_collect hvalue.distinct (List.mem_append_right _ List.mem_cons_self)
  exact .types hcollected
    (List.forall_mem_append.mpr ⟨hgiven, List.forall_mem_singleton.mpr hlast⟩)

/-- One more value leads from each case to one of them. -/
theorem Taken.unify (h : Taken start given typing) (hkey : key = typeKey ∨ key = refKey)
    (hstart : ∀ old ∈ start.1.toList ++ start.2.toList, Sound old) (hvalue : Sound value) :
    Taken start (given ++ [(key, value)]) (unify typing key value) := by
  cases h with
  | start =>
    have hnil : ∀ entry ∈ ([] : Entries), Holds (collect (start.1.toList ++ start.2.toList ++
      [value])) entry.2 := fun _ hmem => absurd hmem List.not_mem_nil
    obtain ⟨- | type, - | ref⟩ := start
    · rcases hkey with rfl | rfl
      · exact .type rfl hvalue
      · refine .reference hvalue (List.forall_mem_singleton.mpr ⟨rfl, ?_⟩)
        exact same_refl hvalue.distinct
    · rw [Merge.unify]
      split_ifs with hsame
      · exact .reference (hstart ref List.mem_cons_self) (List.forall_mem_singleton.mpr hsame)
      · exact taken_snoc hstart hvalue hnil
    · exact taken_snoc hstart hvalue hnil
    · exact taken_snoc hstart hvalue hnil
  | @type _ old hold =>
    have hgiven : Holds (collect [old, value]) old := holds_collect hold.distinct List.mem_cons_self
    exact taken_snoc (List.forall_mem_singleton.mpr hold) hvalue
      (List.forall_mem_singleton.mpr hgiven)
  | @reference _ ref href hsame =>
    rw [Merge.unify]
    split_ifs with hagain
    · exact .reference href (List.forall_mem_append.mpr
        ⟨hsame, List.forall_mem_singleton.mpr hagain⟩)
    · -- the references that came are the same as the one that is there
      have hgiven : Holds (collect [ref, value]) ref :=
        holds_collect href.distinct List.mem_cons_self
      exact taken_snoc (List.forall_mem_singleton.mpr href) hvalue
        fun entry hentry => hgiven.of_same (hsame entry hentry).2
  | @types _ types hcollected hheld =>
    exact taken_snoc (List.forall_mem_singleton.mpr hcollected.sound) hvalue
      fun entry hentry => hcollected.holds_collect_cons (hheld entry hentry) [value]

/-- Any number of types and references lead from each form to one of them. -/
theorem Taken.unifyAll (h : Taken start given typing)
    (hstart : ∀ old ∈ start.1.toList ++ start.2.toList, Sound old)
    (hkeys : ∀ entry ∈ more, entry.1 = typeKey ∨ entry.1 = refKey)
    (hmore : ∀ entry ∈ more, Sound entry.2) :
    Taken start (given ++ more) (unifyAll typing more) := by
  induction more generalizing given typing with
  | nil => exact (List.append_nil given).symm ▸ h
  | cons entry rest ih =>
    obtain ⟨hkey, hkeys⟩ := List.forall_mem_cons.mp hkeys
    obtain ⟨hentry, hmore⟩ := List.forall_mem_cons.mp hmore
    rw [List.append_cons]
    exact ih (h.unify hkey hstart hentry) hkeys hmore

/-- Unifying types of which each changes nothing changes nothing. -/
theorem unifyAll_of_forall (h : ∀ entry ∈ given, Merge.unify typing entry.1 entry.2 = typing) :
    Merge.unifyAll typing given = typing := by
  induction given with
  | nil => rfl
  | cons entry rest ih =>
    obtain ⟨hentry, hrest⟩ := List.forall_mem_cons.mp h
    rw [Merge.unifyAll, List.foldl_cons, hentry]
    exact ih hrest

end Taken

/-! ### Once more -/

section Again

variable {start : Typing} {given : Entries}

/-- A type and a reference that repeat no key are the same as themselves. -/
theorem sameTyping_refl {typing : Typing} (htype : ∀ value ∈ typing.1, Distinct value)
    (href : ∀ value ∈ typing.2, Distinct value) : SameTyping typing typing :=
  ⟨sameFound_refl htype, sameFound_refl href⟩

/-- Without references, it is the types that have to be the same. -/
theorem sameTyping_type_iff {type other : Json} :
    SameTyping (some type, none) (some other, none) ↔ type.same other := by
  constructor
  · rintro ⟨hsame, -⟩
    cases hsame with
    | some h => exact h
  · exact fun h => ⟨.some h, .none⟩

/-- What has been unified with a type and a reference changes them no more, unless a type was taken
over that is not plain. -/
theorem sameTyping_unifyAll_iff (hstart : ∀ old ∈ start.1.toList ++ start.2.toList, Sound old)
    (hkeys : ∀ entry ∈ given, entry.1 = typeKey ∨ entry.1 = refKey)
    (hgiven : ∀ entry ∈ given, Sound entry.2) :
    SameTyping (unifyAll (unifyAll start given) given) (unifyAll start given) ↔
      (start = (none, none) → ∀ value, given = [(typeKey, value)] → IsPlain value) := by
  have htaken : Taken start given (unifyAll start given) :=
    Taken.start.unifyAll hstart hkeys hgiven
  generalize hunified : unifyAll start given = unified at htaken
  cases htaken with
  | start =>
    refine iff_of_true (sameTyping_refl (fun value hvalue => ?_) fun value hvalue => ?_) nofun
    · exact (hstart value (List.mem_append_left _ (Option.mem_toList.mpr hvalue))).distinct
    · exact (hstart value (List.mem_append_right _ (Option.mem_toList.mpr hvalue))).distinct
  | @type hnone value hvalue =>
    have hagain : unifyAll (some value, none) [(typeKey, value)]
        = (some (typeOfAlternatives (collect [value, value])), none) := rfl
    rw [hagain, sameTyping_type_iff, same_unified_iff hvalue]
    constructor
    · rintro hplain - _ ⟨⟩
      exact hplain
    · exact fun h => h hnone value rfl
  | @reference _ ref href hsame =>
    have hagain : unifyAll (none, some ref) given = (none, some ref) :=
      unifyAll_of_forall fun entry hentry => if_pos (hsame entry hentry)
    rw [hagain]
    refine iff_of_true ⟨.none, .some (same_refl href.distinct)⟩ ?_
    rintro - value rfl
    exact absurd (hsame _ List.mem_cons_self).1 typeKey_ne_refKey
  | @types _ types hcollected hheld =>
    have hagain : unifyAll (some (typeOfAlternatives types), none) given
        = (some (typeOfAlternatives types), none) := by
      refine unifyAll_of_forall fun entry hentry => ?_
      change (some (typeOfAlternatives (collect [typeOfAlternatives types, entry.2])), none) = _
      rw [hcollected.collect_of_holds (hheld entry hentry)]
    rw [hagain]
    refine iff_of_true ⟨.some (same_refl hcollected.sound.distinct), .none⟩ ?_
    rintro rfl value rfl
    -- a single type that was taken over is what has been written
    obtain rfl : value = typeOfAlternatives types :=
      Option.some.inj (Prod.mk.inj hunified).1
    exact hcollected.isPlain

/-- Beside a type no reference is left. -/
theorem unifyAll_type_snd (type : Json) (ref : Option Json) (hne : given ≠ []) :
    (unifyAll (some type, ref) given).2 = none := by
  have hkeeps : ∀ (more : Entries) (type : Json), (unifyAll (some type, none) more).2 = none := by
    intro more
    induction more with
    | nil => exact fun _ => rfl
    | cons entry rest ih => exact fun _ => ih _
  cases given with
  | nil => exact absurd rfl hne
  | cons entry rest => exact hkeeps rest _

/-- What a schema declares is not changed by itself if it has either no type, or no reference and a
plain type. -/
theorem sameTyping_self_iff {entries : Entries} (hnodup : (Assoc.keys entries).Nodup)
    (hsound : ∀ entry ∈ contributions entries, Sound entry.2) :
    SameTyping (unifyAll (typing entries) (contributions entries)) (typing entries) ↔
      ∀ value, Assoc.find? entries typeKey = some value →
        Assoc.find? entries refKey = none ∧ IsPlain value := by
  cases htype : Assoc.find? entries typeKey with
  | none =>
    refine iff_of_true ?_ nofun
    cases href : Assoc.find? entries refKey with
    | none =>
      rw [contributions_eq_nil htype href, typing, htype, href]
      exact ⟨.none, .none⟩
    | some ref =>
      rw [contributions_of_ref hnodup htype href] at hsound ⊢
      have hrefl : ref.same ref := same_refl (hsound _ List.mem_cons_self).distinct
      have hagain : unifyAll (none, some ref) [(refKey, ref)] = (none, some ref) :=
        if_pos ⟨rfl, hrefl⟩
      rw [typing, htype, href, hagain]
      exact ⟨.none, .some hrefl⟩
  | some type =>
    cases href : Assoc.find? entries refKey with
    | none =>
      rw [contributions_of_type hnodup htype href] at hsound ⊢
      have hagain : unifyAll (some type, none) [(typeKey, type)]
          = (some (typeOfAlternatives (collect [type, type])), none) := rfl
      rw [typing, htype, href, hagain, sameTyping_type_iff,
        same_unified_iff (hsound _ List.mem_cons_self)]
      constructor
      · rintro hplain _ ⟨⟩
        exact ⟨rfl, hplain⟩
      · exact fun h => (h type rfl).2
    | some ref =>
      have hne : contributions entries ≠ [] := by
        have hmem := mem_contributions_iff.mpr ⟨Assoc.mem_of_find? htype, .inl rfl⟩
        exact List.ne_nil_of_mem hmem
      refine iff_of_false (fun hsame => ?_) fun h => absurd (h type rfl).1 nofun
      have hlost := hsame.2
      rw [typing, htype, href, unifyAll_type_snd type (some ref) hne] at hlost
      cases hlost

end Again

end SchemaClasses.Merge
