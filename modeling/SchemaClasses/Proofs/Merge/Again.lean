import SchemaClasses.Proofs.Merge.Typing

/-!
# Merging a schema once more

Main statement (`merge_again`): a schema that was merged into another one can always be merged into
the result once more. The second merge changes nothing just if all that the first one took over as
it was is written as merges write it (`Steady`): required names in order and each of them once, a
type that is plain, and no reference beside a type. This asks that no type is a list of one list
alone (`NestsNowhere`), since that list would be read as the list of types.

A value is taken over as it was if the target has nothing under its key, or something that gives way
to it (`Takes`). The second merge unites it with itself, and that leaves just the values alone that
are `Written` (`unitesAgain_self`). The union of required names has absorbed what came, and objects
that were merged are merged once more (`unitesAgain`). There are two inductions, both on the schema
that is merged: into itself (`mergesAgain_self`), and into what it was merged into before
(`mergesAgain`).
-/

namespace SchemaClasses.Merge

open Json

/-! ### What is asked of the schemas -/

/-- Whether no type or reference in a value, wherever it is read as such, is a list of one list
alone. -/
inductive NestsNowhere : Keys → Json → Prop where
  /-- An object, whose other entries are read in turn. -/
  | object {keys : Keys} {entries : Entries}
      (hunnested : ∀ key value, (key, value) ∈ entries → NamesType keys key → ¬Nests value)
      (hbelow : ∀ key value, (key, value) ∈ entries → ¬NamesType keys key →
        NestsNowhere (keys.below key) value) : NestsNowhere keys (.obj entries)
  /-- Any other value. -/
  | other {keys : Keys} {value : Json} (hvalue : value.isObject = false) : NestsNowhere keys value

/-- Whether a value lists names in order, each of them once. -/
def IsSortedNames (value : Json) : Prop :=
  ∃ names : List String, names.Pairwise (· < ·) ∧ value = .arr (names.map .str)

/-- Whether a value is written as merges write it, wherever its keys are read as keywords. -/
inductive Written : Keys → Json → Prop where
  /-- An object, whose other entries are read in turn. -/
  | object {keys : Keys} {entries : Entries}
      (htype : keys = .keywords → ∀ value, Assoc.find? entries typeKey = some value →
        Assoc.find? entries refKey = none ∧ IsPlain value)
      (hrequired : keys = .keywords → ∀ value, Assoc.find? entries "required" = some value →
        value.isObject = false → IsSortedNames value)
      (hbelow : ∀ key value, Assoc.find? entries key = some value → ¬NamesType keys key →
        Written (keys.below key) value) : Written keys (.obj entries)
  /-- Any other value. -/
  | other {keys : Keys} {value : Json} (hvalue : value.isObject = false) : Written keys value

/-- Whether a value is written as merges write it under a key. -/
def WrittenUnder (keys : Keys) (key : String) (value : Json) : Prop :=
  (keys = .keywords → key = "required" → value.isObject = false → IsSortedNames value) ∧
    Written (keys.below key) value

/-- Whether a merge takes over the value of the source as it is: what the target has under the key,
if it has anything, is not merged with it. -/
def Takes (keys : Keys) (key : String) (old : Option Json) (new : Json) : Prop :=
  ∀ value ∈ old, (value.isObject = false ∨ new.isObject = false) ∧
    (keys = .keywords → key ≠ "required")

/-- Whether all that a merge takes over from the source as it is, is written as merges write it. -/
inductive Steady : Keys → Entries → Entries → Prop where
  /-- Objects that meet are looked at in turn. -/
  | intro {keys : Keys} {target source : Entries}
      (htype : keys = .keywords → Assoc.find? target typeKey = none →
        Assoc.find? target refKey = none → Assoc.find? source refKey = none →
        ∀ value, Assoc.find? source typeKey = some value → IsPlain value)
      (htaken : ∀ key value, Assoc.find? source key = some value → ¬NamesType keys key →
        Takes keys key (Assoc.find? target key) value → WrittenUnder keys key value)
      (hmerged : ∀ key old new, Assoc.find? target key = some (.obj old) →
        Assoc.find? source key = some (.obj new) → ¬NamesType keys key →
        Steady (keys.below key) old new) : Steady keys target source

section Schemas

variable {keys : Keys} {key : String} {target source entries : Entries} {value : Json}

/-- Where a value has no nested types, neither has what stands under a key that is no type. -/
theorem NestsNowhere.of_find? (h : NestsNowhere keys (.obj entries))
    (hvalue : Assoc.find? entries key = some value) (htype : ¬NamesType keys key) :
    NestsNowhere (keys.below key) value := by
  cases h with
  | object _ hbelow => exact hbelow key value (Assoc.mem_of_find? hvalue) htype
  | other hobject => cases hobject

/-- The types and references of a schema are read without trouble. -/
theorem NestsNowhere.sound (h : NestsNowhere .keywords (.obj entries))
    (hdistinct : Distinct (.obj entries)) (hmem : (key, value) ∈ entries)
    (hkey : key = typeKey ∨ key = refKey) : Sound value where
  unnested := by
    cases h with
    | object hunnested => exact hunnested key value hmem ⟨rfl, hkey⟩
    | other hobject => cases hobject
  distinct := (hdistinct.of_mem hmem).2

/-- Where no types are nested, the types and references that a schema contributes are sound. -/
theorem NestsNowhere.sound_contributions (h : NestsNowhere .keywords (.obj entries))
    (hdistinct : Distinct (.obj entries)) : ∀ entry ∈ contributions entries, Sound entry.2 := by
  rintro ⟨key, value⟩ hentry
  obtain ⟨hmem, hkey⟩ := mem_contributions_iff.mp hentry
  exact h.sound hdistinct hmem hkey

/-- Where no types are nested, the type and the reference of a schema are sound. -/
theorem NestsNowhere.sound_typing (h : NestsNowhere .keywords (.obj entries))
    (hdistinct : Distinct (.obj entries)) :
    ∀ old ∈ (typing entries).1.toList ++ (typing entries).2.toList, Sound old := by
  intro old hold
  rcases mem_declared.mp hold with hfound | hfound
  · exact h.sound hdistinct (Assoc.mem_of_find? hfound) (.inl rfl)
  · exact h.sound hdistinct (Assoc.mem_of_find? hfound) (.inr rfl)

/-- An object is written as merges write it if its type is and all its other values are. -/
theorem written_obj_iff : Written keys (.obj entries) ↔
    (keys = .keywords → ∀ value, Assoc.find? entries typeKey = some value →
      Assoc.find? entries refKey = none ∧ IsPlain value) ∧
    ∀ key, ¬NamesType keys key →
      ∀ value ∈ Assoc.find? entries key, WrittenUnder keys key value := by
  constructor
  · intro h
    cases h with
    | object htype hrequired hbelow =>
      refine ⟨htype, fun key hkey value hvalue => ⟨?_, hbelow key value hvalue hkey⟩⟩
      rintro hkeys rfl
      exact hrequired hkeys value hvalue
    | other hobject => cases hobject
  · rintro ⟨htype, hunder⟩
    have hnotType : ¬NamesType keys "required" := fun h => h.2.elim (by decide) (by decide)
    exact .object htype (fun hkeys value hvalue => (hunder _ hnotType value hvalue).1 hkeys rfl)
      fun key value hvalue hkey => (hunder key hkey value hvalue).2

/-- Keys that are not read as names are read as keywords. -/
theorem eq_keywords_of_ne (h : keys ≠ .names) : keys = .keywords := by
  cases keys with
  | names => exact absurd rfl h
  | keywords => rfl

/-- Of objects that meet none is taken over as it is. -/
theorem Takes.not_objects {old : Option Json} (h : Takes keys key old value) {o n : Entries}
    (hold : old = some (.obj o)) : value ≠ .obj n := by
  rintro rfl
  exact (h _ hold).1.elim nofun nofun

/-- Whether a source has a type and no reference, in terms of what it contributes. -/
theorem contributions_eq_singleton_iff (hnodup : (Assoc.keys source).Nodup) :
    contributions source = [(typeKey, value)] ↔
      Assoc.find? source typeKey = some value ∧ Assoc.find? source refKey = none := by
  constructor
  · intro h
    have hmem : (typeKey, value) ∈ contributions source := h ▸ List.mem_cons_self
    refine ⟨(Assoc.find?_eq_some_iff hnodup).mpr (mem_contributions_iff.mp hmem).1, ?_⟩
    refine Option.eq_none_iff_forall_not_mem.mpr fun ref href => ?_
    have hboth : (refKey, ref) ∈ contributions source :=
      mem_contributions_iff.mpr ⟨Assoc.mem_of_find? href, .inr rfl⟩
    rw [h] at hboth
    exact typeKey_ne_refKey (Prod.mk.inj (List.mem_singleton.mp hboth)).1.symm
  · rintro ⟨htype, href⟩
    exact contributions_of_type hnodup htype href

/-- A merge is steady if the type of the source and all other values that it takes over are written
as merges write them. -/
theorem steady_iff (hnodup : (Assoc.keys source).Nodup) : Steady keys target source ↔
    (keys = .keywords → typing target = (none, none) →
      ∀ value, contributions source = [(typeKey, value)] → IsPlain value) ∧
    ∀ key, ¬NamesType keys key → ∀ value ∈ Assoc.find? source key,
      (Takes keys key (Assoc.find? target key) value → WrittenUnder keys key value) ∧
      ∀ old new, Assoc.find? target key = some (.obj old) → value = .obj new →
        Steady (keys.below key) old new := by
  constructor
  · rintro ⟨htype, htaken, hmerged⟩
    refine ⟨fun hkeys hnone value hvalue => ?_, fun key hkey value hvalue => ⟨?_, ?_⟩⟩
    · obtain ⟨htarget, htarget'⟩ := Prod.mk.inj hnone
      obtain ⟨hfound, href⟩ := (contributions_eq_singleton_iff hnodup).mp hvalue
      exact htype hkeys htarget htarget' href value hfound
    · exact htaken key value hvalue hkey
    · rintro old new hold rfl
      exact hmerged key old new hold hvalue hkey
  · rintro ⟨htype, hunder⟩
    refine .intro (fun hkeys htarget htarget' href value hvalue => ?_) ?_ ?_
    · exact htype hkeys (Prod.ext htarget htarget') value
        ((contributions_eq_singleton_iff hnodup).mpr ⟨hvalue, href⟩)
    · exact fun key value hvalue hkey => (hunder key hkey value hvalue).1
    · exact fun key old new hold hnew hkey => (hunder key hkey _ hnew).2 old new hold rfl

end Schemas

/-! ### Required names -/

section Required

variable {names : List String} {value : Json}

/-- Only a list of names itself is the same as it. -/
theorem eq_of_same_names (h : (Json.arr (names.map .str)).same value) :
    value = .arr (names.map .str) := by
  cases value with
  | arr items =>
    obtain ⟨hlength, hall⟩ := same_arr.mp h
    refine congrArg Json.arr (List.ext_getElem hlength.symm fun index hitem hname => ?_)
    have hsame := hall index _ _ (List.getElem?_eq_getElem hname) (List.getElem?_eq_getElem hitem)
    rw [List.getElem_map] at hsame ⊢
    exact eq_str_of_same hsame
  | _ => simp [same] at h

/-- Required names that are united with themselves stay the same just if they are in order, each of
them once. -/
theorem same_unionRequired_self_iff : (unionRequired value value).same value ↔
    IsSortedNames value := by
  constructor
  · intro h
    exact ⟨_, pairwise_sorted _, eq_of_same_names h⟩
  · rintro ⟨names, hsorted, rfl⟩
    have hnames : requiredNames (.arr (names.map .str)) = names := by
      rw [requiredNames, List.filterMap_map]
      exact List.filterMap_some
    have hunion : (names ++ names).foldr insertName [] = names :=
      (pairwise_sorted _).eq_of_mem_iff hsorted fun name => by
        rw [mem_sorted_iff, List.mem_append, or_self]
    have heq : unionRequired (.arr (names.map .str)) (.arr (names.map .str)) =
        .arr (names.map .str) := by
      rw [unionRequired, hnames, hunion]
    have hrefl := same_refl (distinct_unionRequired (.arr (names.map .str)) (.arr (names.map .str)))
    rwa [heq] at hrefl ⊢

/-- A union absorbs what it was made of. -/
theorem unionRequired_absorb (old new : Json) :
    unionRequired (unionRequired old new) new = unionRequired old new :=
  unionRequired_congr fun name => by
    rw [mem_requiredNames_unionRequired, or_assoc, or_self]

end Required

/-! ### Once more, key by key -/

/-- Whether a source can be merged into a target and, if `unnested` holds, changes nothing just if
`unchanged` does. -/
def MergesAgain (keys : Keys) (path : SchemaPath) (target source : Entries)
    (unnested unchanged : Prop) : Prop :=
  ∃ again, (mergeEntries keys path target source).result? = some again ∧
    (unnested → ((Json.obj again).same (.obj target) ↔ unchanged))

/-- Whether that is so for the values under a key. -/
def UnitesAgain (keys : Keys) (path : SchemaPath) (key : String) (found new : Option Json)
    (unnested unchanged : Prop) : Prop :=
  ∃ again, unite keys path key found new = some again ∧
    (unnested → (SameFound again found ↔ unchanged))

section Again

variable {keys : Keys} {path : SchemaPath} {key : String} {target source : Entries}
  {F F' U U' : Prop} {found : Option Json} {value new : Json}

/-- What is said of merging again under one condition holds under any stronger one. -/
theorem MergesAgain.mono (h : MergesAgain keys path target source F U)
    (hF : F' → F) : MergesAgain keys path target source F' U :=
  h.imp fun _ hagain => hagain.imp_right fun hiff hF' => hiff (hF hF')

/-- In what is said of merging again, conditions that come to the same may be put for each other. -/
theorem MergesAgain.congr (h : MergesAgain keys path target source F U)
    (hiff : F → (U ↔ U')) :
    MergesAgain keys path target source F U' :=
  h.imp fun _ hagain => hagain.imp_right fun hsame hF => (hsame hF).trans (hiff hF)

/-- In what is said of uniting again, conditions that come to the same may be put for each other. -/
theorem UnitesAgain.congr (h : UnitesAgain keys path key found (some new) F U)
    (hiff : U ↔ U') :
    UnitesAgain keys path key found (some new) F U' :=
  h.imp fun _ hagain => hagain.imp_right fun hsame hF => (hsame hF).trans hiff

/-- Objects under a key unite again as their entries merge again. -/
theorem UnitesAgain.of_objects
    (h : MergesAgain (keys.below key) (path.child key) target source F U) :
    UnitesAgain keys path key (some (.obj target)) (some (.obj source)) F U := by
  obtain ⟨again, hagain, hiff⟩ := h
  refine ⟨some (.obj again), by rw [unite, hagain, Option.map_some], fun hnowhere => ?_⟩
  rw [SameFound, Option.rel_some_some, hiff hnowhere]

/-- A value that is left as it is. -/
theorem UnitesAgain.of_eq {again : Option Json}
    (h : unite keys path key again (some new) = some again)
    (hdistinct : ∀ value ∈ again, Distinct value) (hunchanged : U) :
    UnitesAgain keys path key again (some new) F U :=
  ⟨again, h, fun _ => iff_of_true (sameFound_refl hdistinct) hunchanged⟩

/-- A merge changes nothing if it changes neither the type and the reference nor the value under any
other key. -/
theorem mergesAgain_of_unitesAgain {U : String → Prop} (htarget : Distinct (.obj target))
    (hsource : Distinct (.obj source))
    (h : ∀ key, ¬NamesType keys key → UnitesAgain keys path key (Assoc.find? target key)
      (Assoc.find? source key) F (U key)) :
    MergesAgain keys path target source F
      ((keys = .keywords → SameTyping (unifyAll (typing target) (contributions source))
        (typing target)) ∧ ∀ key, ¬NamesType keys key → U key) := by
  obtain ⟨again, hagain⟩ := exists_result_of_unite htarget.nodup hsource.nodup fun key htype =>
    (h key htype).imp fun _ => And.left
  have hdistinct := distinct_mergeEntries hagain htarget hsource
  refine ⟨again, hagain, fun hnowhere => ?_⟩
  -- under every other key the value that is left is the one that is united
  have hother : ∀ key, ¬NamesType keys key →
      (SameFound (Assoc.find? again key) (Assoc.find? target key) ↔ U key) := by
    intro key htype
    obtain ⟨found, hfound, hiff⟩ := h key htype
    rw [unite_of_result htarget.nodup hsource.nodup hagain htype] at hfound
    exact Option.some.inj hfound ▸ hiff hnowhere
  have htyping : keys = .keywords →
      typing again = unifyAll (typing target) (contributions source) := by
    rintro rfl
    obtain ⟨hagree, rfl⟩ := result?_eq_some.mp hagain
    exact typing_mergeEntries htarget.nodup hagree
  rw [same_obj_iff_find? hdistinct.nodup htarget.nodup]
  constructor
  · intro hall
    exact ⟨fun hkeys => htyping hkeys ▸ ⟨hall typeKey, hall refKey⟩,
      fun key htype => (hother key htype).mp (hall key)⟩
  · rintro ⟨htypes, hothers⟩ key
    by_cases htype : NamesType keys key
    · have hsame := htypes htype.1
      rw [← htyping htype.1] at hsame
      rcases htype.2 with rfl | rfl
      · exact hsame.1
      · exact hsame.2
    · exact (hother key htype).mpr (hothers key htype)

/-! ### A value that meets itself -/

/-- A value that is united with itself stays the same just if it is written as merges write it. -/
theorem unitesAgain_self (hdistinct : Distinct value)
    (hobject : ∀ entries, value = .obj entries → MergesAgain (keys.below key) (path.child key)
      entries entries F (Written (keys.below key) value)) :
    UnitesAgain keys path key (some value) (some value) F (WrittenUnder keys key value) := by
  cases hvalue : value.isObject with
  | true =>
    obtain ⟨entries, rfl⟩ := exists_of_isObject hvalue
    refine (UnitesAgain.of_objects (hobject entries rfl)).congr ?_
    exact ⟨fun h => ⟨nofun, h⟩, And.right⟩
  | false =>
    have hother : ∀ entries schema, value = .obj entries → value ≠ .obj schema := by
      rintro entries _ rfl
      cases hvalue
    have hwritten : Written (keys.below key) value := .other hvalue
    have hrefl : value.same value := same_refl hdistinct
    have hunite : unite keys path key (some value) (some value) = _ := unite_of_not_objects hother
    have hleft : ∀ v ∈ some value, Distinct v := fun v hv => Option.some.inj hv ▸ hdistinct
    by_cases hkeys : keys = .names
    · rw [if_pos hkeys] at hunite
      subst hkeys
      exact .of_eq hunite hleft ⟨nofun, hwritten⟩
    · rw [if_neg hkeys] at hunite
      by_cases hrequired : key = "required"
      · rw [if_pos hrequired] at hunite
        refine ⟨_, hunite, fun _ => ?_⟩
        rw [SameFound, Option.rel_some_some, same_unionRequired_self_iff]
        exact ⟨fun h => ⟨fun _ _ _ => h, hwritten⟩,
          fun h => h.1 (eq_keywords_of_ne hkeys) hrequired hvalue⟩
      · rw [if_neg hrequired, hrefl, Bool.not_true, Bool.and_false, if_neg Bool.false_ne_true]
          at hunite
        exact .of_eq hunite hleft ⟨fun _ h => absurd h hrequired, hwritten⟩

/-- An object that is merged into itself stays the same just if it is written as merges write it. -/
theorem mergesAgain_self {value : Json} : ∀ {keys : Keys} {entries : Entries},
    value = .obj entries → Distinct value → ∀ path, MergesAgain keys path entries entries
      (NestsNowhere keys value) (Written keys value) := by
  induction value using Json.induction with
  | obj entries ih =>
    rintro keys _ ⟨⟩ hdistinct path
    refine (mergesAgain_of_unitesAgain (U := fun key => ∀ value ∈ Assoc.find? entries key,
      WrittenUnder keys key value) hdistinct hdistinct fun key htype => ?_).congr fun hnowhere => ?_
    · cases hvalue : Assoc.find? entries key with
      | none => exact ⟨none, rfl, fun _ => iff_of_true .none nofun⟩
      | some value =>
        have hinner : Distinct value := hdistinct.of_find? hvalue
        have hself := unitesAgain_self (F := NestsNowhere keys (.obj entries)) hinner
          fun inner heq => (ih (key, value) (Assoc.mem_of_find? hvalue) heq hinner
            (path.child key)).mono fun h => h.of_find? hvalue htype
        exact hself.congr ⟨fun h _ hmem => Option.some.inj hmem ▸ h, fun h => h value rfl⟩
    · rw [written_obj_iff]
      refine and_congr_left fun _ => forall_congr' ?_
      rintro rfl
      exact sameTyping_self_iff hdistinct.nodup (hnowhere.sound_contributions hdistinct)
  | _ => exact nofun

/-! ### A value that was merged before -/

/-- What becomes of a value that comes in: it is taken over as it is, merged with an object, or
united with required names. -/
theorem unite_eq_some {old : Option Json} (h : unite keys path key old (some new) = some found) :
    (Takes keys key old new ∧ found = some new) ∨
    (∃ o n between, old = some (.obj o) ∧ new = .obj n ∧
      (mergeEntries (keys.below key) (path.child key) o n).result? = some between ∧
      found = some (.obj between)) ∨
    ∃ value, old = some value ∧ (value.isObject = false ∨ new.isObject = false) ∧
      keys = .keywords ∧ key = "required" ∧ found = some (unionRequired value new) := by
  rcases old with - | old
  · rw [none_unite] at h
    exact .inl ⟨nofun, (Option.some.inj h).symm⟩
  by_cases hboth : ∃ o n, old = .obj o ∧ new = .obj n
  · obtain ⟨o, n, rfl, rfl⟩ := hboth
    obtain ⟨between, hbetween, rfl⟩ := Option.map_eq_some_iff.mp h
    exact .inr (.inl ⟨o, n, between, rfl, rfl, hbetween, rfl⟩)
  have hkind : old.isObject = false ∨ new.isObject = false := by
    by_contra hneither
    rw [not_or, Bool.not_eq_false, Bool.not_eq_false] at hneither
    obtain ⟨o, ho⟩ := exists_of_isObject hneither.1
    obtain ⟨n, hn⟩ := exists_of_isObject hneither.2
    exact hboth ⟨o, n, ho, hn⟩
  have htaken : (keys = .keywords → key ≠ "required") → Takes keys key (some old) new := by
    rintro hkey _ ⟨⟩
    exact ⟨hkind, hkey⟩
  rw [unite_of_not_objects fun o n ho hn => hboth ⟨o, n, ho, hn⟩] at h
  split_ifs at h with hnames hrequired
  · exact .inl ⟨htaken fun hkeys => absurd (hnames.symm.trans hkeys) nofun,
      (Option.some.inj h).symm⟩
  · exact .inr (.inr ⟨old, rfl, hkind, eq_keywords_of_ne hnames, hrequired,
      (Option.some.inj h).symm⟩)
  · exact .inl ⟨htaken fun _ => hrequired, (Option.some.inj h).symm⟩

/-- A value that was united with another one is united with the result once more. This changes
nothing just if the value was not taken over as it was, or is written as merges write it, and the
same holds of objects that were merged. -/
theorem unitesAgain {old : Option Json} (hnew : Distinct new)
    (hfound : unite keys path key old (some new) = some found)
    (hself : ∀ entries, new = .obj entries → MergesAgain (keys.below key) (path.child key)
      entries entries F (Written (keys.below key) new))
    (hobjects : ∀ o n between, old = some (.obj o) → new = .obj n →
      (mergeEntries (keys.below key) (path.child key) o n).result? = some between →
      MergesAgain (keys.below key) (path.child key) between n F
        (Steady (keys.below key) o n)) :
    UnitesAgain keys path key found (some new) F
      ((Takes keys key old new → WrittenUnder keys key new) ∧
        ∀ o n, old = some (.obj o) → new = .obj n → Steady (keys.below key) o n) := by
  rcases unite_eq_some hfound with ⟨htakes, rfl⟩ | ⟨o, n, between, rfl, rfl, hbetween, rfl⟩ |
    ⟨value, rfl, hkind, rfl, rfl, rfl⟩
  · refine (unitesAgain_self hnew hself).congr ⟨fun h => ⟨fun _ => h, ?_⟩, fun h => h.1 htakes⟩
    exact fun o n ho hn => absurd hn (htakes.not_objects ho)
  · refine (UnitesAgain.of_objects (hobjects o n between rfl rfl hbetween)).congr ⟨fun h => ?_, ?_⟩
    · refine ⟨fun htakes => absurd rfl (htakes.not_objects rfl), ?_⟩
      rintro _ _ ⟨⟩ ⟨⟩
      exact h
    · exact fun h => h.2 o n rfl rfl
  · have hunion : ∀ entries schema, unionRequired value new = .obj entries → new ≠ .obj schema :=
      nofun
    refine .of_eq ?_ ?_ ⟨fun htakes => absurd rfl ((htakes value rfl).2 rfl), ?_⟩
    · rw [unite_of_not_objects hunion, if_neg (by decide), if_pos rfl, unionRequired_absorb]
    · rintro _ ⟨⟩
      exact distinct_unionRequired _ _
    · rintro o n ⟨⟩ rfl
      exact hkind.elim nofun nofun

/-- An object that was merged into another one can be merged into the result once more. -/
theorem mergesAgain {source : Json} : ∀ {keys : Keys} {target entries between : Entries},
    source = .obj entries → Distinct (.obj target) → Distinct source → ∀ path,
    (mergeEntries keys path target entries).result? = some between →
    MergesAgain keys path between entries
      (NestsNowhere keys (.obj target) ∧ NestsNowhere keys source)
      (Steady keys target entries) := by
  induction source using Json.induction with
  | obj entries ih =>
    rintro keys target _ between ⟨⟩ htarget hsource path hbetween
    have hdistinct := distinct_mergeEntries hbetween htarget hsource
    refine (mergesAgain_of_unitesAgain (U := fun key => ∀ value ∈ Assoc.find? entries key,
      (Takes keys key (Assoc.find? target key) value → WrittenUnder keys key value) ∧
      ∀ old new, Assoc.find? target key = some (.obj old) → value = .obj new →
        Steady (keys.below key) old new) hdistinct hsource fun key htype => ?_).congr
      fun hnowhere => ?_
    · have hfound := unite_of_result htarget.nodup hsource.nodup hbetween htype
      cases hvalue : Assoc.find? entries key with
      | none =>
        exact ⟨_, unite_none _, fun _ => iff_of_true
          (sameFound_refl fun value hvalue => hdistinct.of_find? hvalue) nofun⟩
      | some value =>
        rw [hvalue] at hfound
        have hnew : Distinct value := hsource.of_find? hvalue
        have hbelow := fun (h : NestsNowhere keys (.obj entries)) => h.of_find? hvalue htype
        have hagain := unitesAgain (F := NestsNowhere keys (.obj target) ∧
            NestsNowhere keys (.obj entries)) hnew hfound
          (fun inner hinner => (mergesAgain_self hinner hnew _).mono fun h => hbelow h.2)
          fun o n between ho hn hmerged => (ih (key, value) (Assoc.mem_of_find? hvalue) hn
            (htarget.of_find? ho) hnew _ hmerged).mono fun h =>
              ⟨h.1.of_find? ho htype, hbelow h.2⟩
        exact hagain.congr ⟨fun h _ hmem => Option.some.inj hmem ▸ h, fun h => h value rfl⟩
    · rw [steady_iff hsource.nodup]
      refine and_congr_left fun _ => forall_congr' ?_
      rintro rfl
      obtain ⟨hagree, rfl⟩ := result?_eq_some.mp hbetween
      rw [typing_mergeEntries htarget.nodup hagree]
      refine sameTyping_unifyAll_iff (hnowhere.1.sound_typing htarget) (fun entry hentry => ?_)
        (hnowhere.2.sound_contributions hsource)
      exact (mem_contributions_iff.mp hentry).2
  | _ => exact nofun

end Again

/-! ### Merging twice -/

/-- A schema that was merged into another one can be merged into the result once more. If no type is
a list of one list alone, this leaves the result alone just if all that was taken over as it was is
written as merges write it. -/
theorem merge_again {target source : Entries} (htarget : (Json.obj target).wellFormed)
    (hsource : (Json.obj source).wellFormed) (path : SchemaPath)
    (hmerge : (merge target source path).conflict = none) :
    (merge (merge target source path).value source path).conflict = none ∧
    (NestsNowhere .keywords (.obj target) → NestsNowhere .keywords (.obj source) →
      ((Json.obj (merge (merge target source path).value source path).value).same
        (.obj (merge target source path).value) ↔ Steady .keywords target source)) := by
  have hdistinct : ∀ {value : Json}, value.wellFormed → Distinct value := fun h =>
    throughout_of_wellFormed h fun _ _ _ _ _ => trivial
  obtain ⟨again, hagain, hiff⟩ := mergesAgain rfl (hdistinct htarget) (hdistinct hsource) path
    (result?_eq_some.mpr ⟨hmerge, rfl⟩)
  obtain ⟨hagree, rfl⟩ := result?_eq_some.mp hagain
  exact ⟨hagree, fun hnowhere hnowhere' => hiff ⟨hnowhere, hnowhere'⟩⟩

/-- A schema that asks for names, in order. -/
def tagged : Entries :=
  [("required", .arr [.str "b"]), (typeKey, .str "string")]

/-- One that asks for more names, not in order, and has one more type. -/
def retagged : Entries :=
  [(typeKey, .arr [.str "null", .str "string"]), ("required", .arr [.str "c", .str "a"]),
    ("title", .str "t")]

/-- Merged into the first one twice, the second one changes nothing but the first time. -/
theorem merge_again_tagged :
    (merge tagged retagged .root).conflict = none ∧
    (merge (merge tagged retagged .root).value retagged .root).conflict = none ∧
    (Json.obj (merge (merge tagged retagged .root).value retagged .root).value).same
      (.obj (merge tagged retagged .root).value) := by
  have hnowhere : NestsNowhere .keywords (.obj tagged) := by
    refine .object (fun key value hentry _ => ?_) fun key value hentry _ => ?_
    · rcases List.mem_pair.mp hentry with heq | heq <;> obtain ⟨-, rfl⟩ := Prod.mk.inj heq <;>
        simp [Nests, alternatives, same]
    · rcases List.mem_pair.mp hentry with heq | heq <;> obtain ⟨-, rfl⟩ := Prod.mk.inj heq <;>
        exact .other rfl
  have hentries : ∀ key value, (key, value) ∈ retagged →
      value = .arr [.str "null", .str "string"] ∨ value = .arr [.str "c", .str "a"] ∨
        value = .str "t" := by
    intro key value hentry
    simp only [retagged, List.mem_cons, Prod.mk.injEq, List.not_mem_nil, or_false] at hentry
    exact hentry.imp And.right (Or.imp And.right And.right)
  have hnowhere' : NestsNowhere .keywords (.obj retagged) := by
    refine .object (fun key value hentry _ => ?_) fun key value hentry _ => ?_
    · rcases hentries key value hentry with rfl | rfl | rfl <;> simp [Nests, alternatives, same]
    · rcases hentries key value hentry with rfl | rfl | rfl <;> exact .other rfl
  have hsteady : Steady .keywords tagged retagged := by
    refine .intro (fun _ h => absurd h (by decide)) (fun key value hvalue _ htakes => ?_) ?_
    · refine ⟨fun _ hrequired => ?_, ?_⟩
      · -- the names are not taken over, they are united
        subst hrequired
        exact absurd rfl ((htakes _ rfl).2 rfl)
      · rcases hentries key value (Assoc.mem_of_find? hvalue) with rfl | rfl | rfl <;>
          exact .other rfl
    · intro key old new _ hnew
      rcases hentries key _ (Assoc.mem_of_find? hnew) with heq | heq | heq <;> cases heq
  have htagged : (Json.obj tagged).wellFormed := by decide
  have hretagged : (Json.obj retagged).wellFormed := by decide
  obtain ⟨hagain, hiff⟩ := merge_again htagged hretagged .root rfl
  exact ⟨rfl, hagain, (hiff hnowhere hnowhere').mpr hsteady⟩

/-- A schema that asks for two names. -/
def asking (first second : String) : Entries :=
  [("required", .arr [.str first, .str second])]

/-- A schema with a list of types. -/
def typed (types : List Json) : Entries :=
  [(typeKey, .arr types)]

/-- Names that are taken over as they are get into order when they come once more. A list that is
the only alternative is taken for the list of types itself, so it comes in once more even if nothing
was taken over as it is. -/
theorem merge_again_changes :
    (merge [] (asking "b" "a") .root = ⟨asking "b" "a", none⟩ ∧
      merge (asking "b" "a") (asking "b" "a") .root = ⟨asking "a" "b", none⟩ ∧
      ¬(Json.obj (asking "a" "b")).same (.obj (asking "b" "a"))) ∧
    Steady .keywords (typed []) (typed [.arr [.str "a"]]) ∧
      merge (typed []) (typed [.arr [.str "a"]]) .root = ⟨typed [.str "a"], none⟩ ∧
      merge (typed [.str "a"]) (typed [.arr [.str "a"]]) .root =
        ⟨typed [.str "a", .arr [.str "a"]], none⟩ ∧
      ¬(Json.obj (typed [.str "a", .arr [.str "a"]])).same (.obj (typed [.str "a"])) := by
  have hsteady : Steady .keywords (typed []) (typed [.arr [.str "a"]]) := by
    refine .intro (fun _ h => absurd h (by decide)) (fun key value hvalue htype => ?_) ?_
    · obtain ⟨rfl, -⟩ := Prod.mk.inj (List.mem_singleton.mp (Assoc.mem_of_find? hvalue))
      exact absurd ⟨rfl, .inl rfl⟩ htype
    · intro key old new hold
      cases (Prod.mk.inj (List.mem_singleton.mp (Assoc.mem_of_find? hold))).2
  exact ⟨⟨rfl, rfl, by decide⟩, hsteady, rfl, rfl, by decide⟩

end SchemaClasses.Merge
