import Mathlib.Data.List.Induction
import SchemaClasses.Proofs.Merge.LookUp

/-!
# Types over a run of merges

Main statement (`unified_of_merges`): if several schemas are merged into a target one after the
other, then the types and references of all of them together, in the order in which they come, make
the type that is there in the end. Only if all of them are the same reference does it stay one.

While the run goes on the target has one of four forms: it declares nothing, it has the one type
that came so far, it has a reference that came once or several times, or it has the union of all
that came (`Unified`). One more type or reference leads from each of these forms to one of them
(`Unified.unifyType`), and all other entries leave them alone. A union that is taken up into the
next one counts there with its texts, without those that it has dropped, so it matters that nothing
changes if repetitions are dropped before (`eraseDups_append_congr`).
-/

namespace SchemaClasses.Merge

open Json

/-! ### Lists without repetitions -/

section EraseDups

variable {texts others more : List String}

/-- A text that comes last is left out if it has come before. -/
theorem eraseDups_append_singleton (texts : List String) (text : String) :
    (texts ++ [text]).eraseDups =
      if text ∈ texts then texts.eraseDups else texts.eraseDups ++ [text] := by
  rw [List.eraseDups_append]
  split_ifs with hmem
  · simp [List.removeAll, hmem]
  · simp [List.removeAll, hmem, List.eraseDups_cons]

/-- A list without its repetitions has none. -/
theorem nodup_eraseDups (texts : List String) : texts.eraseDups.Nodup := by
  induction texts using List.reverseRecOn with
  | nil => exact List.nodup_nil
  | append_singleton texts text ih =>
    rw [eraseDups_append_singleton]
    split_ifs with hmem
    · exact ih
    · refine List.nodup_append.mpr ⟨ih, List.nodup_singleton _, fun a ha b hb heq => hmem ?_⟩
      rw [← List.mem_singleton.mp hb, ← heq]
      exact List.mem_eraseDups.mp ha

/-- Of a list without repetitions nothing is dropped. -/
theorem eraseDups_eraseDups (texts : List String) :
    texts.eraseDups.eraseDups = texts.eraseDups := by
  induction texts using List.reverseRecOn with
  | nil => rfl
  | append_singleton texts text ih =>
    rw [eraseDups_append_singleton]
    split_ifs with hmem
    · exact ih
    · rw [eraseDups_append_singleton, if_neg (mt List.mem_eraseDups.mp hmem), ih]

/-- What is dropped behind a list depends on what is left of the list itself. -/
theorem eraseDups_append_congr (h : texts.eraseDups = others.eraseDups) :
    (texts ++ more).eraseDups = (others ++ more).eraseDups := by
  have hmem : ∀ text, text ∈ texts ↔ text ∈ others := fun text => by
    rw [← List.mem_eraseDups, h, List.mem_eraseDups]
  have hrest : more.removeAll texts = more.removeAll others := by
    unfold List.removeAll
    congr 1
    funext text
    simp [hmem text]
  rw [List.eraseDups_append, List.eraseDups_append, h, hrest]

/-- Nothing is left of what a list has already. -/
theorem eraseDups_append_of_subset (h : more ⊆ texts) :
    (texts ++ more).eraseDups = texts.eraseDups := by
  have hnil : more.removeAll texts = [] :=
    List.filter_eq_nil_iff.mpr fun text hmem => by simp [h hmem]
  rw [List.eraseDups_append, hnil, List.eraseDups_nil, List.append_nil]

/-- Appending the texts that a list does not have yet drops the repetitions. -/
theorem appendNew_texts (texts more : List String) :
    appendNew (texts.eraseDups.map .str) (more.map .str) =
      (texts ++ more).eraseDups.map .str := by
  induction more generalizing texts with
  | nil => rw [List.append_nil]; rfl
  | cons text rest ih =>
    have hfound : hasValue (texts.eraseDups.map .str) (.str text) = decide (text ∈ texts) := by
      rw [hasValue, List.any_map, Bool.eq_iff_iff, List.any_eq_true, decide_eq_true_iff]
      simp [Json.same, List.mem_eraseDups]
    have hfirst : appendNew (texts.eraseDups.map .str) [.str text] =
        (texts ++ [text]).eraseDups.map .str := by
      rw [appendNew, List.foldl_cons, List.foldl_nil, hfound, eraseDups_append_singleton]
      by_cases hmem : text ∈ texts <;> simp [hmem]
    rw [List.append_cons, ← ih, ← hfirst]
    rfl

end EraseDups

/-! ### Values that list texts -/

/-- Whether a value is a text or a list of texts. -/
def ListsTexts (value : Json) : Prop :=
  ∀ alternative ∈ alternatives value, ∃ text, alternative = .str text

/-- The texts that a value lists. -/
def texts (value : Json) : List String :=
  (alternatives value).filterMap text?

/-- The type with the texts of some values in the order in which they first come. -/
def union (values : List Json) : Json :=
  typeOfAlternatives ((values.flatMap texts).eraseDups.map .str)

section Texts

variable {value other : Json} {values : List Json}

/-- The alternatives of a value that lists texts are its texts. -/
theorem ListsTexts.alternatives_eq (h : ListsTexts value) :
    alternatives value = (texts value).map .str := by
  unfold ListsTexts at h
  unfold texts
  generalize alternatives value = items at h ⊢
  induction items with
  | nil => rfl
  | cons item rest ih =>
    obtain ⟨text, rfl⟩ := h item List.mem_cons_self
    rw [List.filterMap_cons]
    exact congrArg (Json.str text :: ·) (ih fun v hv => h v (List.mem_cons_of_mem _ hv))

/-- The alternatives of a union are the texts of its values, each of them once. -/
theorem alternatives_union (values : List Json) :
    alternatives (union values) = (values.flatMap texts).eraseDups.map .str := by
  refine alternatives_typeOfAlternatives fun type htype items => ?_
  obtain ⟨text, -, rfl⟩ := List.mem_map.mp htype
  exact nofun

/-- A union lists texts. -/
theorem listsTexts_union (values : List Json) : ListsTexts (union values) := by
  intro alternative h
  rw [alternatives_union] at h
  obtain ⟨text, -, rfl⟩ := List.mem_map.mp h
  exact ⟨text, rfl⟩

/-- The texts of a union are those of its values, each of them once. -/
theorem texts_union (values : List Json) :
    texts (union values) = (values.flatMap texts).eraseDups := by
  rw [texts, alternatives_union, List.filterMap_map]
  exact List.filterMap_some

/-- The alternatives that are collected from values are those of their union. -/
theorem typeOfAlternatives_collect (h : ∀ value ∈ values, ListsTexts value) :
    typeOfAlternatives (collect values) = union values := by
  have halternatives : values.flatMap alternatives = (values.flatMap texts).map .str := by
    rw [List.map_flatMap]
    exact List.flatMap_congr fun value hvalue => (h value hvalue).alternatives_eq
  rw [union, collect, halternatives]
  exact congrArg typeOfAlternatives (appendNew_texts [] _)

/-- A union counts like the values that it is made of. -/
theorem union_congr (h : (values.flatMap texts).eraseDups = (texts other).eraseDups) :
    union (other :: [value]) = union (values ++ [value]) := by
  unfold union
  rw [List.flatMap_cons, List.flatMap_append, eraseDups_append_congr h]

/-- Lists of texts are the same only if they are equal. -/
theorem sameItems_texts (some others : List String) :
    sameItems (some.map .str) (others.map .str) = decide (some = others) := by
  induction some generalizing others with
  | nil => cases others <;> rfl
  | cons text rest ih =>
    cases others with
    | nil => rfl
    | cons other more =>
      rw [List.map_cons, List.map_cons, sameItems, ih, Json.same]
      simp

/-- Two values that list texts are the same only if they are equal. -/
theorem ListsTexts.same_iff (h : ListsTexts value) (hother : ListsTexts other) :
    value.same other ↔ value = other := by
  cases value with
  | str text =>
    refine ⟨fun hsame => (eq_str_of_same hsame).symm, ?_⟩
    rintro rfl
    simp [Json.same]
  | arr items =>
    cases other with
    | arr others =>
      have hitems : items = (texts (.arr items)).map .str := h.alternatives_eq
      have hothers : others = (texts (.arr others)).map .str := hother.alternatives_eq
      rw [Json.same, hitems, hothers, sameItems_texts, decide_eq_true_iff, Json.arr.injEq]
      exact ⟨congrArg _, fun heq => List.map_injective_iff.mpr (fun _ _ => Json.str.inj) heq⟩
    | _ => simp [Json.same]
  | _ =>
    obtain ⟨text, htext⟩ := h _ List.mem_cons_self
    cases htext

end Texts

/-! ### One type or reference -/

section UnifyType

variable {target : Entries} {key : String} {value ref : Json}

/-- A target that declares nothing takes over what it is given. -/
theorem unifyType_of_none (htype : Assoc.find? target typeKey = none)
    (href : Assoc.find? target refKey = none) :
    unifyType target key value = Assoc.insert target key value := by
  simp [unifyType, htype, href]

/-- The same reference changes nothing. -/
theorem unifyType_of_same (htype : Assoc.find? target typeKey = none)
    (href : Assoc.find? target refKey = some value) (hvalue : ListsTexts value) :
    unifyType target refKey value = target := by
  simp [unifyType, htype, href, (hvalue.same_iff hvalue).mpr rfl]

/-- Anything else becomes a union with what was declared. -/
theorem find?_unifyType (hnodup : (Assoc.keys target).Nodup) {old : Json}
    (hold : declared target = [old])
    (hdiffer : key = refKey → Assoc.find? target refKey ≠ some value)
    (hlists : ListsTexts old) (hvalue : ListsTexts value) :
    Assoc.find? (unifyType target key value) typeKey = some (union [old, value]) ∧
      Assoc.find? (unifyType target key value) refKey = none := by
  have hboth : ∀ v ∈ declared target ++ [value], ListsTexts v := by
    rw [hold]
    exact List.forall_mem_cons.mpr ⟨hlists, List.forall_mem_singleton.mpr hvalue⟩
  have heq : unifyType target key value =
      Assoc.insert (Assoc.swapErase (Assoc.swapErase target typeKey) refKey) typeKey
        (union (declared target ++ [value])) := by
    rw [← typeOfAlternatives_collect hboth]
    unfold unifyType declared at *
    dsimp only
    rw [collect_append_singleton]
    cases htype : Assoc.find? target typeKey with
    | some type => rfl
    | none =>
      cases href : Assoc.find? target refKey with
      | none =>
        rw [htype, href] at hold
        cases hold
      | some ref =>
        rw [htype, href] at hold
        obtain rfl : ref = old := List.singleton_inj.mp hold
        have hsame : (decide (key = refKey) && ref.same value) = false := by
          rw [Bool.and_eq_false_iff, decide_eq_false_iff_not, Bool.eq_false_iff, ne_eq,
            hlists.same_iff hvalue, ← not_and_or]
          rintro ⟨hkey, rfl⟩
          exact hdiffer hkey href
        simp [hsame]
  rw [heq, hold]
  refine ⟨Assoc.find?_insert_self _ _ _, ?_⟩
  rw [Assoc.find?_insert_of_ne _ _ (by decide)]
  exact Assoc.find?_swapErase_self (Assoc.nodup_keys_swapErase hnodup _) _

end UnifyType

/-! ### The forms of a target -/

/-- The types and references among some entries, in order. -/
def contributions (entries : Entries) : Entries :=
  entries.filter fun entry => entry.1 = typeKey || entry.1 = refKey

/-- Whether some contributions are all the same reference. -/
def AreReference (given : Entries) (ref : Json) : Prop :=
  ∀ entry ∈ given, entry = (refKey, ref)

/-- What some contributions have made of the type and the reference of a target. -/
inductive Unified : Entries → Entries → Prop where
  /-- There were none. -/
  | nothing {target : Entries} (htype : Assoc.find? target typeKey = none)
      (href : Assoc.find? target refKey = none) : Unified [] target
  /-- There was one type. -/
  | type {target : Entries} {value : Json} (htype : Assoc.find? target typeKey = some value)
      (href : Assoc.find? target refKey = none) : Unified [(typeKey, value)] target
  /-- There was one reference, once or several times. -/
  | reference {given target : Entries} {ref : Json} (hne : given ≠ [])
      (hsame : AreReference given ref) (htype : Assoc.find? target typeKey = none)
      (href : Assoc.find? target refKey = some ref) : Unified given target
  /-- There were several of them, and different ones. -/
  | several {given target : Entries} (hmany : 2 ≤ given.length)
      (hdiffer : ∀ ref, ¬AreReference given ref)
      (htype : Assoc.find? target typeKey = some (union (given.map Prod.snd)))
      (href : Assoc.find? target refKey = none) : Unified given target

section Unified

variable {given target target' source : Entries} {key : String} {value ref : Json}
  {path : SchemaPath}

/-- The same reference has the same texts however often it comes. -/
theorem AreReference.eraseDups_eq (hne : given ≠ []) (h : AreReference given ref) :
    ((given.map Prod.snd).flatMap texts).eraseDups = (texts ref).eraseDups := by
  cases given with
  | nil => exact absurd rfl hne
  | cons entry rest =>
    obtain ⟨rfl, hrest⟩ := List.forall_mem_cons.mp h
    rw [List.map_cons, List.flatMap_cons]
    refine eraseDups_append_of_subset fun text htext => ?_
    obtain ⟨value, hvalue, htext⟩ := List.mem_flatMap.mp htext
    obtain ⟨entry, hentry, rfl⟩ := List.mem_map.mp hvalue
    obtain rfl := hrest entry hentry
    exact htext

/-- The same reference once more is the same reference all over. -/
theorem AreReference.snoc (h : AreReference given ref) :
    AreReference (given ++ [(refKey, ref)]) ref :=
  List.forall_mem_append.mpr ⟨h, List.forall_mem_singleton.mpr rfl⟩

/-- One more type or reference leads from each form to one of them. -/
theorem Unified.unifyType (h : Unified given target) (hnodup : (Assoc.keys target).Nodup)
    (hkey : key = typeKey ∨ key = refKey)
    (hlists : ∀ entry ∈ given ++ [(key, value)], ListsTexts entry.2) :
    Unified (given ++ [(key, value)]) (unifyType target key value) := by
  obtain ⟨hgiven, hvalue⟩ := List.forall_mem_append.mp hlists
  replace hvalue : ListsTexts value := hvalue _ List.mem_cons_self
  cases h with
  | nothing htype href =>
    rw [unifyType_of_none htype href]
    rcases hkey with rfl | rfl
    · refine .type (Assoc.find?_insert_self _ _ _) ?_
      rwa [Assoc.find?_insert_of_ne _ _ (by decide)]
    · refine .reference (List.cons_ne_nil _ _) (List.forall_mem_singleton.mpr rfl) ?_
        (Assoc.find?_insert_self _ _ _)
      rwa [Assoc.find?_insert_of_ne _ _ (by decide)]
  | @type _ old htype href =>
    have hdeclared : declared target = [old] := by rw [declared, htype, href]; rfl
    have hnoRef : Assoc.find? target refKey ≠ some value := by rw [href]; simp
    obtain ⟨htype', href'⟩ := find?_unifyType hnodup hdeclared (fun _ => hnoRef)
      (hgiven _ List.mem_cons_self) hvalue
    refine .several (Nat.le_refl 2) (fun ref hall => ?_) htype' href'
    have hkeys : typeKey = refKey := congrArg Prod.fst (hall _ List.mem_cons_self)
    exact absurd hkeys (by decide)
  | @reference _ _ ref hne hsame htype href =>
    by_cases hagain : key = refKey ∧ ref = value
    · obtain ⟨rfl, rfl⟩ := hagain
      rw [unifyType_of_same htype href hvalue]
      exact .reference (List.append_ne_nil_of_left_ne_nil hne _) hsame.snoc htype href
    -- another reference, or a type: from here on the target has a union
    · have hdeclared : declared target = [ref] := by rw [declared, htype, href]; rfl
      obtain ⟨entry, hentry⟩ := List.exists_mem_of_ne_nil given hne
      have hentryRef := hsame entry hentry
      have hlistsRef : ListsTexts ref := by
        have := hgiven entry hentry
        rwa [hentryRef] at this
      obtain ⟨htype', href'⟩ := find?_unifyType hnodup hdeclared
        (fun hkey heq => hagain ⟨hkey, Option.some.inj (href.symm.trans heq)⟩) hlistsRef hvalue
      have hpos := List.length_pos_iff.mpr hne
      refine .several (by rw [List.length_append, List.length_singleton]; omega) ?_ ?_ href'
      · intro other hall
        have hfirst := hentryRef.symm.trans (hall entry (List.mem_append_left _ hentry))
        have hlast := hall (key, value) (List.mem_append_right _ List.mem_cons_self)
        exact hagain ⟨congrArg Prod.fst hlast,
          (congrArg Prod.snd hfirst).trans (congrArg Prod.snd hlast).symm⟩
      · rw [htype', List.map_append]
        exact congrArg some (union_congr (hsame.eraseDups_eq hne))
  | several hmany hdiffer htype href =>
    have hdeclared : declared target = [union (given.map Prod.snd)] := by
      rw [declared, htype, href]
      rfl
    have hnoRef : Assoc.find? target refKey ≠ some value := by rw [href]; simp
    obtain ⟨htype', href'⟩ := find?_unifyType hnodup hdeclared (fun _ => hnoRef)
      (listsTexts_union _) hvalue
    refine .several ?_ (fun ref hall => hdiffer ref fun entry hentry =>
      hall entry (List.mem_append_left _ hentry)) ?_ href'
    · rw [List.length_append]
      exact Nat.le_add_right_of_le hmany
    · rw [htype', List.map_append]
      refine congrArg some (union_congr ?_)
      rw [texts_union, eraseDups_eraseDups]

/-- All other entries leave types and references alone. -/
theorem Unified.congr (h : Unified given target)
    (htype : Assoc.find? target' typeKey = Assoc.find? target typeKey)
    (href : Assoc.find? target' refKey = Assoc.find? target refKey) : Unified given target' := by
  cases h with
  | nothing htype' href' => exact .nothing (htype.trans htype') (href.trans href')
  | type htype' href' => exact .type (htype.trans htype') (href.trans href')
  | reference hne hsame htype' href' =>
    exact .reference hne hsame (htype.trans htype') (href.trans href')
  | several hmany hdiffer htype' href' =>
    exact .several hmany hdiffer (htype.trans htype') (href.trans href')

/-- What is contributed if there is one type or reference. -/
theorem contributions_eq_singleton (hnodup : (Assoc.keys target).Nodup)
    (hkey : key = typeKey ∨ key = refKey) (hvalue : Assoc.find? target key = some value)
    (hother : ∀ other, other = typeKey ∨ other = refKey → other ≠ key →
      Assoc.find? target other = none) : contributions target = [(key, value)] := by
  have hentries : (contributions target).Nodup := (List.Nodup.of_map _ hnodup).filter _
  refine List.perm_singleton.mp ((List.perm_ext_iff_of_nodup hentries
    (List.nodup_singleton _)).mpr fun entry => ?_)
  rw [List.mem_singleton, contributions, List.mem_filter, Bool.or_eq_true, decide_eq_true_iff,
    decide_eq_true_iff]
  constructor
  · rintro ⟨hmem, hentry⟩
    have hfound := (Assoc.find?_eq_some_iff hnodup).mpr hmem
    by_cases heq : entry.1 = key
    · exact Prod.ext heq (Option.some.inj ((heq ▸ hfound).symm.trans hvalue))
    · cases hfound.symm.trans (hother entry.1 hentry heq)
  · rintro rfl
    exact ⟨Assoc.mem_of_find? hvalue, hkey⟩

/-- A target without type and reference contributes nothing. -/
theorem contributions_eq_nil (htype : Assoc.find? target typeKey = none)
    (href : Assoc.find? target refKey = none) : contributions target = [] := by
  refine List.filter_eq_nil_iff.mpr fun entry hentry => ?_
  have hmem : entry.1 ∈ Assoc.keys target := Assoc.mem_keys_of_mem hentry
  rw [Bool.or_eq_true, decide_eq_true_iff, decide_eq_true_iff]
  rintro (heq | heq) <;> rw [heq] at hmem
  · exact Assoc.find?_eq_none_iff.mp htype hmem
  · exact Assoc.find?_eq_none_iff.mp href hmem

/-- A schema with a type and without reference contributes that type. -/
theorem contributions_of_type (hnodup : (Assoc.keys target).Nodup)
    (htype : Assoc.find? target typeKey = some value) (href : Assoc.find? target refKey = none) :
    contributions target = [(typeKey, value)] := by
  refine contributions_eq_singleton hnodup (.inl rfl) htype ?_
  rintro _ (rfl | rfl) hne
  · exact absurd rfl hne
  · exact href

/-- A schema with a reference and without type contributes that reference. -/
theorem contributions_of_ref (hnodup : (Assoc.keys target).Nodup)
    (htype : Assoc.find? target typeKey = none) (href : Assoc.find? target refKey = some value) :
    contributions target = [(refKey, value)] := by
  refine contributions_eq_singleton hnodup (.inr rfl) href ?_
  rintro _ (rfl | rfl) hne
  · exact htype
  · exact absurd rfl hne

/-- A target contributes what it has. -/
theorem unified_contributions (hnodup : (Assoc.keys target).Nodup)
    (hone : Assoc.find? target typeKey = none ∨ Assoc.find? target refKey = none) :
    Unified (contributions target) target := by
  cases htype : Assoc.find? target typeKey with
  | some type =>
    have href : Assoc.find? target refKey = none := hone.resolve_left (htype ▸ nofun)
    rw [contributions_of_type hnodup htype href]
    exact .type htype href
  | none =>
    cases href : Assoc.find? target refKey with
    | some ref =>
      rw [contributions_of_ref hnodup htype href]
      exact .reference (List.cons_ne_nil _ _) (List.forall_mem_singleton.mpr rfl) htype href
    | none =>
      rw [contributions_eq_nil htype href]
      exact .nothing htype href

/-- The entries of a schema contribute one after the other. -/
theorem Unified.mergeEntries (h : Unified given target) (hnodup : (Assoc.keys target).Nodup)
    (hlists : ∀ entry ∈ given ++ contributions source, ListsTexts entry.2)
    (hagree : (mergeEntries .keywords path target source).conflict = none) :
    Unified (given ++ contributions source) (mergeEntries .keywords path target source).value := by
  induction source generalizing given target with
  | nil =>
    rw [Merge.mergeEntries]
    exact (List.append_nil given).symm ▸ h
  | cons entry rest ih =>
    obtain ⟨key, value⟩ := entry
    obtain ⟨hfirst, heq⟩ := mergeEntries_cons hagree
    rw [heq] at hagree ⊢
    have hbetween : (Assoc.keys (mergeEntry .keywords path target key value).value).Nodup :=
      nodup_keys_mergeEntry hnodup
    by_cases htype : NamesType .keywords key
    · have hcontributions : contributions ((key, value) :: rest) =
          (key, value) :: contributions rest := List.filter_cons_of_pos (by simpa using htype.2)
      rw [hcontributions, List.append_cons] at hlists ⊢
      refine ih ?_ hbetween hlists hagree
      rw [mergeEntry_of_namesType htype]
      exact h.unifyType hnodup htype.2 fun entry hentry => hlists entry
        (List.mem_append_left _ hentry)
    · have hcontributions : contributions ((key, value) :: rest) = contributions rest :=
        List.filter_cons_of_neg (by simpa using fun h => htype ⟨rfl, h⟩)
      rw [hcontributions] at hlists ⊢
      refine ih (h.congr ?_ ?_) hbetween hlists hagree
      · exact find?_mergeEntry_of_ne htype fun heq => htype ⟨rfl, .inl heq⟩
      · exact find?_mergeEntry_of_ne htype fun heq => htype ⟨rfl, .inr heq⟩

end Unified

/-! ### A run of merges -/

/-- Whether merging some schemas into a target one after the other, at whatever places, meets no
disagreement and makes some result. -/
inductive Merges : Entries → List Entries → Entries → Prop where
  | nil {target : Entries} : Merges target [] target
  | cons {target source result : Entries} {sources : List Entries} (path : SchemaPath)
      (hagree : (merge target source path).conflict = none)
      (h : Merges (merge target source path).value sources result) :
      Merges target (source :: sources) result

/-- After merging some schemas, all that they contribute has been unified. -/
theorem Merges.unified {given target result : Entries} {sources : List Entries}
    (hrun : Merges target sources result) (h : Unified given target)
    (hnodup : (Assoc.keys target).Nodup)
    (hlists : ∀ entry ∈ given ++ sources.flatMap contributions, ListsTexts entry.2) :
    Unified (given ++ sources.flatMap contributions) result := by
  induction hrun generalizing given with
  | nil => exact (List.append_nil given).symm ▸ h
  | cons path hagree _ ih =>
    rw [List.flatMap_cons, ← List.append_assoc] at hlists ⊢
    exact ih (h.mergeEntries hnodup (fun entry hentry => hlists entry
      (List.mem_append_left _ hentry)) hagree) (nodup_keys_mergeEntries hagree hnodup) hlists

/-- If schemas are merged into a target one after the other, then the types and references of all
of them unify in order: the same reference stays one, and anything else becomes one type of all
texts in the order in which they first come, each of them once. -/
theorem unified_of_merges {target result : Entries} {sources : List Entries}
    (hnodup : (Assoc.keys target).Nodup)
    (hone : Assoc.find? target typeKey = none ∨ Assoc.find? target refKey = none)
    (hlists : ∀ entry ∈ contributions target ++ sources.flatMap contributions,
      ListsTexts entry.2)
    (hrun : Merges target sources result) {given : Entries}
    (hgiven : contributions target ++ sources.flatMap contributions = given) :
    (∀ ref, given ≠ [] → AreReference given ref →
      Assoc.find? result refKey = some ref ∧ Assoc.find? result typeKey = none) ∧
    (2 ≤ given.length → (∀ ref, ¬AreReference given ref) →
      Assoc.find? result refKey = none ∧ ∃ types : List String,
        Assoc.find? result typeKey = some (typeOfAlternatives (types.map .str)) ∧
        types = ((given.map Prod.snd).flatMap texts).eraseDups ∧ types.Nodup ∧
        ∀ text, text ∈ types ↔ ∃ entry ∈ given, text ∈ texts entry.2) := by
  have hunified : Unified given result := by
    subst hgiven
    exact hrun.unified (unified_contributions hnodup hone) hnodup hlists
  cases hunified with
  | nothing =>
    exact ⟨fun ref hne => absurd rfl hne, fun hmany => absurd hmany (by decide)⟩
  | type =>
    refine ⟨fun ref _ hsame => ?_, fun hmany => absurd hmany (Nat.not_succ_le_self 1)⟩
    have hkeys : typeKey = refKey := congrArg Prod.fst (hsame _ List.mem_cons_self)
    exact absurd hkeys (by decide)
  | @reference _ _ ref hne hsame htype href =>
    refine ⟨fun other _ hother => ?_, fun _ hdiffer => absurd hsame (hdiffer ref)⟩
    obtain ⟨entry, hentry⟩ := List.exists_mem_of_ne_nil given hne
    obtain rfl : ref = other :=
      congrArg Prod.snd ((hsame entry hentry).symm.trans (hother entry hentry))
    exact ⟨href, htype⟩
  | several _ hdiffer htype href =>
    refine ⟨fun ref _ hsame => absurd hsame (hdiffer ref), fun _ _ => ⟨href, _, htype, rfl,
      nodup_eraseDups _, fun text => ?_⟩⟩
    simp only [List.mem_eraseDups, List.mem_flatMap, List.mem_map]
    exact ⟨fun ⟨_, ⟨entry, hentry, heq⟩, htext⟩ => ⟨entry, hentry, heq ▸ htext⟩,
      fun ⟨entry, hentry, htext⟩ => ⟨_, ⟨entry, hentry, rfl⟩, htext⟩⟩

/-- A schema that refers to a line. -/
def line : Entries := [(refKey, .str "#/line")]

/-- A schema whose type is a line or nothing. -/
def optional : Entries := [("title", .str "t"), (typeKey, .arr [.str "null", .str "#/line"])]

/-- The outcome of merging it between two references to a line. -/
def segment : Entries := [("title", .str "t"), (typeKey, .arr [.str "#/line", .str "null"])]

/-- The reference stays while only it comes again; afterwards it is the first of the texts. -/
theorem unified_of_merges_line :
    (Merges line [line] line ∧
      Assoc.find? line refKey = some (.str "#/line") ∧ Assoc.find? line typeKey = none) ∧
    Merges line [line, optional, line] segment ∧ Assoc.find? segment refKey = none := by
  have hnodup : (Assoc.keys line).Nodup := by decide
  have hlists : ∀ entry ∈ contributions line ++ [line, optional, line].flatMap contributions,
      ListsTexts entry.2 := by
    simp [contributions, line, optional, typeKey, refKey, ListsTexts, alternatives]
  have hlistsRef : ∀ entry ∈ contributions line ++ [line].flatMap contributions,
      ListsTexts entry.2 := by
    simp [contributions, line, typeKey, refKey, ListsTexts, alternatives]
  have hagain : Merges line [line] line := .cons .root rfl .nil
  have hrun : Merges line [line, optional, line] segment :=
    .cons .root rfl (.cons .root rfl (.cons .root rfl .nil))
  have hreference : AreReference (contributions line ++ [line].flatMap contributions)
      (.str "#/line") := by
    simp [AreReference, contributions, line, typeKey, refKey]
  have hunion : ∀ ref, ¬AreReference
      (contributions line ++ [line, optional, line].flatMap contributions) ref := by
    simp [AreReference, contributions, line, optional, typeKey, refKey]
  refine ⟨⟨hagain, ?_⟩, hrun, ?_⟩
  · exact (unified_of_merges hnodup (.inl rfl) hlistsRef hagain rfl).1 _ (by decide) hreference
  · exact ((unified_of_merges hnodup (.inl rfl) hlists hrun rfl).2 (by decide) hunion).1

end SchemaClasses.Merge
