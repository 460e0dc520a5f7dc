import SchemaClasses.Proofs.Coupling.Ordered
import SchemaClasses.Proofs.Coupling.Documents
import SchemaClasses.Proofs.Flatten.Plain

/-!
# Schemas that are marked

What becomes of one schema of a document can be seen if it is marked with a keyword that nothing
depends on: a merge keeps the mark of either side. `marking` couples schemas with a mark on the left
and without one on the right. As long as a schema with the mark declares no type but `object`, the
right one declares the same, or says `object` expressly, according to `stated`; beyond that nothing
is known of its type any more.

The coupling is lawful because a type once declared is never lost: if only `object` is declared
after a merge, then neither side declared anything else (`declaresOnly_of_merge`), and what was said
of the two sides applies.
-/

namespace SchemaClasses

open Merge Json

/-! ### Types without references -/

namespace Merge

/-- The type that is left of two. -/
def unified : Option Json → Option Json → Option Json
  | some old, some new => some (typeOfAlternatives (collect [old, new]))
  | none, new => new
  | old, none => old

/-- A type that nothing is unified with stays. -/
theorem unified_none (old : Option Json) : unified old none = old := by
  cases old <;> rfl

/-- Where nothing but one text is declared, that text is left. -/
theorem collect_of_only {values : List Json} {name : String}
    (hall : ∀ value ∈ values, ∀ alternative ∈ alternatives value, alternative = .str name)
    (hmem : .str name ∈ values) : collect values = [.str name] := by
  have honly : ∀ type ∈ collect values, type = .str name := by
    intro type htype
    obtain ⟨value, hvalue, halternative⟩ := mem_collect htype
    exact hall value hvalue type halternative
  have hfound : .str name ∈ collect values :=
    mem_appendNew_str (.inr (List.mem_flatMap.mpr ⟨_, hmem, List.mem_singleton_self _⟩))
  have hdistinct : (collect values).Pairwise fun u v => u.same v = false :=
    pairwise_appendNew .nil
  cases hcollect : collect values with
  | nil => exact absurd (hcollect ▸ hfound) List.not_mem_nil
  | cons first rest =>
    rw [hcollect] at honly hdistinct
    obtain rfl := honly first List.mem_cons_self
    cases rest with
    | nil => rfl
    | cons second rest =>
      obtain rfl := honly second (List.mem_cons_of_mem _ List.mem_cons_self)
      have hdiffer := (List.pairwise_cons.mp hdistinct).1 _ List.mem_cons_self
      rw [Json.same, decide_eq_false_iff_not] at hdiffer
      exact absurd rfl hdiffer

/-- Two types that offer nothing but one name, which one of them is, are unified to that name. -/
theorem unified_of_only {old new : Option Json} {name : String}
    (hold : ∀ type, old = some type → ∀ alternative ∈ alternatives type, alternative = .str name)
    (hnew : ∀ type, new = some type → ∀ alternative ∈ alternatives type, alternative = .str name)
    (h : old = some (.str name) ∨ new = some (.str name)) :
    unified old new = some (.str name) := by
  cases old with
  | none => exact h.resolve_left fun heq => by cases heq
  | some old =>
    cases new with
    | none => exact h.resolve_right fun heq => by cases heq
    | some new =>
      have hcollect : collect [old, new] = [.str name] := by
        refine collect_of_only (fun value hvalue => ?_) ?_
        · rcases List.mem_cons.mp hvalue with rfl | hmem
          · exact hold _ rfl
          · exact List.mem_singleton.mp hmem ▸ hnew _ rfl
        · rcases h with heq | heq
          · exact Option.some.inj heq ▸ List.mem_cons_self
          · exact List.mem_cons_of_mem _ (List.mem_singleton.mpr (Option.some.inj heq).symm)
      rw [unified, hcollect]
      rfl

/-- Without a reference the new type is unified with the old one. -/
theorem find?_unifyType_typeKey {target : Entries} (value : Json)
    (htarget : (Assoc.keys target).Nodup) (href : Assoc.find? target refKey = none) :
    Assoc.find? (unifyType target typeKey value) refKey = none ∧
      Assoc.find? (unifyType target typeKey value) typeKey =
        unified (Assoc.find? target typeKey) (some value) := by
  have hne : typeKey ≠ refKey := by decide
  rw [unifyType_eq]
  unfold declared
  rw [href]
  cases htype : Assoc.find? target typeKey with
  | none => exact ⟨(Assoc.find?_insert_of_ne _ _ hne).trans href, Assoc.find?_insert_self _ _ _⟩
  | some type =>
    refine ⟨(Assoc.find?_insert_of_ne _ _ hne).trans ?_, Assoc.find?_insert_self _ _ _⟩
    exact Assoc.find?_swapErase_self (Assoc.nodup_keys_swapErase htarget _) _

/-- Without references on either side the types alone are unified. -/
theorem find?_typeKey_mergeEntries {path : SchemaPath} {target source : Entries}
    (htarget : (Assoc.keys target).Nodup) (hsource : (Assoc.keys source).Nodup)
    (hagree : (mergeEntries .keywords path target source).conflict = none)
    (href : Assoc.find? target refKey = none) (href' : Assoc.find? source refKey = none) :
    Assoc.find? (mergeEntries .keywords path target source).value refKey = none ∧
      Assoc.find? (mergeEntries .keywords path target source).value typeKey =
        unified (Assoc.find? target typeKey) (Assoc.find? source typeKey) := by
  induction source generalizing target with
  | nil =>
    rw [mergeEntries]
    exact ⟨href, (unified_none _).symm⟩
  | cons entry rest ih =>
    obtain ⟨key, value⟩ := entry
    obtain ⟨hmissing, hrest⟩ := List.nodup_cons.mp hsource
    obtain ⟨-, heq⟩ := mergeEntries_cons hagree
    rw [heq] at hagree ⊢
    have hneRef : key ≠ refKey := by
      rintro rfl
      rw [Assoc.find?, if_pos rfl] at href'
      cases href'
    rw [Assoc.find?, if_neg hneRef] at href'
    by_cases hkey : key = typeKey
    · subst hkey
      -- this is the only type of the source
      have hnone : Assoc.find? rest typeKey = none := Assoc.find?_eq_none_iff.mpr hmissing
      have hentry : mergeEntry .keywords path target typeKey value =
          ⟨unifyType target typeKey value, none⟩ := mergeEntry_of_namesType ⟨rfl, .inl rfl⟩
      have hfirst := find?_unifyType_typeKey value htarget href
      have hbetween : (Assoc.keys (mergeEntry .keywords path target typeKey value).value).Nodup :=
        nodup_keys_mergeEntry htarget
      rw [hentry] at hbetween hagree ⊢
      obtain ⟨hleft, hleft'⟩ := ih hbetween hrest hagree hfirst.1 href'
      rw [Assoc.find?, if_pos rfl]
      refine ⟨hleft, ?_⟩
      rw [hleft', hnone, unified_none, hfirst.2]
    · have htype : ¬NamesType .keywords key := fun htype => htype.2.elim hkey hneRef
      have hsame : ∀ other, key ≠ other →
          Assoc.find? (mergeEntry .keywords path target key value).value other =
            Assoc.find? target other := fun other hne => find?_mergeEntry_of_ne htype hne
      rw [Assoc.find?, if_neg hkey]
      rw [← hsame typeKey hkey]
      exact ih (nodup_keys_mergeEntry htarget) hrest hagree ((hsame refKey hneRef).trans href) href'

end Merge

/-! ### What schemas declare -/

/-- Whether the type of a schema lists no lists, and its reference is no list, is not the name
`object` and leads to a schema if it leads anywhere. -/
structure DeclaresProperly (schema : Entries) : Prop where
  /-- The type lists no lists. -/
  type_flat : ∀ type, Assoc.find? schema typeKey = some type → IsFlat type
  /-- The reference is no list. -/
  ref_flat : ∀ items, Assoc.find? schema refKey ≠ some (.arr items)
  /-- The reference is not the name of objects. -/
  ref_ne : Assoc.find? schema refKey ≠ some (.str "object")
  /-- A reference that is a pointer leads to a schema. -/
  leads : ∀ text, Assoc.find? schema refKey = some (.str text) → LeadsToSchema text

section Declares

variable {path : SchemaPath} {schema schema' target source : Entries}

/-- Whether a schema declares properly depends on its type and its reference only. -/
theorem DeclaresProperly.congr (h : DeclaresProperly schema)
    (htype : Assoc.find? schema' typeKey = Assoc.find? schema typeKey)
    (href : Assoc.find? schema' refKey = Assoc.find? schema refKey) : DeclaresProperly schema' where
  type_flat := htype ▸ h.type_flat
  ref_flat := href ▸ h.ref_flat
  ref_ne := href ▸ h.ref_ne
  leads := href ▸ h.leads

/-- Only one name is declared if and only if neither the type nor the reference offers anything
else. -/
theorem declaresOnly_iff {name : String} : DeclaresOnly name schema ↔
    (∀ type, Assoc.find? schema typeKey = some type →
      ∀ alternative ∈ alternatives type, alternative = .str name) ∧
    ∀ ref, Assoc.find? schema refKey = some ref →
      ∀ alternative ∈ alternatives ref, alternative = .str name := by
  constructor
  · exact fun h => ⟨fun type htype => h type (mem_declared.mpr (.inl htype)),
      fun ref href => h ref (mem_declared.mpr (.inr href))⟩
  · exact fun h value hvalue => (mem_declared.mp hvalue).elim (h.1 value) (h.2 value)

/-- All that is declared lists no lists. -/
theorem DeclaresProperly.isFlat (h : DeclaresProperly schema) (hnodup : (Assoc.keys schema).Nodup) :
    ∀ entry ∈ schema, entry.1 = typeKey ∨ entry.1 = refKey → IsFlat entry.2 := by
  rintro ⟨key, value⟩ hmem hkey
  have hfind := (Assoc.find?_eq_some_iff hnodup).mpr hmem
  rcases hkey with rfl | rfl
  · exact h.type_flat value hfind
  · intro alternative halternative items hitems
    subst hitems
    cases value with
    | arr others => exact h.ref_flat others hfind
    | _ => cases List.mem_singleton.mp halternative

/-- A schema that declares nothing but `object` has no reference. -/
theorem DeclaresProperly.find?_refKey (h : DeclaresProperly schema)
    (honly : DeclaresOnly "object" schema) : Assoc.find? schema refKey = none := by
  cases href : Assoc.find? schema refKey with
  | none => rfl
  | some ref =>
    have halternatives := (declaresOnly_iff.mp honly).2 ref href
    cases ref with
    | arr items => exact absurd href (h.ref_flat items)
    | _ => exact absurd (href.trans (congrArg _ (halternatives _ List.mem_cons_self))) h.ref_ne

/-- What is proper on both sides is proper after a merge. -/
theorem DeclaresProperly.merge (htarget : (Assoc.keys target).Nodup)
    (hsource : (Assoc.keys source).Nodup) (h : DeclaresProperly target)
    (h' : DeclaresProperly source)
    (hagree : (mergeEntries .keywords path target source).conflict = none) :
    DeclaresProperly (mergeEntries .keywords path target source).value := by
  have href : ∀ ref, Assoc.find? (mergeEntries .keywords path target source).value refKey =
      some ref → Assoc.find? target refKey = some ref ∨ Assoc.find? source refKey = some ref :=
    fun ref hfind => (find?_refKey_of_merge hagree hfind).imp
      (Assoc.find?_eq_some_iff htarget).mpr (Assoc.find?_eq_some_iff hsource).mpr
  refine ⟨fun type htype => ?_, fun items hfind => ?_, fun hfind => ?_, fun text hfind => ?_⟩
  · refine forall_mergeEntries (E := fun key value => key = typeKey ∨ key = refKey → IsFlat value)
      (fun _ _ _ _ hnames _ _ hkey => absurd ⟨rfl, hkey⟩ hnames) (fun _ _ _ _ _ hkey => ?_)
      (fun _ values _ hvalues _ => ?_) hagree (h.isFlat htarget) (h'.isFlat hsource) _
      (Assoc.mem_of_find? htype) (.inl rfl)
    · exact absurd hkey (by decide)
    · exact isFlat_typeOfAlternatives fun value hvalue =>
        (hvalues value hvalue).elim (fun h => h (.inl rfl)) fun h => h (.inr rfl)
  · exact (href _ hfind).elim (h.ref_flat items) (h'.ref_flat items)
  · exact (href _ hfind).elim h.ref_ne h'.ref_ne
  · exact (href _ hfind).elim (h.leads text) (h'.leads text)

/-- A reference to a schema is proper. -/
theorem declaresProperly_toPointer (hpath : keysAt path = .keywords) :
    DeclaresProperly [(refKey, .str path.toPointer)] := by
  refine ⟨fun type htype => ?_, fun items href => ?_, fun href => ?_, fun text href => ?_⟩
  · cases htype
  · cases href
  · have hdecode := path.ofPointer_toPointer
    rw [Json.str.inj (Option.some.inj href)] at hdecode
    have hmalformed : (SchemaPath.ofPointer "object").toOption = none := by decide
    rw [hdecode] at hmalformed
    cases hmalformed
  · exact Json.str.inj (Option.some.inj href) ▸ leadsToSchema_toPointer hpath

end Declares

/-! ### Coupling schemas with and without the mark -/

/-- Schemas without the mark that declare the same. -/
structure Unmarked (mark : String) (schema schema' : Entries) : Prop where
  /-- The keywords come in the same order and the types and references are the same. -/
  same : SameHeads Eq schema schema'
  /-- There is no mark. -/
  absent : Assoc.find? schema mark = none
  /-- They declare what is proper. -/
  proper : DeclaresProperly schema

/-- A schema with the mark and one without it. -/
structure Marked (stated : Bool) (mark : String) (schema schema' : Entries) : Prop where
  /-- The mark has no value. -/
  marked : Assoc.find? schema mark = some .null
  /-- The mark is missing on the right. -/
  absent : Assoc.find? schema' mark = none
  /-- What is declared on the left is proper. -/
  proper : DeclaresProperly schema
  /-- What is declared on the right is proper. -/
  proper' : DeclaresProperly schema'
  /-- As long as nothing but `object` is declared, there is no reference on the right, and the type
  is the same or `object`. -/
  only : DeclaresOnly "object" schema → Assoc.find? schema' refKey = none ∧
    Assoc.find? schema' typeKey =
      if stated then some (.str "object") else Assoc.find? schema typeKey

/-- Schemas with and without a mark. -/
def marking (stated : Bool) (mark : String) : Coupling where
  apart := [typeKey, refKey, mark]
  heads schema schema' := Unmarked mark schema schema' ∨ Marked stated mark schema schema'

/-- Equal types have the same alternatives. -/
theorem sameAlternatives_eq : SameAlternatives Eq where
  refl _ := rfl
  alternatives h := congrArg _ h

section Marking

variable {stated : Bool} {mark key : String} {path : SchemaPath}
  {schema schema' target target' source source' : Entries}

/-- A schema without the mark that declares properly may stand on both sides. -/
theorem Unmarked.refl (hproper : DeclaresProperly schema)
    (habsent : Assoc.find? schema mark = none) : Unmarked mark schema schema :=
  ⟨.refl sameAlternatives_eq schema, habsent, hproper⟩

/-- Without a mark on the left there is none on the right. -/
theorem Unmarked.absent' (h : Unmarked mark schema schema') : Assoc.find? schema' mark = none := by
  rw [Assoc.find?_eq_none_iff, ← h.same.keys_eq, ← Assoc.find?_eq_none_iff]
  exact h.absent

/-- Without the mark the types are the same. -/
theorem Unmarked.type_eq (h : Unmarked mark schema schema') :
    Assoc.find? schema typeKey = Assoc.find? schema' typeKey := by
  rcases h.same.type_cases with ⟨hnone, hnone'⟩ | ⟨_, _, htype, htype', rfl⟩
  · rw [hnone, hnone']
  · rw [htype, htype']

/-- What is declared on the right is proper as well. -/
theorem Unmarked.proper' (h : Unmarked mark schema schema') : DeclaresProperly schema' :=
  h.proper.congr h.type_eq.symm h.same.ref_eq.symm

/-- Set apart are `type`, `$ref` and the mark. -/
theorem mem_apart_marking (stated : Bool) (mark : String) :
    typeKey ∈ (marking stated mark).apart ∧ refKey ∈ (marking stated mark).apart ∧
      mark ∈ (marking stated mark).apart :=
  ⟨List.mem_cons_self, List.mem_cons_of_mem _ List.mem_cons_self,
    List.mem_cons_of_mem _ (List.mem_cons_of_mem _ List.mem_cons_self)⟩

/-- Besides the order of the keywords it only counts what stands under those that are set apart. -/
theorem Unmarked.congr {entries entries' : Entries} (h : Unmarked mark schema schema')
    (hsame : SameHeads Eq entries entries')
    (hleft : ∀ key ∈ (marking stated mark).apart,
      Assoc.find? entries key = Assoc.find? schema key) : Unmarked mark entries entries' := by
  obtain ⟨htype, href, hmark⟩ := mem_apart_marking stated mark
  exact ⟨hsame, (hleft mark hmark).trans h.absent,
    h.proper.congr (hleft typeKey htype) (hleft refKey href)⟩

/-- Whether a schema counts as marked depends only on the keywords that are set apart. -/
theorem Marked.congr {entries entries' : Entries} (h : Marked stated mark schema schema')
    (hleft : ∀ key ∈ (marking stated mark).apart, Assoc.find? entries key = Assoc.find? schema key)
    (hright : ∀ key ∈ (marking stated mark).apart,
      Assoc.find? entries' key = Assoc.find? schema' key) :
    Marked stated mark entries entries' := by
  obtain ⟨htype, href, hmark⟩ := mem_apart_marking stated mark
  refine ⟨(hleft mark hmark).trans h.marked, (hright mark hmark).trans h.absent,
    h.proper.congr (hleft _ htype) (hleft _ href),
    h.proper'.congr (hright _ htype) (hright _ href), fun honly => ?_⟩
  rw [declaresOnly_iff, hleft _ htype, hleft _ href, ← declaresOnly_iff] at honly
  rw [hright _ htype, hright _ href, hleft _ htype]
  exact h.only honly

/-- What both kinds of coupled schemas have in common. -/
theorem heads_proper (h : (marking stated mark).heads schema schema') :
    DeclaresProperly schema ∧ DeclaresProperly schema' :=
  h.elim (fun h => ⟨h.proper, h.proper'⟩) fun h => ⟨h.proper, h.proper'⟩

/-- There is never a mark on the right. -/
theorem heads_absent (h : (marking stated mark).heads schema schema') :
    Assoc.find? schema' mark = none :=
  h.elim Unmarked.absent' Marked.absent

/-- What coupled schemas declare as long as it is nothing but `object`. -/
theorem heads_only (h : (marking stated mark).heads schema schema')
    (honly : DeclaresOnly "object" schema) : Assoc.find? schema refKey = none ∧
      Assoc.find? schema' refKey = none ∧
      (Assoc.find? schema' typeKey = Assoc.find? schema typeKey ∨
        stated ∧ Assoc.find? schema' typeKey = some (.str "object")) := by
  have hnone := (heads_proper h).1.find?_refKey honly
  rcases h with h | h
  · exact ⟨hnone, h.same.ref_eq ▸ hnone, .inl h.type_eq.symm⟩
  · obtain ⟨href, htype⟩ := h.only honly
    refine ⟨hnone, href, ?_⟩
    cases stated with
    | false => exact .inl htype
    | true => exact .inr ⟨rfl, htype⟩

/-- After a merge nothing but `object` is declared only if neither side declared anything else. -/
theorem declaresOnly_of_merge_proper (htarget : (Assoc.keys target).Nodup)
    (hsource : (Assoc.keys source).Nodup) (h : DeclaresProperly target)
    (h' : DeclaresProperly source)
    (hagree : (mergeEntries .keywords path target source).conflict = none)
    (honly : DeclaresOnly "object" (mergeEntries .keywords path target source).value) :
    DeclaresOnly "object" target ∧ DeclaresOnly "object" source := by
  obtain ⟨hleft, hright⟩ :=
    declaresOnly_of_merge (h.isFlat htarget) (h'.isFlat hsource) hagree honly
  refine ⟨hleft, declaresOnly_iff.mpr ⟨fun type htype => ?_, fun ref href => ?_⟩⟩
  · exact hright _ (Assoc.mem_of_find? htype) (.inl rfl)
  · exact hright _ (Assoc.mem_of_find? href) (.inr rfl)

/-- After a merge the mark is joined from both sides like any other keyword. -/
theorem find?_mark_merge (hmark : mark ∉ typeKey :: refKey :: countedKeywords)
    (htarget : (Assoc.keys target).Nodup) (hsource : (Assoc.keys source).Nodup)
    (hagree : (mergeEntries .keywords path target source).conflict = none) :
    Assoc.find? (mergeEntries .keywords path target source).value mark =
      joined .keywords path mark (Assoc.find? target mark) (Assoc.find? source mark) := by
  refine find?_mergeEntries (fun _ => ⟨?_, ?_, ?_⟩) htarget hsource hagree <;>
  · rintro rfl
    exact hmark (by decide)

/-- A mark on either side is there after a merge. -/
theorem joined_null {old new : Option Json} (hold : old = none ∨ old = some .null)
    (hnew : new = none ∨ new = some .null) (h : old = some .null ∨ new = some .null) :
    joined .keywords path mark old new = some .null := by
  rcases hold with rfl | rfl <;> rcases hnew with rfl | rfl
  · exact h.elim id id
  · rfl
  · rfl
  · rfl

/-- What `object` is stated for has no alternative but `object`. -/
theorem eq_object_of_only {type : Json} (honly : DeclaresOnly "object" schema)
    (hcases : Assoc.find? schema' typeKey = Assoc.find? schema typeKey ∨
      stated ∧ Assoc.find? schema' typeKey = some (.str "object"))
    (htype : Assoc.find? schema' typeKey = some type) :
    ∀ alternative ∈ alternatives type, alternative = .str "object" := by
  rcases hcases with heq | ⟨-, heq⟩
  · exact (declaresOnly_iff.mp honly).1 type (heq ▸ htype)
  · obtain rfl := Option.some.inj (heq.symm.trans htype)
    exact fun _ hmem => List.mem_singleton.mp hmem

/-- A merge with a marked schema on either side leaves a marked schema. -/
theorem Marked.merge (hmark : mark ∉ typeKey :: refKey :: countedKeywords)
    (htarget : (Assoc.keys target).Nodup) (htarget' : (Assoc.keys target').Nodup)
    (hsource : (Assoc.keys source).Nodup) (hsource' : (Assoc.keys source').Nodup)
    (h : (marking stated mark).heads target target')
    (h' : (marking stated mark).heads source source')
    (hmarked : Marked stated mark target target' ∨ Marked stated mark source source')
    (hagree : (mergeEntries .keywords path target source).conflict = none)
    (hagree' : (mergeEntries .keywords path target' source').conflict = none) :
    Marked stated mark (mergeEntries .keywords path target source).value
      (mergeEntries .keywords path target' source').value := by
  refine ⟨?_, ?_, (heads_proper h).1.merge htarget hsource (heads_proper h').1 hagree,
    (heads_proper h).2.merge htarget' hsource' (heads_proper h').2 hagree', fun honly => ?_⟩
  · rw [find?_mark_merge hmark htarget hsource hagree]
    exact joined_null (h.imp Unmarked.absent Marked.marked) (h'.imp Unmarked.absent Marked.marked)
      (hmarked.imp Marked.marked Marked.marked)
  · rw [find?_mark_merge hmark htarget' hsource' hagree', heads_absent h, heads_absent h']
    rfl
  · obtain ⟨htargetOnly, hsourceOnly⟩ := declaresOnly_of_merge_proper htarget hsource
      (heads_proper h).1 (heads_proper h').1 hagree honly
    obtain ⟨href, href', htype⟩ := heads_only h htargetOnly
    obtain ⟨hsourceRef, hsourceRef', hsourceType⟩ := heads_only h' hsourceOnly
    obtain ⟨-, hleft⟩ := find?_typeKey_mergeEntries htarget hsource hagree href hsourceRef
    obtain ⟨hnone, hright⟩ :=
      find?_typeKey_mergeEntries htarget' hsource' hagree' href' hsourceRef'
    refine ⟨hnone, ?_⟩
    rw [hright]
    cases stated with
    | false =>
      have hsame : ∀ {type type' : Option Json},
          (type' = type ∨ (false = true) ∧ type' = some (.str "object")) → type' = type :=
        fun h => h.resolve_right fun hstated => Bool.false_ne_true hstated.1
      rw [hsame htype, hsame hsourceType, hleft]
      rfl
    | true =>
      -- `object` is stated on one side, and nothing else on the other one
      exact unified_of_only (fun _ => eq_object_of_only htargetOnly htype)
        (fun _ => eq_object_of_only hsourceOnly hsourceType)
        (hmarked.imp (fun hmarked => (hmarked.only htargetOnly).2)
          fun hmarked => (hmarked.only hsourceOnly).2)

/-- A reference put in place of a schema has no mark. -/
theorem find?_mark_reference (hmark : mark ∉ typeKey :: refKey :: countedKeywords) :
    Assoc.find? [(refKey, Json.str path.toPointer)] mark = none := by
  refine if_neg fun heq => hmark ?_
  exact heq ▸ List.mem_cons_of_mem _ List.mem_cons_self

/-- Merging schemas without the mark leaves schemas without the mark. -/
theorem Unmarked.merge (hmark : mark ∉ typeKey :: refKey :: countedKeywords)
    (htarget : (Assoc.keys target).Nodup) (hsource : (Assoc.keys source).Nodup)
    (h : Unmarked mark target target') (h' : Unmarked mark source source')
    (hagree : (mergeEntries .keywords path target source).conflict = none)
    (hagree' : (mergeEntries .keywords path target' source').conflict = none) :
    Unmarked mark (mergeEntries .keywords path target source).value
      (mergeEntries .keywords path target' source').value where
  same := h.same.merge sameAlternatives_eq htarget hsource h'.same hagree hagree'
  absent := by
    rw [find?_mark_merge hmark htarget hsource hagree, h.absent, h'.absent]
    rfl
  proper := h.proper.merge htarget hsource h'.proper hagree

/-- Coupling schemas with and without a mark that nothing depends on is lawful. -/
theorem lawful_marking (stated : Bool) (hmark : mark ∉ typeKey :: refKey :: countedKeywords) :
    (marking stated mark).Lawful where
  counted := by
    intro key hkey hapart
    have hplain : ∀ key ∈ countedKeywords, key ≠ typeKey ∧ key ≠ refKey := by decide
    rcases List.mem_cons.mp hapart with heq | hapart
    · exact (hplain key hkey).1 heq
    rcases List.mem_cons.mp hapart with heq | hapart
    · exact (hplain key hkey).2 heq
    · refine hmark (List.mem_cons_of_mem _ (List.mem_cons_of_mem _ ?_))
      exact List.mem_singleton.mp hapart ▸ hkey
  type_mem := (mem_apart_marking stated mark).1
  ref_mem := (mem_apart_marking stated mark).2.1
  null := by
    intro schema schema' h key hkey hname
    rw [not_or] at hname
    obtain rfl : key = mark := List.mem_singleton.mp
      (List.mem_of_ne_of_mem hname.2 (List.mem_of_ne_of_mem hname.1 hkey))
    refine ⟨fun value hvalue => ?_, fun value hvalue => ?_⟩
    · rcases h with h | h
      · cases h.absent.symm.trans hvalue
      · exact (Option.some.inj (h.marked.symm.trans hvalue)).symm
    · cases (heads_absent h).symm.trans hvalue
  insert := by
    intro schema schema' key value value' h hkey _
    have hfind : ∀ (entries : Entries) (value : Json), ∀ other ∈ (marking stated mark).apart,
        Assoc.find? (Assoc.insert entries key value) other = Assoc.find? entries other :=
      fun entries value other hother =>
        Assoc.find?_insert_of_ne _ _ fun heq => hkey (heq ▸ hother)
    obtain ⟨htype, href, -⟩ := mem_apart_marking stated mark
    have hname := Coupling.not_namesType htype href hkey
    rcases h with h | h
    · exact .inl (h.congr (h.same.insert hname value value') (hfind schema value))
    · exact .inr (h.congr (hfind schema value) (hfind schema' value'))
  swapErase := by
    intro schema schema' key hnodup hnodup' h hkey
    have hfind : ∀ {entries : Entries}, (Assoc.keys entries).Nodup →
        ∀ other ∈ (marking stated mark).apart,
          Assoc.find? (Assoc.swapErase entries key) other = Assoc.find? entries other :=
      fun hnodup other hother =>
        Assoc.find?_swapErase_of_ne hnodup fun heq => hkey (heq ▸ hother)
    obtain ⟨htype, href, -⟩ := mem_apart_marking stated mark
    have hname := Coupling.not_namesType htype href hkey
    rcases h with h | h
    · exact .inl (h.congr (h.same.swapErase hnodup hname) (hfind hnodup))
    · exact .inr (h.congr (hfind hnodup) (hfind hnodup'))
  merge := by
    intro path target target' source source' htarget htarget' hsource hsource' h h' hagree hagree'
    have hmerge := fun hmarked => Marked.merge hmark htarget htarget' hsource hsource' h h' hmarked
      hagree hagree'
    -- a merge is marked if either side is
    rcases h with h | hmarked
    · rcases h' with h' | hmarked
      · exact .inl (h.merge hmark htarget hsource h' hagree hagree')
      · exact .inr (hmerge (.inr hmarked))
    · exact .inr (hmerge (.inl hmarked))

end Marking

end SchemaClasses
