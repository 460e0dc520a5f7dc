import SchemaClasses.Proofs.Flatten.CombinerFree
import SchemaClasses.Proofs.Flatten.Growth
import SchemaClasses.Proofs.Flatten.Plain
import SchemaClasses.Proofs.Json.Throughout

/-!
# What shape the listed schemas have

Only object schemas are listed, but a schema is classified before its combiners are folded, and what
stays in place is merged as it is: a member that is an array or a primitive brings its type along,
and a member of a shape that is not walked brings its own combiners along
(`not_isObjectShaped_blends`).

Main statement (`isObjectShaped_of_flattenWithin`): apart from that, no listed schema has the type
of an array or a primitive, and none has a combiner left. It is enough that whatever a member of a
combiner comes to has a type that leaves more than one of these types open, and has combiners only
where they are folded. Types that leave more open do so together as well, so the condition is kept
when they are unified (`isOpenType_typeOfAlternatives`).
-/

namespace SchemaClasses.Flatten

open Merge Json

/-! ### Types -/

/-- The types of arrays and of values without parts. -/
def plainTypes : List String :=
  ["array", "string", "integer", "number", "boolean", "null"]

/-- Whether all that a type lists is one text. -/
def listsOnly (name : String) (type : Json) : Bool :=
  (alternatives type).all fun alternative => alternative.text? = some name

/-- Whether a type has no lists in its list and, if it lists anything, says more than that a value
is of one plain type. -/
def isOpenType (type : Json) : Bool :=
  ((alternatives type).all fun alternative => !isArray alternative) &&
    plainTypes.all fun name => !listsOnly name type || (alternatives type).isEmpty

/-- A type lists one text only if none of its alternatives is anything else. -/
theorem listsOnly_iff {name : String} {type : Json} :
    listsOnly name type ↔ ∀ alternative ∈ alternatives type, alternative = .str name := by
  rw [listsOnly, List.all_eq_true]
  refine forall₂_congr fun alternative _ => ?_
  rw [decide_eq_true_eq]
  cases alternative with
  | str text => simp only [Json.text?, Option.some.injEq, Json.str.injEq]
  | _ => exact ⟨nofun, nofun⟩

/-- An open type is flat and lists no plain type as its only alternative. -/
theorem isOpenType_iff {type : Json} : isOpenType type ↔ IsFlat type ∧
    ∀ name ∈ plainTypes, (∀ alternative ∈ alternatives type, alternative = .str name) →
      alternatives type = [] := by
  have hflat : ((alternatives type).all fun alternative => !isArray alternative) = true ↔
      IsFlat type := by
    rw [List.all_eq_true]
    refine forall₂_congr fun alternative _ => ?_
    cases alternative with
    | arr items => exact ⟨nofun, fun h => absurd rfl (h items)⟩
    | _ => exact ⟨fun _ => nofun, fun _ => rfl⟩
  rw [isOpenType, Bool.and_eq_true, hflat, List.all_eq_true]
  refine and_congr_right fun _ => forall₂_congr fun name _ => ?_
  rw [Bool.or_eq_true, Bool.not_eq_true', List.isEmpty_iff, ← listsOnly_iff, Bool.eq_false_iff,
    imp_iff_not_or, ne_eq]

/-- No single plain type leaves anything open. -/
theorem ne_str_of_isOpenType {type : Json} (h : isOpenType type) {name : String}
    (hname : name ∈ plainTypes) : type ≠ .str name := by
  rintro rfl
  have hnil := (isOpenType_iff.mp h).2 name hname fun _ hmem => List.mem_singleton.mp hmem
  exact absurd hnil (List.cons_ne_nil _ _)

/-- A value that is not a list and none of the plain types leaves more open. -/
theorem isOpenType_of_ne {type : Json} (harray : ∀ items, type ≠ .arr items)
    (hplain : ∀ name ∈ plainTypes, type ≠ .str name) : isOpenType type := by
  have halternatives : alternatives type = [type] := by
    cases type with
    | arr items => exact absurd rfl (harray items)
    | _ => rfl
  refine isOpenType_iff.mpr ⟨fun alternative hmem => ?_, fun name hname hall => ?_⟩
  · rw [halternatives] at hmem
    exact List.mem_singleton.mp hmem ▸ harray
  · rw [halternatives] at hall
    exact absurd (hall type List.mem_cons_self) (hplain name hname)

/-- A pointer is an open type. -/
theorem isOpenType_toPointer (path : SchemaPath) : isOpenType (.str path.toPointer) := by
  refine isOpenType_of_ne nofun fun name hname heq => ?_
  have hdecode := path.ofPointer_toPointer
  rw [Json.str.inj heq] at hdecode
  have hmalformed : ∀ name ∈ plainTypes, (SchemaPath.ofPointer name).toOption = none := by decide
  have hnone := hmalformed name hname
  rw [hdecode] at hnone
  cases hnone

/-- A type that is unified from such types is one. -/
theorem isOpenType_typeOfAlternatives {types : List Json} (h : ∀ type ∈ types, isOpenType type) :
    isOpenType (typeOfAlternatives (collect types)) := by
  have hflat : ∀ type ∈ types, IsFlat type := fun type htype => (isOpenType_iff.mp (h type htype)).1
  have hcollect : alternatives (typeOfAlternatives (collect types)) = collect types := by
    refine alternatives_typeOfAlternatives fun type hmem => ?_
    obtain ⟨value, hvalue, halternative⟩ := mem_collect hmem
    exact hflat value hvalue type halternative
  refine isOpenType_iff.mpr ⟨isFlat_typeOfAlternatives hflat, fun name hname hall => ?_⟩
  rw [hcollect] at hall ⊢
  -- all that is collected is one text, so each type lists that text only, and hence nothing
  have hnil : types.flatMap alternatives = [] := by
    refine List.flatMap_eq_nil_iff.mpr fun type htype => ?_
    refine (isOpenType_iff.mp (h type htype)).2 name hname fun alternative hmem => ?_
    exact (eq_of_appendNew hall).2 alternative (List.mem_flatMap.mpr ⟨type, htype, hmem⟩)
  rw [collect, hnil]
  rfl

/-! ### Members of combiners -/

/-- Whether a schema declares no types but such as leave more open. -/
def declaresOpenly (schema : Entries) : Bool :=
  (declared schema).all isOpenType

/-- Whether a schema can be merged into another one: what it comes to, once so many references at
most have been followed, declares no plain type and has combiners only if they are folded. -/
def blendsWell (document : Json) : Nat → Json → Bool
  | 0, _ => false
  | bound + 1, .obj schema =>
    match textRef? schema with
    | some text =>
      match (SchemaPath.ofPointer text).toOption.bind document.at? with
      | some target => blendsWell document bound target
      | none => true
    | none =>
      declaresOpenly schema && (lacksCombiners (.obj schema) || Shape.ofSchema schema = .object)
  | _ + 1, _ => true

/-- Whether the members of all combiners of an object can be merged and it has no list in place of a
reference. -/
def isExpandable (document : Json) (bound : Nat) : Json → Bool
  | .obj schema => schema.all fun entry =>
    (!decide (entry.1 = refKey) || !isArray entry.2) &&
      (!decide (entry.1 ∈ combiners) || match entry.2 with
        | .arr members => members.all (blendsWell document bound)
        | _ => true)
  | _ => true

/-- Whether a schema can be merged once enough references have been followed. -/
def BlendsWell (document schema : Json) : Prop :=
  ∃ bound, blendsWell document bound schema

/-- What is asked of the entries of all objects. -/
def Expandable (document : Json) (key : String) (value : Json) : Prop :=
  (key = refKey → ∀ items, value ≠ .arr items) ∧
    (key ∈ combiners → ∀ members, value = .arr members →
      ∀ member ∈ members, BlendsWell document member)

/-- What is merged into a schema leaves its type open and brings in no combiners. -/
structure Contributes (schema : Entries) : Prop where
  declared : ∀ type ∈ declared schema, isOpenType type
  combiner : ∀ keyword ∈ combiners, Assoc.find? schema keyword = none

section Members

variable {document : Json} {schema : Entries} {text : String}

/-- A schema blends well if its target does, or if it declares openly and is rid of its
combiners. -/
theorem blendsWell_obj (bound : Nat) : blendsWell document (bound + 1) (.obj schema) =
    match textRef? schema with
    | some text =>
      match (SchemaPath.ofPointer text).toOption.bind document.at? with
      | some target => blendsWell document bound target
      | none => true
    | none =>
      declaresOpenly schema && (lacksCombiners (.obj schema) || Shape.ofSchema schema = .object) :=
  Bool.eq_iff_iff.mpr Iff.rfl

/-- A reference can be merged if its target can be. -/
theorem blendsWell_target (h : BlendsWell document (.obj schema))
    (htext : textRef? schema = some text) {path : SchemaPath}
    (hpath : SchemaPath.ofPointer text = .ok path) {target : Json}
    (htarget : document.at? path = some target) : BlendsWell document target := by
  obtain ⟨bound, hbound⟩ := h
  cases bound with
  | zero => cases hbound
  | succ bound =>
    refine ⟨bound, ?_⟩
    rw [blendsWell_obj, htext] at hbound
    simpa only [hpath, Except.toOption, Option.bind_some, htarget] using hbound

/-- A schema that is left as it is can be merged as it is. -/
theorem contributes_of_blendsWell (h : BlendsWell document (.obj schema))
    (htext : textRef? schema = none) (hshape : Shape.ofSchema schema ≠ .object) :
    Contributes schema := by
  obtain ⟨bound, hbound⟩ := h
  cases bound with
  | zero => cases hbound
  | succ bound =>
    rw [blendsWell_obj, htext] at hbound
    simp only [Bool.and_eq_true, Bool.or_eq_true, decide_eq_true_eq] at hbound
    obtain ⟨hopen, hfolded⟩ := hbound
    exact ⟨List.all_eq_true.mp hopen, fun _ => find?_combiner (hfolded.resolve_right hshape)⟩

/-- Entries of other keywords do not count. -/
theorem Contributes.insert (h : Contributes schema) {key : String}
    (hkey : key ≠ typeKey ∧ key ≠ refKey ∧ key ∉ combiners) (value : Json) :
    Contributes (Assoc.insert schema key value) := by
  obtain ⟨htype, href, hcombiner⟩ := hkey
  constructor
  · rw [Merge.declared, Assoc.find?_insert_of_ne _ _ htype, Assoc.find?_insert_of_ne _ _ href]
    exact h.declared
  · intro keyword hkeyword
    have hne : key ≠ keyword := by
      rintro rfl
      exact hcombiner hkeyword
    rw [Assoc.find?_insert_of_ne _ _ hne]
    exact h.combiner keyword hkeyword

/-- A reference can be merged. -/
theorem contributes_reference (path : SchemaPath) :
    Contributes [(refKey, .str path.toPointer)] where
  declared type htype := by
    obtain rfl := List.mem_singleton.mp htype
    exact isOpenType_toPointer path
  combiner := by
    intro keyword hkeyword
    have hne : refKey ≠ keyword := fun heq => absurd (heq ▸ hkeyword) (by decide)
    exact if_neg hne

/-- The type stays open when a schema is merged that leaves it open. -/
theorem declared_merge {target source : Entries} {path : SchemaPath}
    (hagree : (merge target source path).conflict = none) (htarget : (Assoc.keys target).Nodup)
    (hsource : (Assoc.keys source).Nodup) (hopen : ∀ type ∈ declared target, isOpenType type)
    (hopen' : ∀ type ∈ declared source, isOpenType type) :
    ∀ type ∈ declared (merge target source path).value, isOpenType type := by
  have hside : ∀ {schema : Entries}, (Assoc.keys schema).Nodup →
      (∀ type ∈ declared schema, isOpenType type) →
      ∀ entry ∈ schema, entry.1 = typeKey ∨ entry.1 = refKey → isOpenType entry.2 := by
    rintro schema hnodup hschema ⟨key, value⟩ hentry hkey
    have hfind := (Assoc.find?_eq_some_iff hnodup).mpr hentry
    rcases hkey with rfl | rfl
    · exact hschema value (mem_declared.mpr (.inl hfind))
    · exact hschema value (mem_declared.mpr (.inr hfind))
  have hall := forall_mergeEntries
    (E := fun key value => key = typeKey ∨ key = refKey → isOpenType value)
    (fun _ _ _ _ htype _ _ hkey => absurd ⟨rfl, hkey⟩ htype)
    (fun _ _ _ _ _ hkey => absurd hkey (by decide))
    (fun _ values _ hvalues _ => isOpenType_typeOfAlternatives fun type htype =>
      (hvalues type htype).elim (fun h => h (.inl rfl)) fun h => h (.inr rfl))
    hagree (hside htarget hopen) (hside hsource hopen')
  intro type htype
  rcases mem_declared.mp htype with hfind | hfind
  · exact hall _ (Assoc.mem_of_find? hfind) (.inl rfl)
  · exact hall _ (Assoc.mem_of_find? hfind) (.inr rfl)

/-- A combiner that neither side has does not come in by merging. -/
theorem find?_merge_of_lacked {target source : Entries} {path : SchemaPath}
    (hagree : (merge target source path).conflict = none) {keyword : String}
    (hkeyword : keyword ∈ combiners) (htarget : Assoc.find? target keyword = none)
    (hsource : Assoc.find? source keyword = none) :
    Assoc.find? (merge target source path).value keyword = none := by
  rw [Assoc.find?_eq_none_iff] at htarget hsource ⊢
  intro hmem
  rcases mem_keys_of_mergeEntries hagree hmem with rfl | htarget' | hsource'
  · exact absurd hkeyword (by decide)
  · exact htarget htarget'
  · exact hsource hsource'

/-- Merging leaves all objects expandable. -/
theorem expandable_merge {target source : Entries} {path : SchemaPath}
    (hagree : (merge target source path).conflict = none)
    (htarget : Throughout (Expandable document) (.obj target))
    (hsource : Throughout (Expandable document) (.obj source)) :
    Throughout (Expandable document) (.obj (merge target source path).value) := by
  refine throughout_merge (fun _ _ => ⟨fun _ => nofun, fun _ => nofun⟩) (fun _ => ?_) (fun _ => ?_)
    hagree htarget hsource
  · exact ⟨fun h => absurd h (by decide), fun h => absurd h (by decide)⟩
  · exact ⟨fun h => absurd h (by decide), fun h => absurd h (by decide)⟩

end Members

/-! ### The walk -/

/-- What is known at the stages of the walk: all objects are expandable, the type of what is folded
stays open while its combiners go, and what a mergeable schema comes to can be merged. -/
def shapes (document : Json) : Invariant where
  raw _ _ schema := Throughout (Expandable document) schema
  folding _ _ _ pending schema := Throughout (Expandable document) (.obj schema) ∧
    (∀ type ∈ declared schema, isOpenType type) ∧
    (∀ keyword ∈ combiners, keyword ∉ pending.combiners → Assoc.find? schema keyword = none) ∧
    ∀ entry ∈ pending.members,
      Throughout (Expandable document) entry.2 ∧ BlendsWell document entry.2
  left _ _ origin walked := Throughout (Expandable document) walked.toJson ∧
    (∀ items, walked.toJson ≠ .arr items) ∧
    (BlendsWell document origin → ∀ schema, walked.toJson = .obj schema → Contributes schema)
  listed _ _ schema := Throughout (Expandable document) (.obj schema) ∧ Contributes schema

section Walk

variable {document : Json}

/-- Nothing is asked of the entries of most keywords. -/
theorem expandable_of_ne {key : String} (hkey : key ≠ refKey ∧ key ∉ combiners) (value : Json) :
    Expandable document key value :=
  ⟨fun h => absurd h hkey.1, fun h => absurd h hkey.2⟩

/-- A schema that is left with a reference can be merged. -/
theorem shapes_reference {keys : List SchemaPath} {path target : SchemaPath} {origin : Json} :
    (shapes document).left keys path origin (.canonical target) := by
  refine ⟨throughout_toSchema ⟨fun _ => nofun, fun _ => nofun⟩, nofun, fun _ schema heq => ?_⟩
  obtain rfl := Json.obj.inj heq
  exact contributes_reference target

/-- An object is no list. -/
theorem obj_ne_arr (schema : Entries) (items : List Json) : Json.obj schema ≠ .arr items := nofun

/-- A table of members is expandable after the walk. -/
theorem throughout_of_flat {keys : List SchemaPath} {path : SchemaPath} {keyword : String}
    {members flat : Entries} (hflat : (shapes document).Flat keys path keyword members flat)
    (hmembers : Throughout (Expandable document) (.obj members)) :
    Throughout (Expandable document) (.obj flat) := by
  apply throughout_obj.mpr
  constructor
  · exact hflat.keys_eq ▸ hmembers.nodup
  · intro entry hentry
    obtain ⟨_, _, walked, hleft, hvalue⟩ := hflat.exists_of_mem hentry
    rw [hvalue]
    exact ⟨⟨fun _ => hleft.2.1, fun _ items heq => absurd heq (hleft.2.1 items)⟩, hleft.1⟩

/-- An object that is not a reference leaves its type open at first. -/
theorem declared_of_hasObjectType {schema : Entries}
    (h : Throughout (Expandable document) (.obj schema)) (htext : textRef? schema = none)
    (hobject : HasObjectType schema) : ∀ type ∈ declared schema, isOpenType type := by
  intro type htype
  rcases mem_declared.mp htype with hfind | hfind
  · rcases hobject with hnone | hobject
    · cases hnone.symm.trans hfind
    · obtain rfl := Option.some.inj (hobject.symm.trans hfind)
      decide
  · refine isOpenType_of_ne ((h.of_mem (Assoc.mem_of_find? hfind)).1.1 rfl) fun name _ heq => ?_
    have hname := textRef?_eq_some_iff.mpr (heq ▸ hfind)
    cases htext.symm.trans hname

/-- The walk keeps what is known at its stages. -/
theorem shapes_kept (hdocument : Throughout (Expandable document) document) :
    (shapes document).Kept document where
  raw_mono _ h := h
  folding_mono _ h := h
  left_mono _ h := h
  listed_mono _ h := h
  target _ _ _ _ hschema := hdocument.of_at? hschema
  follow _ _ htext hpath _ hschema hwalked :=
    ⟨hwalked.1, hwalked.2.1, fun h => hwalked.2.2 (blendsWell_target h htext hpath hschema)⟩
  refer _ _ _ _ _ := shapes_reference
  reference _ _ := shapes_reference
  bool _ := ⟨throughout_bool _, nofun, fun _ => nofun⟩
  other h htext hshape := by
    refine ⟨h, obj_ne_arr _, fun hblends schema heq => ?_⟩
    obtain rfl := Json.obj.inj heq
    exact contributes_of_blendsWell hblends htext fun hobject => nomatch hshape ▸ hobject
  array h htext harray _ := by
    refine ⟨h, obj_ne_arr _, fun hblends schema heq => ?_⟩
    obtain rfl := Json.obj.inj heq
    exact contributes_of_blendsWell hblends htext fun hobject =>
      not_hasArrayType (ofSchema_eq_object.mp hobject) harray
  items h _ _ hitems := by
    have hexpandable : Throughout (Expandable document) (.obj _) := h
    exact hexpandable.of_find? hitems
  array_items h htext harray _ hwalked := by
    have hexpandable : Throughout (Expandable document) (.obj _) := h
    refine ⟨hexpandable.insert (expandable_of_ne (by decide) _) hwalked.1, obj_ne_arr _,
      fun hblends schema heq => ?_⟩
    obtain rfl := Json.obj.inj heq
    refine Contributes.insert (contributes_of_blendsWell hblends htext fun hobject => ?_)
      (by decide) _
    exact not_hasArrayType (ofSchema_eq_object.mp hobject) harray
  start h htext hobject := by
    refine ⟨h, declared_of_hasObjectType h htext hobject, fun keyword hkeyword hdone => ?_,
      fun _ hentry => absurd hentry List.not_mem_nil⟩
    exact absurd hkeyword hdone
  skip {keys path origin combiner rest node} _ h hnone := by
    obtain ⟨hexpandable, hopen, hcombiner, hmembers⟩ := h
    exact ⟨hexpandable, hopen, FoldedBut.skip hcombiner hnone, hmembers⟩
  drop {keys path origin combiner rest node members} hcombiner h hmembers := by
    obtain ⟨hexpandable, hopen, hdropped, -⟩ := h
    have hne : ∀ key, key ∉ combiners → combiner ≠ key := fun key hkey heq =>
      hkey (heq ▸ hcombiner)
    refine ⟨hexpandable.swapErase _, ?_, FoldedBut.drop hdropped hexpandable.nodup,
      fun entry hentry => ?_⟩
    · rw [declared, Assoc.find?_swapErase_of_ne hexpandable.nodup (hne _ (by decide)),
        Assoc.find?_swapErase_of_ne hexpandable.nodup (hne _ (by decide))]
      exact hopen
    · have hmember := mem_of_mem_memberPlaces hentry
      have hlist := hexpandable.of_mem (Assoc.mem_of_find? hmembers)
      exact ⟨throughout_arr.mp hlist.2 _ hmember, hlist.1.2 hcombiner _ rfl _ hmember⟩
  member h := (h.2.2.2 _ List.mem_cons_self).1
  merge {keys path origin place member others rest node source} h hsource hagree := by
    obtain ⟨hexpandable, hopen, hcombiner, hmembers⟩ := h
    -- a member that was listed is blended in as it was listed, not as a reference
    have hboth : Throughout (Expandable document) (.obj source) ∧ Contributes source := by
      rcases hsource with ⟨walked, -, hleft, hwalked⟩ | hlisted
      · exact ⟨hwalked ▸ hleft.1,
          hleft.2.2 (hmembers _ List.mem_cons_self).2 source hwalked⟩
      · exact hlisted
    refine ⟨expandable_merge hagree hexpandable hboth.1,
      declared_merge hagree hexpandable.nodup hboth.1.nodup hopen hboth.2.declared,
      fun keyword hkeyword hdone => ?_, fun entry hentry =>
        hmembers entry (List.mem_cons_of_mem _ hentry)⟩
    exact find?_merge_of_lacked hagree hkeyword (hcombiner keyword hkeyword hdone)
      (hboth.2.combiner keyword hkeyword)
  pass h _ _ :=
    ⟨h.1, h.2.1, h.2.2.1, fun entry hentry => h.2.2.2 entry (List.mem_cons_of_mem _ hentry)⟩
  property h _ hmembers hentry := ((h.1.of_find? hmembers).of_mem hentry).2
  list h _ hmembers hflat := by
    obtain ⟨hexpandable, hopen, hcombiner, -⟩ := h
    have hfolded : Contributes _ := ⟨hopen, fun keyword hkeyword =>
      hcombiner keyword hkeyword List.not_mem_nil⟩
    exact ⟨hexpandable.insert (expandable_of_ne (by decide) _)
      (throughout_of_flat hflat (hexpandable.of_find? hmembers)), hfolded.insert (by decide) _⟩
  patterns h _ hmembers hflat := by
    obtain ⟨hexpandable, hopen, hcombiner, -⟩ := h
    have hfolded : Contributes _ := ⟨hopen, fun keyword hkeyword =>
      hcombiner keyword hkeyword List.not_mem_nil⟩
    refine ⟨hexpandable.insert (expandable_of_ne (by decide) _)
      (throughout_of_flat hflat (hexpandable.of_find? hmembers)), obj_ne_arr _,
      fun _ schema heq => ?_⟩
    obtain rfl := Json.obj.inj heq
    exact hfolded.insert (by decide) _
  bare h _ _ := by
    obtain ⟨hexpandable, hopen, hcombiner, -⟩ := h
    refine ⟨hexpandable, obj_ne_arr _, fun _ schema heq => ?_⟩
    obtain rfl := Json.obj.inj heq
    exact ⟨hopen, fun keyword hkeyword => hcombiner keyword hkeyword List.not_mem_nil⟩

end Walk

/-! ### The table -/

/-- What is tested of all objects is what is asked of their entries. -/
theorem throughout_of_isExpandable {document : Json} (hwf : document.wellFormed) {bound : Nat}
    (h : document.everywhere (isExpandable document bound)) :
    Throughout (Expandable document) document := by
  refine throughout_of_wellFormed hwf fun place schema hschema entry hentry => ?_
  have htest := List.all_eq_true.mp (test_of_everywhere (hschema.everywhere h)) entry hentry
  simp only [Bool.and_eq_true, Bool.or_eq_true, Bool.not_eq_true', decide_eq_false_iff_not]
    at htest
  obtain ⟨href, hcombiner⟩ := htest
  constructor
  · intro hkey items heq
    rw [heq] at href
    exact href.elim (fun hne => hne hkey) nofun
  · intro hkey members heq member hmember
    rw [heq] at hcombiner
    exact ⟨bound, List.all_eq_true.mp (hcombiner.resolve_left fun hne => hne hkey) member hmember⟩

/-- Whether a schema is no array or primitive by its type and has no combiners. -/
structure IsObjectShaped (schema : Entries) : Prop where
  type : ∀ name ∈ plainTypes, Assoc.find? schema typeKey ≠ some (.str name)
  combiner : ∀ keyword ∈ combiners, Assoc.find? schema keyword = none

/-- No schema of a flattened document is an array or a primitive by its type or has a combiner left,
if whatever a member of a combiner comes to leaves the type open and has combiners only where they
are folded. -/
theorem isObjectShaped_of_flattenWithin {document : Json} (hwf : document.wellFormed) {bound : Nat}
    (hexpandable : document.everywhere (isExpandable document bound)) {depth : Nat}
    {schemas : FlatSchemas} (hflatten : flattenWithin depth document = .ok schemas) :
    ∀ listed ∈ schemas, IsObjectShaped listed.2 := by
  have hdocument := throughout_of_isExpandable hwf hexpandable
  have hkept := shapes_kept hdocument
  have hgrounded := grounded_of_flattenWithin hkept hdocument hflatten
  intro listed hlisted
  obtain ⟨-, hshape⟩ := hgrounded.listed hkept
    ((Assoc.find?_eq_some_iff hgrounded.nodup_keys).mpr hlisted)
  refine ⟨fun name hname hfind => ?_, hshape.combiner⟩
  exact ne_str_of_isOpenType (hshape.declared _ (mem_declared.mpr (.inl hfind))) hname rfl

/-- A document whose root has members of all kinds that may be merged: an object with a combiner of
its own, a choice between types that a reference leads to by way of another one, and a schema that
only lists required names. -/
def assembly : Json :=
  .obj [
    ("properties", .obj [("a", .obj [(typeKey, .str "array")])]),
    ("allOf", .arr [
      .obj [(typeKey, .str "object"), ("anyOf", .arr [.obj [("properties", .obj [])]])],
      .obj [(refKey, .str "#/definitions/alias")]]),
    ("oneOf", .arr [.obj [("required", .arr [.str "a"])]]),
    ("definitions", .obj [
      ("alias", .obj [(refKey, .str "#/definitions/choice")]),
      ("choice", .obj [(typeKey, .arr [.str "string", .str "null"])])])]

/-- The theorem at `assembly`: members of all kinds are folded into the one class that is listed. -/
theorem isObjectShaped_assembly : assembly.wellFormed ∧
    assembly.everywhere (isExpandable assembly 3) ∧
    ∃ schemas, flattenWithin 6 assembly = .ok schemas ∧ Assoc.keys schemas = [.root] ∧
      ∀ listed ∈ schemas, IsObjectShaped listed.2 := by
  have hwf : assembly.wellFormed := by decide
  have hexpandable : assembly.everywhere (isExpandable assembly 3) := by decide +kernel
  have hkeys : (flattenWithin 6 assembly).toOption.map Assoc.keys = some [.root] := by
    decide +kernel
  cases hflatten : flattenWithin 6 assembly with
  | error error =>
    rw [hflatten] at hkeys
    cases hkeys
  | ok schemas =>
    rw [hflatten] at hkeys
    exact ⟨hwf, hexpandable, schemas, rfl, Option.some.inj hkeys,
      isObjectShaped_of_flattenWithin hwf hexpandable hflatten⟩

/-- An object schema that is combined with a primitive. -/
def primitiveBlend : Json :=
  .obj [("properties", .obj [("a", .obj [(typeKey, .str "string")])]),
    ("allOf", .arr [.obj [(typeKey, .str "string")]])]

/-- One that is combined with a schema whose type is a list, and which has a combiner itself. -/
def combinerBlend : Json :=
  .obj [("properties", .obj [("a", .obj [(typeKey, .str "string")])]),
    ("allOf", .arr [.obj [(typeKey, .arr [.str "object"]), ("oneOf", .arr [
      .obj [("properties", .obj [("b", .obj [(typeKey, .str "string")])])]])]])]

/-- One where folding the members unpacks a list in a list, twice. -/
def nestedBlend : Json :=
  let part : Json := .obj [(typeKey, .arr [.arr [.str "string"]])]
  let member : Json := .obj [("allOf", .arr [part, part])]
  .obj [("properties", .obj []), ("allOf", .arr [member, member])]

/-- One whose property `x` gets combiner members at places that have been listed before, and listed
with lists in place of references. -/
def listBlend : Json :=
  .obj [
    ("properties", .obj [
      ("v", .obj [(refKey, .str "#/properties/x/allOf/0")]),
      ("w", .obj [(refKey, .str "#/properties/x/allOf/1")]),
      ("x", .obj [("allOf", .obj [
        ("0", .obj [(refKey, .arr [.str "string"]), ("properties", .obj [])]),
        ("1", .obj [(refKey, .arr [.str "string", .str "string"]), ("properties", .obj [])])])])]),
    ("allOf", .arr [.obj [(typeKey, .arr [.str "object"]), ("properties", .obj [
      ("x", .obj [("allOf", .arr [.obj [], .obj []])])])]])]

/-- Whether a schema is of a plain type or has a combiner. -/
def isBlended (schema : Entries) : Bool :=
  (plainTypes.any fun name => (Assoc.find? schema typeKey).bind Json.text? = some name) ||
    !lacksCombiners (.obj schema)

/-- A blended schema is not object-shaped. -/
theorem not_isObjectShaped_of_isBlended {schema : Entries} (h : isBlended schema) :
    ¬IsObjectShaped schema := by
  intro hshaped
  rcases Bool.or_eq_true_iff.mp h with hplain | hcombiner
  · obtain ⟨name, hname, htype⟩ := List.any_eq_true.mp hplain
    obtain ⟨value, hvalue, htext⟩ := Option.bind_eq_some_iff.mp (of_decide_eq_true htype)
    cases value with
    | str text =>
      obtain rfl := Option.some.inj htext
      exact hshaped.type text hname hvalue
    | _ => cases htext
  · rw [Bool.not_eq_true', lacksCombiners, List.all_eq_false] at hcombiner
    obtain ⟨keyword, hkeyword, hcontains⟩ := hcombiner
    exact hcontains (by rw [Assoc.contains, hshaped.combiner keyword hkeyword]; rfl)

/-- The schemas of a flattened document, or none if it cannot be flattened. -/
def flatSchemas (document : Json) : FlatSchemas :=
  (flatten document).toOption.getD []

/-- A blended schema in a flattened document is one that is listed and not object-shaped. -/
theorem exists_not_isObjectShaped {document : Json}
    (h : (flatSchemas document).any fun listed => isBlended listed.2) :
    ∃ schemas, flatten document = .ok schemas ∧ ∃ listed ∈ schemas, ¬IsObjectShaped listed.2 := by
  obtain ⟨listed, hlisted, hblended⟩ := List.any_eq_true.mp h
  unfold flatSchemas at hlisted
  cases hflatten : flatten document with
  | error error =>
    rw [hflatten] at hlisted
    exact absurd hlisted List.not_mem_nil
  | ok schemas =>
    rw [hflatten] at hlisted
    exact ⟨schemas, rfl, listed, hlisted, not_isObjectShaped_of_isBlended hblended⟩

/-- A schema of a primitive type is listed, and one with a combiner. None of the conditions can be
left out: lists in lists and lists in place of references lead to the type of a primitive as
well. -/
theorem not_isObjectShaped_blends :
    (primitiveBlend.wellFormed ∧ ∃ schemas, flatten primitiveBlend = .ok schemas ∧
      ∃ listed ∈ schemas, ¬IsObjectShaped listed.2) ∧
    (combinerBlend.wellFormed ∧ ∃ schemas, flatten combinerBlend = .ok schemas ∧
      ∃ listed ∈ schemas, ¬IsObjectShaped listed.2) ∧
    (nestedBlend.wellFormed ∧ ∃ schemas, flatten nestedBlend = .ok schemas ∧
      ∃ listed ∈ schemas, ¬IsObjectShaped listed.2) ∧
    (listBlend.wellFormed ∧ ∃ schemas, flatten listBlend = .ok schemas ∧
      ∃ listed ∈ schemas, ¬IsObjectShaped listed.2) := by
  refine ⟨⟨by decide, ?_⟩, ⟨by decide, ?_⟩, ⟨by decide, ?_⟩, ⟨by decide, ?_⟩⟩
  · exact exists_not_isObjectShaped (by decide +kernel)
  · exact exists_not_isObjectShaped (by decide +kernel)
  · exact exists_not_isObjectShaped (by decide +kernel)
  · exact exists_not_isObjectShaped (by decide +kernel)

end SchemaClasses.Flatten
