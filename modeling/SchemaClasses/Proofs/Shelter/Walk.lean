import SchemaClasses.Proofs.Flatten.Faithful
import SchemaClasses.Proofs.Json.Throughout
import SchemaClasses.Proofs.Merge.LookUp
import SchemaClasses.Proofs.Shelter.Basic

/-!
# What the walk makes of a sheltered text

Main statement (`isClear_of_flattenWithin`): a text that is sheltered by a document, but is not the
pointer of a listed schema, stands in no type and no reference of the flattened schemas.

All references in a schema that is left alone are followed, and what becomes of them refers to
listed schemas only. So everything that is left behind or listed is clear of the text (`IsLeft`,
`IsListed`), and the rest of the proof is about the schemas that are still to be walked: they stand
in the document, or were merged from clear schemas and are clear themselves (`IsRaw`), at whatever
place. A schema of the document whose combiners are being folded is a mixture of both
(`IsStanding`).

Whether a member of a combiner leaves a schema alone is read off the document. But a member that is
listed by way of a reference counts in place of another one that was merged in and walked at its
place, so it must be known what was listed there. That is the reason why members that were merged in
have to be bare: then they are never listed themselves.
-/

namespace SchemaClasses.Flatten

open Json (Throughout)
open Merge

/-! ### Stages of the walk -/

namespace Shelter

/-- Whether a text is the pointer of one of some places. -/
def IsPointer (keys : List SchemaPath) (text : String) : Prop :=
  ∃ path ∈ keys, path.toPointer = text

/-- Whether no object in a value repeats a key. -/
abbrev Tidy : Json → Prop :=
  Throughout fun _ _ => True

variable (document : Json) (text : String)

/-- Of a schema that is going to be walked at a place: if it does not stand there in the document
then it is clear of the text, and bare in the place of a member of a combiner. -/
structure IsRaw (path : SchemaPath) (schema : Json) : Prop where
  tidy : Tidy schema
  clear : document.at? path ≠ some schema → isClear text .schema schema
  bare : document.at? path ≠ some schema → IsMemberPlace path → isBare schema

/-- Of a schema of the document whose combiners are being folded: what has been merged into it is
clear of the text and keeps to where all members are heard. -/
structure IsStanding (path : SchemaPath) (start : Entries) (pending : Pending) (node : Entries) :
    Prop where
  outside : ∀ keyword value, Assoc.find? node keyword = some value → keyword ∉ tables →
    keyword ∉ pending.combiners → isClear text (.under keyword) value
  inside : ∀ keyword ∈ tables, ∀ members, Assoc.find? node keyword = some (.obj members) →
    ∀ name value, Assoc.find? members name = some value → isClear text .schema value ∨
      Quiet document keyword name start ∧ document.at? (path ++ [keyword, name]) = some value
  combiner : ∀ keyword ∈ pending.combiners, ∀ value, Assoc.find? node keyword = some value →
    isClear text .list value ∨ Assoc.find? start keyword = some value
  distinct : pending.combiners.Nodup
  among : pending.combiners ⊆ combiners
  member : ∀ site ∈ pending.members, IsMemberPlace site.1 ∧ ∀ keyword ∈ tables, ∀ name,
    Quiet document keyword name start → Silent document keyword name site.2 ∧
      ∀ other, document.at? site.1 = some other → Silent document keyword name other
  silent : ∀ keyword ∈ tables, ∀ name, Quiet document keyword name start →
    lacksMember keyword name start → lacksMember keyword name node
  listable : Assoc.contains start "properties" → Assoc.contains node "properties"

/-- Of any schema whose combiners are being folded. -/
structure IsFolding (path : SchemaPath) (origin : Json) (pending : Pending) (node : Entries) :
    Prop where
  tidy : Tidy (.obj node)
  raw : ∀ site ∈ pending.members, IsRaw document text site.1 site.2
  object : ∃ start, origin = .obj start ∧ textRef? start = none
  clear : document.at? path ≠ some origin → isClear text .schema (.obj node)
  bare : document.at? path ≠ some origin → IsMemberPlace path →
    isBare (.obj node) ∧ pending.members = []
  standing : ∀ start, origin = .obj start → document.at? path = some origin →
    IsStanding document text path start pending node

/-- Of what has become of a schema: it is clear of the text and brings in no more than the schema
would. -/
structure IsLeft (path : SchemaPath) (origin : Json) (walked : Walked) : Prop where
  tidy : Tidy walked.toJson
  clear : isClear text .schema walked.toJson
  silent : IsMemberPlace path ∨ document.at? path = some origin → ∀ keyword ∈ tables, ∀ name,
    Silent document keyword name origin → ∀ schema, walked.toJson = .obj schema →
      lacksMember keyword name schema
  listable : document.at? path = some origin → isListable origin →
    ∃ target, walked = .canonical target

/-- Of a listed schema. In the place of a member of a combiner it was that of the document. -/
structure IsListed (path : SchemaPath) (entry : Entries) : Prop where
  tidy : Tidy (.obj entry)
  clear : isClear text .schema (.obj entry)
  silent : IsMemberPlace path → ∃ origin, document.at? path = some origin ∧ ∀ keyword ∈ tables,
    ∀ name, Silent document keyword name origin → lacksMember keyword name entry

/-- What is known at the stages of the walk, unless the text is the pointer of a listed schema. -/
def shelter : Invariant where
  raw keys path schema := ¬IsPointer keys text → IsRaw document text path schema
  folding keys path origin pending node :=
    ¬IsPointer keys text → IsFolding document text path origin pending node
  left keys path origin walked := ¬IsPointer keys text → IsLeft document text path origin walked
  listed keys path entry := ¬IsPointer keys text → IsListed document text path entry

variable {document text} {keys more : List SchemaPath} {path : SchemaPath} {schema origin : Json}
  {node members flat : Entries} {keyword name : String}

/-- A pointer to one of some places is one to one of any more places. -/
theorem IsPointer.mono (hsubset : keys ⊆ more) (h : IsPointer keys text) : IsPointer more text := by
  obtain ⟨path, hpath, heq⟩ := h
  exact ⟨path, hsubset hpath, heq⟩

/-- A reference has no table. -/
theorem find?_toSchema_of_mem_tables {path : SchemaPath} {entries : Entries}
    (hkeyword : keyword ∈ tables) (h : (Reference.canonical path).toSchema = .obj entries) :
    Assoc.find? entries keyword = none := by
  obtain rfl := Json.obj.inj h
  have hne : refKey ≠ keyword := fun heq => absurd (heq ▸ hkeyword) (by decide)
  exact if_neg hne

/-- A reference to a listed schema is clear of all other texts. -/
theorem isLeft_canonical {target : SchemaPath} (hlisted : target ∈ keys)
    (hnot : ¬IsPointer keys text) : IsLeft document text path origin (.canonical target) where
  tidy := Json.throughout_toSchema trivial
  clear := isClear_toSchema fun heq => hnot ⟨target, hlisted, heq⟩
  silent _ _ hkeyword _ _ _ hschema :=
    lacksMember_of_none (find?_toSchema_of_mem_tables hkeyword hschema)
  listable _ _ := ⟨target, rfl⟩

/-! ### Schemas that are left in place -/

section Outside

variable (hsheltered : ∃ bound, document.everywhere (isSheltered document bound text))

include hsheltered

/-- A schema of a sheltered document shelters the text if it is no reference. -/
theorem shelters_of_at? (hat : document.at? path = some (.obj node))
    (hplain : textRef? node = none) : Shelters document text node := by
  obtain ⟨bound, hbound⟩ := hsheltered
  have hall := @Json.everywhere_of_descend? (isSheltered document bound text) _ _ _ hat hbound
  exact shelters_of_isSheltered (Json.test_of_everywhere hall) hplain

/-- What the walk does not go into is clear of the text. -/
theorem IsRaw.isClear_outside (h : IsRaw document text path (.obj node))
    (hplain : textRef? node = none) {value : Json} (hvalue : Assoc.find? node keyword = some value)
    (hentered : ¬isEntered (Shape.ofSchema node) keyword) :
    isClear text (.under keyword) value := by
  by_cases hat : document.at? path = some (.obj node)
  · exact (shelters_of_at? hsheltered hat hplain).outside keyword value hvalue hentered
  · exact isClear_under (h.clear hat) hvalue

/-- A schema that is neither an object nor an array may be left in place as it is. -/
theorem isLeft_other (h : IsRaw document text path (.obj node)) (hplain : textRef? node = none)
    (hshape : Shape.ofSchema node = .other) :
    IsLeft document text path (.obj node) (.inPlace (.obj node)) where
  tidy := h.tidy
  clear := by
    refine isClear_of_find? h.tidy.nodup fun keyword value hvalue => ?_
    refine h.isClear_outside hsheltered hplain hvalue ?_
    rw [hshape]
    exact Bool.false_ne_true
  silent _ keyword _ name hsilent schema hschema := by
    obtain rfl := Json.obj.inj hschema
    exact (hsilent.of_plain hplain).1
  listable _ hlistable := absurd (shape_of_isListable hlistable).symm (hshape ▸ nofun)

/-- What an array has besides its items is clear of the text. -/
theorem isClear_outside_items (h : IsRaw document text path (.obj node))
    (hplain : textRef? node = none) (harray : HasArrayType node) {value : Json}
    (hvalue : Assoc.find? node keyword = some value) (hkeyword : keyword ≠ "items") :
    isClear text (.under keyword) value := by
  refine h.isClear_outside hsheltered hplain hvalue ?_
  rw [ofSchema_eq_array.mpr harray]
  exact fun hentered => hkeyword (of_decide_eq_true hentered)

/-- An array without items may be left in place as it is. -/
theorem isLeft_array (h : IsRaw document text path (.obj node)) (hplain : textRef? node = none)
    (harray : HasArrayType node) (hnone : Assoc.find? node "items" = none) :
    IsLeft document text path (.obj node) (.inPlace (.obj node)) where
  tidy := h.tidy
  clear := by
    refine isClear_of_find? h.tidy.nodup fun keyword value hvalue => ?_
    refine isClear_outside_items hsheltered h hplain harray hvalue ?_
    rintro rfl
    cases hnone.symm.trans hvalue
  silent _ keyword _ name hsilent schema hschema := by
    obtain rfl := Json.obj.inj hschema
    exact (hsilent.of_plain hplain).1
  listable _ hlistable :=
    absurd harray (not_hasArrayType (ofSchema_eq_object.mp (shape_of_isListable hlistable)))

/-- An array may be left in place with what has become of its items. -/
theorem isLeft_array_items (h : IsRaw document text path (.obj node))
    (hplain : textRef? node = none) (harray : HasArrayType node) {items : Json} {walked : Walked}
    (hwalked : IsLeft document text (path.child "items") items walked) :
    IsLeft document text path (.obj node)
      (.inPlace (.obj (Assoc.insert node "items" walked.toJson))) where
  tidy := h.tidy.insert trivial hwalked.tidy
  clear := by
    have hnodup := Assoc.nodup_keys_insert h.tidy.nodup "items" walked.toJson
    refine isClear_of_find? hnodup fun keyword value hvalue => ?_
    by_cases hkeyword : "items" = keyword
    · subst hkeyword
      rw [Assoc.find?_insert_self] at hvalue
      exact Option.some.inj hvalue ▸ hwalked.clear
    · rw [Assoc.find?_insert_of_ne _ _ hkeyword] at hvalue
      exact isClear_outside_items hsheltered h hplain harray hvalue fun heq => hkeyword heq.symm
  silent _ keyword hkeyword name hsilent schema hschema := by
    obtain rfl := Json.obj.inj hschema
    have hne : "items" ≠ keyword := fun heq => absurd (heq ▸ hkeyword) (by decide)
    rw [lacksMember_congr (Assoc.find?_insert_of_ne _ _ hne)]
    exact (hsilent.of_plain hplain).1
  listable _ hlistable :=
    absurd harray (not_hasArrayType (ofSchema_eq_object.mp (shape_of_isListable hlistable)))

end Outside

/-- The items of an array are known as far as the array is. -/
theorem IsRaw.items (h : IsRaw document text path (.obj node)) {items : Json}
    (hitems : Assoc.find? node "items" = some items) :
    IsRaw document text (path.child "items") items where
  tidy := h.tidy.of_find? hitems
  clear helsewhere := by
    refine isClear_under (h.clear fun hat => helsewhere ?_) hitems
    rw [at?_child hat, hitems]
  bare _ hmember := absurd hmember (not_isMemberPlace_items path)

/-! ### Schemas whose combiners are folded -/

section Folding

variable {start : Entries} {combiner : String} {rest : List String} {place : SchemaPath}
  {member : Json} {others : List Site} {source : Entries}

/-- Before any combiner is folded, nothing has been merged. -/
theorem isFolding_start
    (hsheltered : ∃ bound, document.everywhere (isSheltered document bound text))
    (h : IsRaw document text path (.obj node)) (hplain : textRef? node = none)
    (hobject : HasObjectType node) :
    IsFolding document text path (.obj node) ⟨[], combiners⟩ node where
  tidy := h.tidy
  raw _ hsite := absurd hsite List.not_mem_nil
  object := ⟨node, rfl, hplain⟩
  clear := h.clear
  bare helsewhere hmember := ⟨h.bare helsewhere hmember, rfl⟩
  standing start hstart hat := by
    obtain rfl := Json.obj.inj hstart
    have hshelters := shelters_of_at? hsheltered hat hplain
    have hshape := ofSchema_eq_object.mpr hobject
    constructor
    case outside =>
      intro keyword value hvalue htable hcombiner
      refine hshelters.outside keyword value hvalue ?_
      rw [hshape]
      exact fun hentered => (of_decide_eq_true hentered).elim htable hcombiner
    case inside =>
      intro keyword hkeyword members hmembers name value hvalue
      refine (hshelters.inside hshape keyword hkeyword members hmembers name value hvalue).imp_right
        fun hquiet => ⟨hquiet, ?_⟩
      have htable : document.at? (path.child keyword) = some (.obj members) := by
        rw [at?_child hat, hmembers]
      rw [SchemaPath.append_pair, at?_child htable, hvalue]
    case combiner => exact fun _ _ _ hvalue => .inr hvalue
    case distinct => decide
    case among => exact List.Subset.refl _
    case member => exact fun _ hsite => absurd hsite List.not_mem_nil
    case silent => exact fun _ _ _ _ hlacks => hlacks
    case listable => exact id

/-- A combiner that the schema does not have may be skipped. -/
theorem IsFolding.skip (h : IsFolding document text path origin ⟨[], combiner :: rest⟩ node)
    (hnone : Assoc.find? node combiner = none) :
    IsFolding document text path origin ⟨[], rest⟩ node where
  tidy := h.tidy
  raw := h.raw
  object := h.object
  clear := h.clear
  bare := h.bare
  standing start hstart hat := by
    have hstanding := h.standing start hstart hat
    constructor
    case outside =>
      intro keyword value hvalue htable hrest
      refine hstanding.outside keyword value hvalue htable fun hmem => ?_
      rcases List.mem_cons.mp hmem with rfl | hmem
      · cases hnone.symm.trans hvalue
      · exact hrest hmem
    case inside => exact hstanding.inside
    case combiner =>
      exact fun keyword hmem => hstanding.combiner keyword (List.mem_cons_of_mem _ hmem)
    case distinct => exact (List.nodup_cons.mp hstanding.distinct).2
    case among => exact (List.cons_subset.mp hstanding.among).2
    case member => exact hstanding.member
    case silent => exact hstanding.silent
    case listable => exact hstanding.listable

/-- Members of a combiner stand in the document below the schema, or are bare. -/
theorem IsStanding.isRaw_member (hwf : document.wellFormed)
    (h : IsStanding document text path start ⟨[], combiner :: rest⟩ node)
    (hat : document.at? path = some (.obj start)) {items : List Json}
    (hitems : Assoc.find? node combiner = some (.arr items)) {site : Site}
    (hsite : site ∈ memberPlaces path combiner 0 items)
    (helsewhere : document.at? site.1 ≠ some site.2) :
    isBare site.2 ∧ isClear text .schema site.2 := by
  rcases h.combiner combiner List.mem_cons_self _ hitems with hclear | hstart
  · exact isClear_list.mp hclear site.2 (mem_of_mem_memberPlaces hsite)
  · obtain ⟨index, hmember, hplace⟩ := mem_memberPlaces.mp hsite
    refine absurd ?_ helsewhere
    have hlist : document.at? (path.child combiner) = some (.arr items) := by
      rw [at?_child hat, hstart]
    have hlength := (Json.wellFormed_arr.mp (Json.wellFormed_of_descend? hlist hwf)).1
    obtain ⟨hindex, -⟩ := List.getElem?_eq_some_iff.mp hmember
    rw [hplace, SchemaPath.append_pair, Nat.zero_add, at?_item hlist (by omega), hmember]

/-- Whatever stands in the document at the place of a member is in one of its combiners. -/
theorem mem_combined_of_at? (hat : document.at? path = some (.obj start))
    (hcombiner : combiner ∈ combiners) {segment : String} {other : Json}
    (hother : document.at? (path ++ [combiner, segment]) = some other) :
    other ∈ combined start := by
  rw [Json.at?] at hat hother
  rw [SchemaPath.segments_append, Json.descend?_append, hat] at hother
  rw [Option.bind_some] at hother
  obtain ⟨value, hvalue, hbelow⟩ := Option.bind_eq_some_iff.mp hother
  obtain ⟨below, hstep, hend⟩ := Option.bind_eq_some_iff.mp hbelow
  obtain rfl := Option.some.inj hend
  exact mem_combined.mpr ⟨combiner, hcombiner, value, hvalue, mem_parts_of_step? hstep⟩

/-- A combiner of a standing schema may be dropped for its members. -/
theorem IsStanding.drop (h : IsStanding document text path start ⟨[], combiner :: rest⟩ node)
    (hwf : document.wellFormed) (hat : document.at? path = some (.obj start))
    (hnodup : (Assoc.keys node).Nodup) {items : List Json}
    (hitems : Assoc.find? node combiner = some (.arr items)) :
    IsStanding document text path start ⟨memberPlaces path combiner 0 items, rest⟩
      (Assoc.swapErase node combiner) := by
  have hcombiner : combiner ∈ combiners := h.among List.mem_cons_self
  have hother : ∀ {keyword}, combiner ≠ keyword →
      Assoc.find? (Assoc.swapErase node combiner) keyword = Assoc.find? node keyword :=
    fun hne => Assoc.find?_swapErase_of_ne hnodup hne
  have htable : ∀ {keyword}, keyword ∈ tables → combiner ≠ keyword := by
    rintro keyword hkeyword rfl
    exact not_mem_combiners hkeyword hcombiner
  constructor
  case outside =>
    intro keyword value hvalue hkeyword hrest
    by_cases hsame : combiner = keyword
    · rw [← hsame, Assoc.find?_swapErase_self hnodup] at hvalue
      cases hvalue
    · refine h.outside keyword value (hother hsame ▸ hvalue) hkeyword fun hmem => ?_
      exact (List.mem_cons.mp hmem).elim (fun heq => hsame heq.symm) hrest
  case inside =>
    intro keyword hkeyword members hmembers
    exact h.inside keyword hkeyword members (hother (htable hkeyword) ▸ hmembers)
  case combiner =>
    intro keyword hmem value hvalue
    have hne : combiner ≠ keyword := by
      rintro rfl
      exact (List.nodup_cons.mp h.distinct).1 hmem
    exact h.combiner keyword (List.mem_cons_of_mem _ hmem) value (hother hne ▸ hvalue)
  case distinct => exact (List.nodup_cons.mp h.distinct).2
  case among => exact (List.cons_subset.mp h.among).2
  case member =>
    intro site hsite
    obtain ⟨index, -, hplace⟩ := mem_memberPlaces.mp hsite
    rw [Nat.zero_add] at hplace
    refine ⟨⟨path, combiner, index, hcombiner, ?_⟩, fun keyword hkeyword name hquiet => ⟨?_, ?_⟩⟩
    · rw [hplace, SchemaPath.append_pair]
    · -- A member that does not stand in the document came out of a merge.
      by_cases hsame : document.at? site.1 = some site.2
      · exact hquiet _ (mem_combined_of_at? hat hcombiner (hplace ▸ hsame))
      · exact silent_of_isBare (h.isRaw_member hwf hat hitems hsite hsame).1 hkeyword
    · exact fun other hstands => hquiet _ (mem_combined_of_at? hat hcombiner (hplace ▸ hstands))
  case silent =>
    intro keyword hkeyword name hquiet hlacks
    rw [lacksMember_congr (hother (htable hkeyword))]
    exact h.silent keyword hkeyword name hquiet hlacks
  case listable =>
    intro hcontains
    rw [Assoc.contains, hother (htable List.mem_cons_self)]
    exact h.listable hcontains

/-- A combiner of any schema that is being folded may be dropped for its members. -/
theorem IsFolding.drop (h : IsFolding document text path origin ⟨[], combiner :: rest⟩ node)
    (hwf : document.wellFormed) (hcombiner : combiner ∈ combiners) {items : List Json}
    (hitems : Assoc.find? node combiner = some (.arr items)) :
    IsFolding document text path origin ⟨memberPlaces path combiner 0 items, rest⟩
      (Assoc.swapErase node combiner) where
  tidy := h.tidy.swapErase _
  raw site hsite := by
    have hmember : document.at? site.1 ≠ some site.2 →
        isBare site.2 ∧ isClear text .schema site.2 := by
      intro helsewhere
      by_cases hat : document.at? path = some origin
      · obtain ⟨start, rfl, -⟩ := h.object
        exact (h.standing start rfl hat).isRaw_member hwf hat hitems hsite helsewhere
      · have hclear := isClear_under (h.clear hat) hitems
        rw [under_combiner hcombiner] at hclear
        exact isClear_list.mp hclear site.2 (mem_of_mem_memberPlaces hsite)
    exact ⟨Json.throughout_arr.mp (h.tidy.of_find? hitems) _ (mem_of_mem_memberPlaces hsite),
      fun helsewhere => (hmember helsewhere).2, fun helsewhere _ => (hmember helsewhere).1⟩
  object := h.object
  clear helsewhere := isClear_schema.mpr fun entry hentry =>
    isClear_schema.mp (h.clear helsewhere) entry (Assoc.mem_of_mem_swapErase hentry)
  bare helsewhere hmember := by
    have hnone := find?_of_isBare (h.bare helsewhere hmember).1 (mem_linkKeywords (.inr hcombiner))
    cases hnone.symm.trans hitems
  standing start hstart hat :=
    (h.standing start hstart hat).drop hwf (hstart ▸ hat) h.tidy.nodup hitems

/-! ### Merging -/

/-- Tables and combiners are merged like any other keywords. -/
theorem isOrdinary_of_mem (h : keyword ∈ tables ∨ keyword ∈ combiners) :
    IsOrdinary .keywords keyword := by
  have hall : ∀ keyword ∈ tables ++ combiners,
      keyword ≠ typeKey ∧ keyword ≠ refKey ∧ keyword ≠ "required" := by decide
  exact fun _ => hall keyword (List.mem_append.mpr h)

/-- Two tables of schemas that may be merged. -/
theorem inside_merge {old new : Entries} {P : String → Json → Prop}
    (hagree : (mergeEntries .names path old new).conflict = none)
    (hold : (Assoc.keys old).Nodup) (hnew : (Assoc.keys new).Nodup)
    (hinside : ∀ name value, Assoc.find? old name = some value →
      isClear text .schema value ∨ P name value ∧ Assoc.find? new name = none)
    (hclear : isClear text .table (.obj new)) {value : Json}
    (hvalue : Assoc.find? (mergeEntries .names path old new).value name = some value) :
    isClear text .schema value ∨ P name value := by
  have hsource : ∀ {value}, Assoc.find? new name = some value → isClear text .schema value :=
    fun hfind => isClear_table.mp hclear _ (Assoc.mem_of_find? hfind)
  rw [find?_mergeEntries (isOrdinary_names name) hold hnew hagree] at hvalue
  rcases joined_eq_some hvalue with ⟨o, n, ho, hn, rfl⟩ | hfind | ⟨-, hfind⟩
  · have hagree' := agree_of_objects (isOrdinary_names name) hold hagree ho hn
    rcases hinside name _ ho with h | ⟨-, hnone⟩
    · exact .inl (isClear_mergeEntries (.obj n) rfl .keywords hagree' h (hsource hn))
    · cases hnone.symm.trans hn
  · exact .inl (hsource hfind)
  · exact (hinside name _ hfind).imp_right And.left

/-- A merge brings no schema with a name into a table if neither side has one. -/
theorem lacksMember_merge {target : Entries} (hkeyword : keyword ∈ tables)
    (hagree : (merge target source path).conflict = none) (htarget : Tidy (.obj target))
    (hsource : Tidy (.obj source)) (h : lacksMember keyword name target)
    (h' : lacksMember keyword name source) :
    lacksMember keyword name (merge target source path).value := by
  have hordinary := isOrdinary_of_mem (.inl hkeyword)
  refine lacksMember_iff.mpr fun members hmembers => ?_
  rw [merge, find?_mergeEntries hordinary htarget.nodup hsource.nodup hagree] at hmembers
  rcases joined_eq_some hmembers with ⟨o, n, ho, hn, heq⟩ | hfind | ⟨-, hfind⟩
  · obtain rfl := Json.obj.inj heq
    have hagree' := agree_of_objects hordinary htarget.nodup hagree ho hn
    rw [below_of_mem_tables hkeyword] at hagree' ⊢
    rw [find?_mergeEntries (isOrdinary_names name) (htarget.of_find? ho).nodup
      (hsource.of_find? hn).nodup hagree', lacksMember_iff.mp h o ho, lacksMember_iff.mp h' n hn]
    rfl
  · exact lacksMember_iff.mp h' members hfind
  · exact lacksMember_iff.mp h members hfind

/-- Whatever stands outside the tables and some combiners stays clear of the text. -/
theorem outside_merge {rest : List String} (hrest : rest ⊆ combiners)
    (hagree : (merge node source path).conflict = none) (hnode : (Assoc.keys node).Nodup)
    (hclear : isClear text .schema (.obj source))
    (houtside : ∀ keyword value, Assoc.find? node keyword = some value → keyword ∉ tables →
      keyword ∉ rest → isClear text (.under keyword) value) {value : Json}
    (hvalue : Assoc.find? (merge node source path).value keyword = some value)
    (htable : keyword ∉ tables) (hcombiner : keyword ∉ rest) :
    isClear text (.under keyword) value := by
  have hall := forall_mergeEntries
    (E := fun key value => key ∉ tables → key ∉ rest → isClear text (.under key) value)
    (fun key old new hmem htype hagree hold htable hrest => ?_) (fun _ _ _ _ _ _ _ => rfl)
    (fun _ values _ hvalues _ _ => ?_) hagree
    (fun entry hentry => houtside _ _ ((Assoc.find?_eq_some_iff hnode).mpr hentry))
    (fun entry hentry _ _ => isClear_schema.mp hclear entry hentry)
  · exact hall _ (Assoc.mem_of_find? hvalue) htable hcombiner
  · have hnew := isClear_schema.mp hclear _ hmem
    rcases entryReading_cases htype with heq | heq | heq <;> rw [entryReading] at heq
    · rw [heq]
      exact isClear_mergeEntries (.obj new) rfl _ hagree (heq ▸ hold htable hrest) (heq ▸ hnew)
    · rw [heq]
      rfl
    · rw [heq]
      rfl
  · -- The types that are unified stand under keywords that are outside as well.
    have hkept : ∀ key, key ∉ combiners → key ∉ rest := fun key hkey hmem => hkey (hrest hmem)
    refine isClear_type.mpr (lists_typeOfAlternatives fun value hvalue => ?_)
    rcases hvalues value hvalue with hvalue | hvalue
    · exact isClear_type.mp (hvalue (by decide) (hkept _ (by decide)))
    · exact isClear_reference.mp (hvalue (by decide) (hkept _ (by decide)))

/-- A source that is clear of the text and silent where all members are leaves it at that. -/
theorem IsStanding.merge (h : IsStanding document text path start ⟨(place, member) :: others, rest⟩
      node) (hagree : (merge node source path).conflict = none) (hnode : Tidy (.obj node))
    (hsource : Tidy (.obj source)) (hclear : isClear text .schema (.obj source))
    (hlacks : ∀ keyword ∈ tables, ∀ name, Quiet document keyword name start →
      lacksMember keyword name source) :
    IsStanding document text path start ⟨others, rest⟩ (merge node source path).value := by
  constructor
  case outside =>
    exact fun keyword value hvalue htable hrest =>
      outside_merge h.among hagree hnode.nodup hclear h.outside hvalue htable hrest
  case inside =>
    intro keyword hkeyword members hmembers name value hvalue
    have hordinary := isOrdinary_of_mem (.inl hkeyword)
    have hnew : ∀ {members}, Assoc.find? source keyword = some members →
        isClear text .table members :=
      fun hfind => under_table hkeyword ▸ isClear_under hclear hfind
    rw [SchemaClasses.merge, find?_mergeEntries hordinary hnode.nodup hsource.nodup hagree]
      at hmembers
    rcases joined_eq_some hmembers with ⟨o, n, ho, hn, heq⟩ | hfind | ⟨-, hfind⟩
    · obtain rfl := Json.obj.inj heq
      have hagree' := agree_of_objects hordinary hnode.nodup hagree ho hn
      rw [below_of_mem_tables hkeyword] at hagree' hvalue
      refine inside_merge (P := fun name value => Quiet document keyword name start ∧
          document.at? (path ++ [keyword, name]) = some value) hagree' (hnode.of_find? ho).nodup
        (hsource.of_find? hn).nodup (fun name value hvalue => ?_) (hnew hn) hvalue
      -- A schema that stays what it is in the document meets none of the source.
      refine (h.inside keyword hkeyword o ho name value hvalue).imp_right fun hstays => ?_
      exact ⟨hstays, lacksMember_iff.mp (hlacks keyword hkeyword name hstays.1) n hn⟩
    · exact .inl (isClear_table.mp (hnew hfind) _ (Assoc.mem_of_find? hvalue))
    · exact h.inside keyword hkeyword members hfind name value hvalue
  case combiner =>
    intro keyword hmem value hvalue
    have hcombiner : keyword ∈ combiners := h.among hmem
    rw [SchemaClasses.merge, find?_mergeEntries (isOrdinary_of_mem (.inr hcombiner))
      hnode.nodup hsource.nodup hagree] at hvalue
    rcases joined_eq_some hvalue with ⟨o, n, -, -, rfl⟩ | hfind | ⟨-, hfind⟩
    · exact .inl rfl
    · exact .inl (under_combiner hcombiner ▸ isClear_under hclear hfind)
    · exact h.combiner keyword hmem value hfind
  case distinct => exact h.distinct
  case among => exact h.among
  case member => exact fun site hsite => h.member site (List.mem_cons_of_mem _ hsite)
  case silent =>
    intro keyword hkeyword name hquiet hstart
    exact lacksMember_merge hkeyword hagree hnode hsource
      (h.silent keyword hkeyword name hquiet hstart) (hlacks keyword hkeyword name hquiet)
  case listable =>
    intro hcontains
    rw [Assoc.contains, SchemaClasses.merge, find?_mergeEntries
      (isOrdinary_of_mem (.inl List.mem_cons_self)) hnode.nodup hsource.nodup hagree]
    exact isSome_joined (.inl (h.listable hcontains))

/-- What is left of a member, or is listed for it, may be merged in. -/
theorem IsFolding.merge (h : IsFolding document text path origin ⟨(place, member) :: others, rest⟩
      node) (hagree : (merge node source path).conflict = none)
    (hsource : (∃ walked, IsLeft document text place member walked ∧
      walked.toJson = .obj source) ∨ IsListed document text place source) :
    IsFolding document text path origin ⟨others, rest⟩ (merge node source path).value := by
  have htidy : Tidy (.obj source) := by
    rcases hsource with ⟨walked, hleft, hwalked⟩ | hlisted
    · exact hwalked ▸ hleft.tidy
    · exact hlisted.tidy
  have hclear : isClear text .schema (.obj source) := by
    rcases hsource with ⟨walked, hleft, hwalked⟩ | hlisted
    · exact hwalked ▸ hleft.clear
    · exact hlisted.clear
  constructor
  case tidy =>
    exact throughout_merge (fun _ _ => trivial) (fun _ => trivial) (fun _ => trivial) hagree h.tidy
      htidy
  case raw => exact fun site hsite => h.raw site (List.mem_cons_of_mem _ hsite)
  case object => exact h.object
  case clear =>
    exact fun helsewhere =>
      isClear_mergeEntries (.obj source) rfl .keywords hagree (h.clear helsewhere) hclear
  case bare =>
    exact fun helsewhere hmember => absurd (h.bare helsewhere hmember).2 (List.cons_ne_nil _ _)
  case standing =>
    intro start hstart hat
    have hstanding := h.standing start hstart hat
    obtain ⟨hplace, hsilent⟩ := hstanding.member _ List.mem_cons_self
    refine hstanding.merge hagree h.tidy htidy hclear fun keyword hkeyword name hquiet => ?_
    obtain ⟨hmember, hstands⟩ := hsilent keyword hkeyword name hquiet
    rcases hsource with ⟨walked, hleft, hwalked⟩ | hlisted
    · exact hleft.silent (.inl hplace) keyword hkeyword name hmember source hwalked
    · obtain ⟨other, hother, hlacks⟩ := hlisted.silent hplace
      exact hlacks keyword hkeyword name (hstands other hother)

/-- A member may be passed over. -/
theorem IsFolding.pass (h : IsFolding document text path origin ⟨(place, member) :: others, rest⟩
      node) : IsFolding document text path origin ⟨others, rest⟩ node where
  tidy := h.tidy
  raw site hsite := h.raw site (List.mem_cons_of_mem _ hsite)
  object := h.object
  clear := h.clear
  bare helsewhere hmember := absurd (h.bare helsewhere hmember).2 (List.cons_ne_nil _ _)
  standing start hstart hat := by
    have hstanding := h.standing start hstart hat
    exact ⟨hstanding.outside, hstanding.inside, hstanding.combiner, hstanding.distinct,
      hstanding.among, fun site hsite => hstanding.member site (List.mem_cons_of_mem _ hsite),
      hstanding.silent, hstanding.listable⟩

/-! ### Schemas that are folded -/

section Folded

variable (h : IsFolding document text path origin ⟨[], []⟩ node)

include h

/-- Whatever stands in a folded schema outside its tables is clear of the text. -/
theorem IsFolding.isClear_outside {value : Json} (hvalue : Assoc.find? node keyword = some value)
    (hkeyword : keyword ∉ tables) : isClear text (.under keyword) value := by
  by_cases hat : document.at? path = some origin
  · obtain ⟨start, hstart, -⟩ := h.object
    exact (h.standing start hstart hat).outside keyword value hvalue hkeyword List.not_mem_nil
  · exact isClear_under (h.clear hat) hvalue

/-- A folded schema has no schemas that it did not have and that no member could bring in. -/
theorem IsFolding.lacksMember (hplace : IsMemberPlace path ∨ document.at? path = some origin)
    (hkeyword : keyword ∈ tables) (hsilent : Silent document keyword name origin) :
    lacksMember keyword name node := by
  by_cases hat : document.at? path = some origin
  · obtain ⟨start, rfl, hplain⟩ := h.object
    obtain ⟨hstart, hquiet⟩ := hsilent.of_plain hplain
    exact (h.standing start rfl hat).silent keyword hkeyword name hquiet hstart
  · have hbare := (h.bare hat (hplace.resolve_right hat)).1
    exact lacksMember_of_none (find?_of_isBare hbare (mem_linkKeywords (.inl hkeyword)))

/-- A schema that is folded to one without properties was none that the walk lists. -/
theorem IsFolding.not_isListable (hnone : Assoc.find? node "properties" = none)
    (hat : document.at? path = some origin) : ¬isListable origin := by
  intro hlistable
  obtain ⟨start, rfl, -⟩ := h.object
  rw [isListable, Bool.and_eq_true] at hlistable
  have hcontains := (h.standing start rfl hat).listable hlistable.2
  rw [Assoc.contains, hnone] at hcontains
  cases hcontains

/-- What is known of a folded schema is known of the schemas in its tables. -/
theorem IsFolding.property (hkeyword : keyword ∈ tables)
    (hmembers : Assoc.find? node keyword = some (.obj members)) {entry : String × Json}
    (hentry : entry ∈ members) : IsRaw document text (path ++ [keyword, entry.1]) entry.2 where
  tidy := ((h.tidy.of_find? hmembers).of_mem hentry).2
  clear helsewhere := by
    by_cases hat : document.at? path = some origin
    · obtain ⟨start, hstart, -⟩ := h.object
      have hfind := (Assoc.find?_eq_some_iff (h.tidy.of_find? hmembers).nodup).mpr hentry
      have hinside := (h.standing start hstart hat).inside keyword hkeyword members hmembers
        entry.1 entry.2 hfind
      exact hinside.resolve_right fun hstays => helsewhere hstays.2
    · have htable := isClear_under (h.clear hat) hmembers
      rw [under_table hkeyword] at htable
      exact isClear_table.mp htable entry hentry
  bare _ hmember := by
    rw [SchemaPath.append_pair] at hmember
    exact absurd hmember (not_isMemberPlace_property (not_mem_combiners hkeyword))

end Folded

/-- The members of a table after the walk. -/
structure AreLeft (text : String) (members flat : Entries) : Prop where
  tidy : Tidy (.obj flat)
  clear : isClear text .table (.obj flat)
  keys : Assoc.keys flat = Assoc.keys members

/-- In a flattened table all schemas are clear of the text, under the same names. -/
theorem areLeft_of_flat (hnot : ¬IsPointer keys text) (hmembers : (Assoc.keys members).Nodup)
    (hflat : (shelter document text).Flat keys path keyword members flat) :
    AreLeft text members flat := by
  have hleft : ∀ entry ∈ flat, Tidy entry.2 ∧ isClear text .schema entry.2 := by
    intro entry hentry
    obtain ⟨_, _, walked, hleft, hvalue⟩ := hflat.exists_of_mem hentry
    exact hvalue ▸ ⟨(hleft hnot).tidy, (hleft hnot).clear⟩
  constructor
  case tidy =>
    exact Json.throughout_obj.mpr ⟨hflat.keys_eq ▸ hmembers, fun entry hentry =>
      ⟨trivial, (hleft entry hentry).1⟩⟩
  case clear => exact isClear_table.mpr fun entry hentry => (hleft entry hentry).2
  case keys => exact hflat.keys_eq

/-- A schema whose table has been walked, if it has no other one. -/
theorem isClear_insert (h : IsFolding document text path origin ⟨[], []⟩ node)
    (hkeyword : keyword ∈ tables)
    (hother : ∀ other ∈ tables, other ≠ keyword → Assoc.find? node other = none)
    (hleft : AreLeft text members flat) :
    isClear text .schema (.obj (Assoc.insert node keyword (.obj flat))) := by
  refine isClear_of_find? (Assoc.nodup_keys_insert h.tidy.nodup _ _) fun key value hvalue => ?_
  by_cases hkey : keyword = key
  · subst hkey
    rw [Assoc.find?_insert_self] at hvalue
    rw [under_table hkeyword, ← Option.some.inj hvalue]
    exact hleft.clear
  · rw [Assoc.find?_insert_of_ne _ _ hkey] at hvalue
    refine h.isClear_outside hvalue fun htable => ?_
    cases (hother key htable fun heq => hkey heq.symm).symm.trans hvalue

/-- Putting a flattened table in place of a table adds no names. -/
theorem lacksMember_insert {other : String}
    (hmembers : Assoc.find? node keyword = some (.obj members)) (hleft : AreLeft text members flat)
    (h : lacksMember other name node) :
    lacksMember other name (Assoc.insert node keyword (.obj flat)) := by
  by_cases hkey : keyword = other
  · subst hkey
    refine lacksMember_iff.mpr fun found hfound => ?_
    rw [Assoc.find?_insert_self] at hfound
    obtain rfl := Json.obj.inj (Option.some.inj hfound)
    rw [Assoc.find?_eq_none_iff, hleft.keys, ← Assoc.find?_eq_none_iff]
    exact lacksMember_iff.mp h members hmembers
  · rwa [lacksMember_congr (Assoc.find?_insert_of_ne _ _ hkey)]

end Folding

/-! ### The walk -/

section Walk

/-- The walk of a sheltered document keeps what is known at its stages. -/
theorem shelter_kept (hwf : document.wellFormed)
    (hsheltered : ∃ bound, document.everywhere (isSheltered document bound text)) :
    (shelter document text).Kept document where
  raw_mono hsubset h hnot := h fun hpointer => hnot (hpointer.mono hsubset)
  folding_mono hsubset h hnot := h fun hpointer => hnot (hpointer.mono hsubset)
  left_mono hsubset h hnot := h fun hpointer => hnot (hpointer.mono hsubset)
  listed_mono hsubset h hnot := h fun hpointer => hnot (hpointer.mono hsubset)
  target _ _ _ _ hschema _ :=
    ⟨(Json.throughout_of_wellFormed hwf fun _ _ _ _ _ => trivial).of_at? hschema,
      fun helsewhere => absurd hschema helsewhere, fun helsewhere => absurd hschema helsewhere⟩
  follow _ _ htext htarget _ hschema hwalked hnot := by
    have hleft := hwalked hnot
    refine ⟨hleft.tidy, hleft.clear, fun _ keyword hkeyword name hsilent schema heq => ?_,
      fun _ hlistable => ?_⟩
    · -- A target that is listed is merged as a reference to it, which has no tables.
      rcases hsilent.of_referent htext htarget hschema with hlistable | htarget
      · obtain ⟨target, rfl⟩ := hleft.listable hschema hlistable
        exact lacksMember_of_none (find?_toSchema_of_mem_tables hkeyword heq)
      · exact hleft.silent (.inr hschema) keyword hkeyword name htarget schema heq
    · rw [isListable, htext] at hlistable
      cases hlistable
  refer _ _ _ hlisted _ hnot := isLeft_canonical hlisted hnot
  reference hlisted _ hnot := isLeft_canonical hlisted hnot
  bool _ _ := ⟨Json.throughout_bool _, rfl, nofun, nofun⟩
  other h hplain hshape hnot := isLeft_other hsheltered (h hnot) hplain hshape
  array h hplain harray hnone hnot := isLeft_array hsheltered (h hnot) hplain harray hnone
  items h _ _ hitems hnot := (h hnot).items hitems
  array_items h hplain harray _ hwalked hnot :=
    isLeft_array_items hsheltered (h hnot) hplain harray (hwalked hnot)
  start h hplain hobject hnot := isFolding_start hsheltered (h hnot) hplain hobject
  skip _ h hnone hnot := (h hnot).skip hnone
  drop hcombiner h hitems hnot := (h hnot).drop hwf hcombiner hitems
  member h hnot := (h hnot).raw _ List.mem_cons_self
  merge h hsource hagree hnot := (h hnot).merge hagree
    (hsource.imp (fun ⟨walked, _, hleft, hwalked⟩ => ⟨walked, hleft hnot, hwalked⟩)
      fun hlisted => hlisted hnot)
  pass h _ _ hnot := (h hnot).pass
  property h hkeyword hmembers hentry hnot := by
    exact (h hnot).property (mem_tables_iff.mpr hkeyword) hmembers hentry
  list {keys path origin node members flat} h hnone hmembers hflat hnot := by
    have hfolded := h hnot
    have hleft := areLeft_of_flat hnot (hfolded.tidy.of_find? hmembers).nodup hflat
    refine ⟨hfolded.tidy.insert trivial hleft.tidy, ?_, fun hplace => ?_⟩
    · exact isClear_insert hfolded (by decide) (fun other hother hne =>
        (mem_tables_iff.mp hother).resolve_left hne ▸ hnone) hleft
    · by_cases hat : document.at? path = some origin
      · refine ⟨origin, hat, fun keyword hkeyword name hsilent => ?_⟩
        exact lacksMember_insert hmembers hleft (hfolded.lacksMember (.inr hat) hkeyword hsilent)
      · -- What was merged in at the place of a member is bare, so it is not listed.
        have hbare := (hfolded.bare hat hplace).1
        have htables : "properties" ∈ linkKeywords := by decide
        cases (find?_of_isBare hbare htables).symm.trans hmembers
  patterns h hnone hmembers hflat hnot := by
    have hfolded := h hnot
    have hleft := areLeft_of_flat hnot (hfolded.tidy.of_find? hmembers).nodup hflat
    refine ⟨hfolded.tidy.insert trivial hleft.tidy, ?_,
      fun hplace keyword hkeyword name hsilent schema heq => ?_,
      fun hat hlistable => absurd hlistable (hfolded.not_isListable hnone hat)⟩
    · exact isClear_insert hfolded (by decide) (fun other hother hne =>
        (mem_tables_iff.mp hother).resolve_right hne ▸ hnone) hleft
    · obtain rfl := Json.obj.inj heq
      exact lacksMember_insert hmembers hleft (hfolded.lacksMember hplace hkeyword hsilent)
  bare h hproperties hpatterns hnot := by
    have hfolded := h hnot
    refine ⟨hfolded.tidy, ?_, fun hplace keyword hkeyword name hsilent schema heq => ?_,
      fun hat hlistable => absurd hlistable (hfolded.not_isListable hproperties hat)⟩
    · refine isClear_of_find? hfolded.tidy.nodup fun key value hvalue => ?_
      refine hfolded.isClear_outside hvalue fun htable => ?_
      rcases mem_tables_iff.mp htable with rfl | rfl
      · cases hproperties.symm.trans hvalue
      · cases hpatterns.symm.trans hvalue
    · obtain rfl := Json.obj.inj heq
      exact hfolded.lacksMember hplace hkeyword hsilent

/-- A text that a document shelters stands in no type and no reference of the flattened schemas, if
it is not the pointer of one of them. -/
theorem isClear_of_flattenWithin (hwf : document.wellFormed)
    (hsheltered : ∃ bound, document.everywhere (isSheltered document bound text)) {depth : Nat}
    {schemas : FlatSchemas} (hflatten : flattenWithin depth document = .ok schemas)
    (hnot : ¬IsPointer (Assoc.keys schemas) text) {entry : Entries}
    (hentry : Assoc.find? schemas path = some entry) : isClear text .schema (.obj entry) := by
  have hkept := shelter_kept hwf hsheltered
  have hroot : IsRaw document text .root document :=
    ⟨Json.throughout_of_wellFormed hwf fun _ _ _ _ _ => trivial,
      fun helsewhere => absurd rfl helsewhere, fun helsewhere => absurd rfl helsewhere⟩
  have hgrounded := grounded_of_flattenWithin hkept (fun _ => hroot) hflatten
  exact (hgrounded.listed hkept hentry hnot).clear

end Walk

end Shelter

end SchemaClasses.Flatten
