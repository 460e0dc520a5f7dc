import Mathlib.Data.List.Forall2
import SchemaClasses.Proofs.Flatten.Declared
import SchemaClasses.Proofs.Flatten.Faithful
import SchemaClasses.Proofs.Json.Throughout

/-!
# What a faithful document is flattened to

Main statement (`find?_flattenWithin_iff`): what a faithful document is flattened to are the schemas
that are to be walked for their own sake (`Owned`) and whose fate it is to be listed (`Becomes`).
Neither knows in which order the walk comes to them.

The walk is followed by an invariant (`faith`). What has become of a schema is what its fate says,
also if it was taken over from the table, since at its place no other schema is walked
(`IsLeft.fate`). While the combiners of a schema are folded it is known what will come of that in
the end (`IsFolding.finish`). And all that was to be listed on the way is listed (`ListsAt`): what
leaves the table again is the entry of a member of a combiner, and that was not walked for its own
sake.
-/

namespace SchemaClasses.Flatten

/-! ### What is known of the entries of a schema -/

/-- What is known of an entry of an object once some places are listed: a reference is one of the
document or names a listed place, and the combiners of the members of a combiner are folded. -/
structure Reliable (document : Json) (keys : List SchemaPath) (key : String) (value : Json) :
    Prop where
  reference : key = refKey → ∀ text target, value = .str text →
    SchemaPath.ofPointer text = .ok target → (document.at? target).isSome →
    Named document target ∨ target ∈ keys
  members : key ∈ combiners → ∀ members, value = .arr members → ∀ member ∈ members,
    isFoldable member

/-- Whether this is known of all entries in a value. -/
abbrev AllReliable (document : Json) (keys : List SchemaPath) : Json → Prop :=
  Json.Throughout (Reliable document keys)

section Reliable

variable {document value : Json} {keys more : List SchemaPath} {key : String} {node : Entries}

/-- Nothing is asked of an entry that holds an object. -/
theorem reliable_obj (key : String) (entries : Entries) :
    Reliable document keys key (.obj entries) :=
  ⟨nofun, nofun⟩

/-- Nothing is asked of a keyword that is neither `$ref` nor a combiner. -/
theorem reliable_of_ne (href : key ≠ refKey) (hcombiner : key ∉ combiners) (value : Json) :
    Reliable document keys key value :=
  ⟨fun h => absurd h href, fun h => absurd h hcombiner⟩

/-- A reliable entry stays so when more places are listed. -/
theorem Reliable.mono (hsubset : keys ⊆ more) (h : Reliable document keys key value) :
    Reliable document more key value :=
  ⟨fun hkey text target hvalue htarget hsome =>
    (h.reference hkey text target hvalue htarget hsome).imp_right fun hmem => hsubset hmem,
    h.members⟩

/-- A value whose entries are all reliable stays so when more places are listed. -/
theorem AllReliable.mono (hsubset : keys ⊆ more) (h : AllReliable document keys value) :
    AllReliable document more value :=
  Json.Throughout.mono (fun _ _ h => h.mono hsubset) h

/-- A merge of reliable objects is reliable. -/
theorem AllReliable.merge {target source : Entries} {path : SchemaPath}
    (hagree : (merge target source path).conflict = none)
    (htarget : AllReliable document keys (.obj target))
    (hsource : AllReliable document keys (.obj source)) :
    AllReliable document keys (.obj (merge target source path).value) :=
  throughout_merge reliable_obj (reliable_of_ne (by decide) (by decide))
    (reliable_of_ne (by decide) (by decide)) hagree htarget hsource

/-- The schema that refers to a listed place. -/
theorem allReliable_toSchema {path : SchemaPath} (h : path ∈ keys) :
    AllReliable document keys (Reference.canonical path).toSchema := by
  refine Json.throughout_toSchema ⟨fun _ text target htext htarget _ => ?_, nofun⟩
  obtain rfl := Json.str.inj htext
  rw [SchemaPath.ofPointer_toPointer] at htarget
  exact .inr (Except.ok.inj htarget ▸ h)

/-- This is known of a document from the beginning. -/
theorem Faithful.allReliable (hfaithful : Faithful document) (hwf : document.wellFormed) :
    AllReliable document [] document := by
  refine Json.throughout_of_wellFormed hwf fun place entries hstands entry hentry => ⟨?_, ?_⟩
  · rintro hkey text target hvalue htarget hsome
    have hmem : (refKey, Json.str text) ∈ entries := hkey ▸ hvalue ▸ hentry
    exact .inl ⟨⟨place, text, Json.mem_refs_of_mem hwf hstands hmem, htarget⟩, hsome⟩
  · rintro hcombiner members hvalue member hmember
    have hfoldable : hasFoldableMembers (.obj entries) :=
      Json.test_of_everywhere (hstands.everywhere hfaithful.foldable)
    have hall := List.all_eq_true.mp hfoldable entry hentry
    rw [hvalue] at hall
    simp only [hcombiner, decide_true, Bool.not_true, Bool.false_or] at hall
    exact List.all_eq_true.mp hall member hmember

/-- A reference in a reliable object names a target that the document refers to or that is
listed. -/
theorem AllReliable.of_textRef? {text : String} {target : SchemaPath} {schema : Json}
    (h : AllReliable document keys (.obj node)) (htext : textRef? node = some text)
    (htarget : SchemaPath.ofPointer text = .ok target)
    (hschema : document.at? target = some schema) : Named document target ∨ target ∈ keys :=
  (h.of_mem (Assoc.mem_of_find? (textRef?_eq_some_iff.mp htext))).1.reference rfl text target rfl
    htarget (Option.isSome_of_eq_some hschema)

/-- A foldable schema that is no object for the walk has no combiners. -/
theorem lacksCombiners_of_isFoldable (h : isFoldable (.obj node)) (hplain : textRef? node = none)
    (hshape : Shape.ofSchema node ≠ .object) : lacksCombiners (.obj node) := by
  rw [isFoldable, hplain] at h
  simpa [hshape] using h

end Reliable

namespace Faithful

/-! ### The stages of the walk -/

/-- What is known of a schema before the walk. -/
structure IsRaw (document : Json) (keys : List SchemaPath) (path : SchemaPath) (schema : Json) :
    Prop where
  visited : Visited document (path, schema)
  reliable : AllReliable document keys schema

/-- What is known of a member that has been folded. -/
structure IsDone (document : Json) (keys : List SchemaPath) (site : Site) : Prop where
  fate : ∃ fate, Becomes document site.1 site.2 fate
  lists : ListsAt document keys site

/-- What comes of folding what is still to be folded. -/
noncomputable def finish (document : Json) (path : SchemaPath) (first : Entries)
    (pending : Pending) (node : Entries) : Option Entries :=
  (pending.members.foldlM (foldFate path (fateOf document)) node).bind fun folded =>
    pending.combiners.foldlM (foldCombinerFate path (fateOf document) first) folded

/-- What is known of a schema while its combiners are folded: whatever has been done so far, in the
end there will be what its fate says. -/
structure IsFolding (document : Json) (keys : List SchemaPath) (path : SchemaPath)
    (first : Entries) (pending : Pending) (node : Entries) : Prop where
  visited : Visited document (path, .obj first)
  plain : textRef? first = none
  shape : Shape.ofSchema first = .object
  reliable : AllReliable document keys (.obj node)
  /-- What is to be folded next is one of the members, and nothing is passed over there. -/
  members : ∀ site ∈ pending.members, site ∈ membersOf path first ∧ isFoldable site.2 ∧
    AllReliable document keys site.2
  /-- The combiners that are still to be folded are the ones that the schema had at first. -/
  later : ∀ combiner ∈ pending.combiners,
    Assoc.find? node combiner = Assoc.find? first combiner
  /-- The others are gone, and no member has brought them in again. -/
  gone : ∀ combiner ∈ combiners, combiner ∉ pending.combiners →
    Assoc.find? node combiner = none
  behind : pending.combiners <:+ combiners
  /-- Each member is still to be folded or has been. -/
  done : ∀ site ∈ membersOf path first, site ∈ pending.members ∨
    site ∈ membersUnder path first pending.combiners ∨ IsDone document keys site
  /-- What will come of it is what comes of the schema by itself. -/
  finish : finish document path first pending node = foldAll path (fateOf document) first

/-- What is known of what has become of a schema. -/
structure IsLeft (document : Json) (keys : List SchemaPath) (path : SchemaPath) (schema : Json)
    (walked : Walked) : Prop where
  fate : ∃ fate, Becomes document path schema fate ∧ walked = fate.walked path
  lists : ListsAt document keys (path, schema)
  canonical : ∀ target, walked = .canonical target → target ∈ keys
  reliable : AllReliable document keys walked.toJson
  /-- It may stand in a table under any name, also under that of a keyword. -/
  anyName : ∀ key, Reliable document keys key walked.toJson
  /-- It can be merged without bringing a combiner in. -/
  folded : isFoldable schema → lacksCombiners walked.toJson

/-- What is known of a listed schema. -/
structure IsListed (document : Json) (keys : List SchemaPath) (path : SchemaPath)
    (entry : Entries) : Prop where
  site : ∃ schema, Visited document (path, schema) ∧
    Becomes document path schema (.listed entry) ∧ ListsAt document keys (path, schema)
  reliable : AllReliable document keys (.obj entry)
  folded : lacksCombiners (.obj entry)

end Faithful

/-- What is known at the stages of the walk of a faithful document: what becomes of a schema is its
fate, and all that is to be listed on the way is listed. -/
def faith (document : Json) : Invariant where
  raw keys path schema := Faithful.IsRaw document keys path schema
  folding keys path origin pending node := ∃ first, origin = .obj first ∧
    Faithful.IsFolding document keys path first pending node
  left keys path schema walked := Visited document (path, schema) →
    Faithful.IsLeft document keys path schema walked
  listed keys path entry := Faithful.IsListed document keys path entry
  own path := ∃ schema, Owned document (path, schema)

/-! ### The steps of the walk -/

section Steps

variable {document : Json} {keys more : List SchemaPath} {path target : SchemaPath}
  {schema : Json} {node first members flat : Entries} {walked : Walked} {entry : Entries}
  {text keyword : String} {pending : Pending}

/-- A schema whose walk calls for nothing has all listed that it should. -/
theorem ListsAt.of_none (h : ∀ role next, ¬Calls document role (path, schema) next) :
    ListsAt document keys (path, schema) :=
  listsAt_of_calls fun role next hcall => absurd hcall (h role next)

namespace Faithful

/-- What has been listed for its own sake is listed. -/
theorem IsLeft.mem_keys (h : IsLeft document keys path schema walked)
    (hlisted : GetsListed document (path, schema)) : path ∈ keys := by
  obtain ⟨fate, hfate, hwalked⟩ := h.fate
  obtain ⟨entry, hentry⟩ := hlisted
  obtain rfl := hfate.unique hentry
  exact h.canonical path hwalked

/-- What is known of what has become of a schema stays known when more places are listed. -/
theorem IsLeft.mono (hsubset : keys ⊆ more) (h : IsLeft document keys path schema walked) :
    IsLeft document more path schema walked :=
  ⟨h.fate, h.lists.mono hsubset, fun target heq => hsubset (h.canonical target heq),
    h.reliable.mono hsubset, fun key => (h.anyName key).mono hsubset, h.folded⟩

/-- What is known of a schema that is being folded stays known when more places are listed. -/
theorem IsFolding.mono (hsubset : keys ⊆ more)
    (h : IsFolding document keys path first pending node) :
    IsFolding document more path first pending node where
  visited := h.visited
  plain := h.plain
  shape := h.shape
  reliable := h.reliable.mono hsubset
  members site hsite := (h.members site hsite).imp_right
    fun hmember => hmember.imp_right fun hreliable => hreliable.mono hsubset
  later := h.later
  gone := h.gone
  behind := h.behind
  done site hsite := (h.done site hsite).imp_right
    fun hlater => hlater.imp_right fun hdone => ⟨hdone.fate, hdone.lists.mono hsubset⟩
  finish := h.finish

/-- A schema that refers to a listed place. -/
theorem isLeft_canonical (hfate : ∃ fate, Becomes document path schema fate ∧
      .canonical target = fate.walked path) (hlists : ListsAt document keys (path, schema))
    (hlisted : target ∈ keys) : IsLeft document keys path schema (.canonical target) where
  fate := hfate
  lists := hlists
  canonical _ heq := Walked.canonical.inj heq ▸ hlisted
  reliable := allReliable_toSchema hlisted
  anyName key := reliable_obj key _
  folded _ := rfl

/-- A schema that stays where it is. -/
theorem isLeft_inPlace {result : Entries}
    (hfate : Becomes document path (.obj node) (.inPlace (.obj result)))
    (hlists : ListsAt document keys (path, .obj node))
    (hreliable : AllReliable document keys (.obj result))
    (hfolded : isFoldable (.obj node) → lacksCombiners (.obj result)) :
    IsLeft document keys path (.obj node) (.inPlace (.obj result)) where
  fate := ⟨_, hfate, rfl⟩
  lists := hlists
  canonical := nofun
  reliable := hreliable
  anyName key := reliable_obj key _
  folded := hfolded

/-- A reference to a listed place becomes one, whether it is one of the document or not. -/
theorem isLeft_refer (hfaithful : Faithful document) (hlisted : target ∈ keys)
    (hentry : IsListed document keys target entry) (htext : textRef? node = some text)
    (htarget : SchemaPath.ofPointer text = .ok target) :
    IsLeft document keys path (.obj node) (.canonical target) := by
  obtain ⟨schema, hvisited, hfate, hlists⟩ := hentry.site
  by_cases hnamed : Named document target
  · have hschema := hfaithful.same target schema hnamed hvisited
    refine isLeft_canonical ⟨_, .follow htext htarget hnamed hschema hfate, rfl⟩
      (listsAt_of_calls fun role next hcall => ?_) hlisted
    obtain ⟨-, -, other, hother, rfl⟩ := hcall.of_textRef? htext htarget
    obtain rfl := Option.some.inj (hschema.symm.trans hother)
    exact ⟨hlists, fun _ _ => hlisted⟩
  · exact isLeft_canonical ⟨_, .refer htext htarget hnamed, rfl⟩
      (.of_none fun role next hcall => hnamed (hcall.of_textRef? htext htarget).2.1) hlisted

/-- A reference of the document becomes what its target becomes. -/
theorem IsLeft.follow (hfaithful : Faithful document) (htext : textRef? node = some text)
    (htarget : SchemaPath.ofPointer text = .ok target) (hnamed : Named document target)
    (hschema : document.at? target = some schema)
    (h : IsLeft document keys target schema walked) :
    IsLeft document keys path (.obj node) walked := by
  obtain ⟨fate, hfate, hwalked⟩ := h.fate
  refine ⟨⟨_, .follow htext htarget hnamed hschema hfate, ?_⟩,
    listsAt_of_calls fun role next hcall => ?_, h.canonical, h.reliable, h.anyName,
    fun _ => h.folded ((hfaithful.target target hnamed).2 schema hschema)⟩
  · rw [Fate.walked_seenFrom, hwalked]
  · obtain ⟨-, -, other, hother, rfl⟩ := hcall.of_textRef? htext htarget
    obtain rfl := Option.some.inj (hschema.symm.trans hother)
    exact ⟨h.lists, fun _ hlisted => h.mem_keys hlisted⟩

/-! #### Schemas without combiners and tables -/

/-- A truth value becomes itself. -/
theorem isLeft_bool {value : Bool} :
    IsLeft document keys path (.bool value) (.inPlace (.bool value)) where
  fate := ⟨_, .bool, rfl⟩
  lists := .of_none fun _ _ hcall => nomatch hcall
  canonical := nofun
  reliable := Json.throughout_bool _
  anyName _ := ⟨nofun, nofun⟩
  folded _ := rfl

/-- A schema that is neither object nor array. -/
theorem isLeft_other (hreliable : AllReliable document keys (.obj node))
    (hplain : textRef? node = none) (hshape : Shape.ofSchema node = .other) :
    IsLeft document keys path (.obj node) (.inPlace (.obj node)) :=
  isLeft_inPlace (.other hplain hshape)
    (.of_none fun role next hcall => hcall.shape_ne_other hplain hshape) hreliable
    fun hfoldable => lacksCombiners_of_isFoldable hfoldable hplain (by rw [hshape]; decide)

/-- A reliable array without items becomes itself. -/
theorem isLeft_array (hreliable : AllReliable document keys (.obj node))
    (hplain : textRef? node = none) (hshape : Shape.ofSchema node = .array)
    (hnone : Assoc.find? node "items" = none) :
    IsLeft document keys path (.obj node) (.inPlace (.obj node)) := by
  have hsettle : settleArray path (fateOf document) node = .inPlace (.obj node) := by
    rw [settleArray, hnone]
  have hfate : Becomes document path (.obj node) (settleArray path (fateOf document) node) :=
    .array hplain hshape fun items hitems => by cases hnone.symm.trans hitems
  refine isLeft_inPlace (hsettle ▸ hfate) (.of_none fun role next hcall => ?_) hreliable
    fun hfoldable => lacksCombiners_of_isFoldable hfoldable hplain (by rw [hshape]; decide)
  obtain ⟨-, items, hitems, -⟩ := hcall.of_array hplain hshape
  cases hnone.symm.trans hitems

/-- A reliable array becomes itself with what has become of its items. -/
theorem IsLeft.array {items : Json} (hreliable : AllReliable document keys (.obj node))
    (hplain : textRef? node = none) (hshape : Shape.ofSchema node = .array)
    (hitems : Assoc.find? node "items" = some items)
    (h : IsLeft document keys (path.child "items") items walked) :
    IsLeft document keys path (.obj node)
      (.inPlace (.obj (Assoc.insert node "items" walked.toJson))) := by
  obtain ⟨fate, hfate, hwalked⟩ := h.fate
  have hsettle : settleArray path (fateOf document) node =
      .inPlace (.obj (Assoc.insert node "items" walked.toJson)) := by
    unfold settleArray
    simp only [hitems, hfate.fateOf_eq, Fate.toJson, ← hwalked]
  have hbecomes : Becomes document path (.obj node) (settleArray path (fateOf document) node) := by
    refine .array hplain hshape fun other hother => becomes_fateOf ⟨fate, ?_⟩
    exact Option.some.inj (hitems.symm.trans hother) ▸ hfate
  refine isLeft_inPlace (hsettle ▸ hbecomes) (listsAt_of_calls fun role next hcall => ?_)
    (hreliable.insert (reliable_of_ne (by decide) (by decide) _) h.reliable)
    fun hfoldable => lacksCombiners_insert
      (lacksCombiners_of_isFoldable hfoldable hplain (by rw [hshape]; decide)) (by decide)
  obtain ⟨-, other, hother, rfl⟩ := hcall.of_array hplain hshape
  obtain rfl := Option.some.inj (hitems.symm.trans hother)
  exact ⟨h.lists, fun _ hlisted => h.mem_keys hlisted⟩

/-! #### Combiners -/

variable {combiner : String} {rest : List String} {place : SchemaPath} {member : Json}
  {others : List Site} {between source : Entries}

/-- Folding goes on with the next combiner. -/
theorem finish_combiner : finish document path first ⟨[], combiner :: rest⟩ node =
    (foldCombinerFate path (fateOf document) first node combiner).bind fun folded =>
      rest.foldlM (foldCombinerFate path (fateOf document) first) folded :=
  rfl

/-- Folding goes on with the next member. -/
theorem finish_member {site : Site} : finish document path first ⟨site :: others, rest⟩ node =
    (foldFate path (fateOf document) node site).bind fun between =>
      finish document path first ⟨others, rest⟩ between := by
  rw [finish, List.foldlM_cons]
  exact Option.bind_assoc _ _ _

/-- At first all combiners are still to be folded. -/
theorem isFolding_combiners (h : IsRaw document keys path (.obj node))
    (hplain : textRef? node = none) (hshape : Shape.ofSchema node = .object) :
    IsFolding document keys path node ⟨[], combiners⟩ node where
  visited := h.visited
  plain := hplain
  shape := hshape
  reliable := h.reliable
  members _ hsite := absurd hsite List.not_mem_nil
  later _ _ := rfl
  gone _ hmem hnot := absurd hmem hnot
  behind := List.suffix_rfl
  done _ hsite := .inr (.inl hsite)
  finish := rfl

/-- A combiner that the schema does not have may be skipped. -/
theorem IsFolding.skip (h : IsFolding document keys path first ⟨[], combiner :: rest⟩ node)
    (hnone : Assoc.find? node combiner = none) :
    IsFolding document keys path first ⟨[], rest⟩ node where
  visited := h.visited
  plain := h.plain
  shape := h.shape
  reliable := h.reliable
  members _ hsite := absurd hsite List.not_mem_nil
  later other hother := h.later other (List.mem_cons_of_mem _ hother)
  gone := FoldedBut.skip h.gone hnone
  behind := (List.suffix_cons combiner rest).trans h.behind
  done site hsite := by
    have hfirst := (h.later combiner List.mem_cons_self).symm.trans hnone
    exact membersUnder_of_none hfirst ▸ h.done site hsite
  finish := by
    have hfirst := (h.later combiner List.mem_cons_self).symm.trans hnone
    have hskip : foldCombinerFate path (fateOf document) first node combiner = some node := by
      unfold foldCombinerFate
      rw [hfirst]
    rw [← h.finish, finish_combiner, hskip]
    rfl

/-- A combiner may be dropped for its members, which are still to be folded. -/
theorem IsFolding.drop {members : List Json} (hcombiner : combiner ∈ combiners)
    (h : IsFolding document keys path first ⟨[], combiner :: rest⟩ node)
    (hmembers : Assoc.find? node combiner = some (.arr members)) :
    IsFolding document keys path first ⟨memberPlaces path combiner 0 members, rest⟩
      (Assoc.swapErase node combiner) where
  visited := h.visited
  plain := h.plain
  shape := h.shape
  reliable := h.reliable.swapErase combiner
  members site hsite := by
    have hfirst := (h.later combiner List.mem_cons_self).symm.trans hmembers
    have hmember := mem_of_mem_memberPlaces hsite
    refine ⟨mem_membersUnder.mpr ⟨combiner, hcombiner, members, hfirst, hsite⟩, ?_, ?_⟩
    · exact (h.reliable.of_mem (Assoc.mem_of_find? hmembers)).1.members hcombiner members rfl _
        hmember
    · exact Json.throughout_arr.mp (h.reliable.of_find? hmembers) _ hmember
  later other hother := by
    rw [Assoc.find?_swapErase_of_ne h.reliable.nodup (ne_of_behind h.behind hother)]
    exact h.later other (List.mem_cons_of_mem _ hother)
  gone := FoldedBut.drop h.gone h.reliable.nodup
  behind := (List.suffix_cons combiner rest).trans h.behind
  done site hsite := by
    have hfirst := (h.later combiner List.mem_cons_self).symm.trans hmembers
    rcases h.done site hsite with hnone | hunder | hdone
    · exact absurd hnone List.not_mem_nil
    · rw [membersUnder_of_arr hfirst, List.mem_append] at hunder
      exact hunder.imp_right .inl
    · exact .inr (.inr hdone)
  finish := by
    have hfirst := (h.later combiner List.mem_cons_self).symm.trans hmembers
    have hdrop : foldCombinerFate path (fateOf document) first node combiner =
        (memberPlaces path combiner 0 members).foldlM (foldFate path (fateOf document))
          (Assoc.swapErase node combiner) := by
      unfold foldCombinerFate
      rw [hfirst]
    rw [← h.finish, finish_combiner, hdrop]
    rfl

/-- A member is walked as it stands. -/
theorem IsFolding.isRaw
    (h : IsFolding document keys path first ⟨(place, member) :: others, rest⟩ node) :
    IsRaw document keys place member := by
  obtain ⟨hmember, -, hreliable⟩ := h.members _ List.mem_cons_self
  exact ⟨h.visited.tail ⟨_, .member h.plain h.shape hmember⟩, hreliable⟩

/-- Once a member is folded, the others are left. -/
theorem IsFolding.next
    (h : IsFolding document keys path first ⟨(place, member) :: others, rest⟩ node)
    (hdone : IsDone document keys (place, member))
    (hfold : foldFate path (fateOf document) node (place, member) = some between)
    (hreliable : AllReliable document keys (.obj between))
    (hcombiners : ∀ combiner ∈ combiners,
      Assoc.find? between combiner = Assoc.find? node combiner) :
    IsFolding document keys path first ⟨others, rest⟩ between where
  visited := h.visited
  plain := h.plain
  shape := h.shape
  reliable := hreliable
  members site hsite := h.members site (List.mem_cons_of_mem _ hsite)
  later other hother := (hcombiners other (h.behind.subset hother)).trans (h.later other hother)
  gone other hmem hnot := (hcombiners other hmem).trans (h.gone other hmem hnot)
  behind := h.behind
  done site hsite := by
    rcases h.done site hsite with hmember | hlater
    · rcases List.mem_cons.mp hmember with rfl | hother
      · exact .inr (.inr hdone)
      · exact .inl hother
    · exact .inr hlater
  finish := by
    rw [← h.finish, finish_member, hfold]
    rfl

/-- Merging what a member contributes according to its fate leaves what is still to come as it
was. -/
theorem IsFolding.merge
    (h : IsFolding document keys path first ⟨(place, member) :: others, rest⟩ node)
    {fate : Fate} (hfate : Becomes document place member fate)
    (hcontribution : fate.contribution = .obj source)
    (hlists : ListsAt document keys (place, member))
    (hreliable : AllReliable document keys (.obj source)) (hfolded : lacksCombiners (.obj source))
    (hagree : (merge node source path).conflict = none) :
    IsFolding document keys path first ⟨others, rest⟩ (merge node source path).value := by
  refine h.next ⟨⟨fate, hfate⟩, hlists⟩ ?_ (h.reliable.merge hagree hreliable)
    fun combiner hcombiner => find?_combiner_merge hagree h.reliable.nodup hreliable.nodup
      hcombiner (find?_combiner hfolded hcombiner)
  unfold foldFate
  simp only [hfate.fateOf_eq, hcontribution, hagree]

/-- A member that is left where it is, or is listed at another place. -/
theorem isFolding_merge_of_isLeft
    (h : IsFolding document keys path first ⟨(place, member) :: others, rest⟩ node)
    (hne : walked ≠ .canonical place) (hleft : IsLeft document keys place member walked)
    (hsource : walked.toJson = .obj source) (hagree : (merge node source path).conflict = none) :
    IsFolding document keys path first ⟨others, rest⟩ (merge node source path).value := by
  obtain ⟨fate, hfate, rfl⟩ := hleft.fate
  exact h.merge hfate ((Fate.contribution_eq_toJson hne).trans hsource) hleft.lists
    (hsource ▸ hleft.reliable)
    (hsource ▸ hleft.folded (h.members _ List.mem_cons_self).2.1) hagree

/-- A member that is listed at its own place. -/
theorem isFolding_merge_of_isListed (hfaithful : Faithful document)
    (h : IsFolding document keys path first ⟨(place, member) :: others, rest⟩ node)
    (hlisted : IsListed document keys place source)
    (hagree : (merge node source path).conflict = none) :
    IsFolding document keys path first ⟨others, rest⟩ (merge node source path).value := by
  obtain ⟨schema, hvisited, hfate, hlists⟩ := hlisted.site
  obtain rfl := hfaithful.unique h.isRaw.visited hvisited rfl
  exact h.merge hfate rfl hlists hlisted.reliable hlisted.folded hagree

/-- A member that contributes no object may be passed over. -/
theorem IsFolding.pass
    (h : IsFolding document keys path first ⟨(place, member) :: others, rest⟩ node)
    (hleft : IsLeft document keys place member walked)
    (hother : ∀ source, walked.toJson ≠ .obj source) :
    IsFolding document keys path first ⟨others, rest⟩ node := by
  obtain ⟨fate, hfate, rfl⟩ := hleft.fate
  refine h.next ⟨⟨fate, hfate⟩, hleft.lists⟩ ?_ h.reliable fun _ _ => rfl
  cases fate with
  | listed entry => exact absurd rfl (hother _)
  | refers target => exact absurd rfl (hother _)
  | inPlace schema =>
    unfold foldFate
    rw [hfate.fateOf_eq]
    cases schema with
    | obj source => exact absurd rfl (hother source)
    | _ => rfl

/-! #### Settled schemas -/

/-- In the end all members are folded. -/
theorem IsFolding.isDone {site : Site} (h : IsFolding document keys path first ⟨[], []⟩ node)
    (hsite : site ∈ membersOf path first) : IsDone document keys site := by
  rcases h.done site hsite with hmember | hunder | hdone
  · exact absurd hmember List.not_mem_nil
  · exact absurd hunder List.not_mem_nil
  · exact hdone

/-- When nothing is left to be folded, the schema is what its fold is. -/
theorem IsFolding.folds (h : IsFolding document keys path first ⟨[], []⟩ node) :
    Folds document path first node :=
  ⟨fun _ hsite => (h.isDone hsite).fate, h.finish.symm⟩

/-- When nothing is left to be folded, the schema has no combiners. -/
theorem IsFolding.lacksCombiners (h : IsFolding document keys path first ⟨[], []⟩ node) :
    lacksCombiners (.obj node) :=
  FoldedBut.lacksCombiners h.gone

/-- The schemas in the tables of the folded schema are called for. -/
theorem IsFolding.calls (h : IsFolding document keys path first ⟨[], []⟩ node)
    (hkeyword : keyword ∈ tables) (hmembers : Assoc.find? node keyword = some (.obj members))
    {entry : String × Json} (hentry : entry ∈ members) :
    Calls document .own (path, .obj first) (path ++ [keyword, entry.1], entry.2) :=
  .schema h.plain h.shape h.folds hkeyword hmembers
    ((Assoc.find?_eq_some_iff (h.reliable.of_find? hmembers).nodup).mpr hentry)

/-- What becomes of a schema once it is known of the schemas in its tables. -/
theorem IsFolding.settled {fate : Fate} (h : IsFolding document keys path first ⟨[], []⟩ node)
    (hschemas : ∀ site ∈ schemasOf path node, ∃ walked,
      IsLeft document keys site.1 site.2 walked)
    (hsettle : settle path (fateOf document) node = some fate) :
    Becomes document path (.obj first) fate ∧ ListsAt document keys (path, .obj first) := by
  constructor
  · refine h.folds.becomes h.plain h.shape (fun site hsite => ?_) hsettle
    obtain ⟨walked, hleft⟩ := hschemas site hsite
    exact hleft.fate.imp fun _ hfate => hfate.1
  · refine listsAt_of_calls fun role next hcall => ?_
    rcases hcall.of_object h.plain h.shape with
      ⟨rfl, hmember⟩ | ⟨-, folded, _, _, _, _, hfolds, hkeyword, hmembers, hschema, rfl⟩
    · exact ⟨(h.isDone hmember).lists, nofun⟩
    · obtain rfl := hfolds.unique h.folds
      obtain ⟨walked, hleft⟩ := hschemas _ (mem_schemasOf.mpr
        ⟨_, hkeyword, _, hmembers, _, Assoc.mem_of_find? hschema, rfl⟩)
      exact ⟨hleft.lists, fun _ hlisted => hleft.mem_keys hlisted⟩

/-- What is left of the schemas of a table is what becomes of them. -/
theorem flat_eq_flatTable (hvisited : ∀ entry ∈ members,
      Visited document (path ++ [keyword, entry.1], entry.2))
    (hflat : (faith document).Flat keys path keyword members flat) :
    flat = flatTable path (fateOf document) keyword members := by
  have hsame : List.Forall₂ Eq (flatTable path (fateOf document) keyword members) flat := by
    refine List.forall₂_map_left_iff.mpr
      (((List.forall₂_and_left _ _).mpr ⟨hvisited, hflat⟩).imp fun member flat hboth => ?_)
    obtain ⟨hvisited, hname, walked, hwalked, hvalue⟩ := hboth
    have hleft : IsLeft document keys (path ++ [keyword, member.1]) member.2 walked :=
      hwalked hvisited
    obtain ⟨fate, hfate, rfl⟩ := hleft.fate
    rw [hfate.fateOf_eq]
    exact Prod.ext hname.symm hvalue.symm
  exact (List.forall₂_eq_eq_eq ▸ hsame).symm

/-- What is known of the schemas of a table after their walks. -/
theorem IsFolding.of_flat (h : IsFolding document keys path first ⟨[], []⟩ node)
    (hkeyword : keyword ∈ tables) (hmembers : Assoc.find? node keyword = some (.obj members))
    (hflat : (faith document).Flat keys path keyword members flat) :
    flat = flatTable path (fateOf document) keyword members ∧
      AllReliable document keys (.obj flat) ∧
      ∀ entry ∈ members, ∃ walked,
        IsLeft document keys (path ++ [keyword, entry.1]) entry.2 walked := by
  have hvisited : ∀ entry ∈ members, Visited document (path ++ [keyword, entry.1], entry.2) :=
    fun entry hentry => h.visited.tail ⟨_, h.calls hkeyword hmembers hentry⟩
  have hleft : ∀ entry ∈ members, ∀ walked,
      (faith document).left keys (path ++ [keyword, entry.1]) entry.2 walked →
        IsLeft document keys (path ++ [keyword, entry.1]) entry.2 walked :=
    fun entry hentry walked hleft => hleft (hvisited entry hentry)
  refine ⟨flat_eq_flatTable hvisited hflat,
    Json.throughout_obj.mpr ⟨?_, fun entry hentry => ?_⟩, fun entry hentry => ?_⟩
  · exact hflat.keys_eq ▸ (h.reliable.of_find? hmembers).nodup
  · obtain ⟨member, hmember, walked, hwalked, hvalue⟩ := hflat.exists_of_mem hentry
    rw [hvalue]
    exact ⟨(hleft member hmember walked hwalked).anyName _,
      (hleft member hmember walked hwalked).reliable⟩
  · obtain ⟨walked, hwalked, -⟩ := hflat.exists_of_find?
      ((Assoc.find?_eq_some_iff (h.reliable.of_find? hmembers).nodup).mpr hentry)
    exact ⟨walked, hleft entry hentry walked hwalked⟩

/-- The schemas of the one table that a schema has. -/
theorem mem_schemasOf_of_forall {site : Site}
    (hmembers : Assoc.find? node keyword = some (.obj members))
    (hother : ∀ other ∈ tables, other ≠ keyword → Assoc.find? node other = none)
    (h : site ∈ schemasOf path node) :
    ∃ entry ∈ members, site = (path ++ [keyword, entry.1], entry.2) := by
  obtain ⟨other, hother', members', hmembers', entry, hentry, rfl⟩ := mem_schemasOf.mp h
  by_cases heq : other = keyword
  · subst heq
    obtain rfl := Json.obj.inj (Option.some.inj (hmembers.symm.trans hmembers'))
    exact ⟨entry, hentry, rfl⟩
  · cases (hother other hother' heq).symm.trans hmembers'

/-- What becomes of a schema with one table once that is known of the schemas in it. -/
theorem IsFolding.settled_of_flat {fate : Fate}
    (h : IsFolding document keys path first ⟨[], []⟩ node) (hkeyword : keyword ∈ tables)
    (hmembers : Assoc.find? node keyword = some (.obj members))
    (hother : ∀ other ∈ tables, other ≠ keyword → Assoc.find? node other = none)
    (hflat : (faith document).Flat keys path keyword members flat)
    (hsettle : settle path (fateOf document) node = some fate) :
    Becomes document path (.obj first) fate ∧ ListsAt document keys (path, .obj first) := by
  obtain ⟨-, -, hleft⟩ := h.of_flat hkeyword hmembers hflat
  refine h.settled (fun site hsite => ?_) hsettle
  obtain ⟨entry, hentry, rfl⟩ := mem_schemasOf_of_forall hmembers hother hsite
  exact hleft entry hentry

/-- A schema with properties is listed. -/
theorem IsFolding.list (h : IsFolding document keys path first ⟨[], []⟩ node)
    (hnone : Assoc.find? node "patternProperties" = none)
    (hmembers : Assoc.find? node "properties" = some (.obj members))
    (hflat : (faith document).Flat keys path "properties" members flat) :
    IsListed document keys path (Assoc.insert node "properties" (.obj flat)) := by
  obtain ⟨hflat', hreliable, -⟩ := h.of_flat (by decide) hmembers hflat
  have hsettle : settle path (fateOf document) node =
      some (.listed (Assoc.insert node "properties" (.obj flat))) := by
    unfold settle
    rw [hmembers, hnone, hflat']
  obtain ⟨hfate, hlists⟩ := h.settled_of_flat (by decide) hmembers
    (fun other hother hne => (mem_tables_iff.mp hother).resolve_left hne ▸ hnone) hflat hsettle
  exact ⟨⟨_, h.visited, hfate, hlists⟩, h.reliable.insert (reliable_obj _ _) hreliable,
    lacksCombiners_insert h.lacksCombiners (by decide)⟩

/-- A schema with patterns stays where it is. -/
theorem IsFolding.patterns (h : IsFolding document keys path first ⟨[], []⟩ node)
    (hnone : Assoc.find? node "properties" = none)
    (hmembers : Assoc.find? node "patternProperties" = some (.obj members))
    (hflat : (faith document).Flat keys path "patternProperties" members flat) :
    IsLeft document keys path (.obj first)
      (.inPlace (.obj (Assoc.insert node "patternProperties" (.obj flat)))) := by
  obtain ⟨hflat', hreliable, -⟩ := h.of_flat (by decide) hmembers hflat
  have hsettle : settle path (fateOf document) node =
      some (.inPlace (.obj (Assoc.insert node "patternProperties" (.obj flat)))) := by
    unfold settle
    rw [hmembers, hnone, hflat']
  obtain ⟨hfate, hlists⟩ := h.settled_of_flat (by decide) hmembers
    (fun other hother hne => (mem_tables_iff.mp hother).resolve_right hne ▸ hnone) hflat hsettle
  exact isLeft_inPlace hfate hlists (h.reliable.insert (reliable_obj _ _) hreliable)
    fun _ => lacksCombiners_insert h.lacksCombiners (by decide)

/-- A schema with neither properties nor patterns stays where it is. -/
theorem IsFolding.bare (h : IsFolding document keys path first ⟨[], []⟩ node)
    (hproperties : Assoc.find? node "properties" = none)
    (hpatterns : Assoc.find? node "patternProperties" = none) :
    IsLeft document keys path (.obj first) (.inPlace (.obj node)) := by
  have hsettle : settle path (fateOf document) node = some (.inPlace (.obj node)) := by
    unfold settle
    rw [hproperties, hpatterns]
  obtain ⟨hfate, hlists⟩ := h.settled (fun site hsite => by
    obtain ⟨keyword, hkeyword, members, hmembers, -⟩ := mem_schemasOf.mp hsite
    rcases mem_tables_iff.mp hkeyword with rfl | rfl
    · cases hproperties.symm.trans hmembers
    · cases hpatterns.symm.trans hmembers) hsettle
  exact isLeft_inPlace hfate hlists h.reliable fun _ => h.lacksCombiners

end Faithful

end Steps

/-! ### What a document is flattened to -/

section Runs

variable {document : Json} {keys : List SchemaPath} {path : SchemaPath} {node members : Entries}
  {keyword : String}

open Faithful

/-- The walk of a faithful document keeps what is known of fates. -/
theorem faith_kept (hfaithful : Faithful document) (hwf : document.wellFormed) :
    (faith document).Kept document where
  raw_mono hsubset h := ⟨h.visited, h.reliable.mono hsubset⟩
  folding_mono hsubset := fun ⟨first, horigin, h⟩ => ⟨first, horigin, h.mono hsubset⟩
  left_mono hsubset h hvisited := (h hvisited).mono hsubset
  listed_mono hsubset h := by
    obtain ⟨schema, hvisited, hfate, hlists⟩ := h.site
    exact ⟨⟨schema, hvisited, hfate, hlists.mono hsubset⟩, h.reliable.mono hsubset, h.folded⟩
  target h htext htarget hnew hschema := by
    have hnamed := (h.reliable.of_textRef? htext htarget hschema).resolve_right hnew
    exact ⟨h.visited.tail ⟨_, .target htext htarget hnamed hschema⟩,
      AllReliable.mono (List.nil_subset _) ((hfaithful.allReliable hwf).of_at? hschema)⟩
  follow hsubset h htext htarget hnew hschema hwalked hvisited := by
    have hnamed := (h.reliable.of_textRef? htext htarget hschema).resolve_right hnew
    exact (hwalked (hvisited.tail ⟨_, .target htext htarget hnamed hschema⟩)).follow hfaithful htext
      htarget hnamed hschema
  refer _ htext htarget hlisted hentry _ := isLeft_refer hfaithful hlisted hentry htext htarget
  reference hlisted hentry hvisited := by
    -- at one place a faithful document has one schema visited, so the entry is of this one
    obtain ⟨schema, hvisited', hfate, hlists⟩ := hentry.site
    obtain rfl := hfaithful.unique hvisited hvisited' rfl
    exact isLeft_canonical ⟨_, hfate, rfl⟩ hlists hlisted
  bool _ _ := isLeft_bool
  other h hplain hshape _ := isLeft_other h.reliable hplain hshape
  array h hplain harray hnone _ :=
    isLeft_array h.reliable hplain (ofSchema_eq_array.mpr harray) hnone
  items h hplain harray hitems :=
    ⟨h.visited.tail ⟨_, .items hplain (ofSchema_eq_array.mpr harray) hitems⟩,
      h.reliable.of_find? hitems⟩
  array_items h hplain harray hitems hwalked hvisited := by
    have hshape := ofSchema_eq_array.mpr harray
    exact .array h.reliable hplain hshape hitems
      (hwalked (hvisited.tail ⟨_, .items hplain hshape hitems⟩))
  start h hplain hobject :=
    ⟨_, rfl, isFolding_combiners h hplain (ofSchema_eq_object.mpr hobject)⟩
  skip _ := fun ⟨first, horigin, h⟩ hnone => ⟨first, horigin, h.skip hnone⟩
  drop hcombiner := fun ⟨first, horigin, h⟩ hmembers =>
    ⟨first, horigin, h.drop hcombiner hmembers⟩
  member := fun ⟨_, _, h⟩ => h.isRaw
  merge := by
    rintro keys path origin place member others rest node source ⟨first, rfl, h⟩ hsource hagree
    refine ⟨first, rfl, ?_⟩
    rcases hsource with ⟨walked, hne, hleft, hwalked⟩ | hlisted
    · exact isFolding_merge_of_isLeft h hne (hleft h.isRaw.visited) hwalked hagree
    · exact isFolding_merge_of_isListed hfaithful h hlisted hagree
  pass := fun ⟨first, horigin, h⟩ hwalked hother =>
    ⟨first, horigin, h.pass (hwalked h.isRaw.visited) hother⟩
  property := by
    rintro keys path origin node keyword members entry ⟨first, rfl, h⟩ hkeyword hmembers hentry
    exact ⟨h.visited.tail ⟨_, h.calls (mem_tables_iff.mpr hkeyword) hmembers hentry⟩,
      ((h.reliable.of_find? hmembers).of_mem hentry).2⟩
  list := fun ⟨_, _, h⟩ hnone hmembers hflat => h.list hnone hmembers hflat
  patterns := by
    rintro keys path origin node members flat ⟨first, rfl, h⟩ hnone hmembers hflat _
    exact h.patterns hnone hmembers hflat
  bare := by
    rintro keys path origin node ⟨first, rfl, h⟩ hproperties hpatterns _
    exact h.bare hproperties hpatterns
  target_own h htext htarget hnew hschema := by
    have hnamed := (h.reliable.of_textRef? htext htarget hschema).resolve_right hnew
    exact ⟨_, .inr ⟨_, h.visited, .target htext htarget hnamed hschema⟩⟩
  items_own h hplain harray hitems :=
    ⟨_, .inr ⟨_, h.visited, .items hplain (ofSchema_eq_array.mpr harray) hitems⟩⟩
  property_own := by
    rintro keys path origin node keyword members entry ⟨first, rfl, h⟩ hkeyword hmembers hentry
    exact ⟨_, .inr ⟨_, h.visited, h.calls (mem_tables_iff.mpr hkeyword) hmembers hentry⟩⟩

/-- A faithful document is flattened to the schemas that are to be listed for their own sake, each
as its fate says. -/
theorem find?_flattenWithin_iff (hfaithful : Faithful document) (hwf : document.wellFormed)
    {depth : Nat} {schemas : FlatSchemas} (hflatten : flattenWithin depth document = .ok schemas)
    {entry : Entries} : Assoc.find? schemas path = some entry ↔
      ∃ schema, Owned document (path, schema) ∧ Becomes document path schema (.listed entry) := by
  have hkept := faith_kept hfaithful hwf
  have hraw : (faith document).raw [] .root document := ⟨.refl, hfaithful.allReliable hwf⟩
  obtain ⟨walked, after, hwalk, rfl⟩ := exists_kept_of_flattenWithin hkept hraw hflatten
  have hlisted : ∀ {entry}, Assoc.find? after.schemas path = some entry →
      ∃ schema, Owned document (path, schema) ∧ Becomes document path schema (.listed entry) := by
    intro entry hentry
    obtain ⟨schema, hvisited, hfate, -⟩ := (hwalk.grows.grounded.listed hkept hentry).site
    obtain ⟨added, hadded, hfresh⟩ := hwalk.grows.added
    obtain rfl : after.schemas = added := hadded
    have howned : ∃ schema, Owned document (path, schema) := by
      rcases (hfresh path (Assoc.mem_keys_of_find? hentry)).2 with hown | ⟨rfl, -⟩
      · exact hown
      · exact ⟨document, .inl rfl⟩
    obtain ⟨other, howned⟩ := howned
    obtain rfl : other = schema := hfaithful.unique howned.visited hvisited rfl
    exact ⟨other, howned, hfate⟩
  refine ⟨hlisted, ?_⟩
  rintro ⟨schema, howned, hfate⟩
  have hleft : Faithful.IsLeft document (Assoc.keys after.schemas) .root document walked :=
    hwalk.left .refl
  have hmem : path ∈ Assoc.keys after.schemas := by
    rcases howned with hroot | ⟨before, hbefore, hcall⟩
    · obtain ⟨rfl, rfl⟩ := Prod.mk.inj hroot
      exact hleft.mem_keys ⟨entry, hfate⟩
    · exact hleft.lists before _ hbefore hcall ⟨entry, hfate⟩
  obtain ⟨found, hfound⟩ := Assoc.exists_find?_of_mem_keys hmem
  obtain ⟨other, howned', hfate'⟩ := hlisted hfound
  obtain rfl := hfaithful.unique howned.visited howned'.visited rfl
  obtain rfl := Fate.listed.inj (hfate.unique hfate')
  exact hfound

end Runs

end SchemaClasses.Flatten
