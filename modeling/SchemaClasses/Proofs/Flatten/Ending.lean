import SchemaClasses.Proofs.Flatten.Anchored
import SchemaClasses.Proofs.Flatten.Coverage
import SchemaClasses.Proofs.Flatten.Unbounded

/-!
# Documents whose flattening ends

Main statement (`terminates_of_membersLoseCombiners`): flattening a plain document ends, and comes
to no place longer than some limit, if the members of all its combiners lose their own: whatever
such a member comes to is an object, whose combiners are folded, or has none in it. Recursion
through references is allowed, whether combiners are on the way or not.

So no combiner is carried to another place: all that are folded stand in the document where they
are (`traces`, `plainTraces_kept`). A call below the place of such a combiner, or at the target of a
reference, uses up one of finitely many places of the document. Any other call is for a part of the
schema that was walked before, so no chain of calls goes on for ever
(`wellFounded_descends`).
-/

namespace SchemaClasses.Flatten

open FlattenM

/-! ### Members that lose their combiners -/

/-- Whether a schema has no combiners any more after the walk: what it comes to, once so many
references at most have been followed, is an object by its type or has none in it. -/
def losesCombiners (document : Json) : Nat → Json → Bool
  | 0, _ => false
  | bound + 1, .obj schema =>
    match textRef? schema with
    | some text =>
      match referent? document text with
      | some target => losesCombiners document bound target
      | none => true
    | none => Shape.ofSchema schema = .object || combinerFree (.obj schema)
  | _ + 1, _ => true

/-- Whether the members of all combiners of an object lose their own. -/
def membersLoseCombiners (document : Json) (bound : Nat) : Json → Bool
  | .obj schema => schema.all fun entry => !decide (entry.1 ∈ combiners) || match entry.2 with
      | .arr members => members.all (losesCombiners document bound)
      | _ => true
  | _ => true

/-- Whether a schema loses its combiners once enough references have been followed. -/
def LosesCombiners (document schema : Json) : Prop :=
  ∃ bound, losesCombiners document bound schema

section Members

variable {document : Json} {schema : Entries}

/-- An object loses its combiners if its target does, should it be a reference, and else by its type
or because there are none in it. -/
theorem losesCombiners_obj (bound : Nat) : losesCombiners document (bound + 1) (.obj schema) =
    match textRef? schema with
    | some text =>
      match referent? document text with
      | some target => losesCombiners document bound target
      | none => true
    | none => Shape.ofSchema schema = .object || combinerFree (.obj schema) :=
  Bool.eq_iff_iff.mpr Iff.rfl

/-- What a reference loses its target loses. -/
theorem LosesCombiners.target (h : LosesCombiners document (.obj schema)) {text : String}
    (htext : textRef? schema = some text) {path : SchemaPath}
    (hpath : SchemaPath.ofPointer text = .ok path) {target : Json}
    (htarget : document.at? path = some target) : LosesCombiners document target := by
  obtain ⟨bound, hbound⟩ := h
  cases bound with
  | zero => cases hbound
  | succ bound =>
    rw [losesCombiners_obj, htext] at hbound
    simp only [referent?_of_ofPointer hpath, htarget] at hbound
    exact ⟨bound, hbound⟩

/-- What the walk leaves as it is has no combiners to lose. -/
theorem LosesCombiners.combinerFree (h : LosesCombiners document (.obj schema))
    (htext : textRef? schema = none) (hshape : Shape.ofSchema schema ≠ .object) :
    Flatten.combinerFree (.obj schema) := by
  obtain ⟨bound, hbound⟩ := h
  cases bound with
  | zero => cases hbound
  | succ bound =>
    rw [losesCombiners_obj, htext] at hbound
    exact (Bool.or_eq_true_iff.mp hbound).resolve_left fun h => hshape (of_decide_eq_true h)

/-- Each member of a combiner whose members lose their combiners loses its own. -/
theorem losesCombiners_of_mem {bound : Nat} (h : membersLoseCombiners document bound (.obj schema))
    {combiner : String} (hcombiner : combiner ∈ combiners) {members : List Json}
    (hmembers : Assoc.find? schema combiner = some (.arr members)) {member : Json}
    (hmember : member ∈ members) : LosesCombiners document member := by
  have hentry := List.all_eq_true.mp h _ (Assoc.mem_of_find? hmembers)
  simp only [hcombiner, decide_true, Bool.not_true, Bool.false_or] at hentry
  exact ⟨bound, List.all_eq_true.mp hentry member hmember⟩

end Members

/-! ### Where the combiners of a document stand -/

/-- Whether a combiner is one of the document at its place, and its members lose their own. -/
def StandsCombined (document : Json) (path : SchemaPath) (combiner : String) (value : Json) :
    Prop :=
  path ∈ walkable document ∧ ∀ members, value = .arr members →
    ∀ index member, members[index]? = some member →
      Stands document (path ++ [combiner, SchemaPath.ofIndex index]) member ∧
        LosesCombiners document member

/-- In the document itself all combiners stand where they are. -/
theorem anchored_of_stands {document : Json} {bound : Nat}
    (hmembers : document.everywhere (membersLoseCombiners document bound)) (value : Json) :
    ∀ path, Stands document path value →
      Anchored (StandsCombined document) path value ∧ ∀ members, value = .obj members →
        ∀ entry ∈ members, Anchored (StandsCombined document) (path.child entry.1) entry.2 := by
  induction value using Json.induction with
  | obj entries ih =>
    intro path hstands
    have hbelow : ∀ entry ∈ entries, Stands document (path.child entry.1) entry.2 :=
      fun entry hentry => hstands.below (.entry hentry (.here _))
    have hanchored := fun entry hentry => ih entry hentry _ (hbelow entry hentry)
    refine ⟨.schema (fun _ combiner hcombiner value hvalue => ?_)
      (fun _ keyword _ members hfind entry hentry => ?_) fun _ items hitems => ?_,
      fun members heq entry hentry => (hanchored entry (Json.obj.inj heq ▸ hentry)).1⟩
    · refine ⟨hstands.mem_walkable, ?_⟩
      rintro members rfl index member hmember
      have hmem := Assoc.mem_of_find? hvalue
      refine ⟨hstands.below (.entry hmem (.item hmember (.here _))), ?_⟩
      exact losesCombiners_of_mem (Json.test_of_everywhere (hstands.everywhere hmembers)) hcombiner
        hvalue (List.mem_of_getElem? hmember)
    · rw [SchemaPath.append_pair]
      exact (hanchored _ (Assoc.mem_of_find? hfind)).2 members rfl entry hentry
    · exact (hanchored _ (Assoc.mem_of_find? hitems)).1
  | _ => exact fun _ _ => ⟨.noObject nofun, nofun⟩

/-! ### The walk -/

/-- What is known of the combiners of an object schema while they are being folded. -/
structure Dissolves (document : Json) (path : SchemaPath) (origin : Json) (pending : Pending)
    (node : Entries) : Prop where
  /-- The combiners that it still has are pending, and are those of the document. -/
  combiner : ∀ combiner ∈ combiners, ∀ value, Assoc.find? node combiner = some value →
    combiner ∈ pending.combiners ∧ StandsCombined document path combiner value
  /-- The tables count, since the schema is walked as an object. -/
  tables : TablesAnchored (StandsCombined document) path node
  items : ItemsInert node
  members : ∀ entry ∈ pending.members,
    Stands document entry.1 entry.2 ∧ LosesCombiners document entry.2
  /-- Away from the document there is nothing to fold. -/
  unchanged : path ∈ walkable document ∨ pending.members = [] ∧ origin = .obj node

/-- What is known of combiners at the stages of the walk: those that may be folded stand in the
document where they are, and what the walk leaves has none, if it is merged. -/
def traces (document : Json) : Invariant where
  raw _ path schema := Anchored (StandsCombined document) path schema
  folding _ path origin pending node := Dissolves document path origin pending node
  left _ _ origin walked := Inert walked.toJson ∧
    (LosesCombiners document origin → ∀ schema, walked.toJson = .obj schema → Spent schema)
  listed _ _ node := Spent node

/-- What is known of a plain document whose combiners are traced. -/
abbrev plainTraces (document : Json) : Invariant :=
  (coverage document).and (traces document)

section Walk

variable {document : Json}

/-- What is left of a spent schema has nothing that could be merged. -/
theorem Spent.left {keys : List SchemaPath} {path : SchemaPath} {origin : Json} {node : Entries}
    (h : Spent node) : (traces document).left keys path origin (.inPlace (.obj node)) := by
  refine ⟨h.inert, fun _ schema heq => ?_⟩
  obtain rfl := Json.obj.inj heq
  exact h

/-- A reference that is left has nothing that could be merged. -/
theorem traces_reference {keys : List SchemaPath} {path target : SchemaPath} {origin : Json} :
    (traces document).left keys path origin (.canonical target) :=
  ⟨(spent_reference target).inert, fun _ _ heq => Json.obj.inj heq ▸ spent_reference target⟩

/-- What the walk makes of a schema that is no object is spent if there was nothing to fold. -/
theorem traces_inPlace {keys : List SchemaPath} {path : SchemaPath} {node result : Entries}
    (htext : textRef? node = none) (hshape : Shape.ofSchema node ≠ .object)
    (hinert : Inert (.obj result)) (hspent : combinerFree (.obj node) → Spent result) :
    (traces document).left keys path (.obj node) (.inPlace (.obj result)) := by
  refine ⟨hinert, fun hloses schema heq => ?_⟩
  obtain rfl := Json.obj.inj heq
  exact hspent (hloses.combinerFree htext hshape)

section Dissolves

variable {keys : List SchemaPath} {path place : SchemaPath} {origin member : Json}
  {node source members flat : Entries} {others : List (SchemaPath × Json)} {combiner : String}
  {rest : List String}

/-- The combiners of an object are folded. -/
theorem dissolves_start (hraw : IsRaw document keys (.obj node))
    (h : Anchored (StandsCombined document) path (.obj node)) (htext : textRef? node = none)
    (hobject : HasObjectType node) : Dissolves document path (.obj node) ⟨[], combiners⟩ node := by
  have href := hraw.plain.find?_refKey htext
  have honly := declaresOnly_of_hasObjectType href hobject
  refine ⟨fun _ hcombiner _ hvalue => ⟨hcombiner, h.combiner honly hcombiner hvalue⟩,
    h.tables honly, fun harray items hitems => ?_, fun _ hentry => absurd hentry List.not_mem_nil,
    .inr ⟨rfl, rfl⟩⟩
  by_cases hfree : combinerFree document
  · exact (spent_of_combinerFree (hraw.free hfree)).items harray items hitems
  have hcombined : isCombined document := by simpa [isCombined] using hfree
  -- an object that might turn out to be an array has no type, and so no items
  rcases hobject with hnone | htype
  · have hdeclared := hraw.plain.declared_ne_nil hcombined (Assoc.mem_keys_of_find? hitems)
    rw [Merge.declared, hnone, href] at hdeclared
    exact absurd rfl hdeclared
  · exact absurd harray (not_declaresOnly (by decide) htype)

/-- A combiner that the schema does not have may be skipped. -/
theorem Dissolves.skip (h : Dissolves document path origin ⟨[], combiner :: rest⟩ node)
    (hnone : Assoc.find? node combiner = none) :
    Dissolves document path origin ⟨[], rest⟩ node := by
  refine { h with combiner := fun other hother value hvalue => ?_ }
  obtain ⟨hpending, hstands⟩ := h.combiner other hother value hvalue
  refine ⟨(List.mem_cons.mp hpending).resolve_left ?_, hstands⟩
  rintro rfl
  cases hnone.symm.trans hvalue

/-- The members of a combiner that is dropped are those of the document. -/
theorem Dissolves.drop (h : Dissolves document path origin ⟨[], combiner :: rest⟩ node)
    (hnodup : (Assoc.keys node).Nodup) (hcombiner : combiner ∈ combiners) {members : List Json}
    (hmembers : Assoc.find? node combiner = some (.arr members)) :
    Dissolves document path origin ⟨memberPlaces path combiner 0 members, rest⟩
      (Assoc.swapErase node combiner) := by
  obtain ⟨-, hwalkable, hstands⟩ := h.combiner combiner hcombiner _ hmembers
  have hother : ∀ keyword, combiner ≠ keyword →
      Assoc.find? (Assoc.swapErase node combiner) keyword = Assoc.find? node keyword :=
    fun keyword hne => Assoc.find?_swapErase_of_ne hnodup hne
  have hne : ∀ keyword ∉ combiners, combiner ≠ keyword := by
    rintro keyword hkeyword rfl
    exact hkeyword hcombiner
  refine ⟨fun other hmem value hvalue => ?_, fun keyword hkeyword => ?_, fun harray => ?_,
    fun entry hentry => ?_, .inl hwalkable⟩
  · by_cases hsame : combiner = other
    · subst hsame
      cases (Assoc.find?_swapErase_self hnodup combiner).symm.trans hvalue
    · rw [hother other hsame] at hvalue
      obtain ⟨hpending, hstands⟩ := h.combiner other hmem value hvalue
      exact ⟨(List.mem_cons.mp hpending).resolve_left (Ne.symm hsame), hstands⟩
  · rw [hother keyword (hne keyword (by rcases hkeyword with rfl | rfl <;> decide))]
    exact h.tables keyword hkeyword
  · rw [hother "items" (hne _ (by decide))]
    refine h.items ?_
    rwa [Merge.DeclaresOnly, Merge.declared, hother typeKey (hne _ (by decide)),
      hother refKey (hne _ (by decide))] at harray
  · obtain ⟨index, hmember, hplace⟩ := mem_memberPlaces.mp hentry
    rw [Nat.zero_add] at hplace
    rw [hplace]
    exact hstands members rfl index entry.2 hmember

/-- Only where the document has combiners are there members. -/
theorem Dissolves.mem_walkable
    (h : Dissolves document path origin ⟨(place, member) :: others, rest⟩ node) :
    path ∈ walkable document :=
  h.unchanged.resolve_right fun h => List.cons_ne_nil _ _ h.1

/-- A member that is no object may be passed over. -/
theorem Dissolves.pass
    (h : Dissolves document path origin ⟨(place, member) :: others, rest⟩ node) :
    Dissolves document path origin ⟨others, rest⟩ node :=
  ⟨h.combiner, h.tables, h.items, fun _ hentry => h.members _ (List.mem_cons_of_mem _ hentry),
    .inl h.mem_walkable⟩

/-- What is spent may be merged. -/
theorem Dissolves.merge {good : String → Prop}
    (h : Dissolves document path origin ⟨(place, member) :: others, rest⟩ node)
    (hagree : (merge node source path).conflict = none)
    (hnode : Plain true good .schema (.obj node)) (hsource : Plain true good .schema (.obj source))
    (hspent : Spent source) :
    Dissolves document path origin ⟨others, rest⟩ (SchemaClasses.merge node source path).value where
  combiner := combiners_merge hagree hnode (fun _ => find?_combiner hspent.lacks) h.combiner
  tables := h.tables.merge hagree hnode hsource hspent
  items := h.items.merge hagree hnode hsource hspent
  members := h.pass.members
  unchanged := .inl h.mem_walkable

/-- In the end there are no combiners. -/
theorem Dissolves.lacks (h : Dissolves document path origin ⟨[], []⟩ node) :
    lacksCombiners (.obj node) := by
  refine lacksCombiners_obj.mpr fun combiner hcombiner => ?_
  refine Option.eq_none_iff_forall_ne_some.mpr fun value hvalue => ?_
  exact absurd (h.combiner combiner hcombiner value hvalue).1 List.not_mem_nil

/-- What has become of an object is spent once its only table was walked. -/
theorem Dissolves.spent_insert (h : Dissolves document path origin ⟨[], []⟩ node)
    {keyword : String} (hkeyword : keyword = "properties" ∨ keyword = "patternProperties")
    (hone : ∀ other, other = "properties" ∨ other = "patternProperties" → other ≠ keyword →
      Assoc.find? node other = none)
    (hflat : (traces document).Flat keys path keyword members flat) :
    Spent (Assoc.insert node keyword (.obj flat)) := by
  have hne : ∀ other, other ≠ keyword →
      Assoc.find? (Assoc.insert node keyword (.obj flat)) other = Assoc.find? node other :=
    fun other hne => Assoc.find?_insert_of_ne _ _ (Ne.symm hne)
  have hkeys : keyword ∉ combiners ∧ typeKey ≠ keyword ∧ refKey ≠ keyword ∧ "items" ≠ keyword := by
    rcases hkeyword with rfl | rfl <;> decide
  obtain ⟨hcombiner, htype, href, hitems⟩ := hkeys
  refine spent_of_inert (lacksCombiners_insert h.lacks hcombiner)
    (fun other hother members hmembers entry hentry => ?_) fun harray items hfind => ?_
  · by_cases hsame : other = keyword
    · subst hsame
      rw [Assoc.find?_insert_self] at hmembers
      obtain rfl := Json.obj.inj (Option.some.inj hmembers)
      obtain ⟨_, _, walked, hleft, hvalue⟩ := hflat.exists_of_mem hentry
      exact hvalue ▸ hleft.1
    · cases (hone other hother hsame).symm.trans ((hne other hsame).symm.trans hmembers)
  · rw [Merge.DeclaresOnly, Merge.declared, hne _ htype, hne _ href] at harray
    exact h.items harray items ((hne _ hitems).symm.trans hfind)

/-- Or if it has none. -/
theorem Dissolves.spent (h : Dissolves document path origin ⟨[], []⟩ node)
    (hproperties : Assoc.find? node "properties" = none)
    (hpatterns : Assoc.find? node "patternProperties" = none) : Spent node := by
  refine spent_of_inert h.lacks (fun keyword hkeyword members hmembers => ?_) h.items
  rcases hkeyword with rfl | rfl
  · cases hproperties.symm.trans hmembers
  · cases hpatterns.symm.trans hmembers

end Dissolves

variable {bound : Nat} (hwf : document.wellFormed) (hplain : isPlainDocument document)
  (hmembers : document.everywhere (membersLoseCombiners document bound))

include hwf hplain hmembers

/-- The walk keeps what is known of combiners. -/
theorem plainTraces_kept : (plainTraces document).Kept document := by
  -- what is said of references is what coverage keeps; what is said of combiners is added to it
  have hcoverage := coverage_kept hwf hplain
  have hanchored := fun path value => anchored_of_stands hmembers value path
  exact {
    raw_mono := fun hsubset h => ⟨hcoverage.raw_mono hsubset h.1, h.2⟩
    folding_mono := fun hsubset h => ⟨hcoverage.folding_mono hsubset h.1, h.2⟩
    left_mono := fun hsubset h => ⟨hcoverage.left_mono hsubset h.1, h.2⟩
    listed_mono := fun hsubset h => ⟨hcoverage.listed_mono hsubset h.1, h.2⟩
    target := by
      intro keys path node text target schema h htext htarget hnew hschema
      obtain ⟨place, hmem⟩ := h.1.mem_refs htext htarget hnew
      exact ⟨hcoverage.target h.1 htext htarget hnew hschema,
        (hanchored _ _ (stands_of_mem_refs hmem htarget hschema)).1⟩
    follow := fun hsubset h htext htarget hnew hschema hwalked =>
      ⟨hcoverage.follow hsubset h.1 htext htarget hnew hschema hwalked.1, hwalked.2.1,
        fun hloses => hwalked.2.2 (hloses.target htext htarget hschema)⟩
    refer := fun h htext htarget hlisted hentry =>
      ⟨hcoverage.refer h.1 htext htarget hlisted hentry.1, traces_reference⟩
    reference := fun hlisted hentry => ⟨hcoverage.reference hlisted hentry.1, traces_reference⟩
    bool := fun h => ⟨hcoverage.bool h.1, inert_of_ne nofun, fun _ _ => nofun⟩
    other := fun h htext hshape => ⟨hcoverage.other h.1 htext hshape,
      traces_inPlace htext (by rw [hshape]; decide) (inert_other h.1.plain hshape)
        spent_of_combinerFree⟩
    array := by
      intro keys path node h htext harray hnone
      refine ⟨hcoverage.array h.1 htext harray hnone, traces_inPlace htext ?_
        (inert_array harray fun items hitems => ?_) spent_of_combinerFree⟩
      · rw [ofSchema_eq_array.mpr harray]
        decide
      · cases hnone.symm.trans hitems
    items := by
      intro keys path node items h htext harray hitems
      have honly := declaresOnly_of_find? (h.1.plain.find?_refKey htext) harray
      exact ⟨hcoverage.items h.1 htext harray hitems, h.2.items honly hitems⟩
    array_items := by
      intro keys path node items walked h htext harray hitems hwalked
      have hinert := hwalked.2.1
      have hkeeps : HasArrayType (Assoc.insert node "items" walked.toJson) :=
        (Assoc.find?_insert_of_ne _ _ (by decide)).trans harray
      refine ⟨hcoverage.array_items h.1 htext harray hitems hwalked.1, traces_inPlace htext ?_
        (inert_array hkeeps fun other hother => ?_) fun hfree => spent_insert_items hfree hinert⟩
      · rw [ofSchema_eq_array.mpr harray]
        decide
      · rw [Assoc.find?_insert_self] at hother
        exact Option.some.inj hother ▸ hinert
    start := fun h htext hobject =>
      ⟨hcoverage.start h.1 htext hobject, dissolves_start h.1 h.2 htext hobject⟩
    skip := fun hcombiner h hnone => ⟨hcoverage.skip hcombiner h.1 hnone, h.2.skip hnone⟩
    drop := fun hcombiner h hfind =>
      ⟨hcoverage.drop hcombiner h.1 hfind, h.2.drop h.1.plain.nodup hcombiner hfind⟩
    member := fun h => ⟨hcoverage.member h.1,
      (hanchored _ _ (h.2.members _ List.mem_cons_self).1).1⟩
    merge := by
      intro keys path origin place member others rest node source h hsource hagree
      have hcombined := (h.1.members _ List.mem_cons_self).1
      have hloses := (h.2.members _ List.mem_cons_self).2
      have hboth : Plain true (IsReference document keys) .schema (.obj source) ∧ Spent source := by
        rcases hsource with ⟨walked, -, hleft, hwalked⟩ | ⟨hlisted, hspent⟩
        · have hplain' := hleft.1.plain
          rw [hwalked] at hplain'
          exact ⟨hcombined ▸ hplain', hleft.2.2 hloses source hwalked⟩
        · exact ⟨hcombined ▸ hlisted.plain, hspent⟩
      refine ⟨hcoverage.merge h.1 (hsource.imp ?_ And.left) hagree,
        h.2.merge hagree (hcombined ▸ h.1.plain) hboth.1 hboth.2⟩
      exact fun ⟨walked, hne, hleft, hwalked⟩ => ⟨walked, hne, hleft.1, hwalked⟩
    pass := fun h hwalked hother => ⟨hcoverage.pass h.1 hwalked.1 hother, h.2.pass⟩
    property := fun h hkeyword hfind hentry =>
      ⟨hcoverage.property h.1 hkeyword hfind hentry, h.2.tables _ hkeyword _ hfind _ hentry⟩
    list := by
      intro keys path origin node members flat h hnone hfind hflat
      refine ⟨hcoverage.list h.1 hnone hfind hflat.of_and.1,
        h.2.spent_insert (.inl rfl) (fun other hother hne => ?_) hflat.of_and.2⟩
      exact hother.resolve_left hne ▸ hnone
    patterns := by
      intro keys path origin node members flat h hnone hfind hflat
      refine ⟨hcoverage.patterns h.1 hnone hfind hflat.of_and.1, Spent.left
        (h.2.spent_insert (.inr rfl) (fun other hother hne => ?_) hflat.of_and.2)⟩
      exact hother.resolve_right hne ▸ hnone
    bare := fun h hproperties hpatterns => ⟨hcoverage.bare h.1 hproperties hpatterns,
      Spent.left (h.2.spent hproperties hpatterns)⟩ }

/-- What is known of a plain document holds of its root. -/
theorem plainTraces_root : (plainTraces document).raw [] .root document :=
  ⟨coverage_root hwf hplain, (anchored_of_stands hmembers document .root (stands_root document)).1⟩

end Walk

/-! ### Chains of calls -/

/-- How many places of a document are not being walked. -/
def unwalked (document : Json) (inProgress : List SchemaPath) : Nat :=
  ((walkable document).toFinset \ inProgress.toFinset).card

/-- What each call uses up: places of the document, and away from those parts of a schema. -/
def Call.rank (document : Json) (call : Call) : Nat × Nat :=
  (unwalked document call.inProgress,
    if call.path ∈ walkable document then 0 else call.schema.size + 1)

section Chains

variable {document : Json} {inProgress : List SchemaPath} {path place : SchemaPath}

/-- The places that are not being walked, as a difference of sets. -/
theorem mem_unwalked : place ∈ (walkable document).toFinset \ inProgress.toFinset ↔
    place ∈ walkable document ∧ place ∉ inProgress := by
  rw [Finset.mem_sdiff, List.mem_toFinset, List.mem_toFinset]

/-- There are no more of them when one more place is being walked. -/
theorem unwalked_le (document : Json) (inProgress : List SchemaPath) (path : SchemaPath) :
    unwalked document (inProgress ++ [path]) ≤ unwalked document inProgress := by
  refine Finset.card_le_card fun place hplace => ?_
  obtain ⟨hwalkable, hnew⟩ := mem_unwalked.mp hplace
  exact mem_unwalked.mpr ⟨hwalkable, fun h => hnew (List.mem_append_left _ h)⟩

/-- There are fewer of them when that place is one of the document and was not being walked. -/
theorem unwalked_lt (hwalkable : path ∈ walkable document) (hfresh : path ∉ inProgress) :
    unwalked document (inProgress ++ [path]) < unwalked document inProgress := by
  refine Finset.card_lt_card (Finset.ssubset_iff_of_subset (fun place hplace => ?_) |>.mpr
    ⟨path, mem_unwalked.mpr ⟨hwalkable, hfresh⟩, fun hpath => ?_⟩)
  · obtain ⟨hplace, hnew⟩ := mem_unwalked.mp hplace
    exact mem_unwalked.mpr ⟨hplace, fun h => hnew (List.mem_append_left _ h)⟩
  · exact (mem_unwalked.mp hpath).2 (List.mem_append_right _ List.mem_cons_self)

/-- Away from the places of the document a call leads to one of these or to a part of its schema. -/
theorem walkable_or_size_lt {schema next : Json} (hpath : path ∉ walkable document)
    (h : (plainTraces document).Leads document path schema place next) :
    place ∈ walkable document ∨ next.size < schema.size := by
  cases h with
  | target h htext htarget hnew hschema =>
    obtain ⟨_, hmem⟩ := h.1.mem_refs htext htarget hnew
    exact .inl (stands_of_mem_refs hmem htarget hschema).mem_walkable
  | items _ _ _ hitems =>
    exact .inr (Json.size_lt_of_mem_entries (Assoc.mem_of_find? hitems))
  | member h => exact absurd h.2.mem_walkable hpath
  | property h _ hmembers hentry =>
    obtain ⟨-, rfl⟩ := h.2.unchanged.resolve_left hpath
    exact .inr ((Json.size_lt_of_mem_entries hentry).trans
      (Json.size_lt_of_mem_entries (Assoc.mem_of_find? hmembers)))

/-- Every call uses something up. -/
theorem rank_lt {inner outer : Call} (h : (plainTraces document).Descends document inner outer) :
    Prod.Lex (· < ·) (· < ·) (inner.rank document) (outer.rank document) := by
  obtain ⟨hfresh, hprogress, hleads⟩ := h
  rw [Prod.lex_def]
  unfold Call.rank
  rw [hprogress]
  by_cases hpath : outer.path ∈ walkable document
  · exact .inl (unwalked_lt hpath hfresh)
  · rcases (unwalked_le document outer.inProgress outer.path).lt_or_eq with hlt | heq
    · exact .inl hlt
    · refine .inr ⟨heq, ?_⟩
      simp only [if_neg hpath]
      rcases walkable_or_size_lt hpath hleads with hwalkable | hsize
      · rw [if_pos hwalkable]
        exact Nat.succ_pos _
      · split_ifs
        · exact Nat.succ_pos _
        · exact Nat.succ_lt_succ hsize

/-- No chain of calls goes on for ever. -/
theorem wellFounded_descends (document : Json) :
    WellFounded ((plainTraces document).Descends document) :=
  Subrelation.wf rank_lt (InvImage.wf (Call.rank document) (wellFounded_lt.prod_lex wellFounded_lt))

end Chains

/-- Flattening a plain document ends if the members of all its combiners lose their own. It comes to
no place longer than some limit, and if it succeeds, then nothing is left to be folded. -/
theorem terminates_of_membersLoseCombiners {document : Json} (hwf : document.wellFormed)
    (hplain : isPlainDocument document) {bound : Nat}
    (hmembers : document.everywhere (membersLoseCombiners document bound)) :
    Terminates document ∧ (∃ limit, StaysWithin document limit) ∧
      ∀ depth schemas, flattenWithin depth document = .ok schemas →
        ∀ path entry, Assoc.find? schemas path = some entry → Spent entry := by
  have hkept := plainTraces_kept hwf hplain hmembers
  have hroot := plainTraces_root hwf hplain hmembers
  have hends := terminates_of_wellFounded hkept hroot (wellFounded_descends document)
  refine ⟨hends, hends.exists_staysWithin, fun depth schemas hflatten path entry hentry => ?_⟩
  exact ((grounded_of_flattenWithin hkept hroot hflatten).listed hkept hentry).2

/-- A crew: an officer is a person with a rank, a mate is an officer or a name or nobody, and each
watch is followed by another one. -/
def crew (watch : Entries) : Json :=
  .obj [
    ("properties", .obj [
      ("captain", .obj [(refKey, .str "#/definitions/officer")]),
      ("mates", .obj [(typeKey, .str "array"), ("items", .obj [("anyOf", .arr [
        .obj [(refKey, .str "#/definitions/officer")],
        .obj [(typeKey, .arr [.str "string", .str "null"])]])])]),
      ("watch", .obj watch)]),
    ("definitions", .obj [
      ("person", .obj [("properties", .obj [("name", .obj [(typeKey, .str "string")])])]),
      ("officer", .obj [("allOf", .arr [
        .obj [(refKey, .str "#/definitions/person")],
        .obj [("oneOf", .arr [.obj [("properties", .obj [("rank", .bool true)])]])]])]),
      ("watch", .obj [("allOf", .arr [
        .obj [("properties", .obj [("next", .obj [(refKey, .str "#/definitions/watch")])])]])])])]

/-- The crew meets the conditions, and flattening it ends with its three classes, none of them with
a combiner left. -/
theorem terminates_crew : (crew []).wellFormed ∧ isPlainDocument (crew []) ∧
    (crew []).everywhere (membersLoseCombiners (crew []) 2) ∧
    (flatten (crew [])).toOption.map Assoc.keys =
      some [⟨["definitions", "person"]⟩, ⟨["definitions", "officer"]⟩, .root] ∧
    Terminates (crew []) ∧ (∃ limit, StaysWithin (crew []) limit) ∧
      ∀ depth schemas, flattenWithin depth (crew []) = .ok schemas →
        ∀ path entry, Assoc.find? schemas path = some entry → Spent entry := by
  have hwf : (crew []).wellFormed := by decide
  have hplain : isPlainDocument (crew []) := by decide +kernel
  have hmembers : (crew []).everywhere (membersLoseCombiners (crew []) 2) := by decide +kernel
  have hkeys : (flatten (crew [])).toOption.map Assoc.keys =
      some [⟨["definitions", "person"]⟩, ⟨["definitions", "officer"]⟩, .root] := by decide +kernel
  exact ⟨hwf, hplain, hmembers, hkeys, terminates_of_membersLoseCombiners hwf hplain hmembers⟩

/-- A crew with a watch has a cycle, which is met although it goes through a combiner. -/
example : (match flatten (crew [(refKey, .str "#/definitions/watch")]) with
    | .error (.circular path _) => some path
    | _ => none) = some ⟨["definitions", "watch"]⟩ := by
  decide +kernel

end SchemaClasses.Flatten
