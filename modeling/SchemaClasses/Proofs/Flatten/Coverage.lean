import SchemaClasses.Proofs.Flatten.CombinerFree
import SchemaClasses.Proofs.Flatten.Growth
import SchemaClasses.Proofs.Flatten.Settled
import SchemaClasses.Proofs.Model.Known

/-!
# Flattening covers what is resolved

Main statement (`resolve_flatten_ne_unknownRef`): if a document is plain (`isPlainDocument`) then
all references that are met in its flattened schemas name listed places, so none is unknown.

Being plain and settled is kept by the walk (`coverage_kept`), so every property of a listed schema
is settled, and what is met in it names listed places (`namesListed_of_meets`). This is where both
readings of a type meet: the walk asks whether it is the text `array`, while resolving reads a list
with that text alone as the same type (`ofSchema_cases`).
-/

namespace SchemaClasses.Flatten

/-! ### Plain documents -/

/-- Whether schemas may be combined in a document. -/
def isCombined (document : Json) : Bool :=
  !combinerFree document

/-- Whether a document and all that it refers to are plain. Schemas with items have to be typed if
schemas may be combined. -/
def isPlainDocument (document : Json) : Bool :=
  isPlain (isCombined document) .schema document &&
    document.refs.all fun ref =>
      (referent? document ref.2).all (isPlain (isCombined document) .schema)

/-- Whether a text is a reference of the document or to a listed place. -/
def IsReference (document : Json) (keys : List SchemaPath) (text : String) : Prop :=
  (∃ place, (place, text) ∈ document.refs) ∨ ∃ path ∈ keys, text = path.toPointer

section Document

variable {document schema : Json} {keys : List SchemaPath} {path : SchemaPath}

/-- A reference stays one when more places are listed. -/
theorem IsReference.mono {more : List SchemaPath} (hsubset : keys ⊆ more) (text : String)
    (h : IsReference document keys text) : IsReference document more text :=
  h.imp id fun ⟨path, hpath, heq⟩ => ⟨path, hsubset hpath, heq⟩

/-- What stands in a document and is plain refers to what the document refers to. -/
theorem plain_of_at? (hwf : document.wellFormed) (hschema : document.at? path = some schema)
    (h : isPlain (isCombined document) .schema schema) :
    Plain (isCombined document) (IsReference document keys) .schema schema := by
  obtain ⟨front, hfront⟩ := Json.exists_standsAt_of_descend? hschema
  refine plain_of_isPlain nofun (Json.wellFormed_of_descend? hschema hwf)
    (fun back value text hvalue href => .inl ⟨front ++ back, ?_⟩) h
  exact Json.mem_refs.mpr ⟨value, hfront.trans hvalue, href⟩

/-- The target of a reference of a plain document is plain. -/
theorem isPlain_of_referent {place : List String} {text : String}
    (hdocument : isPlainDocument document) (hmem : (place, text) ∈ document.refs)
    (hpath : SchemaPath.ofPointer text = .ok path) (hschema : document.at? path = some schema) :
    isPlain (isCombined document) .schema schema := by
  rw [isPlainDocument, Bool.and_eq_true, List.all_eq_true] at hdocument
  have hall := hdocument.2 _ hmem
  rwa [referent?_of_ofPointer hpath, hschema] at hall

end Document

/-! ### The walk -/

/-- What is known of a schema that is going to be walked. -/
structure IsRaw (document : Json) (keys : List SchemaPath) (schema : Json) : Prop where
  plain : Plain (isCombined document) (IsReference document keys) .schema schema
  /-- Without combiners in the document there are none to fold. -/
  free : combinerFree document → combinerFree schema

/-- What is known of an object schema whose combiners are being folded. -/
structure IsFolding (document : Json) (keys : List SchemaPath) (pending : Pending)
    (node : Entries) : Prop where
  plain : Plain (isCombined document) (IsReference document keys) .schema (.obj node)
  half : HalfSettled (· ∈ keys) node
  free : combinerFree document → combinerFree (.obj node)
  /-- The members that are still to be folded. -/
  members : ∀ entry ∈ pending.members, isCombined document ∧ IsRaw document keys entry.2

/-- What is known of a schema that is left where it is. -/
structure IsLeft (document : Json) (keys : List SchemaPath) (schema : Json) : Prop where
  plain : Plain (isCombined document) (IsReference document keys) .schema schema
  settled : Settled (· ∈ keys) schema

/-- What is known of a schema that is listed. -/
structure IsListed (document : Json) (keys : List SchemaPath) (node : Entries) : Prop where
  plain : Plain (isCombined document) (IsReference document keys) .schema (.obj node)
  half : HalfSettled (· ∈ keys) node
  properties : ∀ members, Assoc.find? node "properties" = some (.obj members) →
    ∀ member ∈ members, Settled (· ∈ keys) member.2

/-- What is known at the stages of the walk: all is plain, what is left behind is settled, and so
are the properties of what is listed. -/
def coverage (document : Json) : Invariant where
  raw keys _ schema := IsRaw document keys schema
  folding keys _ _ pending node := IsFolding document keys pending node
  left keys _ _ walked := IsLeft document keys walked.toJson
  listed keys _ node := IsListed document keys node

section Walk

variable {document : Json}

/-- The entries of a value without combiners have none. -/
theorem combinerFree_of_mem {entries : Entries} (h : combinerFree (.obj entries))
    {entry : String × Json} (hentry : entry ∈ entries) : combinerFree entry.2 :=
  (Json.everywhere_obj.mp h).2 entry hentry

/-- An object with a combiner is not free of them. -/
theorem not_combinerFree {node : Entries} {combiner : String} {value : Json}
    (hcombiner : combiner ∈ combiners) (hvalue : Assoc.find? node combiner = some value) :
    ¬combinerFree (.obj node) := by
  intro hfree
  cases (find?_combiner (Json.test_of_everywhere hfree) hcombiner).symm.trans hvalue

/-- The members of a schema may be replaced by others with the same names. -/
theorem members_insert {typed : Bool} {good : String → Prop} {listed : SchemaPath → Prop}
    {node members flat : Entries} {keyword : String}
    (hkeyword : keyword = "properties" ∨ keyword = "patternProperties")
    (hplain : Plain typed good .schema (.obj node)) (hhalf : HalfSettled listed node)
    (hmembers : Assoc.find? node keyword = some (.obj members))
    (hkeys : Assoc.keys flat = Assoc.keys members)
    (hflat : ∀ entry ∈ flat, Plain typed good .schema entry.2) :
    Plain typed good .schema (.obj (Assoc.insert node keyword (.obj flat))) ∧
      HalfSettled listed (Assoc.insert node keyword (.obj flat)) := by
  have hne : keyword ≠ typeKey ∧ keyword ≠ refKey ∧ keyword ≠ "items" := by
    rcases hkeyword with rfl | rfl <;> decide
  have hunder : Reading.under keyword = .table := by
    rcases hkeyword with rfl | rfl <;> decide
  have htable := hplain.of_find? hmembers
  rw [hunder] at htable
  have hnodup : (Assoc.keys flat).Nodup := hkeys ▸ htable.nodup_members
  refine ⟨hplain.insert hne.1 hne.2.1 (fun h => absurd h hne.2.2) ?_, ?_⟩
  · rw [hunder]
    exact .table hnodup hflat
  · exact hhalf.congr (Assoc.find?_insert_of_ne _ _ hne.2.1) (Assoc.find?_insert_of_ne _ _ hne.1)
      (Assoc.find?_insert_of_ne _ _ hne.2.2)

/-- What stands in a table of members after the walk was left there. -/
theorem isLeft_of_flat {keys : List SchemaPath} {path : SchemaPath} {keyword : String}
    {members flat : Entries} (hflat : (coverage document).Flat keys path keyword members flat) :
    ∀ entry ∈ flat, IsLeft document keys entry.2 := by
  intro entry hentry
  obtain ⟨_, _, walked, hleft, hvalue⟩ := hflat.exists_of_mem hentry
  exact hvalue ▸ hleft

/-- What is known of a schema to be walked stays known when more places are listed. -/
theorem IsRaw.mono {keys more : List SchemaPath} (hsubset : keys ⊆ more) {schema : Json}
    (h : IsRaw document keys schema) : IsRaw document more schema :=
  ⟨h.plain.mono (IsReference.mono hsubset), h.free⟩

/-- A reference whose target is not listed yet is one of the document. -/
theorem IsRaw.mem_refs {keys : List SchemaPath} {node : Entries} {text : String}
    {path : SchemaPath} (h : IsRaw document keys (.obj node)) (htext : textRef? node = some text)
    (hpath : SchemaPath.ofPointer text = .ok path) (hnew : path ∉ keys) :
    ∃ place, (place, text) ∈ document.refs := by
  rcases h.plain.good_of_textRef htext with hmem | ⟨path, hkey, rfl⟩
  · exact hmem
  · rw [SchemaPath.ofPointer_toPointer] at hpath
    obtain rfl := Except.ok.inj hpath
    exact absurd hkey hnew

section Steps

variable {keys more : List SchemaPath} {path place : SchemaPath} {combiner : String}
  {rest : List String} {member : Json} {others : List (SchemaPath × Json)}
  {node source members flat : Entries}

/-- What is known of a schema that is being folded stays known when more places are listed. -/
theorem IsFolding.mono {pending : Pending} (hsubset : keys ⊆ more)
    (h : IsFolding document keys pending node) : IsFolding document more pending node where
  plain := h.plain.mono (IsReference.mono hsubset)
  half := h.half.mono fun _ hmem => hsubset hmem
  free := h.free
  members entry hentry := (h.members entry hentry).imp id fun h => h.mono hsubset

/-- What is known of a schema that is left where it is stays known when more places are listed. -/
theorem IsLeft.mono {schema : Json} (hsubset : keys ⊆ more) (h : IsLeft document keys schema) :
    IsLeft document more schema :=
  ⟨h.plain.mono (IsReference.mono hsubset), h.settled.mono fun _ hmem => hsubset hmem⟩

/-- What is known of a listed schema stays known when more places are listed. -/
theorem IsListed.mono (hsubset : keys ⊆ more) (h : IsListed document keys node) :
    IsListed document more node where
  plain := h.plain.mono (IsReference.mono hsubset)
  half := h.half.mono fun _ hmem => hsubset hmem
  properties members hmembers member hmember :=
    (h.properties members hmembers member hmember).mono fun _ hmem => hsubset hmem

/-- The target of a reference stands in the document, unless it is listed. -/
theorem IsRaw.target (hwf : document.wellFormed) (hdocument : isPlainDocument document)
    {text : String} {schema : Json} (h : IsRaw document keys (.obj node))
    (htext : textRef? node = some text) (hpath : SchemaPath.ofPointer text = .ok path)
    (hnew : path ∉ keys) (hschema : document.at? path = some schema) :
    IsRaw document keys schema := by
  obtain ⟨place, hmem⟩ := h.mem_refs htext hpath hnew
  have hplain := isPlain_of_referent hdocument hmem hpath hschema
  exact ⟨plain_of_at? hwf hschema hplain, fun hfree => Json.everywhere_of_descend? hschema hfree⟩

/-- A reference to a listed place is settled. -/
theorem isLeft_reference (hlisted : path ∈ keys) :
    IsLeft document keys (Walked.canonical path).toJson :=
  ⟨plain_reference (.inr ⟨path, hlisted, rfl⟩), settled_reference hlisted⟩

/-- A schema that is no object may be left where it is, if its items are settled should it be an
array. -/
theorem isLeft_of_textRef
    (hplain : Plain (isCombined document) (IsReference document keys) .schema (.obj node))
    (htext : textRef? node = none) (hobject : ¬HasObjectType node)
    (hitems : HasArrayType node → ∀ items, Assoc.find? node "items" = some items →
      Settled (· ∈ keys) items) : IsLeft document keys (.obj node) :=
  ⟨hplain, settled_of_textRef hplain htext hitems fun h => absurd h hobject⟩

/-- An array is settled once its items are. -/
theorem IsRaw.isLeft_array {items : Json} (h : IsRaw document keys (.obj node))
    (htext : textRef? node = none) (harray : HasArrayType node)
    (hitems : IsLeft document keys items) :
    IsLeft document keys (.obj (Assoc.insert node "items" items)) := by
  have hother : ∀ keyword, "items" ≠ keyword →
      Assoc.find? (Assoc.insert node "items" items) keyword = Assoc.find? node keyword :=
    fun keyword hne => Assoc.find?_insert_of_ne _ _ hne
  have hdeclared : Merge.declared node ≠ [] :=
    declared_ne_nil_iff.mpr (.inl (Assoc.mem_keys_of_find? harray))
  refine isLeft_of_textRef
    (h.plain.insert (by decide) (by decide) (fun _ => hdeclared) hitems.plain) ?_
    (fun hobject => ?_) fun _ value hvalue => ?_
  · rw [textRef?, hother _ (by decide)]
    exact htext
  · exact not_hasArrayType hobject ((hother _ (by decide)).trans harray)
  · rw [Assoc.find?_insert_self] at hvalue
    exact Option.some.inj hvalue ▸ hitems.settled

/-- An object schema has neither a reference nor items that count before its combiners are
folded. -/
theorem IsRaw.start (h : IsRaw document keys (.obj node)) (htext : textRef? node = none)
    (hobject : HasObjectType node) : IsFolding document keys ⟨[], combiners⟩ node where
  plain := h.plain
  half := by
    refine ⟨fun value hvalue => ?_, fun _ harray => absurd harray (not_hasArrayType hobject)⟩
    cases (h.plain.find?_refKey htext).symm.trans hvalue
  free := h.free
  members _ hentry := absurd hentry List.not_mem_nil

/-- A combiner that is dropped takes nothing with it that counts. -/
theorem IsFolding.drop {values : List Json} (hcombiner : combiner ∈ combiners)
    (h : IsFolding document keys ⟨[], combiner :: rest⟩ node)
    (hvalues : Assoc.find? node combiner = some (.arr values)) :
    IsFolding document keys ⟨memberPlaces path combiner 0 values, rest⟩
      (Assoc.swapErase node combiner) := by
  have hne : ∀ keyword ∉ combiners, combiner ≠ keyword := by
    rintro keyword hkeyword rfl
    exact hkeyword hcombiner
  have hother : ∀ keyword ∉ combiners,
      Assoc.find? (Assoc.swapErase node combiner) keyword = Assoc.find? node keyword :=
    fun keyword hkeyword => Assoc.find?_swapErase_of_ne h.plain.nodup (hne keyword hkeyword)
  have hnot : ¬combinerFree document := fun hfree =>
    not_combinerFree hcombiner hvalues (h.free hfree)
  have hcombined : isCombined document := by simpa [isCombined] using hnot
  have hlist := h.plain.of_find? hvalues
  rw [under_combiner hcombiner] at hlist
  refine ⟨h.plain.swapErase (hne _ (by decide)) (hne _ (by decide)), ?_,
    fun hfree => absurd hfree hnot, fun entry hentry => ⟨hcombined, ?_, ?_⟩⟩
  · exact h.half.congr (hother _ (by decide)) (hother _ (by decide)) (hother _ (by decide))
  · exact hlist.item (mem_of_mem_memberPlaces hentry)
  · exact fun hfree => absurd hfree hnot

/-- What a member has become is as plain as the schema that it is merged into, and half settled. -/
theorem plain_and_half_of_source
    (h : (∃ walked : Walked, walked ≠ .canonical place ∧ IsLeft document keys walked.toJson ∧
      walked.toJson = .obj source) ∨ IsListed document keys source) :
    Plain (isCombined document) (IsReference document keys) .schema (.obj source) ∧
      HalfSettled (· ∈ keys) source := by
  rcases h with ⟨walked, -, hleft, hwalked⟩ | hlisted
  · rw [hwalked] at hleft
    exact ⟨hleft.plain, hleft.settled.half⟩
  · exact ⟨hlisted.plain, hlisted.half⟩

/-- What is plain and half settled stays so when a member is merged into it. -/
theorem IsFolding.merge (h : IsFolding document keys ⟨(place, member) :: others, rest⟩ node)
    (hplain : Plain (isCombined document) (IsReference document keys) .schema (.obj source))
    (hhalf : HalfSettled (· ∈ keys) source)
    (hagree : (SchemaClasses.merge node source path).conflict = none) :
    IsFolding document keys ⟨others, rest⟩ (SchemaClasses.merge node source path).value := by
  have hcombined := (h.members _ List.mem_cons_self).1
  have hplain' := h.plain
  rw [hcombined] at hplain hplain'
  refine ⟨?_, h.half.merge hagree hplain' hplain hhalf, fun hfree => ?_,
    fun entry hentry => h.members entry (List.mem_cons_of_mem _ hentry)⟩
  · rw [hcombined]
    exact plain_merge hagree hplain' hplain
  · rw [isCombined, hfree] at hcombined
    cases hcombined

/-- What stands in a table of the folded schema is raw. -/
theorem IsFolding.property {keyword : String} {entry : String × Json}
    (h : IsFolding document keys ⟨[], []⟩ node)
    (hkeyword : keyword = "properties" ∨ keyword = "patternProperties")
    (hmembers : Assoc.find? node keyword = some (.obj members)) (hentry : entry ∈ members) :
    IsRaw document keys entry.2 := by
  refine ⟨?_, fun hfree => ?_⟩
  · have htable := h.plain.of_find? hmembers
    rcases hkeyword with rfl | rfl <;> exact Plain.member htable hentry
  · exact combinerFree_of_mem (combinerFree_of_mem (h.free hfree) (Assoc.mem_of_find? hmembers))
      hentry

/-- A schema is listed with settled properties. -/
theorem IsFolding.list (h : IsFolding document keys ⟨[], []⟩ node)
    (hmembers : Assoc.find? node "properties" = some (.obj members))
    (hflat : (coverage document).Flat keys path "properties" members flat) :
    IsListed document keys (Assoc.insert node "properties" (.obj flat)) := by
  have hleft := isLeft_of_flat hflat
  obtain ⟨hplain, hhalf⟩ := members_insert (.inl rfl) h.plain h.half hmembers hflat.keys_eq
    fun entry hentry => (hleft entry hentry).plain
  refine ⟨hplain, hhalf, fun others hothers member hmember => ?_⟩
  rw [Assoc.find?_insert_self] at hothers
  obtain rfl := Json.obj.inj (Option.some.inj hothers)
  exact (hleft member hmember).settled

/-- A schema with patterns is settled once these are. -/
theorem IsFolding.patterns (h : IsFolding document keys ⟨[], []⟩ node)
    (hmembers : Assoc.find? node "patternProperties" = some (.obj members))
    (hflat : (coverage document).Flat keys path "patternProperties" members flat) :
    IsLeft document keys (.obj (Assoc.insert node "patternProperties" (.obj flat))) := by
  have hleft := isLeft_of_flat hflat
  obtain ⟨hplain, hhalf⟩ := members_insert (.inr rfl) h.plain h.half hmembers hflat.keys_eq
    fun entry hentry => (hleft entry hentry).plain
  refine ⟨hplain, .schema hhalf.ref hhalf.items fun _ _ others hothers member hmember => ?_⟩
  rw [Assoc.find?_insert_self] at hothers
  obtain rfl := Json.obj.inj (Option.some.inj hothers)
  exact (hleft member hmember).settled

end Steps

/-- The walk keeps what is known at its stages. -/
theorem coverage_kept (hwf : document.wellFormed) (hdocument : isPlainDocument document) :
    (coverage document).Kept document where
  raw_mono hsubset h := h.mono hsubset
  folding_mono hsubset h := h.mono hsubset
  left_mono hsubset h := h.mono hsubset
  listed_mono hsubset h := h.mono hsubset
  target h htext hpath hnew hschema := h.target hwf hdocument htext hpath hnew hschema
  follow _ _ _ _ _ _ hwalked := hwalked
  refer _ _ _ hlisted _ := isLeft_reference hlisted
  reference hlisted _ := isLeft_reference hlisted
  bool _ := ⟨.noObject (.inl rfl) nofun, .noObject nofun⟩
  other h htext hshape := by
    refine isLeft_of_textRef h.plain htext (fun hobject => ?_) fun harray => ?_
    · cases hshape.symm.trans (ofSchema_eq_object.mpr hobject)
    · cases hshape.symm.trans (ofSchema_eq_array.mpr harray)
  array h htext harray hnone := by
    refine isLeft_of_textRef h.plain htext (fun hobject => not_hasArrayType hobject harray)
      fun _ items hitems => ?_
    cases hnone.symm.trans hitems
  items h _ _ hitems :=
    ⟨h.plain.of_find? hitems,
      fun hfree => combinerFree_of_mem (h.free hfree) (Assoc.mem_of_find? hitems)⟩
  array_items h htext harray _ hwalked := h.isLeft_array htext harray hwalked
  start h htext hobject := h.start htext hobject
  skip _ h _ := ⟨h.plain, h.half, h.free, fun _ hentry => absurd hentry List.not_mem_nil⟩
  drop hcombiner h hvalues := h.drop hcombiner hvalues
  member h := (h.members _ List.mem_cons_self).2
  merge h hsource hagree := by
    obtain ⟨hplain, hhalf⟩ := plain_and_half_of_source hsource
    exact h.merge hplain hhalf hagree
  pass h _ _ :=
    ⟨h.plain, h.half, h.free, fun entry hentry => h.members entry (List.mem_cons_of_mem _ hentry)⟩
  property h hkeyword hmembers hentry := h.property hkeyword hmembers hentry
  list h _ hmembers hflat := h.list hmembers hflat
  patterns h _ hmembers hflat := h.patterns hmembers hflat
  bare h _ hpatterns := by
    refine ⟨h.plain, .schema h.half.ref h.half.items fun _ _ members hmembers => ?_⟩
    cases hpatterns.symm.trans hmembers

/-- A plain document is known to be what a walk can begin with. -/
theorem coverage_root (hwf : document.wellFormed) (hdocument : isPlainDocument document) :
    (coverage document).raw [] .root document := by
  rw [isPlainDocument, Bool.and_eq_true] at hdocument
  have hroot : document.at? .root = some document := rfl
  exact ⟨plain_of_at? hwf hroot hdocument.1, fun h => h⟩

end Walk

/-! ### The resolver -/

/-- A text that is the only one in a list of types is not read further. -/
theorem not_isStructural {types : List Json} {name : String} (htypes : isTypeValue (.arr types))
    (h : ∀ type ∈ types, type = .str name) : ¬isStructural name := by
  intro hname
  rw [isTypeValue, namesOne_of_forall hname h, Bool.and_eq_true] at htypes
  cases htypes.2

/-- What a schema is resolved as, if its type can be read in one way only. -/
theorem ofSchema_cases {schema : Entries} {path : SchemaPath} {declared : DeclaredType}
    (htype : ∀ value, Assoc.find? schema typeKey = some value → isTypeValue value)
    (h : DeclaredType.ofSchema schema path = .ok declared) :
    (declared = .single "object" ∧ HasObjectType schema) ∨
      (declared = .single "array" ∧ HasArrayType schema) ∨
      (∃ name, declared = .single name ∧ name ≠ "array" ∧ name ≠ "object") ∨
      ∃ names, declared = .choice names := by
  unfold DeclaredType.ofSchema at h
  split at h
  · rename_i hnone
    exact .inl ⟨(Except.ok.inj h).symm, .inl hnone⟩
  · rename_i name hname
    obtain rfl := Except.ok.inj h
    by_cases hobject : name = "object"
    · subst hobject
      exact .inl ⟨rfl, .inr hname⟩
    · by_cases harray : name = "array"
      · subst harray
        exact .inr (.inl ⟨rfl, hname⟩)
      · exact .inr (.inr (.inl ⟨name, rfl, harray, hobject⟩))
  · rename_i types htypes
    have hvalue := htype _ htypes
    split at h
    · cases h
    · rename_i htexts
      -- an empty list is no type in a plain schema
      obtain ⟨-, hall⟩ := Resolve.mem_distinctTexts htexts
      have hnot : ¬isStructural "array" := not_isStructural hvalue fun type hmem => by
        obtain ⟨text, htext, -⟩ := hall type hmem
        exact absurd htext List.not_mem_nil
      exact absurd rfl hnot
    · rename_i name htexts
      obtain ⟨-, hall⟩ := Resolve.mem_distinctTexts htexts
      have hname : ¬isStructural name := not_isStructural hvalue fun type hmem => by
        obtain ⟨text, htext, rfl⟩ := hall type hmem
        rw [List.mem_singleton.mp htext]
      simp only [isStructural, Bool.or_eq_true, decide_eq_true_eq, not_or] at hname
      obtain ⟨⟨harray, hobject⟩, hpointer⟩ := hname
      rw [if_neg hpointer] at h
      exact .inr (.inr (.inl ⟨name, (Except.ok.inj h).symm, harray, hobject⟩))
    · exact .inr (.inr (.inr ⟨_, (Except.ok.inj h).symm⟩))
  · cases h

/-- All references that are met in a settled schema name listed places. -/
theorem namesListed_of_meets {typed : Bool} {good : String → Prop} {listed : SchemaPath → Prop}
    {path : SchemaPath} {schema value : Json} (hsettled : Settled listed schema)
    (hplain : Plain typed good .schema schema) (h : Resolve.Meets path schema value) :
    NamesListed listed value := by
  have htype : ∀ {entries : Entries}, Plain typed good .schema (.obj entries) →
      ∀ value, Assoc.find? entries typeKey = some value → isTypeValue value :=
    fun hplain value hvalue => Plain.isTypeValue (hplain.of_find? hvalue)
  induction h with
  | ref href => exact hsettled.half.ref _ href
  | pointer _ hdeclared =>
    rcases ofSchema_cases (htype hplain) hdeclared with
      ⟨heq, -⟩ | ⟨heq, -⟩ | ⟨name, heq, -⟩ | ⟨names, heq⟩ <;> cases heq
  | @items _ entries _ _ hnone hdeclared hitems _ ih =>
    have harray : HasArrayType entries := by
      rcases ofSchema_cases (htype hplain) hdeclared with
        ⟨heq, -⟩ | ⟨-, harray⟩ | ⟨name, heq, hne, -⟩ | ⟨names, heq⟩
      · exact absurd (DeclaredType.single.inj heq) (by decide)
      · exact harray
      · exact absurd (DeclaredType.single.inj heq).symm hne
      · cases heq
    exact ih (hsettled.half.items hnone harray _ hitems) (hplain.of_find? hitems)
  | @pattern _ entries _ _ _ hnone hdeclared hmembers _ ih =>
    have hobject : HasObjectType entries := by
      rcases ofSchema_cases (htype hplain) hdeclared with
        ⟨-, hobject⟩ | ⟨heq, -⟩ | ⟨name, heq, -, hne⟩ | ⟨names, heq⟩
      · exact hobject
      · exact absurd (DeclaredType.single.inj heq) (by decide)
      · exact absurd (DeclaredType.single.inj heq).symm hne
      · cases heq
    have htable := hplain.of_find? hmembers
    exact ih (hsettled.patterns hnone hobject hmembers List.mem_cons_self)
      (Plain.member htable List.mem_cons_self)

/-- Flattening covers everything that is resolved: the references that are met in the flattened
schemas of a plain document name listed places, and none of them is unknown. -/
theorem resolve_flatten_ne_unknownRef {document : Json} (hwf : document.wellFormed)
    (hplain : isPlainDocument document) {depth : Nat} {schemas : FlatSchemas}
    (hflatten : flattenWithin depth document = .ok schemas) :
    (∀ path value, Resolve.MeetsAt schemas path value →
      NamesListed (· ∈ Assoc.keys schemas) value) ∧
    ∀ rootName reference, resolve schemas rootName ≠ .error (.unknownRef reference) := by
  have hkept := coverage_kept hwf hplain
  have hgrounded := grounded_of_flattenWithin hkept (coverage_root hwf hplain) hflatten
  have hlisted : ∀ path value, Resolve.MeetsAt schemas path value →
      NamesListed (· ∈ Assoc.keys schemas) value := by
    rintro path value ⟨entry, members, member, hentry, hmembers, hmember, hmet⟩
    have hknown := hgrounded.listed hkept hentry
    have htable := hknown.plain.of_find? hmembers
    exact namesListed_of_meets (hknown.properties members hmembers member hmember)
      (Plain.member htable hmember) hmet
  refine ⟨hlisted, fun rootName => knowsRefs_resolve fun path value hmet => ?_⟩
  obtain ⟨target, rfl, htarget⟩ := hlisted path value hmet
  exact ⟨_, target, rfl, target.ofPointer_toPointer, htarget⟩

/-- A document with all that is covered: a definition that is combined with another one, an array
of it and a dictionary of such arrays, and a choice between types. -/
def household : Json :=
  .obj [
    ("properties", .obj [
      ("owner", .obj [(refKey, .str "#/definitions/person")]),
      ("guests", .obj [(typeKey, .str "array"),
        ("items", .obj [(refKey, .str "#/definitions/person")])]),
      ("rooms", .obj [("patternProperties", .obj [
        (".*", .obj [(typeKey, .str "array"),
          ("items", .obj [(refKey, .str "#/definitions/person")])])])]),
      ("address", .obj [(typeKey, .arr [.str "string", .str "object"])])]),
    ("definitions", .obj [
      ("named", .obj [("properties", .obj [("name", .obj [(typeKey, .str "string")])])]),
      ("person", .obj [("allOf", .arr [.obj [(refKey, .str "#/definitions/named")]]),
        ("properties", .obj [("age", .obj [(typeKey, .str "integer")])])])])]

/-- On this document everything that the classes name is listed, and resolving it meets no unknown
reference. -/
theorem resolve_flatten_household : household.wellFormed ∧ isPlainDocument household ∧
    ∃ schemas, flatten household = .ok schemas ∧
      Assoc.keys schemas = [⟨["definitions", "named"]⟩, ⟨["definitions", "person"]⟩, .root] ∧
      (∀ path value, Resolve.MeetsAt schemas path value →
        NamesListed (· ∈ Assoc.keys schemas) value) ∧
      ∀ rootName reference, resolve schemas rootName ≠ .error (.unknownRef reference) := by
  have hwf : household.wellFormed := by decide
  have hplain : isPlainDocument household := by decide +kernel
  have hkeys : (flatten household).toOption.map Assoc.keys =
      some [⟨["definitions", "named"]⟩, ⟨["definitions", "person"]⟩, .root] := by decide +kernel
  cases hflatten : flatten household with
  | error error =>
    rw [hflatten] at hkeys
    cases hkeys
  | ok schemas =>
    rw [hflatten] at hkeys
    obtain ⟨hmeets, hknown⟩ := resolve_flatten_ne_unknownRef hwf hplain hflatten
    exact ⟨hwf, hplain, schemas, rfl, Option.some.inj hkeys, hmeets, hknown⟩

/-- An array whose type is the only one in a list. -/
def loneType : Json :=
  .obj [
    ("properties", .obj [("a", .obj [(typeKey, .arr [.str "array"]),
      ("items", .obj [(refKey, .str "#/definitions/s")])])]),
    ("definitions", .obj [("s", .obj [(typeKey, .str "string")])])]

/-- A schema that is an array only once the member of its combiner is merged. -/
def lateType : Json :=
  .obj [
    ("properties", .obj [("a", .obj [("items", .obj [(refKey, .str "#/definitions/s")]),
      ("allOf", .arr [.obj [(typeKey, .str "array")]])])]),
    ("definitions", .obj [("s", .obj [(typeKey, .str "string")])])]

/-- The same, where merging unpacks a list in a list. -/
def nestedType : Json :=
  .obj [
    ("properties", .obj [("a", .obj [("allOf", .arr [
      .obj [(typeKey, .arr [.arr [.str "array"]]),
        ("items", .obj [(refKey, .str "#/definitions/s")])],
      .obj [(typeKey, .arr [.arr [.str "array"]])]])])]),
    ("definitions", .obj [("s", .obj [(typeKey, .str "string")])])]

/-- A reference that is no text. -/
def truthReference : Json :=
  .obj [("properties", .obj [("a", .obj [(refKey, .bool true)])])]

/-- The error with which the flattened schemas of a document cannot be resolved. -/
def resolveError? (document : Json) (rootName : String) : Option ModelError :=
  match flatten document with
  | .ok schemas =>
    match resolve schemas rootName with
    | .ok _ => none
    | .error error => some error
  | .error _ => none

/-- An error with which a document cannot be resolved comes from schemas that have been
flattened. -/
theorem exists_of_resolveError? {document : Json} {rootName : String} {error : ModelError}
    (h : resolveError? document rootName = some error) :
    ∃ schemas, flatten document = .ok schemas ∧ resolve schemas rootName = .error error := by
  unfold resolveError? at h
  split at h
  · rename_i schemas hflatten
    refine ⟨schemas, hflatten, ?_⟩
    split at h
    · cases h
    · rename_i other hresolve
      obtain rfl := Option.some.inj h
      exact hresolve
  · cases h

/-- None of the conditions can be left out: a lone type in a list, a type that comes in late, a lone
type in a list of lists, and a reference that is no text all leave a reference unknown. -/
theorem resolve_flatten_unknownRef :
    (loneType.wellFormed ∧ ∃ schemas, flatten loneType = .ok schemas ∧
      resolve schemas "Root" = .error (.unknownRef "#/definitions/s")) ∧
    (lateType.wellFormed ∧ ∃ schemas, flatten lateType = .ok schemas ∧
      resolve schemas "Root" = .error (.unknownRef "#/definitions/s")) ∧
    (nestedType.wellFormed ∧ ∃ schemas, flatten nestedType = .ok schemas ∧
      resolve schemas "Root" = .error (.unknownRef "#/definitions/s")) ∧
    (truthReference.wellFormed ∧ ∃ schemas, flatten truthReference = .ok schemas ∧
      resolve schemas "Root" = .error (.unknownRef "true")) := by
  refine ⟨⟨by decide, ?_⟩, ⟨by decide, ?_⟩, ⟨by decide, ?_⟩, ⟨by decide, ?_⟩⟩
  · exact exists_of_resolveError? (by decide +kernel)
  · exact exists_of_resolveError? (by decide +kernel)
  · exact exists_of_resolveError? (by decide +kernel)
  · exact exists_of_resolveError? (by decide +kernel)

end SchemaClasses.Flatten
