import SchemaClasses.Proofs.Flatten.CombinerFree
import SchemaClasses.Proofs.Flatten.Growth
import SchemaClasses.Proofs.Flatten.Overlap
import SchemaClasses.Proofs.Flatten.Settled

/-!
# Squashing loses no nested property

Main statement (`Overlap.isKept_of_flattenWithin`): if the root of a document and a member of one of
its combiners declare the same property as an inline object with properties, then the entry of the
root shows the properties of both, either in the schema of the property or in an entry that this
schema names as one of its types.

By the time the member is merged its property has become a reference, and what comes of that depends
on the type of the property in the root. If there is one then the reference is added to it as an
alternative, and nothing gets lost. If there is none then the property becomes the reference, and
the walk that follows leads away from what the root has declared (`isKept_fails`). So a type is
asked for, and besides that nothing that is merged before or after may put something else in the
place of the properties (`isSquashable`).

The walk is followed by an invariant (`Overlap.squash`). It knows three places: at the root the
property stays a typed object with all its properties until the member has been merged
(`IsOuter`), at the member it stays an object until its properties are walked (`IsInner`), and at
the place of the property inside the member its own properties are listed. At all other places it
only says that what can be merged from there is proper (`IsLeft`).
-/

namespace SchemaClasses.Flatten

namespace Overlap

variable {root : Entries} (o : Overlap root)

/-! ### Before the walk -/

/-- Whether a place is only met with the schema that stands there in the document. -/
def IsOwnPlace (path : SchemaPath) : Prop :=
  path = .root ∨ path = o.memberPlace ∨ path = o.memberPlace.child "properties"

/-- What is known of a schema that is going to be walked. -/
structure IsRaw (keys : List SchemaPath) (path : SchemaPath) (schema : Json) : Prop where
  fits : FitsAll (.obj root) o.name keys schema
  proper : IsMemberPlace path → isProper o.name schema
  own : o.IsOwnPlace path → (Json.obj root).at? path = some schema
  inner : path = o.innerPlace → ∃ node, schema = .obj node ∧ textRef? node = none ∧
    Declares node (Assoc.keys o.innerMembers)

section Raw

variable {o} {keys : List SchemaPath} {path : SchemaPath} {node members : Entries} {value : Json}
  {combiner keyword : String} {index : Nat}

/-- A keyword that is no combiner is not the combiner of the overlap. -/
theorem combiner_ne (o : Overlap root) {keyword : String} (h : keyword ∉ combiners) :
    o.combiner ≠ keyword := by
  rintro rfl
  exact h o.combiner_mem

/-- Only a member of the combiner itself has the place of the member. -/
theorem eq_of_memberPlace {a b : String} (h : (path.child a).child b = o.memberPlace) :
    path = .root ∧ a = o.combiner ∧ b = SchemaPath.ofIndex o.index := by
  obtain ⟨hfront, hb⟩ := SchemaPath.child_inj.mp h
  obtain ⟨hpath, ha⟩ := SchemaPath.child_inj.mp hfront
  exact ⟨hpath, ha, hb⟩

/-- Only a property of the member has the place of the property. -/
theorem eq_of_innerPlace {a b : String} (h : (path.child a).child b = o.innerPlace) :
    path = o.memberPlace ∧ a = "properties" ∧ b = o.name := by
  obtain ⟨hfront, hb⟩ := SchemaPath.child_inj.mp h
  obtain ⟨hpath, ha⟩ := SchemaPath.child_inj.mp hfront
  exact ⟨hpath, ha, hb⟩

/-- The schemas of a table are met elsewhere. -/
theorem not_isOwnPlace_property {name : String} (hcombiner : keyword ∉ combiners)
    (hdigits : keyword.toList.all Char.isDigit = false) :
    ¬o.IsOwnPlace ((path.child keyword).child name) := by
  rintro (heq | heq | heq)
  · exact SchemaPath.child_ne_root heq
  · exact o.combiner_ne hcombiner (eq_of_memberPlace heq).2.1.symm
  · obtain ⟨hfront, -⟩ := SchemaPath.child_inj.mp heq
    exact ofIndex_ne hdigits o.index (SchemaPath.child_inj.mp hfront).2.symm

/-- The items of a schema are met elsewhere, too. -/
theorem not_isOwnPlace_items : ¬o.IsOwnPlace (path.child "items") := by
  rintro (heq | heq | heq)
  · exact SchemaPath.child_ne_root heq
  · exact ofIndex_ne (by decide) o.index (SchemaPath.child_inj.mp heq).2.symm
  · exact absurd (SchemaPath.child_inj.mp heq).2 (by decide)

/-- The document itself. -/
theorem isRaw_root (hfits : FitsAll (.obj root) o.name keys (.obj root)) :
    o.IsRaw keys .root (.obj root) where
  fits := hfits
  proper h := absurd h not_isMemberPlace_root
  own _ := rfl
  inner h := absurd h.symm SchemaPath.child_ne_root

/-- The target of a reference. -/
theorem isRaw_target (hwf : (Json.obj root).wellFormed)
    (hfits : FitsAll (.obj root) o.name keys (.obj root))
    (hat : (Json.obj root).at? path = some value) (hproper : isProper o.name value) :
    o.IsRaw keys path value where
  fits := hfits.of_at? hat
  proper _ := hproper
  own _ := hat
  inner h := by
    subst h
    obtain rfl := Option.some.inj (hat.symm.trans (o.at?_innerPlace hwf))
    exact ⟨o.inner, rfl, o.inner_inline.plain, o.inner_declares⟩

/-- The items of an array. Its place is that of the property if it is the table of properties of the
member, read as a schema. -/
theorem IsRaw.items (hwf : (Json.obj root).wellFormed) (h : o.IsRaw keys path (.obj node))
    (hitems : Assoc.find? node "items" = some value) :
    o.IsRaw keys (path.child "items") value where
  fits := h.fits.of_find? hitems
  proper hmember := absurd hmember (not_isMemberPlace_items path)
  own hown := absurd hown not_isOwnPlace_items
  inner hinner := by
    obtain ⟨hpath, hname⟩ := SchemaPath.child_inj.mp hinner
    have hat := at?_child (h.own (.inr (.inr hpath))) "items"
    rw [hinner, o.at?_innerPlace hwf, hitems] at hat
    obtain rfl := Option.some.inj hat
    exact ⟨o.inner, rfl, o.inner_inline.plain, o.inner_declares⟩

/-- The members of a combiner. -/
theorem isRaw_member (hwf : (Json.obj root).wellFormed)
    (hnode : FitsAll (.obj root) o.name keys (.obj node)) {items : List Json}
    (hcombiner : combiner ∈ combiners) (hitems : Assoc.find? node combiner = some (.arr items))
    (hroot : path = .root → combiner = o.combiner → items = o.members)
    (hvalue : items[index]? = some value) :
    o.IsRaw keys ((path.child combiner).child (SchemaPath.ofIndex index)) value where
  fits := Json.throughout_arr.mp (hnode.of_find? hitems) value (List.mem_of_getElem? hvalue)
  proper _ := (hnode.of_mem (Assoc.mem_of_find? hitems)).1.members hcombiner items rfl value
    (List.mem_of_getElem? hvalue)
  own hown := by
    rcases hown with heq | heq | heq
    · exact absurd heq SchemaPath.child_ne_root
    · obtain ⟨hpath, hcombiner, hindex⟩ := eq_of_memberPlace heq
      obtain rfl : index = o.index := Text.decimal_injective hindex
      obtain rfl := hroot hpath hcombiner
      rw [heq, o.at?_memberPlace hwf, ← hvalue, o.member_at]
    · exact absurd (SchemaPath.child_inj.mp heq).2 (ofIndex_ne (by decide) index)
  inner hinner := by
    obtain ⟨-, hproperties, -⟩ := eq_of_innerPlace hinner
    exact absurd (hproperties ▸ hcombiner) (by decide)

/-- The schemas of a table. -/
theorem isRaw_property (hnode : FitsAll (.obj root) o.name keys (.obj node))
    (hkeyword : keyword = "properties" ∨ keyword = "patternProperties")
    (hmembers : Assoc.find? node keyword = some (.obj members)) {name : String}
    (hvalue : (name, value) ∈ members)
    (hinner : path = o.memberPlace → keyword = "properties" → name = o.name →
      ∃ node, value = .obj node ∧ textRef? node = none ∧
        Declares node (Assoc.keys o.innerMembers)) :
    o.IsRaw keys ((path.child keyword).child name) value := by
  have hcombiner : keyword ∉ combiners := by rcases hkeyword with rfl | rfl <;> decide
  have hdigits : keyword.toList.all Char.isDigit = false := by
    rcases hkeyword with rfl | rfl <;> decide
  refine ⟨((hnode.of_find? hmembers).of_mem hvalue).2,
    fun hmember => absurd hmember (not_isMemberPlace_property hcombiner),
    fun hown => absurd hown (not_isOwnPlace_property hcombiner hdigits), fun heq => ?_⟩
  obtain ⟨hpath, hkey, hname⟩ := eq_of_innerPlace heq
  exact hinner hpath hkey hname

end Raw

/-! ### While combiners are folded -/

/-- What the schema of the property shows of both sides once the member is merged: the properties of
the member as well, or the place where they are listed as one of its types. -/
def IsSquashed (keys : List SchemaPath) (outer : Entries) : Prop :=
  Declares outer (Assoc.keys o.innerMembers) ∨
    Merge.Offers outer o.innerPlace.toPointer ∧ o.innerPlace ∈ keys

/-- What is known of the document while its combiners are folded: its property stays a typed object
with all its properties, and the member is still to come or has been merged. -/
structure IsOuter (keys : List SchemaPath) (pending : Pending) (node outer : Entries) : Prop where
  declared : property? node o.name = some (.obj outer)
  plain : textRef? outer = none
  type : Merge.Offers outer "object"
  fields : Declares outer (Assoc.keys o.outerMembers)
  members : ∀ value, Assoc.find? node o.combiner = some value → value = .arr o.members
  squashed : (o.combiner ∈ pending.combiners ∧
      Assoc.find? node o.combiner = some (.arr o.members)) ∨
    (o.memberPlace, .obj o.member) ∈ pending.members ∨ o.IsSquashed keys outer

/-- What is known of the member while its combiners are folded: its property stays an object with
all its properties, because it has a type or because nothing is merged. -/
structure IsInner (pending : Pending) (node inner : Entries) : Prop where
  declared : property? node o.name = some (.obj inner)
  plain : textRef? inner = none
  fields : Declares inner (Assoc.keys o.innerMembers)
  type : Merge.Offers inner "object" ∨ pending.members = [] ∧
    ∀ combiner ∈ combiners, Assoc.find? node combiner = none

/-- What is known of an object schema whose combiners are being folded. -/
structure IsFolding (keys : List SchemaPath) (path : SchemaPath) (origin : Json)
    (pending : Pending) (node : Entries) : Prop where
  raw : o.IsRaw keys path origin
  fits : FitsAll (.obj root) o.name keys (.obj node)
  members : ∀ entry ∈ pending.members, IsMemberPlace entry.1 ∧ o.IsRaw keys entry.1 entry.2
  folded : ∀ combiner ∈ combiners, combiner ∉ pending.combiners →
    Assoc.find? node combiner = none
  tidy : isProper o.name origin → isTidy o.name node
  tabled : isTabled origin → isTabled (.obj node)
  properties : ∀ schema, origin = .obj schema →
    (Assoc.find? schema "properties").isSome → (Assoc.find? node "properties").isSome
  root : path = .root → ∃ outer, o.IsOuter keys pending node outer
  member : path = o.memberPlace → ∃ inner, o.IsInner pending node inner
  inner : path = o.innerPlace → Declares node (Assoc.keys o.innerMembers)

/-! ### After the walk -/

/-- Whether a schema keeps the properties and the type of another one. -/
def Resembles (schema other : Entries) : Prop :=
  Assoc.find? schema "properties" = Assoc.find? other "properties" ∧
    Assoc.find? schema typeKey = Assoc.find? other typeKey

/-- A schema offers the types of the one that it resembles. -/
theorem Resembles.offers {schema other : Entries} (h : Resembles schema other) {text : String}
    (hoffers : Merge.Offers other text) : Merge.Offers schema text := by
  obtain ⟨value, hvalue, hmem⟩ := hoffers
  exact ⟨value, h.2.trans hvalue, hmem⟩

/-- What is known of a schema and of what has become of it. A schema with properties is listed if it
is an object, and otherwise stays where it is as far as its properties and its type go. -/
structure IsLeft (keys : List SchemaPath) (path : SchemaPath) (origin : Json)
    (walked : Walked) : Prop where
  fits : FitsAll (.obj root) o.name keys walked.toJson
  kind : (∃ node, walked.toJson = .obj node) ∨ ∃ value, walked.toJson = .bool value
  mergeable : isProper o.name origin →
    ∀ node, walked.toJson = .obj node → IsMergeable o.name node
  tabled : isTabled origin → ∃ node, walked.toJson = .obj node ∧ isTabled (.obj node)
  stays : ∀ schema, origin = .obj schema → textRef? schema = none →
    (Assoc.find? schema "properties").isSome →
    (walked = .canonical path ∧ path ∈ keys) ∨
      ¬HasObjectType schema ∧ ∃ node, walked = .inPlace (.obj node) ∧ Resembles node schema

/-- What is known of a schema that is listed. -/
structure IsListed (keys : List SchemaPath) (path : SchemaPath) (entry : Entries) : Prop where
  fits : FitsAll (.obj root) o.name keys (.obj entry)
  mergeable : IsMemberPlace path → IsMergeable o.name entry
  root : path = .root → o.outerPlace ∈ keys ∨
    ∃ outer, property? entry o.name = some (.obj outer) ∧ Merge.Offers outer "object" ∧
      Declares outer (Assoc.keys o.outerMembers) ∧ o.IsSquashed keys outer
  member : path = o.memberPlace → ∃ inner, property? entry o.name = some (.obj inner) ∧
    (Declares inner (Assoc.keys o.innerMembers) ∨
      textRef? inner = some o.innerPlace.toPointer ∧ o.innerPlace ∈ keys)
  inner : path = o.innerPlace → Declares entry (Assoc.keys o.innerMembers)

/-- What is known at the stages of the walk. -/
def squash : Invariant where
  raw := o.IsRaw
  folding := o.IsFolding
  left := o.IsLeft
  listed := o.IsListed

/-! ### When more is listed -/

section Mono

variable {o} {keys more : List SchemaPath} (hsubset : keys ⊆ more) {path : SchemaPath}
  {origin : Json} {node : Entries} {pending : Pending}

include hsubset

/-- What is known of a schema that is going to be walked stays known when more places are listed. -/
theorem IsRaw.mono (h : o.IsRaw keys path origin) : o.IsRaw more path origin :=
  { h with fits := h.fits.mono hsubset }

/-- What shows both sides still does when more places are listed. -/
theorem IsSquashed.mono (h : o.IsSquashed keys node) : o.IsSquashed more node :=
  h.imp id fun ⟨hoffers, hlisted⟩ => ⟨hoffers, hsubset hlisted⟩

/-- What is known of the document while it is folded stays known when more places are listed. -/
theorem IsOuter.mono {outer : Entries} (h : o.IsOuter keys pending node outer) :
    o.IsOuter more pending node outer :=
  { h with squashed := h.squashed.imp id (Or.imp id (·.mono hsubset)) }

/-- What is known of any schema that is being folded stays known when more places are listed. -/
theorem IsFolding.mono (h : o.IsFolding keys path origin pending node) :
    o.IsFolding more path origin pending node :=
  { h with
    raw := h.raw.mono hsubset
    fits := h.fits.mono hsubset
    members := fun entry hentry => (h.members entry hentry).imp id (·.mono hsubset)
    root := fun hpath => (h.root hpath).imp fun _ houter => houter.mono hsubset }

/-- What is known of what has become of a schema stays known when more places are listed. -/
theorem IsLeft.mono {walked : Walked} (h : o.IsLeft keys path origin walked) :
    o.IsLeft more path origin walked :=
  { h with
    fits := h.fits.mono hsubset
    stays := fun schema heq hplain hsome =>
      (h.stays schema heq hplain hsome).imp_left (And.imp_right (hsubset ·)) }

/-- What is known of a listed schema stays known when more places are listed. -/
theorem IsListed.mono (h : o.IsListed keys path node) : o.IsListed more path node :=
  { h with
    fits := h.fits.mono hsubset
    root := fun hpath => (h.root hpath).imp (hsubset ·)
      fun ⟨outer, hdeclared, htype, hfields, hsquashed⟩ =>
        ⟨outer, hdeclared, htype, hfields, hsquashed.mono hsubset⟩
    member := fun hpath => (h.member hpath).imp fun _ hinner =>
      hinner.imp_right (Or.imp_right (And.imp_right (hsubset ·))) }

end Mono

/-! ### What is left -/

section Left

variable {o} {keys : List SchemaPath} {path target : SchemaPath} {node left : Entries}
  {origin : Json}

/-- A schema that consists of a reference has nothing else. -/
theorem find?_reference {value : Json} {keyword : String} (h : refKey ≠ keyword) :
    Assoc.find? [(refKey, value)] keyword = none := by
  rw [Assoc.find?, if_neg h, Assoc.find?_nil]

/-- A listed place may be left behind by a schema that is a reference or stands at that place. -/
theorem isLeft_canonical (hlisted : target ∈ keys)
    (hstays : ∀ schema, origin = .obj schema → textRef? schema = none → target = path) :
    o.IsLeft keys path origin (.canonical target) where
  fits := Json.throughout_toSchema (fits_toPointer hlisted)
  kind := .inl ⟨_, rfl⟩
  mergeable _ schema heq := by
    obtain rfl := Json.obj.inj heq
    refine ⟨isTidy_of_none (find?_reference (by decide)), fun combiner hcombiner => ?_⟩
    apply find?_reference
    exact (ne_of_mem_of_not_mem hcombiner (by decide)).symm
  tabled _ := ⟨_, rfl, by rw [isTabled, find?_reference (by decide)]; rfl⟩
  stays schema heq hplain _ := by
    obtain rfl := hstays schema heq hplain
    exact .inl ⟨rfl, hlisted⟩

/-- A schema that is no object keeps its properties, its type and its combiners, which it does not
have if it is proper. -/
theorem isLeft_inPlace (hobject : ¬HasObjectType node)
    (hfits : FitsAll (.obj root) o.name keys (.obj left))
    (hsame : ∀ keyword, keyword ≠ "items" → Assoc.find? left keyword = Assoc.find? node keyword) :
    o.IsLeft keys path (.obj node) (.inPlace (.obj left)) where
  fits := hfits
  kind := .inl ⟨left, rfl⟩
  mergeable hproper schema heq := by
    obtain rfl := Json.obj.inj heq
    obtain ⟨htidy, htype⟩ := isProper_obj.mp hproper
    refine ⟨(isTidy_congr (hsame _ (by decide))).trans htidy, fun combiner hcombiner => ?_⟩
    rw [hsame combiner (ne_of_mem_of_not_mem hcombiner (by decide))]
    exact htype.resolve_left hobject combiner hcombiner
  tabled htabled := ⟨left, rfl, (isTabled_congr (hsame _ (by decide))).trans htabled⟩
  stays schema heq _ _ := by
    obtain rfl := Json.obj.inj heq
    exact .inr ⟨hobject, left, rfl, hsame _ (by decide), hsame _ (by decide)⟩

/-- A folded schema without properties has none that could get lost. -/
theorem isLeft_folded (h : o.IsFolding keys path origin ⟨[], []⟩ node)
    (hnone : Assoc.find? node "properties" = none)
    (hfits : FitsAll (.obj root) o.name keys (.obj left))
    (hsame : ∀ keyword, keyword ≠ "patternProperties" →
      Assoc.find? left keyword = Assoc.find? node keyword) :
    o.IsLeft keys path origin (.inPlace (.obj left)) where
  fits := hfits
  kind := .inl ⟨left, rfl⟩
  mergeable _ schema heq := by
    obtain rfl := Json.obj.inj heq
    refine ⟨isTidy_of_none ((hsame _ (by decide)).trans hnone), fun combiner hcombiner => ?_⟩
    rw [hsame combiner (ne_of_mem_of_not_mem hcombiner (by decide))]
    exact h.folded combiner hcombiner List.not_mem_nil
  tabled _ := ⟨left, rfl, by rw [isTabled, hsame _ (by decide), hnone]; rfl⟩
  stays schema heq _ hproperties := by
    have hsome := h.properties schema heq hproperties
    rw [hnone] at hsome
    cases hsome

end Left

/-! ### Folding -/

section Folding

variable {o} {keys : List SchemaPath} {path place : SchemaPath} {node source : Entries}
  {origin member : Json} {others : List (SchemaPath × Json)} {combiner : String}
  {rest : List String}

/-- What a merge has taken up keeps showing both sides. -/
theorem IsSquashed.absorb {outer result : Entries} {other : Option Json}
    (h : o.IsSquashed keys outer) (habsorbs : Absorbs outer other result) :
    o.IsSquashed keys result :=
  h.imp (habsorbs.declares _) fun ⟨hoffers, hlisted⟩ => ⟨habsorbs.offers _ hoffers, hlisted⟩

/-- Nothing is folded yet. -/
theorem isFolding_start (hwf : (Json.obj root).wellFormed) (houter : Merge.Offers o.outer "object")
    (hinner : Merge.Offers o.inner "object" ∨
      ∀ combiner ∈ combiners, Assoc.find? o.member combiner = none)
    (h : o.IsRaw keys path (.obj node)) :
    o.IsFolding keys path (.obj node) ⟨[], combiners⟩ node where
  raw := h
  fits := h.fits
  members _ hentry := absurd hentry List.not_mem_nil
  folded combiner hcombiner hnot := absurd hcombiner hnot
  tidy hproper := (isProper_obj.mp hproper).1
  tabled htabled := htabled
  properties schema heq hsome := Json.obj.inj heq ▸ hsome
  root hpath := by
    have hnode := h.own (.inl hpath)
    subst hpath
    obtain rfl : root = node := Json.obj.inj (Option.some.inj hnode)
    refine ⟨o.outer, o.outer_declared, o.outer_inline.plain, houter, o.outer_declares,
      fun value hvalue => ?_, .inl ⟨o.combiner_mem, o.root_combiner⟩⟩
    exact Option.some.inj (hvalue.symm.trans o.root_combiner)
  member hpath := by
    have hnode := h.own (.inr (.inl hpath))
    rw [hpath, o.at?_memberPlace hwf] at hnode
    obtain rfl := Json.obj.inj (Option.some.inj hnode)
    exact ⟨o.inner, o.inner_declared, o.inner_inline.plain, o.inner_declares,
      hinner.imp id fun hnone => ⟨rfl, hnone⟩⟩
  inner hpath := by
    obtain ⟨schema, heq, -, hdeclares⟩ := h.inner hpath
    exact Json.obj.inj heq ▸ hdeclares

/-- A combiner that a schema does not have is folded already. -/
theorem IsFolding.skip (h : o.IsFolding keys path origin ⟨[], combiner :: rest⟩ node)
    (hnone : Assoc.find? node combiner = none) :
    o.IsFolding keys path origin ⟨[], rest⟩ node where
  raw := h.raw
  fits := h.fits
  members _ hentry := absurd hentry List.not_mem_nil
  folded := FoldedBut.skip h.folded hnone
  tidy := h.tidy
  tabled := h.tabled
  properties := h.properties
  root hpath := by
    obtain ⟨outer, houter⟩ := h.root hpath
    refine ⟨outer, houter.declared, houter.plain, houter.type, houter.fields, houter.members, ?_⟩
    rcases houter.squashed with ⟨hmem, hfind⟩ | hmem | hsquashed
    · refine .inl ⟨(List.mem_cons.mp hmem).resolve_left ?_, hfind⟩
      rintro rfl
      cases hnone.symm.trans hfind
    · exact absurd hmem List.not_mem_nil
    · exact .inr (.inr hsquashed)
  member hpath := by
    obtain ⟨inner, hinner⟩ := h.member hpath
    exact ⟨inner, hinner.declared, hinner.plain, hinner.fields, hinner.type⟩
  inner := h.inner

/-- The combiner is dropped, and its members are folded next. -/
theorem IsFolding.drop (hwf : (Json.obj root).wellFormed) (hcombiner : combiner ∈ combiners)
    (h : o.IsFolding keys path origin ⟨[], combiner :: rest⟩ node) {members : List Json}
    (hmembers : Assoc.find? node combiner = some (.arr members)) :
    o.IsFolding keys path origin ⟨memberPlaces path combiner 0 members, rest⟩
      (Assoc.swapErase node combiner) := by
  have hsame : ∀ keyword, combiner ≠ keyword →
      Assoc.find? (Assoc.swapErase node combiner) keyword = Assoc.find? node keyword :=
    fun keyword hne => Assoc.find?_swapErase_of_ne h.fits.nodup hne
  have hproperties : combiner ≠ "properties" := ne_of_mem_of_not_mem hcombiner (by decide)
  have hroot : path = .root → combiner = o.combiner → members = o.members := by
    intro hpath heq
    obtain ⟨outer, houter⟩ := h.root hpath
    exact Json.arr.inj (houter.members _ (heq ▸ hmembers))
  have hgone := Assoc.find?_swapErase_self h.fits.nodup combiner
  refine ⟨h.raw, h.fits.swapErase _, fun entry hentry => ?_,
    FoldedBut.drop h.folded h.fits.nodup,
    fun hproper => (isTidy_congr (hsame _ hproperties)).trans (h.tidy hproper),
    fun htabled => (isTabled_congr (hsame _ hproperties)).trans (h.tabled htabled),
    fun schema heq hsome => hsame _ hproperties ▸ h.properties schema heq hsome,
    fun hpath => ?_, fun hpath => ?_, fun hpath => (h.inner hpath).congr (hsame _ hproperties)⟩
  · obtain ⟨index, hvalue, hplace⟩ := mem_memberPlaces.mp hentry
    rw [hplace, SchemaPath.append_pair, Nat.zero_add]
    exact ⟨⟨path, combiner, index, hcombiner, rfl⟩,
      isRaw_member hwf h.fits hcombiner hmembers hroot hvalue⟩
  · obtain ⟨outer, houter⟩ := h.root hpath
    refine ⟨outer, ?_, houter.plain, houter.type, houter.fields, fun value hvalue => ?_, ?_⟩
    · rw [property?_congr (hsame _ hproperties)]
      exact houter.declared
    · by_cases heq : combiner = o.combiner
      · rw [heq] at hgone
        cases hgone.symm.trans (heq ▸ hvalue)
      · exact houter.members value (hsame _ heq ▸ hvalue)
    -- the member is among those dropped now, or its combiner comes later, or it has been merged
    · rcases houter.squashed with ⟨hmem, hfind⟩ | hmem | hsquashed
      · by_cases heq : combiner = o.combiner
        · refine .inr (.inl (mem_memberPlaces.mpr ⟨o.index, ?_, ?_⟩))
          · rw [hroot hpath heq]
            exact o.member_at
          · rw [hpath, heq, Nat.zero_add, SchemaPath.append_pair]
            rfl
        · exact .inl ⟨(List.mem_cons.mp hmem).resolve_left fun h => heq h.symm, hsame _ heq ▸ hfind⟩
      · exact absurd hmem List.not_mem_nil
      · exact .inr (.inr hsquashed)
  · obtain ⟨inner, hinner⟩ := h.member hpath
    refine ⟨inner, ?_, hinner.plain, hinner.fields, .inl (hinner.type.resolve_right ?_)⟩
    · rw [property?_congr (hsame _ hproperties)]
      exact hinner.declared
    · rintro ⟨-, hnone⟩
      cases (hnone combiner hcombiner).symm.trans hmembers

/-- What is merged is what has become of a proper schema. -/
theorem IsFolding.mergeable
    (h : o.IsFolding keys path origin ⟨(place, member) :: others, rest⟩ node)
    (hsource : (∃ walked, walked ≠ .canonical place ∧ o.IsLeft keys place member walked ∧
      walked.toJson = .obj source) ∨ o.IsListed keys place source) :
    FitsAll (.obj root) o.name keys (.obj source) ∧ IsMergeable o.name source := by
  obtain ⟨hplace, hraw⟩ := h.members _ List.mem_cons_self
  rcases hsource with ⟨walked, -, hleft, hwalked⟩ | hlisted
  · exact ⟨hwalked ▸ hleft.fits, hleft.mergeable (hraw.proper hplace) source hwalked⟩
  · exact ⟨hlisted.fits, hlisted.mergeable hplace⟩

/-- Merging the member squashes it: it has been listed, so its property is still declared, or has
become a reference. -/
theorem isSquashed_of_absorbs {outer result : Entries}
    (hsource : (∃ walked, walked ≠ .canonical o.memberPlace ∧
      o.IsLeft keys o.memberPlace (.obj o.member) walked ∧ walked.toJson = .obj source) ∨
      o.IsListed keys o.memberPlace source)
    (habsorbs : Absorbs outer (property? source o.name) result) : o.IsSquashed keys result := by
  rcases hsource with ⟨walked, hne, hleft, -⟩ | hlisted
  · obtain ⟨members, hmembers, -⟩ := exists_of_property? o.inner_declared
    rcases hleft.stays o.member rfl o.member_inline.plain (hmembers ▸ rfl) with
      ⟨heq, -⟩ | ⟨hobject, -⟩
    · exact absurd heq hne
    · exact absurd o.member_inline.object hobject
  · obtain ⟨inner, hinner, hdeclares | ⟨htext, hkey⟩⟩ := hlisted.member rfl
    · exact .inl (habsorbs.declares_source inner _ hinner hdeclares)
    · exact .inr ⟨habsorbs.offers_source inner _ hinner htext, hkey⟩

/-- What has become of a member is merged. -/
theorem IsFolding.merge (h : o.IsFolding keys path origin ⟨(place, member) :: others, rest⟩ node)
    (hsource : (∃ walked, walked ≠ .canonical place ∧ o.IsLeft keys place member walked ∧
      walked.toJson = .obj source) ∨ o.IsListed keys place source)
    (hagree : (SchemaClasses.merge node source path).conflict = none) :
    o.IsFolding keys path origin ⟨others, rest⟩ (SchemaClasses.merge node source path).value := by
  obtain ⟨hfits, htidy, hfolded⟩ := h.mergeable hsource
  have htabled := (isTidy_iff.mp htidy).1
  have hcombiner : ∀ combiner ∈ combiners,
      Assoc.find? (SchemaClasses.merge node source path).value combiner =
        Assoc.find? node combiner :=
    fun combiner hcombiner =>
      find?_combiner_merge hagree h.fits.nodup hfits.nodup hcombiner (hfolded combiner hcombiner)
  refine ⟨h.raw, h.fits.merge hagree hfits,
    fun entry hentry => h.members entry (List.mem_cons_of_mem _ hentry),
    fun combiner hmem hnot => (hcombiner combiner hmem).trans (h.folded combiner hmem hnot),
    fun hproper => isTidy_merge hagree h.fits hfits (h.tidy hproper) htidy,
    fun horigin => isTabled_merge hagree h.fits hfits (h.tabled horigin) htabled,
    fun schema heq hsome => ?_, fun hpath => ?_, fun hpath => ?_,
    fun hpath => (h.inner hpath).merge_left hagree h.fits hfits htabled⟩
  · rw [find?_merge hagree h.fits hfits (by decide)]
    exact Merge.isSome_joined (.inl (h.properties schema heq hsome))
  · obtain ⟨outer, houter⟩ := h.root hpath
    obtain ⟨result, hresult, habsorbs⟩ := exists_absorbs hagree h.fits hfits htidy houter.declared
      houter.fields.tabled houter.type
    refine ⟨result, hresult, habsorbs.plain houter.plain, habsorbs.offers _ houter.type,
      habsorbs.declares _ houter.fields, fun value hvalue => ?_, ?_⟩
    · exact houter.members value (hcombiner _ o.combiner_mem ▸ hvalue)
    · rcases houter.squashed with ⟨hmem, hfind⟩ | hmem | hsquashed
      · exact .inl ⟨hmem, (hcombiner _ o.combiner_mem).trans hfind⟩
      · rcases List.mem_cons.mp hmem with heq | hothers
        · obtain ⟨rfl, rfl⟩ := Prod.mk.inj heq
          exact .inr (.inr (isSquashed_of_absorbs hsource habsorbs))
        · exact .inr (.inl hothers)
      · exact .inr (.inr (hsquashed.absorb habsorbs))
  · obtain ⟨inner, hinner⟩ := h.member hpath
    have htype := hinner.type.resolve_right fun hnone => absurd hnone.1 (List.cons_ne_nil _ _)
    obtain ⟨result, hresult, habsorbs⟩ := exists_absorbs hagree h.fits hfits htidy hinner.declared
      hinner.fields.tabled htype
    exact ⟨result, hresult, habsorbs.plain hinner.plain, habsorbs.declares _ hinner.fields,
      .inl (habsorbs.offers _ htype)⟩

/-- A member that has become no object is passed over; it is not the member of the overlap, which
has become a reference. -/
theorem IsFolding.pass (h : o.IsFolding keys path origin ⟨(place, member) :: others, rest⟩ node)
    {walked : Walked} (hwalked : o.IsLeft keys place member walked)
    (hother : ∀ source, walked.toJson ≠ .obj source) :
    o.IsFolding keys path origin ⟨others, rest⟩ node := by
  refine ⟨h.raw, h.fits, fun entry hentry => h.members entry (List.mem_cons_of_mem _ hentry),
    h.folded, h.tidy, h.tabled, h.properties, fun hpath => ?_, fun hpath => ?_, h.inner⟩
  · obtain ⟨outer, houter⟩ := h.root hpath
    refine ⟨outer, houter.declared, houter.plain, houter.type, houter.fields, houter.members,
      houter.squashed.imp id (Or.imp (fun hmem => ?_) id)⟩
    refine (List.mem_cons.mp hmem).resolve_left fun heq => ?_
    obtain ⟨rfl, rfl⟩ := Prod.mk.inj heq
    have htabled : isTabled (.obj o.member) := tabled_of_property? o.inner_declared
    obtain ⟨source, hsource, -⟩ := hwalked.tabled htabled
    exact hother source hsource
  · obtain ⟨inner, hinner⟩ := h.member hpath
    exact ⟨inner, hinner.declared, hinner.plain, hinner.fields,
      .inl (hinner.type.resolve_right fun hnone => absurd hnone.1 (List.cons_ne_nil _ _))⟩

end Folding

/-! ### The walk -/

section Walk

variable {o} {keys : List SchemaPath} {path : SchemaPath} {node members flat : Entries}
  {origin : Json}

/-- In a table of schemas there are no members of combiners and no texts of references. -/
theorem IsLeft.fits_entry {walked : Walked} (h : o.IsLeft keys path origin walked) (key : String) :
    Fits (.obj root) o.name keys key walked.toJson := by
  rcases h.kind with ⟨entries, heq⟩ | ⟨value, heq⟩ <;> rw [heq]
  · exact fits_obj key entries
  · exact ⟨nofun, nofun⟩

/-- A table of schemas that have been walked. -/
theorem fitsAll_of_flat {keyword : String} (h : FitsAll (.obj root) o.name keys (.obj members))
    (hflat : o.squash.Flat keys path keyword members flat) :
    FitsAll (.obj root) o.name keys (.obj flat) := by
  apply Json.throughout_obj.mpr
  constructor
  · exact hflat.keys_eq ▸ h.nodup
  · intro entry hentry
    obtain ⟨member, -, walked, hleft, hvalue⟩ := hflat.exists_of_mem hentry
    have hwalked : o.IsLeft keys _ member.2 walked := hleft
    rw [hvalue]
    exact ⟨hwalked.fits_entry _, hwalked.fits⟩

/-- A property with properties of its own is still declared, or has become a reference. -/
theorem stays_of_flat (hflat : o.squash.Flat keys path "properties" members flat) {name : String}
    {inner : Entries} (hinner : Assoc.find? members name = some (.obj inner))
    (hplain : textRef? inner = none) {names : List String} (hdeclares : Declares inner names) :
    ∃ left, Assoc.find? flat name = some (.obj left) ∧
      ((textRef? left = some ((path.child "properties").child name).toPointer ∧
        (path.child "properties").child name ∈ keys) ∨ Resembles left inner) := by
  obtain ⟨walked, hleft, hfind⟩ := hflat.exists_of_find? hinner
  have hwalked : o.IsLeft keys _ (.obj inner) walked := hleft
  rw [SchemaPath.append_pair] at hwalked
  obtain ⟨table, htable, -⟩ := hdeclares
  rcases hwalked.stays inner rfl hplain (htable ▸ rfl) with
    ⟨rfl, hlisted⟩ | ⟨-, left, rfl, hresembles⟩
  · exact ⟨_, hfind, .inl ⟨rfl, hlisted⟩⟩
  · exact ⟨left, hfind, .inr hresembles⟩

/-- The folded schema is listed once its properties are walked. -/
theorem IsFolding.list (h : o.IsFolding keys path origin ⟨[], []⟩ node)
    (hmembers : Assoc.find? node "properties" = some (.obj members))
    (hflat : o.squash.Flat keys path "properties" members flat) :
    o.IsListed keys path (Assoc.insert node "properties" (.obj flat)) where
  fits := h.fits.insert (fits_obj _ _) (fitsAll_of_flat (h.fits.of_find? hmembers) hflat)
  mergeable hplace := by
    have htidy := h.tidy (h.raw.proper hplace)
    refine ⟨isTidy_iff.mpr ⟨?_, fun property hproperty => ?_⟩, fun combiner hcombiner => ?_⟩
    · exact isTabled_iff.mpr fun table htable =>
        ⟨flat, Option.some.inj (htable.symm.trans (Assoc.find?_insert_self _ _ _))⟩
    · rw [property?_of_find? (Assoc.find?_insert_self _ _ _)] at hproperty
      have hname : o.name ∈ Assoc.keys members := hflat.keys_eq ▸ Assoc.mem_keys_of_find? hproperty
      obtain ⟨member, hmember⟩ := Assoc.exists_find?_of_mem_keys hname
      obtain ⟨inner, rfl, htabled⟩ := (isTidy_iff.mp htidy).2 member
        ((property?_of_find? hmembers).trans hmember)
      obtain ⟨walked, hleft, hfind⟩ := hflat.exists_of_find? hmember
      have hwalked : o.IsLeft keys _ (.obj inner) walked := hleft
      obtain ⟨left, heq, hleftTabled⟩ := hwalked.tabled htabled
      refine ⟨left, ?_, hleftTabled⟩
      rw [← heq]
      exact Option.some.inj (hproperty.symm.trans hfind)
    · rw [Assoc.find?_insert_of_ne _ _ (ne_of_mem_of_not_mem hcombiner (by decide)).symm]
      exact h.folded combiner hcombiner List.not_mem_nil
  root hpath := by
    obtain ⟨outer, houter⟩ := h.root hpath
    have hdeclared := houter.declared
    rw [property?_of_find? hmembers] at hdeclared
    obtain ⟨left, hfind, ⟨-, hlisted⟩ | hresembles⟩ :=
      stays_of_flat hflat hdeclared houter.plain houter.fields
    · subst hpath
      exact .inl hlisted
    · refine .inr ⟨left, ?_, hresembles.offers houter.type, houter.fields.congr hresembles.1, ?_⟩
      · rw [property?_of_find? (Assoc.find?_insert_self _ _ _)]
        exact hfind
      -- nothing is left to be folded, so the member has been merged
      · rcases houter.squashed with ⟨hmem, -⟩ | hmem | hsquashed
        · exact absurd hmem List.not_mem_nil
        · exact absurd hmem List.not_mem_nil
        · exact hsquashed.imp (fun h => h.congr hresembles.1) (And.imp_left hresembles.offers)
  member hpath := by
    obtain ⟨inner, hinner⟩ := h.member hpath
    have hdeclared := hinner.declared
    rw [property?_of_find? hmembers] at hdeclared
    obtain ⟨left, hfind, hstays⟩ := stays_of_flat hflat hdeclared hinner.plain hinner.fields
    refine ⟨left, ?_, ?_⟩
    · rw [property?_of_find? (Assoc.find?_insert_self _ _ _)]
      exact hfind
    · rcases hstays with hlisted | hresembles
      · subst hpath
        exact .inr hlisted
      · exact .inl (hinner.fields.congr hresembles.1)
  inner hpath := by
    obtain ⟨table, htable, hnames⟩ := h.inner hpath
    obtain rfl := Json.obj.inj (Option.some.inj (htable.symm.trans hmembers))
    exact ⟨flat, Assoc.find?_insert_self _ _ _, hflat.keys_eq ▸ hnames⟩

/-- The walk keeps what is known at its stages. -/
theorem squash_kept (hwf : (Json.obj root).wellFormed)
    (hdocument : isSquashable o.name (.obj root)) (houter : Merge.Offers o.outer "object")
    (hinner : Merge.Offers o.inner "object" ∨
      ∀ combiner ∈ combiners, Assoc.find? o.member combiner = none) :
    o.squash.Kept (.obj root) where
  raw_mono hsubset h := IsRaw.mono hsubset h
  folding_mono hsubset h := IsFolding.mono hsubset h
  left_mono hsubset h := IsLeft.mono hsubset h
  listed_mono hsubset h := IsListed.mono hsubset h
  target h htext htarget hnew hschema := by
    have hentry := (h.fits.of_mem (Assoc.mem_of_find? (textRef?_eq_some_iff.mp htext))).1
    exact isRaw_target hwf (fitsAll_of_isSquashable hwf hdocument) hschema
      (hentry.target rfl _ _ _ rfl htarget hnew hschema).1
  follow hsubset h htext htarget hnew hschema hwalked := by
    have hentry := (h.fits.of_mem (Assoc.mem_of_find? (textRef?_eq_some_iff.mp htext))).1
    obtain ⟨hproper, htabled⟩ := hentry.target rfl _ _ _ rfl htarget hnew hschema
    refine ⟨hwalked.fits, hwalked.kind, fun _ => hwalked.mergeable hproper,
      fun _ => hwalked.tabled htabled, fun schema heq hplain => ?_⟩
    obtain rfl := Json.obj.inj heq
    cases hplain.symm.trans htext
  refer h htext htarget hlisted _ := by
    refine isLeft_canonical hlisted fun schema heq hplain => ?_
    obtain rfl := Json.obj.inj heq
    cases hplain.symm.trans htext
  reference hlisted _ := isLeft_canonical hlisted fun _ _ _ => rfl
  bool h := ⟨h.fits, .inr ⟨_, rfl⟩, nofun, nofun, nofun⟩
  other h _ hshape := by
    refine isLeft_inPlace (fun hobject => ?_) h.fits fun _ _ => rfl
    cases hshape.symm.trans (ofSchema_eq_object.mpr hobject)
  array h _ harray _ :=
    isLeft_inPlace (fun hobject => not_hasArrayType hobject harray) h.fits fun _ _ => rfl
  items h _ _ hitems := h.items hwf hitems
  array_items {keys path node items walked} h _ harray hitems hwalked := by
    have hitem : o.IsLeft keys (path.child "items") items walked := hwalked
    refine isLeft_inPlace (fun hobject => not_hasArrayType hobject harray)
      (h.fits.insert (hitem.fits_entry _) hitem.fits) fun keyword hkeyword => ?_
    exact Assoc.find?_insert_of_ne _ _ (Ne.symm hkeyword)
  start h _ _ := isFolding_start hwf houter hinner h
  skip _ h hnone := h.skip hnone
  drop hcombiner h hmembers := h.drop hwf hcombiner hmembers
  member h := (h.members _ List.mem_cons_self).2
  merge h hsource hagree := h.merge hsource hagree
  pass h hwalked hother := h.pass hwalked hother
  property {keys path origin node keyword members entry} h hkeyword hmembers hentry := by
    have hfolding : o.IsFolding keys path origin ⟨[], []⟩ node := h
    rw [SchemaPath.append_pair]
    -- at the place of the inner property stands what the member has kept as its property
    refine isRaw_property hfolding.fits hkeyword hmembers hentry fun hpath hproperties hname => ?_
    subst hproperties
    obtain ⟨inner, hinner⟩ := hfolding.member hpath
    have hdeclared := hinner.declared
    have hnodup := (hfolding.fits.of_find? hmembers).nodup
    rw [property?_of_find? hmembers, ← hname, (Assoc.find?_eq_some_iff hnodup).mpr hentry]
      at hdeclared
    exact ⟨inner, Option.some.inj hdeclared, hinner.plain, hinner.fields⟩
  list h _ hmembers hflat := h.list hmembers hflat
  patterns h hnone hmembers hflat := by
    refine isLeft_folded h hnone (h.fits.insert (fits_obj _ _)
      (fitsAll_of_flat (h.fits.of_find? hmembers) hflat)) fun keyword hkeyword => ?_
    exact Assoc.find?_insert_of_ne _ _ (Ne.symm hkeyword)
  bare h hnone _ := isLeft_folded h hnone h.fits fun _ _ => rfl

end Walk

/-! ### The table -/

/-- Different alternatives stand in a list. -/
theorem mem_pointers_of_offers {schema : Entries} {text other : String}
    (htext : Merge.Offers schema text) (hother : Merge.Offers schema other) (hne : text ≠ other) :
    text ∈ pointers schema := by
  obtain ⟨type, htype, hmem⟩ := htext
  obtain ⟨same, hsame, hmem'⟩ := hother
  obtain rfl := Option.some.inj (htype.symm.trans hsame)
  cases type with
  | arr types =>
    rw [pointers, htype]
    exact List.mem_append_right _ (List.mem_filterMap.mpr ⟨_, hmem, rfl⟩)
  | _ =>
    have heq := (List.mem_singleton.mp hmem).trans (List.mem_singleton.mp hmem').symm
    exact absurd (Json.str.inj heq) hne

/-- An inline object schema offers `object` if it has a type at all. -/
theorem offers_of_isInline {schema : Entries} (hinline : IsInline schema)
    (htype : Assoc.contains schema typeKey) : Merge.Offers schema "object" := by
  rcases hinline.object with hnone | hobject
  · rw [Assoc.contains, hnone] at htype
    cases htype
  · exact ⟨_, hobject, List.mem_cons_self⟩

/-- Squashing loses no nested property: if the root of a document and a member of one of its
combiners declare the same property as an inline object with properties, then the schema that the
property has in the entry of the root shows the properties of both. For this the root has to be an
object schema itself, the root has to give the property a type, and so does the member unless it has
no combiners; what is merged has to be proper; and the property must not have been listed. -/
theorem isKept_of_flattenWithin (o : Overlap root) (hwf : (Json.obj root).wellFormed)
    (hroot : IsInline root) (houter : Assoc.contains o.outer typeKey)
    (hinner : Assoc.contains o.inner typeKey ∨
      ∀ combiner ∈ combiners, ¬Assoc.contains o.member combiner)
    (hdocument : isSquashable o.name (.obj root)) {depth : Nat} {schemas : FlatSchemas}
    (hflatten : flattenWithin depth (.obj root) = .ok schemas)
    (hunlisted : o.outerPlace ∉ Assoc.keys schemas) : o.isKept schemas := by
  have hmerged : Merge.Offers o.inner "object" ∨
      ∀ combiner ∈ combiners, Assoc.find? o.member combiner = none := by
    refine hinner.imp (offers_of_isInline o.inner_inline) fun hnone combiner hcombiner => ?_
    rw [Assoc.find?_eq_none_iff, Assoc.mem_keys_iff_contains]
    exact hnone combiner hcombiner
  have hkept := squash_kept hwf hdocument (offers_of_isInline o.outer_inline houter) hmerged
  have hraw : o.squash.raw [] .root (.obj root) :=
    isRaw_root (fitsAll_of_isSquashable hwf hdocument)
  obtain ⟨walked, after, hwalk, rfl⟩ := exists_kept_of_flattenWithin hkept hraw hflatten
  -- the document is an object with properties, so it is listed
  have hleft : o.IsLeft (Assoc.keys after.schemas) .root (.obj root) walked := hwalk.left
  obtain ⟨table, htable, -⟩ := exists_of_property? o.outer_declared
  have hkey : SchemaPath.root ∈ Assoc.keys after.schemas := by
    rcases hleft.stays root rfl hroot.plain (htable ▸ rfl) with ⟨-, hlisted⟩ | ⟨hobject, -⟩
    · exact hlisted
    · exact absurd hroot.object hobject
  obtain ⟨entry, hentry⟩ := Assoc.exists_find?_of_mem_keys hkey
  have hlisted : o.IsListed (Assoc.keys after.schemas) .root entry :=
    hwalk.grows.grounded.listed hkept hentry
  obtain ⟨outer, hproperty, htype, hfields, hsquashed⟩ := (hlisted.root rfl).resolve_left hunlisted
  rw [isKept, hentry, Option.bind_some, hproperty, Option.any_some, List.all_eq_true]
  intro name hname
  rw [shows, Bool.or_eq_true]
  rcases List.mem_append.mp hname with hours | htheirs
  · exact .inl (hfields.isSome hours)
  · rcases hsquashed with hdeclares | ⟨hpointer, hplace⟩
    · exact .inl (hdeclares.isSome htheirs)
    · right
      obtain ⟨target, htarget⟩ := Assoc.exists_find?_of_mem_keys hplace
      have hinnerListed : o.IsListed (Assoc.keys after.schemas) o.innerPlace target :=
        hwalk.grows.grounded.listed hkept htarget
      have hmem := mem_pointers_of_offers hpointer htype (toPointer_ne_typeName (.inr rfl))
      refine List.any_eq_true.mpr ⟨_, hmem, ?_⟩
      rw [SchemaPath.ofPointer_toPointer]
      show (Assoc.find? after.schemas o.innerPlace).any _
      rw [htarget, Option.any_some]
      exact (hinnerListed.inner rfl).isSome htheirs

end Overlap

/-! ### Documents with a property twice -/

/-- An object schema with one property, which is a text. -/
def withText (name : String) (more : Entries) : Json :=
  .obj (("properties", .obj [(name, .obj [(typeKey, .str "string")])]) :: more)

/-- An object schema with one property, which is a schema. -/
def withSchema (schema : Json) (more : Entries) : Json :=
  .obj (("properties", .obj [("x", schema)]) :: more)

/-- The type of an object schema. -/
def objectType : Entries :=
  [(typeKey, .str "object")]

/-- A document that declares a property with a property `a`, and once more, with a property `b`, in
the last member of its `allOf`. -/
def doubled (outer : Entries) (front : List Json) (inner member more : Entries) : Entries :=
  ("properties", .obj [("x", withText "a" outer)]) ::
    ("allOf", .arr (front ++ [withSchema (withText "b" inner) member])) :: more

/-- The overlap of such a document. -/
def doubledOverlap (outer : Entries) (front : List Json) (inner member more : Entries)
    (houter : textRef? outer = none ∧ Shape.ofSchema outer = .object := by decide)
    (hinner : textRef? inner = none ∧ Shape.ofSchema inner = .object := by decide)
    (hmember : textRef? member = none ∧ Shape.ofSchema member = .object := by decide) :
    Overlap (doubled outer front inner member more) where
  name := "x"
  outer := _
  outer_declared := rfl
  outer_inline := houter
  outerMembers := _
  outer_members := rfl
  combiner := "allOf"
  combiner_mem := by decide
  members := _
  root_combiner := rfl
  index := front.length
  member := _
  member_at := List.getElem?_concat_length
  member_inline := hmember
  inner := _
  inner_declared := rfl
  inner_inline := hinner
  innerMembers := _
  inner_members := rfl

/-- A document in which both sides meet more schemas: a definition with the same property is merged
before, and one more schema of the property is merged in the member. -/
def crossroads : Entries :=
  doubled objectType [.obj [(refKey, .str "#/definitions/named")]] objectType
    [("oneOf", .arr [withSchema (withText "c" []) []])]
    [("definitions", .obj [("named", withSchema (withText "d" objectType) [])])]

/-- The theorem at `crossroads`: the property of the overlap shows the properties of both sides. -/
theorem isKept_crossroads : (Json.obj crossroads).wellFormed ∧
    ∃ (o : Overlap crossroads) (schemas : FlatSchemas),
      flattenWithin 9 (.obj crossroads) = .ok schemas ∧
      Assoc.keys schemas = [⟨["definitions", "named", "properties", "x"]⟩,
        ⟨["definitions", "named"]⟩, ⟨["allOf", "1", "oneOf", "0", "properties", "x"]⟩, .root] ∧
      (Assoc.keys o.outerMembers, Assoc.keys o.innerMembers) = (["a"], ["b"]) ∧
      o.isKept schemas := by
  have hwf : (Json.obj crossroads).wellFormed := by decide +kernel
  have hkeys : (flattenWithin 9 (.obj crossroads)).toOption.map Assoc.keys =
      some [⟨["definitions", "named", "properties", "x"]⟩, ⟨["definitions", "named"]⟩,
        ⟨["allOf", "1", "oneOf", "0", "properties", "x"]⟩, .root] := by decide +kernel
  cases hflatten : flattenWithin 9 (.obj crossroads) with
  | error error =>
    rw [hflatten] at hkeys
    cases hkeys
  | ok schemas =>
    rw [hflatten] at hkeys
    have hlisted : Assoc.keys schemas = _ := Option.some.inj hkeys
    have hunlisted : (⟨["properties", "x"]⟩ : SchemaPath) ∉ Assoc.keys schemas := by
      rw [hlisted]
      decide
    exact ⟨hwf, doubledOverlap _ _ _ _ _, schemas, rfl, hlisted, rfl,
      Overlap.isKept_of_flattenWithin _ hwf (by decide) rfl (.inl rfl) (by decide +kernel) hflatten
        hunlisted⟩

/-- Which of the conditions an overlap meets in a document that can be flattened, and whether
nothing gets lost: the document is well formed, the root is an object schema, it gives the property
a type, so does the member unless nothing is merged there, what is merged is proper, and the
property is not listed. -/
def Overlap.report {root : Entries} (o : Overlap root) : Option (List Bool × Bool) :=
  (flatten (.obj root)).toOption.map fun schemas =>
    ([(Json.obj root).wellFormed, IsInline root, Assoc.contains o.outer typeKey,
      Assoc.contains o.inner typeKey ||
        combiners.all fun combiner => !Assoc.contains o.member combiner,
      isSquashable o.name (.obj root), !Assoc.contains schemas o.outerPlace], o.isKept schemas)

/-- None of the conditions can be left out. A root that is a text has no entry. Without a type the
property of the root, or that of the member, becomes the reference that is merged into it. A
primitive schema brings in a combiner that replaces another one, or a property that is no object,
and a reference to a truth value does so as well. If the property is referred to while the combiner
is folded then it is listed without the member. -/
theorem isKept_fails :
    (doubledOverlap objectType [] [] [] [(typeKey, .str "string")]).report =
      some ([true, false, true, true, true, true], false) ∧
    (doubledOverlap [] [] [] [] []).report =
      some ([true, true, false, true, true, true], false) ∧
    (doubledOverlap objectType [] []
      [("allOf", .arr [withSchema (withText "c" []) []])] []).report =
      some ([true, true, true, false, true, true], false) ∧
    (doubledOverlap objectType [] objectType [] [("anyOf", .arr [
      .obj [(typeKey, .str "string"), ("allOf", .arr [])],
      withSchema (withText "c" []) []])]).report =
      some ([true, true, true, true, false, true], false) ∧
    (doubledOverlap objectType [withSchema (.bool true) [(typeKey, .str "string")]] objectType []
      []).report = some ([true, true, true, true, false, true], false) ∧
    (doubledOverlap objectType [withSchema (.obj [(refKey, .str "#/definitions/any")]) []]
      objectType [] [("definitions", .obj [("any", .bool true)])]).report =
      some ([true, true, true, true, false, true], false) ∧
    (doubledOverlap objectType [.obj [(refKey, .str "#/properties/x")]] objectType [] []).report =
      some ([true, true, true, true, true, false], false) := by
  refine ⟨?_, ?_, ?_, ?_, ?_, ?_, ?_⟩ <;> decide +kernel

end SchemaClasses.Flatten
