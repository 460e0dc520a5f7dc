import Mathlib.Data.List.Induction
import SchemaClasses.Proofs.Flatten.Outcome
import SchemaClasses.Proofs.Flatten.Reachability

/-!
# How the table grows

Main statement (`keeps_walk`): every walk that succeeds adds its schemas behind those that were
listed before, at places that were not being walked, and if it lists the schema that it began with
then that comes last.

So a schema that is listed depends on the places before it only. An `Invariant` says at each stage
of the walk what is known of a schema once certain places are listed: before the walk, while
combiners are folded into it, of what has become of it, and when it is listed. `Invariant.Kept`
asks of every elementary operation that it leads from stage to stage, and then `keeps_walk` says
what is known of the whole table: each of its schemas is `listed` after the places before it
(`Grounded`), and all but the one that the walk began with were walked in their own right (`own`),
since what a member of a combiner has brought about leaves the table again.

What a step of the walk does depends on the walks of the schemas to which it leads
(`Invariant.Leads`), and on no others. So the rules for the steps (`kept_visit`) ask of the walk
below to keep the invariant for these calls only (`KeepsOn`).
-/

namespace SchemaClasses.Flatten

open FlattenM

/-! ### Stages of the walk -/

/-- What is still to be folded into an object schema. -/
structure Pending where
  /-- The members of the combiner that is being folded, with their places. -/
  members : List (SchemaPath × Json)
  /-- The combiners after that. -/
  combiners : List String

/-- The members of a combiner from some position on, with their places. -/
def memberPlaces (path : SchemaPath) (combiner : String) :
    Nat → List Json → List (SchemaPath × Json)
  | _, [] => []
  | index, member :: rest =>
    (path ++ [combiner, SchemaPath.ofIndex index], member) ::
      memberPlaces path combiner (index + 1) rest

/-- What is known of schemas at the stages of the walk, once some places are listed. -/
structure Invariant where
  /-- Of a schema that is going to be walked at a place. -/
  raw : List SchemaPath → SchemaPath → Json → Prop
  /-- Of the object schema at a place whose combiners are being folded: what it was, what is still
  to be folded, and what it has become. -/
  folding : List SchemaPath → SchemaPath → Json → Pending → Entries → Prop
  /-- Of the schema at a place and of what has become of it. -/
  left : List SchemaPath → SchemaPath → Json → Walked → Prop
  /-- Of a schema that is listed next under a place. -/
  listed : List SchemaPath → SchemaPath → Entries → Prop
  /-- Of the place of a schema that is walked in its own right, and not to be folded. -/
  own : SchemaPath → Prop := fun _ => True

/-- Whether each member of a table is left with what stands in another table under the same
name. -/
def Invariant.Flat (inv : Invariant) (keys : List SchemaPath) (path : SchemaPath)
    (keyword : String) : Entries → Entries → Prop :=
  List.Forall₂ fun member flat => flat.1 = member.1 ∧
    ∃ walked, inv.left keys (path ++ [keyword, member.1]) member.2 walked ∧ flat.2 = walked.toJson

/-- Whether the operations of the walk through a document keep an invariant. -/
structure Invariant.Kept (inv : Invariant) (document : Json) : Prop where
  /-- More places may be listed. -/
  raw_mono {keys more path schema} (hsubset : keys ⊆ more) (h : inv.raw keys path schema) :
    inv.raw more path schema
  folding_mono {keys more path origin pending node} (hsubset : keys ⊆ more)
    (h : inv.folding keys path origin pending node) : inv.folding more path origin pending node
  left_mono {keys more path origin walked} (hsubset : keys ⊆ more)
    (h : inv.left keys path origin walked) : inv.left more path origin walked
  listed_mono {keys more path node} (hsubset : keys ⊆ more) (h : inv.listed keys path node) :
    inv.listed more path node
  /-- The target of a reference stands in the document. -/
  target {keys path node text target schema} (h : inv.raw keys path (.obj node))
    (htext : textRef? node = some text) (htarget : SchemaPath.ofPointer text = .ok target)
    (hnew : target ∉ keys) (hschema : document.at? target = some schema) :
    inv.raw keys target schema
  /-- A reference to a target becomes what the target becomes. -/
  follow {keys more path node text target schema walked} (hsubset : keys ⊆ more)
    (h : inv.raw keys path (.obj node)) (htext : textRef? node = some text)
    (htarget : SchemaPath.ofPointer text = .ok target) (hnew : target ∉ keys)
    (hschema : document.at? target = some schema) (hwalked : inv.left more target schema walked) :
    inv.left more path (.obj node) walked
  /-- A reference to a listed place stays one. -/
  refer {keys path node text target entry} (h : inv.raw keys path (.obj node))
    (htext : textRef? node = some text) (htarget : SchemaPath.ofPointer text = .ok target)
    (hlisted : target ∈ keys) (hentry : inv.listed keys target entry) :
    inv.left keys path (.obj node) (.canonical target)
  /-- A schema whose place is listed becomes a reference to it. -/
  reference {keys path origin entry} (hlisted : path ∈ keys)
    (hentry : inv.listed keys path entry) : inv.left keys path origin (.canonical path)
  /-- A truth value stays the same. -/
  bool {keys path value} (h : inv.raw keys path (.bool value)) :
    inv.left keys path (.bool value) (.inPlace (.bool value))
  /-- A schema that is neither object nor array stays the same. -/
  other {keys path node} (h : inv.raw keys path (.obj node)) (hplain : textRef? node = none)
    (hshape : Shape.ofSchema node = .other) :
    inv.left keys path (.obj node) (.inPlace (.obj node))
  /-- So does an array without items. -/
  array {keys path node} (h : inv.raw keys path (.obj node)) (hplain : textRef? node = none)
    (harray : HasArrayType node) (hnone : Assoc.find? node "items" = none) :
    inv.left keys path (.obj node) (.inPlace (.obj node))
  /-- The items of an array are walked. -/
  items {keys path node items} (h : inv.raw keys path (.obj node)) (hplain : textRef? node = none)
    (harray : HasArrayType node) (hitems : Assoc.find? node "items" = some items) :
    inv.raw keys (path.child "items") items
  /-- An array keeps what has become of its items. -/
  array_items {keys path node items walked} (h : inv.raw keys path (.obj node))
    (hplain : textRef? node = none) (harray : HasArrayType node)
    (hitems : Assoc.find? node "items" = some items)
    (hwalked : inv.left keys (path.child "items") items walked) :
    inv.left keys path (.obj node) (.inPlace (.obj (Assoc.insert node "items" walked.toJson)))
  /-- The combiners of an object are folded. -/
  start {keys path node} (h : inv.raw keys path (.obj node)) (hplain : textRef? node = none)
    (hobject : HasObjectType node) : inv.folding keys path (.obj node) ⟨[], combiners⟩ node
  /-- A combiner that the schema does not have is left out. -/
  skip {keys path origin combiner rest node} (hcombiner : combiner ∈ combiners)
    (h : inv.folding keys path origin ⟨[], combiner :: rest⟩ node)
    (hnone : Assoc.find? node combiner = none) : inv.folding keys path origin ⟨[], rest⟩ node
  /-- Any other is dropped for its members. -/
  drop {keys path origin combiner rest node members} (hcombiner : combiner ∈ combiners)
    (h : inv.folding keys path origin ⟨[], combiner :: rest⟩ node)
    (hmembers : Assoc.find? node combiner = some (.arr members)) :
    inv.folding keys path origin ⟨memberPlaces path combiner 0 members, rest⟩
      (Assoc.swapErase node combiner)
  /-- A member is walked. -/
  member {keys path origin place member others rest node}
    (h : inv.folding keys path origin ⟨(place, member) :: others, rest⟩ node) :
    inv.raw keys place member
  /-- What has become of it is merged into the schema: what is left where it is or listed at another
  place, and otherwise the listed schema itself. -/
  merge {keys path origin place member others rest node source}
    (h : inv.folding keys path origin ⟨(place, member) :: others, rest⟩ node)
    (hsource : (∃ walked, walked ≠ .canonical place ∧ inv.left keys place member walked ∧
      walked.toJson = .obj source) ∨ inv.listed keys place source)
    (hagree : (merge node source path).conflict = none) :
    inv.folding keys path origin ⟨others, rest⟩ (merge node source path).value
  /-- It is passed over if it is no object. -/
  pass {keys path origin place member others rest node walked}
    (h : inv.folding keys path origin ⟨(place, member) :: others, rest⟩ node)
    (hwalked : inv.left keys place member walked)
    (hother : ∀ source, walked.toJson ≠ .obj source) :
    inv.folding keys path origin ⟨others, rest⟩ node
  /-- The members of the folded schema are walked. -/
  property {keys path origin node keyword members entry}
    (h : inv.folding keys path origin ⟨[], []⟩ node)
    (hkeyword : keyword = "properties" ∨ keyword = "patternProperties")
    (hmembers : Assoc.find? node keyword = some (.obj members)) (hentry : entry ∈ members) :
    inv.raw keys (path ++ [keyword, entry.1]) entry.2
  /-- A schema with properties is listed. -/
  list {keys path origin node members flat} (h : inv.folding keys path origin ⟨[], []⟩ node)
    (hnone : Assoc.find? node "patternProperties" = none)
    (hmembers : Assoc.find? node "properties" = some (.obj members))
    (hflat : inv.Flat keys path "properties" members flat) :
    inv.listed keys path (Assoc.insert node "properties" (.obj flat))
  /-- A schema with patterns stays where it is. -/
  patterns {keys path origin node members flat} (h : inv.folding keys path origin ⟨[], []⟩ node)
    (hnone : Assoc.find? node "properties" = none)
    (hmembers : Assoc.find? node "patternProperties" = some (.obj members))
    (hflat : inv.Flat keys path "patternProperties" members flat) :
    inv.left keys path origin (.inPlace (.obj (Assoc.insert node "patternProperties" (.obj flat))))
  /-- So does a schema with neither. -/
  bare {keys path origin node} (h : inv.folding keys path origin ⟨[], []⟩ node)
    (hproperties : Assoc.find? node "properties" = none)
    (hpatterns : Assoc.find? node "patternProperties" = none) :
    inv.left keys path origin (.inPlace (.obj node))
  /-- The target of a reference is walked in its own right. -/
  target_own {keys path node text target schema} (h : inv.raw keys path (.obj node))
    (htext : textRef? node = some text) (htarget : SchemaPath.ofPointer text = .ok target)
    (hnew : target ∉ keys) (hschema : document.at? target = some schema) : inv.own target := by
    intros; trivial
  /-- So are the items of an array. -/
  items_own {keys path node items} (h : inv.raw keys path (.obj node))
    (hplain : textRef? node = none) (harray : HasArrayType node)
    (hitems : Assoc.find? node "items" = some items) : inv.own (path.child "items") := by
    intros; trivial
  /-- So are the members of a folded schema. -/
  property_own {keys path origin node keyword members entry}
    (h : inv.folding keys path origin ⟨[], []⟩ node)
    (hkeyword : keyword = "properties" ∨ keyword = "patternProperties")
    (hmembers : Assoc.find? node keyword = some (.obj members)) (hentry : entry ∈ members) :
    inv.own (path ++ [keyword, entry.1]) := by
    intros; trivial

/-! ### Members -/

/-- Each place that is to be walked belongs to one of the members, by its position. -/
theorem mem_memberPlaces {path : SchemaPath} {combiner : String} {start : Nat} {members : List Json}
    {entry : SchemaPath × Json} :
    entry ∈ memberPlaces path combiner start members ↔ ∃ index, members[index]? = some entry.2 ∧
      entry.1 = path ++ [combiner, SchemaPath.ofIndex (start + index)] := by
  induction members generalizing start with
  | nil => simp [memberPlaces]
  | cons member rest ih =>
    rw [memberPlaces, List.mem_cons, ih]
    constructor
    · rintro (rfl | ⟨index, hmember, hplace⟩)
      · exact ⟨0, rfl, rfl⟩
      · exact ⟨index + 1, hmember, by rw [hplace, Nat.add_assoc, Nat.add_comm 1]⟩
    · rintro ⟨index, hmember, hplace⟩
      cases index with
      | zero => exact .inl (Prod.ext hplace (Option.some.inj hmember).symm)
      | succ index => exact .inr ⟨index, hmember, by rw [hplace, Nat.add_assoc, Nat.add_comm 1]⟩

/-- The members of a combiner with their places are members of it. -/
theorem mem_of_mem_memberPlaces {path : SchemaPath} {combiner : String} {start : Nat}
    {members : List Json} {entry : SchemaPath × Json}
    (h : entry ∈ memberPlaces path combiner start members) : entry.2 ∈ members := by
  obtain ⟨index, hmember, -⟩ := mem_memberPlaces.mp h
  exact List.mem_of_getElem? hmember

/-- Apart from their places, they are the members in their order. -/
theorem map_snd_memberPlaces (path : SchemaPath) (combiner : String) (start : Nat)
    (members : List Json) :
    (memberPlaces path combiner start members).map Prod.snd = members := by
  induction members generalizing start with
  | nil => rfl
  | cons member rest ih => rw [memberPlaces, List.map_cons, ih]

/-- Whether a place is that of a member of a combiner. -/
def IsMemberPlace (path : SchemaPath) : Prop :=
  ∃ (front : SchemaPath) (combiner : String) (index : Nat), combiner ∈ combiners ∧
    path = (front.child combiner).child (SchemaPath.ofIndex index)

/-- The root is not the place of a member. -/
theorem not_isMemberPlace_root : ¬IsMemberPlace .root := by
  rintro ⟨front, combiner, index, -, heq⟩
  exact SchemaPath.child_ne_root heq.symm

/-- The place of items is not that of a member. -/
theorem not_isMemberPlace_items (path : SchemaPath) : ¬IsMemberPlace (path.child "items") := by
  rintro ⟨front, combiner, index, -, heq⟩
  exact ofIndex_ne (by decide) index (SchemaPath.child_inj.mp heq).2.symm

/-- The place of a schema in a table is not that of a member. -/
theorem not_isMemberPlace_property {path : SchemaPath} {keyword name : String}
    (hkeyword : keyword ∉ combiners) : ¬IsMemberPlace ((path.child keyword).child name) := by
  rintro ⟨front, combiner, index, hcombiner, heq⟩
  obtain ⟨hfront, -⟩ := SchemaPath.child_inj.mp heq
  exact hkeyword ((SchemaPath.child_inj.mp hfront).2 ▸ hcombiner)

section Flat

variable {inv : Invariant} {keys : List SchemaPath} {path : SchemaPath} {keyword : String}
  {members flat : Entries}

/-- The names stay the same. -/
theorem Invariant.Flat.keys_eq (h : inv.Flat keys path keyword members flat) :
    Assoc.keys flat = Assoc.keys members :=
  (map_eq_of_forall₂ h fun _ _ hentry => hentry.1.symm).symm

/-- What stands in the new table is what has become of a member of the old one. -/
theorem Invariant.Flat.exists_of_mem (h : inv.Flat keys path keyword members flat)
    {entry : String × Json} (hentry : entry ∈ flat) :
    ∃ member ∈ members, ∃ walked,
      inv.left keys (path ++ [keyword, member.1]) member.2 walked ∧ entry.2 = walked.toJson := by
  induction h with
  | nil => cases hentry
  | cons hfirst _ ih =>
    rcases List.mem_cons.mp hentry with rfl | hrest
    · exact ⟨_, List.mem_cons_self, hfirst.2⟩
    · obtain ⟨member, hmember, hwalked⟩ := ih hrest
      exact ⟨member, List.mem_cons_of_mem _ hmember, hwalked⟩

/-- Under a name stands what has become of the member with that name. -/
theorem Invariant.Flat.exists_of_find? (h : inv.Flat keys path keyword members flat) {name : String}
    {member : Json} (hmember : Assoc.find? members name = some member) :
    ∃ walked, inv.left keys (path ++ [keyword, name]) member walked ∧
      Assoc.find? flat name = some walked.toJson := by
  induction h with
  | nil => cases hmember
  | @cons first last _ _ hfirst _ ih =>
    obtain ⟨key, value⟩ := first
    obtain ⟨other, found⟩ := last
    obtain ⟨hkey, walked, hleft, hvalue⟩ := hfirst
    obtain rfl : other = key := hkey
    obtain rfl : found = walked.toJson := hvalue
    by_cases hname : other = name
    · subst hname
      rw [Assoc.find?, if_pos rfl] at hmember
      obtain rfl := Option.some.inj hmember
      exact ⟨walked, hleft, by rw [Assoc.find?, if_pos rfl]⟩
    · rw [Assoc.find?, if_neg hname] at hmember
      obtain ⟨below, hbelow, hfind⟩ := ih hmember
      exact ⟨below, hbelow, by rw [Assoc.find?, if_neg hname, hfind]⟩

end Flat

/-! ### Two invariants at once -/

/-- What two invariants say together. -/
def Invariant.and (inv inv' : Invariant) : Invariant where
  raw keys path schema := inv.raw keys path schema ∧ inv'.raw keys path schema
  folding keys path origin pending node :=
    inv.folding keys path origin pending node ∧ inv'.folding keys path origin pending node
  left keys path origin walked :=
    inv.left keys path origin walked ∧ inv'.left keys path origin walked
  listed keys path entry := inv.listed keys path entry ∧ inv'.listed keys path entry
  own path := inv.own path ∧ inv'.own path

section And

variable {inv inv' : Invariant} {document : Json}

/-- A table that is flat for two invariants together is flat for each. -/
theorem Invariant.Flat.of_and {keys : List SchemaPath} {path : SchemaPath} {keyword : String}
    {members flat : Entries} (h : (inv.and inv').Flat keys path keyword members flat) :
    inv.Flat keys path keyword members flat ∧ inv'.Flat keys path keyword members flat :=
  ⟨h.imp fun _ _ ⟨hname, walked, hleft, hvalue⟩ => ⟨hname, walked, hleft.1, hvalue⟩,
    h.imp fun _ _ ⟨hname, walked, hleft, hvalue⟩ => ⟨hname, walked, hleft.2, hvalue⟩⟩

/-- A walk that keeps each of two invariants keeps both. -/
theorem Invariant.Kept.and (h : inv.Kept document) (h' : inv'.Kept document) :
    (inv.and inv').Kept document where
  raw_mono hsubset hraw := ⟨h.raw_mono hsubset hraw.1, h'.raw_mono hsubset hraw.2⟩
  folding_mono hsubset hnode :=
    ⟨h.folding_mono hsubset hnode.1, h'.folding_mono hsubset hnode.2⟩
  left_mono hsubset hleft := ⟨h.left_mono hsubset hleft.1, h'.left_mono hsubset hleft.2⟩
  listed_mono hsubset hentry := ⟨h.listed_mono hsubset hentry.1, h'.listed_mono hsubset hentry.2⟩
  target hraw htext htarget hnew hschema :=
    ⟨h.target hraw.1 htext htarget hnew hschema, h'.target hraw.2 htext htarget hnew hschema⟩
  follow hsubset hraw htext htarget hnew hschema hwalked :=
    ⟨h.follow hsubset hraw.1 htext htarget hnew hschema hwalked.1,
      h'.follow hsubset hraw.2 htext htarget hnew hschema hwalked.2⟩
  refer hraw htext htarget hlisted hentry :=
    ⟨h.refer hraw.1 htext htarget hlisted hentry.1, h'.refer hraw.2 htext htarget hlisted hentry.2⟩
  reference hlisted hentry := ⟨h.reference hlisted hentry.1, h'.reference hlisted hentry.2⟩
  bool hraw := ⟨h.bool hraw.1, h'.bool hraw.2⟩
  other hraw hplain hshape := ⟨h.other hraw.1 hplain hshape, h'.other hraw.2 hplain hshape⟩
  array hraw hplain harray hnone :=
    ⟨h.array hraw.1 hplain harray hnone, h'.array hraw.2 hplain harray hnone⟩
  items hraw hplain harray hitems :=
    ⟨h.items hraw.1 hplain harray hitems, h'.items hraw.2 hplain harray hitems⟩
  array_items hraw hplain harray hitems hwalked :=
    ⟨h.array_items hraw.1 hplain harray hitems hwalked.1,
      h'.array_items hraw.2 hplain harray hitems hwalked.2⟩
  start hraw hplain hobject := ⟨h.start hraw.1 hplain hobject, h'.start hraw.2 hplain hobject⟩
  skip hcombiner hnode hnone :=
    ⟨h.skip hcombiner hnode.1 hnone, h'.skip hcombiner hnode.2 hnone⟩
  drop hcombiner hnode hmembers :=
    ⟨h.drop hcombiner hnode.1 hmembers, h'.drop hcombiner hnode.2 hmembers⟩
  member hnode := ⟨h.member hnode.1, h'.member hnode.2⟩
  merge hnode hsource hagree := by
    refine ⟨h.merge hnode.1 (hsource.imp ?_ And.left) hagree,
      h'.merge hnode.2 (hsource.imp ?_ And.right) hagree⟩
    · exact fun ⟨walked, hne, hleft, hwalked⟩ => ⟨walked, hne, hleft.1, hwalked⟩
    · exact fun ⟨walked, hne, hleft, hwalked⟩ => ⟨walked, hne, hleft.2, hwalked⟩
  pass hnode hwalked hother :=
    ⟨h.pass hnode.1 hwalked.1 hother, h'.pass hnode.2 hwalked.2 hother⟩
  property hnode hkeyword hmembers hentry :=
    ⟨h.property hnode.1 hkeyword hmembers hentry, h'.property hnode.2 hkeyword hmembers hentry⟩
  list hnode hnone hmembers hflat :=
    ⟨h.list hnode.1 hnone hmembers hflat.of_and.1, h'.list hnode.2 hnone hmembers hflat.of_and.2⟩
  patterns hnode hnone hmembers hflat :=
    ⟨h.patterns hnode.1 hnone hmembers hflat.of_and.1,
      h'.patterns hnode.2 hnone hmembers hflat.of_and.2⟩
  bare hnode hproperties hpatterns :=
    ⟨h.bare hnode.1 hproperties hpatterns, h'.bare hnode.2 hproperties hpatterns⟩
  target_own hraw htext htarget hnew hschema :=
    ⟨h.target_own hraw.1 htext htarget hnew hschema,
      h'.target_own hraw.2 htext htarget hnew hschema⟩
  items_own hraw hplain harray hitems :=
    ⟨h.items_own hraw.1 hplain harray hitems, h'.items_own hraw.2 hplain harray hitems⟩
  property_own hnode hkeyword hmembers hentry :=
    ⟨h.property_own hnode.1 hkeyword hmembers hentry,
      h'.property_own hnode.2 hkeyword hmembers hentry⟩

end And

/-! ### Tables that grow at the end -/

/-- Whether each schema of a table is listed once, after the places that it depends on. -/
inductive Grounded (inv : Invariant) : FlatSchemas → Prop where
  /-- Nothing is listed. -/
  | nil : Grounded inv []
  /-- One more schema is listed. -/
  | snoc {schemas : FlatSchemas} {path : SchemaPath} {entry : Entries}
      (h : Grounded inv schemas) (hnew : path ∉ Assoc.keys schemas)
      (hlisted : inv.listed (Assoc.keys schemas) path entry) :
      Grounded inv (schemas ++ [(path, entry)])

/-- What becomes of a state in the course of a walk: the same places are being walked, and schemas
were added at the end, at places that were not and at which they may be listed. -/
structure Grows (inv : Invariant) (may : SchemaPath → Prop) (state after : FlattenState) :
    Prop where
  inProgress : after.inProgress = state.inProgress
  grounded : Grounded inv after.schemas
  added : ∃ added, after.schemas = state.schemas ++ added ∧
    ∀ path ∈ Assoc.keys added, path ∉ state.inProgress ∧ may path

/-- Whether the walk of the schema at a place may list another one: that is walked in its own right,
or it is the schema itself. -/
def Invariant.MayList (inv : Invariant) (path : SchemaPath) (walked : Walked)
    (other : SchemaPath) : Prop :=
  inv.own other ∨ other = path ∧ walked = .canonical path

/-- Whether the place that a walk has arrived at is listed, last if it was not before. -/
def Arrives (before after : FlatSchemas) : Walked → Prop
  | .canonical path => path ∈ Assoc.keys after ∧
    (path ∉ Assoc.keys before → ∃ front entry, after = front ++ [(path, entry)])
  | .inPlace _ => True

section Tables

variable {inv : Invariant} {may : SchemaPath → Prop} {document : Json} {schemas : FlatSchemas}
  {path : SchemaPath} {entry : Entries} {walked : Walked} {state between after : FlattenState}

/-- The places of two tables together are those of both. -/
theorem keys_append (front back : FlatSchemas) :
    Assoc.keys (front ++ back) = Assoc.keys front ++ Assoc.keys back :=
  List.map_append

/-- The schema that is listed last depends on the others. -/
theorem Grounded.of_snoc (h : Grounded inv (schemas ++ [(path, entry)])) :
    Grounded inv schemas ∧ path ∉ Assoc.keys schemas ∧
      inv.listed (Assoc.keys schemas) path entry := by
  generalize htable : schemas ++ [(path, entry)] = table at h
  cases h with
  | nil => exact absurd htable (List.append_ne_nil_of_right_ne_nil _ (List.cons_ne_nil _ _))
  | snoc h hnew hlisted =>
    obtain ⟨rfl, hlast⟩ := List.append_inj' htable rfl
    obtain ⟨rfl, rfl⟩ := Prod.mk.inj (List.cons.inj hlast).1
    exact ⟨h, hnew, hlisted⟩

/-- A schema depends on those that stand before it, and its place is none of theirs. -/
theorem Grounded.of_split {front back : FlatSchemas}
    (h : Grounded inv (front ++ (path, entry) :: back)) :
    path ∉ Assoc.keys front ∧ inv.listed (Assoc.keys front) path entry := by
  induction back using List.reverseRecOn with
  | nil => exact h.of_snoc.2
  | append_singleton others last ih =>
    apply ih
    rw [← List.cons_append, ← List.append_assoc] at h
    exact h.of_snoc.1

/-- No place is listed twice. -/
theorem Grounded.nodup_keys (h : Grounded inv schemas) : (Assoc.keys schemas).Nodup := by
  induction h with
  | nil => exact List.nodup_nil
  | snoc _ hnew _ ih =>
    rw [keys_append]
    exact nodup_append_last ih hnew

/-- Every schema of the table is known once the whole table is listed. -/
theorem Grounded.listed (hkept : inv.Kept document) (h : Grounded inv schemas)
    (hfind : Assoc.find? schemas path = some entry) :
    inv.listed (Assoc.keys schemas) path entry := by
  induction h with
  | nil => cases hfind
  | @snoc front last schema _ _ hlisted ih =>
    have hsubset : Assoc.keys front ⊆ Assoc.keys (front ++ [(last, schema)]) := by
      rw [keys_append]
      exact List.subset_append_left _ _
    rw [Assoc.find?_append] at hfind
    cases hfront : Assoc.find? front path with
    | some other =>
      rw [hfront] at hfind
      obtain rfl := Option.some.inj hfind
      exact hkept.listed_mono hsubset (ih hfront)
    | none =>
      rw [hfront] at hfind
      obtain ⟨rfl, rfl⟩ := Prod.mk.inj (List.mem_singleton.mp (Assoc.mem_of_find? hfind))
      exact hkept.listed_mono hsubset hlisted

/-- A state whose schemas are grounded has grown from itself. -/
theorem Grows.refl (h : Grounded inv state.schemas) : Grows inv may state state :=
  ⟨rfl, h, [], (List.append_nil _).symm, fun _ h => absurd h List.not_mem_nil⟩

/-- Growing twice is growing. -/
theorem Grows.trans (h : Grows inv may state between) (h' : Grows inv may between after) :
    Grows inv may state after := by
  obtain ⟨first, hfirst, hfresh⟩ := h.added
  obtain ⟨second, hsecond, hfresh'⟩ := h'.added
  refine ⟨h'.inProgress.trans h.inProgress, h'.grounded, first ++ second, ?_, fun path hpath => ?_⟩
  · rw [hsecond, hfirst, List.append_assoc]
  · rw [keys_append] at hpath
    rcases List.mem_append.mp hpath with hmem | hmem
    · exact hfresh path hmem
    · rw [← h.inProgress]
      exact hfresh' path hmem

/-- More may be listed than was. -/
theorem Grows.mono {may' : SchemaPath → Prop} (hmay : ∀ other, may other → may' other)
    (h : Grows inv may state after) : Grows inv may' state after := by
  obtain ⟨added, hadded, hfresh⟩ := h.added
  exact ⟨h.inProgress, h.grounded, added, hadded, fun other hother =>
    (hfresh other hother).imp_right (hmay other)⟩

/-- Nothing that was listed is lost. -/
theorem Grows.keys_subset (h : Grows inv may state after) :
    Assoc.keys state.schemas ⊆ Assoc.keys after.schemas := by
  obtain ⟨added, hadded, -⟩ := h.added
  rw [hadded, keys_append]
  exact List.subset_append_left _ _

/-- A place that is being walked is not listed in the meantime. -/
theorem Grows.not_mem_keys (h : Grows inv may state after) (hprogress : path ∈ state.inProgress)
    (hnew : path ∉ Assoc.keys state.schemas) : path ∉ Assoc.keys after.schemas := by
  obtain ⟨added, hadded, hfresh⟩ := h.added
  rw [hadded, keys_append]
  intro hmem
  rcases List.mem_append.mp hmem with hold | hnew'
  · exact hnew hold
  · exact (hfresh path hnew').1 hprogress

/-- The schema itself is not added if it was listed before or is not what the walk has arrived
at. -/
theorem Grows.own (h : Grows inv (inv.MayList path walked) state after)
    (hpath : path ∈ Assoc.keys state.schemas ∨ walked ≠ .canonical path) :
    Grows inv inv.own state after := by
  obtain ⟨added, hadded, hfresh⟩ := h.added
  refine ⟨h.inProgress, h.grounded, added, hadded, fun other hother => ?_⟩
  obtain ⟨hprogress, hown | ⟨rfl, hwalked⟩⟩ := hfresh other hother
  · exact ⟨hprogress, hown⟩
  · have hnodup := h.grounded.nodup_keys
    rw [hadded, keys_append] at hnodup
    rcases hpath with hlisted | hne
    · exact absurd hother (List.disjoint_of_nodup_append hnodup hlisted)
    · exact absurd hwalked hne

/-- Nor is anything that does not count as the schema's own if that is walked in its own right. -/
theorem Grows.of_own (hown : inv.own path)
    (h : Grows inv (inv.MayList path walked) state after) : Grows inv inv.own state after :=
  h.mono fun _ hother => hother.elim id fun heq => heq.1 ▸ hown

/-- Once a place does not count as being walked any more. -/
theorem Grows.leave (hpath : path ∉ state.inProgress)
    (h : Grows inv may { state with inProgress := state.inProgress ++ [path] } after) :
    Grows inv may state { after with inProgress := after.inProgress.erase path } := by
  obtain ⟨added, hadded, hfresh⟩ := h.added
  refine ⟨?_, h.grounded, added, hadded, fun other hother => ?_⟩
  · rw [h.inProgress, erase_last hpath]
  · exact (hfresh other hother).imp_left fun hnew hmem => hnew (List.mem_append_left _ hmem)

/-- A schema that is listed last is taken out again if it was not listed before. -/
theorem Grows.unlist {front : FlatSchemas} {place : SchemaPath} {entry : Entries}
    (h : Grows inv (inv.MayList place walked) state after)
    (htable : after.schemas = front ++ [(place, entry)])
    (hnew : place ∉ Assoc.keys state.schemas) :
    Grows inv inv.own state { after with schemas := front } := by
  obtain ⟨hfront, hmissing, -⟩ := (htable ▸ h.grounded).of_snoc
  obtain ⟨added, hadded, hfresh⟩ := h.added
  refine ⟨h.inProgress, hfront, ?_⟩
  rcases List.eq_nil_or_concat' added with rfl | ⟨others, last, rfl⟩
  · rw [List.append_nil] at hadded
    refine absurd ?_ hnew
    rw [← hadded, htable, keys_append]
    exact List.mem_append_right _ List.mem_cons_self
  · have hsplit : front = state.schemas ++ others := by
      rw [htable, ← List.append_assoc] at hadded
      exact (List.append_inj' hadded rfl).1
    refine ⟨others, hsplit, fun other hother => ?_⟩
    have hne : other ≠ place := by
      rintro rfl
      rw [hsplit, keys_append] at hmissing
      exact hmissing (List.mem_append_right _ hother)
    refine (hfresh other ?_).imp_right fun hmay => hmay.resolve_right fun hself => hne hself.1
    rw [keys_append]
    exact List.mem_append_left _ hother

/-- One more schema is listed. -/
theorem Grows.snoc (h : Grows inv may state after) (hpath : path ∉ state.inProgress)
    (hmay : may path) (hnew : path ∉ Assoc.keys after.schemas)
    (hlisted : inv.listed (Assoc.keys after.schemas) path entry) :
    Grows inv may state { after with schemas := after.schemas ++ [(path, entry)] } := by
  obtain ⟨added, hadded, hfresh⟩ := h.added
  refine ⟨h.inProgress, h.grounded.snoc hnew hlisted, added ++ [(path, entry)], ?_,
    fun other hother => ?_⟩
  · rw [hadded, List.append_assoc]
  · rw [keys_append] at hother
    rcases List.mem_append.mp hother with hmem | hlast
    · exact hfresh other hmem
    · obtain rfl := List.mem_singleton.mp hlast
      exact ⟨hpath, hmay⟩

end Tables

/-! ### The steps of the walk -/

/-- What the walk of a schema at a place ends with. -/
structure Kept (inv : Invariant) (state : FlattenState) (path : SchemaPath) (origin : Json)
    (walked : Walked) (after : FlattenState) : Prop where
  grows : Grows inv (inv.MayList path walked) state after
  left : inv.left (Assoc.keys after.schemas) path origin walked
  arrives : Arrives state.schemas after.schemas walked

/-- Whether a walk that may fail with some errors keeps an invariant, wherever it begins, and stays
at a place that is listed. -/
def Keeps (inv : Invariant) (fail : FlattenError → Prop) (walk : Walker) : Prop :=
  ∀ schema path state, Grounded inv state.schemas →
    (path ∈ Assoc.keys state.schemas ∨ inv.raw (Assoc.keys state.schemas) path schema) →
    Ensures (walk schema path) state (fun walked after => Kept inv state path schema walked after ∧
      (path ∈ Assoc.keys state.schemas → walked = .canonical path)) fail

/-- Whether a walk that keeps an invariant fails with certain errors only. All errors are among them
but perhaps those of references that lead nowhere. -/
structure Invariant.Averts (inv : Invariant) (document : Json) (fail : FlattenError → Prop) :
    Prop where
  other : ∀ error, (∀ pointer reason, error ≠ .invalidRef pointer reason) → fail error
  lost {schemas path node text pointer reason} (h : inv.raw (Assoc.keys schemas) path (.obj node))
    (htext : textRef? node = some text)
    (hlost : findSchema document schemas (.unresolved text) =
      .error (.invalidRef pointer reason)) : fail (.invalidRef pointer reason)

/-- An invariant is kept by whatever stops a walk. -/
theorem averts_all {inv : Invariant} {document : Json} : inv.Averts document fun _ => True :=
  ⟨fun _ _ => trivial, fun _ _ _ => trivial⟩

/-- Whether certain errors are all that the steps of the walk come upon themselves: so is any but
that of a walk below that goes too deep. -/
structure Invariant.StepsAvert (inv : Invariant) (document : Json) (fail : FlattenError → Prop) :
    Prop where
  other : ∀ error, error ≠ .tooDeep → (∀ pointer reason, error ≠ .invalidRef pointer reason) →
    fail error
  lost {schemas path node text pointer reason} (h : inv.raw (Assoc.keys schemas) path (.obj node))
    (htext : textRef? node = some text)
    (hlost : findSchema document schemas (.unresolved text) =
      .error (.invalidRef pointer reason)) : fail (.invalidRef pointer reason)

/-- If the whole walk fails with certain errors only, so do its steps. -/
theorem Invariant.Averts.steps {inv : Invariant} {document : Json} {fail : FlattenError → Prop}
    (h : inv.Averts document fail) : inv.StepsAvert document fail :=
  ⟨fun error _ => h.other error, h.lost⟩

/-- Whether the walk of a schema at a place leads to that of another one, as far as an invariant
tells. -/
inductive Invariant.Leads (inv : Invariant) (document : Json) :
    SchemaPath → Json → SchemaPath → Json → Prop where
  /-- A reference leads to its target. -/
  | target {keys path node text target schema} (h : inv.raw keys path (.obj node))
      (htext : textRef? node = some text) (htarget : SchemaPath.ofPointer text = .ok target)
      (hnew : target ∉ keys) (hschema : document.at? target = some schema) :
      inv.Leads document path (.obj node) target schema
  /-- An array leads to its items. -/
  | items {keys path node items} (h : inv.raw keys path (.obj node))
      (hplain : textRef? node = none) (harray : HasArrayType node)
      (hitems : Assoc.find? node "items" = some items) :
      inv.Leads document path (.obj node) (path.child "items") items
  /-- An object leads to the members of its combiners. -/
  | member {keys path origin place member others rest node}
      (h : inv.folding keys path origin ⟨(place, member) :: others, rest⟩ node) :
      inv.Leads document path origin place member
  /-- And to the members of what it has become. -/
  | property {keys path origin node keyword members entry}
      (h : inv.folding keys path origin ⟨[], []⟩ node)
      (hkeyword : keyword = "properties" ∨ keyword = "patternProperties")
      (hmembers : Assoc.find? node keyword = some (.obj members)) (hentry : entry ∈ members) :
      inv.Leads document path origin (path ++ [keyword, entry.1]) entry.2

/-- Whether a walk that may fail with some errors keeps an invariant wherever some calls begin, and
stays at a place that is listed. A call is a schema at a place while others are being walked. -/
def KeepsOn (inv : Invariant) (fail : FlattenError → Prop) (walk : Walker)
    (calls : List SchemaPath → SchemaPath → Json → Prop) : Prop :=
  ∀ schema path state, Grounded inv state.schemas →
    (path ∈ Assoc.keys state.schemas ∨
      inv.raw (Assoc.keys state.schemas) path schema ∧ calls state.inProgress path schema) →
    Ensures (walk schema path) state (fun walked after => Kept inv state path schema walked after ∧
      (path ∈ Assoc.keys state.schemas → walked = .canonical path)) fail

/-- A walk that keeps an invariant wherever it begins keeps it wherever some calls begin. -/
theorem Keeps.on {inv : Invariant} {fail : FlattenError → Prop} {walk : Walker}
    (h : Keeps inv fail walk) : KeepsOn inv fail walk fun _ _ _ => True :=
  fun schema path state hgrounded hcall =>
    h schema path state hgrounded (hcall.imp_right And.left)

/-- What a member of a combiner contributes to the schema around it: an object is what has become
of the member or what is listed at its place, and anything else is what has become of it. -/
structure Contributed (inv : Invariant) (state : FlattenState) (place : SchemaPath) (member : Json)
    (walked : Walked) (contributed : Json) (after : FlattenState) : Prop where
  /-- What was listed before still is, followed by what is walked in its own right. -/
  grows : Grows inv inv.own state after
  /-- Where an object comes from. -/
  source : ∀ source, contributed = .obj source →
    (∃ walked, walked ≠ .canonical place ∧
      inv.left (Assoc.keys after.schemas) place member walked ∧ walked.toJson = .obj source) ∨
    inv.listed (Assoc.keys after.schemas) place source
  /-- Anything else is no object to begin with. -/
  other : (∀ source, contributed ≠ .obj source) →
    inv.left (Assoc.keys after.schemas) place member walked ∧
      ∀ source, walked.toJson ≠ .obj source

/-- A listed schema stands for the member. -/
theorem Contributed.of_listed {inv : Invariant} {state after : FlattenState} {place : SchemaPath}
    {member : Json} {walked : Walked} {entry : Entries} (h : Grows inv inv.own state after)
    (hlisted : inv.listed (Assoc.keys after.schemas) place entry) :
    Contributed inv state place member walked (.obj entry) after :=
  ⟨h, fun _ hsource => .inr (Json.obj.inj hsource ▸ hlisted),
    fun hother => absurd rfl (hother entry)⟩

section Steps

variable {inv : Invariant} {document : Json} (hkept : inv.Kept document)
  {fail : FlattenError → Prop} (hfail : inv.StepsAvert document fail) {walk : Walker}
  {calls : List SchemaPath → SchemaPath → Json → Prop} (hwalk : KeepsOn inv fail walk calls)
  {path : SchemaPath} {node : Entries} {state : FlattenState}

include hkept

/-- What becomes of a member can be merged. An entry that the member has brought about is the last
one of the table, so it leaves behind what was listed before. -/
theorem kept_contribution {place : SchemaPath} {member : Json} {walked : Walked}
    {between : FlattenState} (h : Kept inv state place member walked between) :
    Ensures (contribution document place (Assoc.contains state.schemas place) walked) between
      (Contributed inv state place member walked) fail := by
  obtain ⟨hgrows, hleft, harrives⟩ := h
  have htaken : walked ≠ .canonical place →
      Contributed inv state place member walked walked.toJson between := fun hne =>
    ⟨hgrows.own (.inr hne), fun source hsource => .inl ⟨walked, hne, hleft, hsource⟩,
      fun hother => ⟨hleft, hother⟩⟩
  refine ensures_contribution (fun schema hschema => ?_) (fun target htarget hne => ?_)
    (fun _ hshared hnew => ?_) (fun entry _ hshared hentry => ?_)
    (fun schema _ hshared hnew _ => ?_)
    fun hcanonical hshared => ?_
  · subst hschema
    exact htaken nofun
  · subst htarget
    exact htaken fun heq => hne (Walked.canonical.inj heq)
  · exact absurd (hgrows.keys_subset ((Assoc.mem_keys_iff_contains _ _).mpr hshared)) hnew
  · have hold := (Assoc.mem_keys_iff_contains _ _).mpr hshared
    exact .of_listed (hgrows.own (.inl hold)) (hgrows.grounded.listed hkept hentry)
  · exact absurd (hgrows.keys_subset ((Assoc.mem_keys_iff_contains _ _).mpr hshared)) hnew
  · subst hcanonical
    have hnew : place ∉ Assoc.keys state.schemas := by
      rw [Assoc.mem_keys_iff_contains, hshared]
      exact Bool.false_ne_true
    obtain ⟨front, entry, htable⟩ := harrives.2 hnew
    obtain ⟨-, hmissing, hlisted⟩ := (htable ▸ hgrows.grounded).of_snoc
    have hfind : Assoc.find? between.schemas place = some entry := by
      rw [htable, Assoc.find?_append, Assoc.find?_eq_none_iff.mpr hmissing]
      exact if_pos rfl
    have herase : Assoc.erase between.schemas place = front := by
      rw [htable, Assoc.erase_append_singleton hmissing]
    rw [hfind, herase]
    exact .of_listed (hgrows.unlist htable hnew) hlisted

include hwalk

/-- Flattening the members of a table keeps the invariant. -/
theorem kept_flattenEntries (hgrounded : Grounded inv state.schemas) {keyword : String}
    {members : Entries} (hmembers : ∀ entry ∈ members,
      inv.raw (Assoc.keys state.schemas) (path ++ [keyword, entry.1]) entry.2)
    (hown : ∀ entry ∈ members, inv.own (path ++ [keyword, entry.1]))
    (hcalls : ∀ entry ∈ members, calls state.inProgress (path ++ [keyword, entry.1]) entry.2) :
    Ensures (flattenEntries walk path keyword members) state
      (fun flat after => Grows inv inv.own state after ∧
        inv.Flat (Assoc.keys after.schemas) path keyword members flat) fail := by
  induction members generalizing state with
  | nil => exact ensures_pure ⟨.refl hgrounded, .nil⟩
  | cons member rest ih =>
    obtain ⟨name, value⟩ := member
    have hfirst := hcalls _ List.mem_cons_self
    refine ensures_flattenEntries_cons ((hwalk value _ state hgrounded
      (.inr ⟨hmembers _ List.mem_cons_self, hfirst⟩)).mono (fun walked between h => ?_)
      fun _ h => h)
    obtain ⟨⟨hgrows, hleft, -⟩, -⟩ := h
    refine (ih hgrows.grounded (fun entry hentry => hkept.raw_mono hgrows.keys_subset
      (hmembers entry (List.mem_cons_of_mem _ hentry)))
      (fun entry hentry => hown entry (List.mem_cons_of_mem _ hentry)) fun entry hentry =>
        hgrows.inProgress ▸ hcalls entry (List.mem_cons_of_mem _ hentry)).mono
      (fun flat after h => ?_) fun _ h => h
    obtain ⟨hgrows', hflat⟩ := h
    exact ⟨(hgrows.of_own (hown _ List.mem_cons_self)).trans hgrows',
      .cons ⟨rfl, walked, hkept.left_mono hgrows'.keys_subset hleft, rfl⟩ hflat⟩

include hfail

/-- Following a reference keeps it. -/
theorem kept_followRef (hgrounded : Grounded inv state.schemas)
    (hnode : inv.raw (Assoc.keys state.schemas) path (.obj node)) {text : String}
    (htext : textRef? node = some text)
    (hcalls : ∀ place schema, inv.Leads document path (.obj node) place schema →
      calls state.inProgress place schema) :
    Ensures (followRef document walk (.unresolved text)) state (Kept inv state path (.obj node))
      fail := by
  refine ensures_followRef (fun _ _ => hfail.lost hnode htext)
    (fun target entry hpointer hentry => ?_) fun target schema hpointer hnew hschema => ?_
  · have hlisted := Assoc.mem_keys_of_find? hentry
    refine (hwalk _ target state hgrounded (.inl hlisted)).mono (fun walked after h => ?_)
      fun _ h => h
    obtain ⟨⟨hgrows, -, harrives⟩, hcanonical⟩ := h
    obtain rfl := hcanonical hlisted
    have hentry' := hkept.listed_mono hgrows.keys_subset (hgrounded.listed hkept hentry)
    exact ⟨(hgrows.own (.inl hlisted)).mono fun _ => .inl,
      hkept.refer (hkept.raw_mono hgrows.keys_subset hnode) htext hpointer
        (hgrows.keys_subset hlisted) hentry', harrives⟩
  · have htarget := hkept.target hnode htext hpointer hnew hschema
    have hown := hkept.target_own hnode htext hpointer hnew hschema
    have hcall := hcalls target schema (.target hnode htext hpointer hnew hschema)
    refine (hwalk schema target state hgrounded (.inr ⟨htarget, hcall⟩)).mono
      (fun walked after h => ?_) fun _ h => h
    obtain ⟨⟨hgrows, hleft, harrives⟩, -⟩ := h
    exact ⟨(hgrows.of_own hown).mono fun _ => .inl,
      hkept.follow hgrows.keys_subset hnode htext hpointer hnew hschema hleft, harrives⟩

/-- Flattening an array keeps it. -/
theorem kept_flattenArray (hgrounded : Grounded inv state.schemas)
    (hnode : inv.raw (Assoc.keys state.schemas) path (.obj node)) (hplain : textRef? node = none)
    (harray : HasArrayType node)
    (hcalls : ∀ place schema, inv.Leads document path (.obj node) place schema →
      calls state.inProgress place schema) :
    Ensures (flattenArray walk node path) state (Kept inv state path (.obj node))
      fail := by
  refine ensures_flattenArray (fun _ => hfail.other _ nofun nofun)
    (fun _ _ => hfail.other _ nofun nofun) (fun _ hnone => ?_) fun _ items hitems _ => ?_
  · exact ⟨.refl hgrounded, hkept.array hnode hplain harray hnone, trivial⟩
  · have hcall := hcalls _ items (.items hnode hplain harray hitems)
    refine (hwalk items _ state hgrounded
      (.inr ⟨hkept.items hnode hplain harray hitems, hcall⟩)).mono
      (fun walked after h => ?_) fun _ h => h
    obtain ⟨⟨hgrows, hleft, -⟩, -⟩ := h
    exact ⟨(hgrows.of_own (hkept.items_own hnode hplain harray hitems)).mono fun _ => .inl,
      hkept.array_items (hkept.raw_mono hgrows.keys_subset hnode) hplain harray hitems hleft,
      trivial⟩

/-- The members of a combiner are folded one after the other. -/
theorem kept_foldMembers (hgrounded : Grounded inv state.schemas) {combiner : String} {index : Nat}
    {members : List Json} {origin : Json} {rest : List String}
    (hnode : inv.folding (Assoc.keys state.schemas) path origin
      ⟨memberPlaces path combiner index members, rest⟩ node)
    (hcalls : ∀ place schema, inv.Leads document path origin place schema →
      calls state.inProgress place schema) :
    Ensures (foldMembers document walk path combiner node index members) state
      (fun folded after => Grows inv inv.own state after ∧
        inv.folding (Assoc.keys after.schemas) path origin ⟨[], rest⟩ folded) fail := by
  induction members generalizing index node state with
  | nil => exact ensures_pure ⟨.refl hgrounded, hnode⟩
  | cons member others ih =>
    have hcall := hcalls _ member (.member hnode)
    refine ensures_foldMembers_cons (ensures_foldMember ((hwalk member _ state hgrounded
      (.inr ⟨hkept.member hnode, hcall⟩)).mono (fun walked between h => ?_) fun _ h => h))
    refine (kept_contribution hkept h.1).mono (fun contributed after h => ?_) fun _ h => h
    obtain ⟨hgrows, hmerged, hpassed⟩ := h
    have hafter := hkept.folding_mono hgrows.keys_subset hnode
    have hothers : ∀ folded, inv.folding (Assoc.keys after.schemas) path origin
        ⟨memberPlaces path combiner (index + 1) others, rest⟩ folded →
        Ensures (foldMembers document walk path combiner folded (index + 1) others) after
          (fun folded after => Grows inv inv.own state after ∧
            inv.folding (Assoc.keys after.schemas) path origin ⟨[], rest⟩ folded) fail :=
      fun folded hfolded => (ih hgrows.grounded hfolded (hgrows.inProgress ▸ hcalls)).mono
        (fun _ _ h => ⟨hgrows.trans h.1, h.2⟩) fun _ h => h
    refine ⟨fun source hsource => ⟨fun hagree => ?_, fun _ _ => hfail.other _ nofun nofun⟩,
      fun hother => ?_⟩
    · exact hothers _ (hkept.merge hafter (hmerged source hsource) hagree)
    · obtain ⟨hleft, hnone⟩ := hpassed hother
      exact hothers _ (hkept.pass hafter hleft hnone)

/-- The combiners are folded one after the other. -/
theorem kept_foldCombiners (hgrounded : Grounded inv state.schemas) {keywords : List String}
    (hkeywords : keywords ⊆ combiners) {origin : Json}
    (hnode : inv.folding (Assoc.keys state.schemas) path origin ⟨[], keywords⟩ node)
    (hcalls : ∀ place schema, inv.Leads document path origin place schema →
      calls state.inProgress place schema) :
    Ensures (keywords.foldlM (foldCombiner document walk path) node) state
      (fun folded after => Grows inv inv.own state after ∧
        inv.folding (Assoc.keys after.schemas) path origin ⟨[], []⟩ folded) fail := by
  induction keywords generalizing node state with
  | nil => exact ensures_pure ⟨.refl hgrounded, hnode⟩
  | cons combiner rest ih =>
    obtain ⟨hcombiner, hrest⟩ := List.cons_subset.mp hkeywords
    rw [List.foldlM_cons]
    refine ensures_bind (ensures_foldCombiner (fun hnone => ?_) (fun members hmembers => ?_)
      fun _ _ _ => hfail.other _ nofun nofun)
    · exact ih hgrounded hrest (hkept.skip hcombiner hnode hnone) hcalls
    · refine (kept_foldMembers hkept hfail hwalk hgrounded
        (hkept.drop hcombiner hnode hmembers) hcalls).mono (fun folded between h => ?_) fun _ h => h
      obtain ⟨hgrows, hfolded⟩ := h
      exact (ih hgrows.grounded hrest hfolded (hgrows.inProgress ▸ hcalls)).mono
        (fun _ _ h => ⟨hgrows.trans h.1, h.2⟩) fun _ h => h

/-- Flattening an object keeps it, and lists it last. -/
theorem kept_flattenObject (hgrounded : Grounded inv state.schemas) {origin : Json}
    (hnode : inv.folding (Assoc.keys state.schemas) path origin ⟨[], combiners⟩ node)
    (hprogress : path ∉ state.inProgress) (hnew : path ∉ Assoc.keys state.schemas)
    (hcalls : ∀ place schema, inv.Leads document path origin place schema →
      calls (state.inProgress ++ [path]) place schema) :
    Ensures (flattenObject document walk node path)
      { state with inProgress := state.inProgress ++ [path] }
      (fun walked after => Kept inv state path origin walked
        { after with inProgress := after.inProgress.erase path }) fail := by
  have hfold : Ensures (combiners.foldlM (foldCombiner document walk path) node)
      { state with inProgress := state.inProgress ++ [path] } (fun folded after =>
        Grows inv inv.own { state with inProgress := state.inProgress ++ [path] } after ∧
          inv.folding (Assoc.keys after.schemas) path origin ⟨[], []⟩ folded) fail := by
    have hinside : Grounded inv
        ({ state with inProgress := state.inProgress ++ [path] } : FlattenState).schemas :=
      hgrounded
    exact kept_foldCombiners hkept hfail hwalk hinside (List.Subset.refl _) hnode hcalls
  refine ensures_flattenObject (hfold.mono (fun folded between h => ?_) fun _ h => h)
  obtain ⟨hgrows, hfolded⟩ := h
  -- the members of either keyword
  have hmembers : ∀ keyword, keyword = "properties" ∨ keyword = "patternProperties" →
      ∀ members, Assoc.find? folded keyword = some members →
      Ensures (flattenMembers walk path keyword members) between
        (fun flat after => ∃ entries flatEntries, members = .obj entries ∧ flat = .obj flatEntries ∧
          Grows inv inv.own { state with inProgress := state.inProgress ++ [path] } after ∧
          inv.folding (Assoc.keys after.schemas) path origin ⟨[], []⟩ folded ∧
          inv.Flat (Assoc.keys after.schemas) path keyword entries flatEntries) fail := by
    intro keyword hkeyword members hfind
    refine ensures_flattenMembers (fun _ => hfail.other _ nofun nofun) fun entries hentries => ?_
    subst hentries
    refine (kept_flattenEntries hkept hwalk hgrows.grounded (fun entry hentry =>
      hkept.property hfolded hkeyword hfind hentry) (fun entry hentry =>
      hkept.property_own hfolded hkeyword hfind hentry) fun entry hentry =>
      hgrows.inProgress ▸ hcalls _ _ (.property hfolded hkeyword hfind hentry)).mono
      (fun flat after h => ?_) fun _ h => h
    exact ⟨entries, flat, rfl, rfl, hgrows.trans h.1,
      hkept.folding_mono h.1.keys_subset hfolded, h.2⟩
  refine ⟨fun _ => hfail.other _ nofun nofun, fun _ _ _ _ => hfail.other _ nofun nofun,
    fun _ => ⟨fun members hfind hnone => ?_,
    fun members hnone hfind => ?_, fun hnone hnone' => ?_⟩⟩
  · refine (hmembers _ (.inl rfl) members hfind).mono (fun flat after h => ?_) fun _ h => h
    obtain ⟨entries, flatEntries, rfl, rfl, hgrows', hfolded', hflat⟩ := h
    have hlisted := hkept.list hfolded' hnone hfind hflat
    have hmissing : path ∉ Assoc.keys after.schemas :=
      hgrows'.not_mem_keys (List.mem_append_right _ List.mem_cons_self) hnew
    rw [Assoc.insert_of_not_mem hmissing]
    have hbehind : Assoc.keys after.schemas ⊆ Assoc.keys
        (after.schemas ++ [(path, Assoc.insert folded "properties" (.obj flatEntries))]) := by
      rw [keys_append]
      exact List.subset_append_left _ _
    have hlast : path ∈ Assoc.keys
        (after.schemas ++ [(path, Assoc.insert folded "properties" (.obj flatEntries))]) :=
      Assoc.mem_keys_of_mem (List.mem_append_right _ List.mem_cons_self)
    exact ⟨((hgrows'.mono fun _ => .inl).leave hprogress).snoc hprogress (.inr ⟨rfl, rfl⟩) hmissing
      hlisted, hkept.reference hlast (hkept.listed_mono hbehind hlisted), hlast,
      fun _ => ⟨_, _, rfl⟩⟩
  · refine (hmembers _ (.inr rfl) members hfind).mono (fun flat after h => ?_) fun _ h => h
    obtain ⟨entries, flatEntries, rfl, rfl, hgrows', hfolded', hflat⟩ := h
    exact ⟨(hgrows'.mono fun _ => .inl).leave hprogress,
      hkept.patterns hfolded' hnone hfind hflat, trivial⟩
  · exact ⟨(hgrows.mono fun _ => .inl).leave hprogress, hkept.bare hfolded hnone hnone', trivial⟩

/-- Visiting a schema keeps it, whatever the schema is. -/
theorem kept_visit (hgrounded : Grounded inv state.schemas) {schema : Json}
    (hschema : path ∈ Assoc.keys state.schemas ∨
      inv.raw (Assoc.keys state.schemas) path schema)
    (hcalls : path ∉ state.inProgress → ∀ place next, inv.Leads document path schema place next →
      calls (state.inProgress ++ [path]) place next) :
    Ensures (visit document walk schema path) state (fun walked after =>
      Kept inv state path schema walked after ∧
        (path ∈ Assoc.keys state.schemas → walked = .canonical path)) fail := by
  refine ensures_visit (fun _ => hfail.other _ nofun nofun) (fun _ hkey => ?_)
    (fun node hobj hpath hnew => ?_) (fun value hbool _ hnew => ?_)
    fun _ _ => hfail.other _ nofun nofun
  · obtain ⟨entry, hentry⟩ := Assoc.exists_find?_of_mem_keys hkey
    exact ⟨⟨.refl hgrounded, hkept.reference hkey (hgrounded.listed hkept hentry), hkey,
      fun hnew => absurd hkey hnew⟩, fun _ => rfl⟩
  · subst hobj
    have hnode := hschema.resolve_left hnew
    have hleave : ∀ walked after, Kept inv { state with inProgress := state.inProgress ++ [path] }
          path (.obj node) walked after →
        Kept inv state path (.obj node) walked
            { after with inProgress := after.inProgress.erase path } ∧
          (path ∈ Assoc.keys state.schemas → walked = .canonical path) :=
      fun _ _ h => ⟨⟨h.grows.leave hpath, h.left, h.arrives⟩, fun hkey => absurd hkey hnew⟩
    have hinside : Grounded inv
        ({ state with inProgress := state.inProgress ++ [path] } : FlattenState).schemas :=
      hgrounded
    refine ensures_flattenSchema (fun reference hreference => ?_) (fun hplain hshape => ?_)
      (fun hplain hshape => ?_) fun hplain hshape => ?_
    · obtain ⟨text, htext, rfl⟩ := Option.map_eq_some_iff.mp hreference
      exact (kept_followRef hkept hfail hwalk hinside hnode htext (hcalls hpath)).mono hleave
        fun _ h => h
    · have hfolding := hkept.start hnode (Option.map_eq_none_iff.mp hplain)
        (ofSchema_eq_object.mp hshape)
      exact (kept_flattenObject hkept hfail hwalk hgrounded hfolding hpath hnew (hcalls hpath)).mono
        (fun _ _ h => ⟨h, fun hkey => absurd hkey hnew⟩) fun _ h => h
    · exact (kept_flattenArray hkept hfail hwalk hinside hnode (Option.map_eq_none_iff.mp hplain)
        (ofSchema_eq_array.mp hshape) (hcalls hpath)).mono hleave fun _ h => h
    · have hother := hkept.other hnode (Option.map_eq_none_iff.mp hplain) hshape
      exact hleave _ _ ⟨.refl hgrounded, hother, trivial⟩
  · subst hbool
    exact ⟨⟨.refl hgrounded, hkept.bool (hschema.resolve_left hnew), trivial⟩,
      fun hkey => absurd hkey hnew⟩

end Steps

section Runs

variable {inv : Invariant} {document : Json} (hkept : inv.Kept document)

include hkept

/-- Every walk keeps the invariant. -/
theorem keeps_walk {fail : FlattenError → Prop} (hfail : inv.Averts document fail) (depth : Nat) :
    Keeps inv fail (walk document depth) := by
  induction depth with
  | zero => exact fun _ _ _ _ _ => ensures_throw (hfail.other _ nofun)
  | succ depth ih =>
    exact fun _ _ _ hgrounded hschema =>
      kept_visit hkept hfail.steps ih.on hgrounded hschema fun _ _ _ _ => trivial

/-- A document that cannot be flattened fails with one of the errors that are allowed for. -/
theorem fail_of_flattenWithin {fail : FlattenError → Prop} (hfail : inv.Averts document fail)
    (hraw : inv.raw [] .root document) {depth : Nat} {error : FlattenError}
    (hflatten : flattenWithin depth document = .error error) : fail error := by
  by_cases hobject : document.isObject
  · have hwalk := keeps_walk hkept hfail depth document .root {} .nil (.inr hraw)
    rw [flattenWithin_eq hobject] at hflatten
    cases hrun : (walk document depth document .root).run {} with
    | ok result =>
      rw [hrun] at hflatten
      cases hflatten
    | error other =>
      rw [hrun] at hflatten
      exact Except.error.inj hflatten ▸ hwalk.of_eq_error hrun
  · unfold flattenWithin at hflatten
    rw [if_neg hobject] at hflatten
    exact Except.error.inj hflatten ▸ hfail.other _ nofun

/-- A flattened document is the table of a walk that keeps the invariant. -/
theorem exists_kept_of_flattenWithin (hraw : inv.raw [] .root document) {depth : Nat}
    {schemas : FlatSchemas} (hflatten : flattenWithin depth document = .ok schemas) :
    ∃ walked after, Kept inv {} .root document walked after ∧ after.schemas = schemas := by
  obtain ⟨walked, after, hrun, hschemas⟩ := exists_run_of_flattenWithin hflatten
  have hwalk := keeps_walk hkept averts_all depth document .root {} .nil (.inr hraw)
  exact ⟨walked, after, (hwalk.of_eq_ok hrun).1, hschemas⟩

/-- Each schema of a flattened document is listed once, after the places that it depends on. -/
theorem grounded_of_flattenWithin (hraw : inv.raw [] .root document) {depth : Nat}
    {schemas : FlatSchemas} (hflatten : flattenWithin depth document = .ok schemas) :
    Grounded inv schemas := by
  obtain ⟨walked, after, hwalk, rfl⟩ := exists_kept_of_flattenWithin hkept hraw hflatten
  exact hwalk.grows.grounded

end Runs

end SchemaClasses.Flatten
