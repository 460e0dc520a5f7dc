import SchemaClasses.Proofs.Flatten.CombinerFree
import SchemaClasses.Proofs.Flatten.Fate
import SchemaClasses.Proofs.Json.Alike

/-!
# Documents that are walked as they stand

The walk reads the target of a reference in the document, whatever has been merged into the schemas
around it in the meantime. A document is `Faithful` if that makes no difference: at a place that a
reference names the walk never meets another schema than the one that stands there. Besides that no
combiner may be passed over, because the schema that it brings into the one around it would take the
place of another one.

Main statement (`Faithful.unique`): at one place one schema is walked. For a place that no reference
names is beneath that of one schema only (`Beneath.unique`), and what that calls for is settled by
what it is and what its combiners are folded to (`Calls.unique`).
-/

namespace SchemaClasses.Flatten

open Merge (Keys)
open Json (keysAt keysAt_child)

/-! ### Faithful documents -/

/-- Whether the combiners of a schema are folded if it has any. -/
def isFoldable : Json → Bool
  | .obj node => lacksCombiners (.obj node) || (textRef? node).isSome ||
      Shape.ofSchema node = .object
  | _ => true

/-- Whether the combiners of the members of all combiners of a value are folded, if it is an
object. -/
def hasFoldableMembers : Json → Bool
  | .obj node => node.all fun entry => !decide (entry.1 ∈ combiners) ||
      match entry.2 with
      | .arr members => members.all isFoldable
      | _ => true
  | _ => true

/-- Whether the walk of a document meets the schemas that its references name as they stand in the
document. -/
structure Faithful (document : Json) : Prop where
  /-- The members of combiners have no combiners that are passed over. -/
  foldable : document.everywhere hasFoldableMembers
  /-- A reference leads to a schema and not to a table of schemas, and no combiners are passed over
  there either. -/
  target : ∀ target, Named document target → keysAt target = .keywords ∧
    ∀ schema, document.at? target = some schema → isFoldable schema
  /-- Nothing else is ever walked at the place that it names. -/
  same : ∀ target schema, Named document target → Visited document (target, schema) →
    document.at? target = some schema

/-! ### At one place one schema is walked -/

section Places

variable {document : Json} {path : SchemaPath} {schema schema' : Json} {role role' : Role}
  {site site' : Site}

/-- Below the keyword of a table stand names. -/
theorem below_of_mem_tables {keyword : String} (h : keyword ∈ tables) :
    Keys.below .keywords keyword = .names := by
  rcases List.mem_cons.mp h with rfl | h
  · rfl
  · obtain rfl := List.mem_singleton.mp h
    rfl

/-- Below a combiner stand keywords. -/
theorem below_of_mem_combiners {keyword : String} (h : keyword ∈ combiners) :
    Keys.below .keywords keyword = .keywords := by
  have hall : ∀ keyword ∈ combiners, Keys.below .keywords keyword = .keywords := by decide
  exact hall keyword h

/-- The keyword of a table is no combiner. -/
theorem not_mem_combiners {keyword : String} (h : keyword ∈ tables) : keyword ∉ combiners := by
  have hall : ∀ keyword ∈ tables, keyword ∉ combiners := by decide
  exact hall keyword h

/-- Below the position of a member stand keywords. -/
theorem below_ofIndex (index : Nat) :
    Keys.below .keywords (SchemaPath.ofIndex index) = .keywords :=
  if_neg fun h => h.elim (ofIndex_ne (by decide) index) (ofIndex_ne (by decide) index)

/-- Where the schemas stand that a walk calls for, except for the targets of references. -/
inductive Beneath (path : SchemaPath) : SchemaPath → Prop where
  /-- The items of an array. -/
  | items : Beneath path (path.child "items")
  /-- A member of a combiner. -/
  | member {combiner : String} (hcombiner : combiner ∈ combiners) (index : Nat) :
      Beneath path ((path.child combiner).child (SchemaPath.ofIndex index))
  /-- A schema in a table. -/
  | schema {keyword : String} (hkeyword : keyword ∈ tables) (name : String) :
      Beneath path ((path.child keyword).child name)

/-- The walk of a schema calls for schemas only. -/
theorem Beneath.keysAt {next : SchemaPath} (h : Beneath path next)
    (hkeys : keysAt path = .keywords) : keysAt next = .keywords := by
  cases h with
  | items => rw [keysAt_child, hkeys]; rfl
  | member hcombiner index =>
    rw [keysAt_child, keysAt_child, hkeys, below_of_mem_combiners hcombiner, below_ofIndex]
  | schema hkeyword name =>
    rw [keysAt_child, keysAt_child, hkeys, below_of_mem_tables hkeyword]
    rfl

/-- What stands beneath a schema is not the root. -/
theorem Beneath.ne_root {next : SchemaPath} (h : Beneath path next) : next ≠ .root := by
  cases h <;> exact SchemaPath.child_ne_root

/-- A schema stands beneath one other schema only, as far as schemas stand under keywords. -/
theorem Beneath.unique {other next : SchemaPath} (h : Beneath path next) (h' : Beneath other next)
    (hkeys : Json.keysAt path = .keywords) (hkeys' : Json.keysAt other = .keywords) :
    path = other := by
  have htable : ∀ {front back : SchemaPath} {keyword : String}, keyword ∈ tables →
      Json.keysAt front = .keywords → Json.keysAt back = .keywords →
      back ≠ front.child keyword := by
    rintro front _ keyword hkeyword hfront hback rfl
    rw [keysAt_child, hfront, below_of_mem_tables hkeyword] at hback
    cases hback
  generalize hnext : next = next' at h'
  cases h with
  | items =>
    cases h' with
    | items => exact (SchemaPath.child_inj.mp hnext).1
    | member _ index =>
      exact absurd (SchemaPath.child_inj.mp hnext).2.symm (ofIndex_ne (by decide) index)
    | schema hkeyword =>
      exact absurd (SchemaPath.child_inj.mp hnext).1 (htable hkeyword hkeys' hkeys)
  | member hcombiner index =>
    cases h' with
    | items => exact absurd (SchemaPath.child_inj.mp hnext).2 (ofIndex_ne (by decide) index)
    | member => exact (SchemaPath.child_inj.mp (SchemaPath.child_inj.mp hnext).1).1
    | schema hkeyword =>
      have hsame := (SchemaPath.child_inj.mp (SchemaPath.child_inj.mp hnext).1).2
      exact absurd (hsame ▸ hcombiner) (not_mem_combiners hkeyword)
  | schema hkeyword =>
    cases h' with
    | items => exact absurd (SchemaPath.child_inj.mp hnext).1.symm (htable hkeyword hkeys hkeys')
    | member hcombiner =>
      have hsame := (SchemaPath.child_inj.mp (SchemaPath.child_inj.mp hnext).1).2
      exact absurd (hsame ▸ hcombiner) (not_mem_combiners hkeyword)
    | schema => exact (SchemaPath.child_inj.mp (SchemaPath.child_inj.mp hnext).1).1

/-- What is called for is the target of a reference, or it stands beneath the schema. -/
theorem Calls.target_or_beneath (h : Calls document role site site') :
    (Named document site'.1 ∧ document.at? site'.1 = some site'.2) ∨ Beneath site.1 site'.1 := by
  cases h with
  | target _ _ hnamed hschema => exact .inl ⟨hnamed, hschema⟩
  | items => exact .inr .items
  | member _ _ hmember =>
    obtain ⟨combiner, hcombiner, members, -, hplace⟩ := mem_membersUnder.mp hmember
    obtain ⟨index, -, hpath⟩ := mem_memberPlaces.mp hplace
    rw [hpath, SchemaPath.append_pair]
    exact .inr (.member hcombiner _)
  | schema _ _ _ hkeyword =>
    rw [SchemaPath.append_pair]
    exact .inr (.schema hkeyword _)

/-- A member of a combiner stands at the place of no schema in a table. -/
theorem not_mem_membersOf {node : Entries} {keyword name : String} (hkeyword : keyword ∈ tables) :
    (path ++ [keyword, name], schema) ∉ membersOf path node := by
  intro hmember
  obtain ⟨combiner, hcombiner, members, -, hplace⟩ := mem_membersUnder.mp hmember
  obtain ⟨index, -, hpath⟩ := mem_memberPlaces.mp hplace
  rw [SchemaPath.append_pair, SchemaPath.append_pair] at hpath
  have hsame := (SchemaPath.child_inj.mp (SchemaPath.child_inj.mp hpath).1).2
  exact absurd (hsame ▸ hcombiner) (not_mem_combiners hkeyword)

/-- At one place stands one member. -/
theorem membersOf_unique {front : SchemaPath} {node : Entries}
    (h : (path, schema) ∈ membersOf front node) (h' : (path, schema') ∈ membersOf front node) :
    schema = schema' := by
  obtain ⟨combiner, -, members, hmembers, hplace⟩ := mem_membersUnder.mp h
  obtain ⟨combiner', -, members', hmembers', hplace'⟩ := mem_membersUnder.mp h'
  obtain ⟨index, hindex, hpath⟩ := mem_memberPlaces.mp hplace
  obtain ⟨index', hindex', hpath'⟩ := mem_memberPlaces.mp hplace'
  obtain rfl : path = _ := hpath
  rw [SchemaPath.append_pair, SchemaPath.append_pair] at hpath'
  obtain ⟨hfront, hlast⟩ := SchemaPath.child_inj.mp hpath'
  obtain rfl := (SchemaPath.child_inj.mp hfront).2
  obtain rfl := Json.arr.inj (Option.some.inj (hmembers.symm.trans hmembers'))
  rw [Nat.zero_add, Nat.zero_add] at hlast
  obtain rfl := Text.decimal_injective hlast
  exact Option.some.inj (hindex.symm.trans hindex')

/-- At one place one schema is called for. -/
theorem Calls.unique (h : Calls document role site (path, schema))
    (h' : Calls document role' site (path, schema')) : schema = schema' := by
  generalize hnext : (path, schema) = next at h
  cases h with
  | target htext htarget _ hschema =>
    obtain ⟨rfl, rfl⟩ := Prod.mk.inj hnext
    obtain ⟨-, -, other, hother, hnext'⟩ := h'.of_textRef? htext htarget
    obtain ⟨-, rfl⟩ := Prod.mk.inj hnext'
    exact Option.some.inj (hschema.symm.trans hother)
  | items hplain hshape hitems =>
    obtain ⟨rfl, rfl⟩ := Prod.mk.inj hnext
    obtain ⟨-, items', hitems', hnext'⟩ := h'.of_array hplain hshape
    obtain ⟨-, rfl⟩ := Prod.mk.inj hnext'
    exact Option.some.inj (hitems.symm.trans hitems')
  | member hplain hshape hmember =>
    subst hnext
    rcases h'.of_object hplain hshape with
      ⟨-, hmember'⟩ | ⟨-, _, _, _, _, _, -, hkeyword, -, -, heq⟩
    · exact membersOf_unique hmember hmember'
    · obtain ⟨rfl, -⟩ := Prod.mk.inj heq
      exact absurd hmember (not_mem_membersOf hkeyword)
  | schema hplain hshape hfolds hkeyword hmembers hschema =>
    obtain ⟨rfl, rfl⟩ := Prod.mk.inj hnext
    rcases h'.of_object hplain hshape with
      ⟨-, hmember'⟩ | ⟨-, _, _, _, _, _, hfolds', -, hmembers', hschema', heq⟩
    · exact absurd hmember' (not_mem_membersOf hkeyword)
    · obtain ⟨hpath, rfl⟩ := Prod.mk.inj heq
      rw [SchemaPath.append_pair, SchemaPath.append_pair] at hpath
      obtain ⟨hfront, rfl⟩ := SchemaPath.child_inj.mp hpath
      obtain rfl := (SchemaPath.child_inj.mp hfront).2
      obtain rfl := hfolds.unique hfolds'
      obtain rfl := Json.obj.inj (Option.some.inj (hmembers.symm.trans hmembers'))
      exact Option.some.inj (hschema.symm.trans hschema')

variable (hfaithful : Faithful document)

include hfaithful

/-- A schema is walked where a schema stands. -/
theorem Faithful.keysAt (h : Visited document site) : keysAt site.1 = .keywords := by
  induction h with
  | refl => rfl
  | tail _ hcall ih =>
    obtain ⟨role, hcall⟩ := hcall
    rcases hcall.target_or_beneath with ⟨hnamed, -⟩ | hbeneath
    · exact (hfaithful.target _ hnamed).1
    · exact hbeneath.keysAt ih

/-- At one place one schema is walked. -/
theorem Faithful.unique (h : Visited document site) (h' : Visited document site')
    (hplace : site.1 = site'.1) : site.2 = site'.2 := by
  induction h generalizing site' with
  | refl =>
    rcases h'.cases_tail with rfl | ⟨before, -, role, hcall⟩
    · rfl
    rcases hcall.target_or_beneath with ⟨-, hschema⟩ | hbeneath
    · rw [← hplace] at hschema
      exact Option.some.inj hschema
    · exact absurd hplace.symm hbeneath.ne_root
  | @tail before site hvisited hcall ih =>
    have hsite : Visited document site := hvisited.tail hcall
    obtain ⟨role, hcall⟩ := hcall
    by_cases hnamed : Named document site.1
    · have hschema := hfaithful.same _ _ hnamed hsite
      have hschema' := hfaithful.same _ _ (hplace ▸ hnamed) h'
      rw [← hplace] at hschema'
      exact Option.some.inj (hschema.symm.trans hschema')
    -- the place stands beneath that of one schema only
    have hbeneath := hcall.target_or_beneath.resolve_left fun h => hnamed h.1
    rcases h'.cases_tail with rfl | ⟨before', hvisited', role', hcall'⟩
    · exact absurd hplace hbeneath.ne_root
    have hbeneath' := hcall'.target_or_beneath.resolve_left fun h => hnamed (hplace ▸ h.1)
    rw [← hplace] at hbeneath'
    have hfront := hbeneath.unique hbeneath' (hfaithful.keysAt hvisited)
      (hfaithful.keysAt hvisited')
    have hbefore : before = before' := Prod.ext hfront (ih hvisited' hfront)
    obtain ⟨path, schema⟩ := site
    obtain ⟨path', schema'⟩ := site'
    obtain rfl : path = path' := hplace
    exact hcall.unique (hbefore ▸ hcall')

end Places

end SchemaClasses.Flatten
