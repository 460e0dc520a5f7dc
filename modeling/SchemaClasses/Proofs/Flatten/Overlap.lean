import SchemaClasses.Proofs.Flatten.Declared
import SchemaClasses.Proofs.Json.References

/-!
# Overlapping properties

In an `Overlap` a schema, the root of a document, and a member of one of its combiners declare the
same property, both as inline object schemas with properties of their own. The member is walked
before it is merged, so by then its property may have become a reference. If the property of the
root has a type, then merging makes the reference one more alternative of that type, and otherwise
the properties of both come together (`exists_absorbs`).

What may be merged on the way are the members of combiners and the targets of references.
`isSquashable` says that each of them is proper: its own properties and those of the overlapping
property are tables, and it has no combiners that the walk would pass over.
-/

namespace SchemaClasses

namespace Flatten

/-! ### Schemas that can be merged -/

/-- Whether a schema is tidy, if it is an object, and has combiners only if it is walked as an
object, so that they are folded. -/
def isProper (name : String) : Json → Bool
  | .obj schema => isTidy name schema && (Shape.ofSchema schema = .object ||
      combiners.all fun combiner => !Assoc.contains schema combiner)
  | _ => true

/-- Whether what becomes of a schema can be merged: it is tidy and its combiners are folded. -/
structure IsMergeable (name : String) (schema : Entries) : Prop where
  tidy : isTidy name schema
  folded : ∀ combiner ∈ combiners, Assoc.find? schema combiner = none

/-- Whether the members of the combiners of a value are proper, if it is an object. -/
def hasProperMembers (name : String) : Json → Bool
  | .obj schema => schema.all fun entry => !decide (entry.1 ∈ combiners) ||
      match entry.2 with
      | .arr members => members.all (isProper name)
      | _ => true
  | _ => true

/-- Whether all members of combiners in a document and all targets of its references are proper, and
no reference leads to a truth value. -/
def isSquashable (name : String) (document : Json) : Bool :=
  document.everywhere (hasProperMembers name) &&
    document.refs.all fun ref =>
      (referent? document ref.2).all fun target => isProper name target && isTabled target

/-- What is known of an entry of an object once some places are listed, if the document can be
squashed: the members of a combiner are proper, and so is the target of a reference that is not
listed yet. -/
structure Fits (document : Json) (name : String) (keys : List SchemaPath) (key : String)
    (value : Json) : Prop where
  members : key ∈ combiners → ∀ members, value = .arr members →
    ∀ member ∈ members, isProper name member
  target : key = refKey → ∀ text path schema, value = .str text →
    SchemaPath.ofPointer text = .ok path → path ∉ keys → document.at? path = some schema →
    isProper name schema ∧ isTabled schema

/-- Whether this is known of all entries in a value. -/
abbrev FitsAll (document : Json) (name : String) (keys : List SchemaPath) : Json → Prop :=
  Json.Throughout (Fits document name keys)

section Fitting

variable {document : Json} {name key : String} {keys : List SchemaPath} {value : Json}

/-- An object is proper if it is tidy, and walked as an object wherever it has combiners. -/
theorem isProper_obj {schema : Entries} : isProper name (.obj schema) ↔ isTidy name schema ∧
    (HasObjectType schema ∨ ∀ combiner ∈ combiners, Assoc.find? schema combiner = none) := by
  simp only [isProper, Bool.and_eq_true, Bool.or_eq_true, decide_eq_true_eq, ofSchema_eq_object,
    List.all_eq_true, Assoc.contains, Bool.not_eq_true', Option.isSome_eq_false_iff,
    Option.isNone_iff_eq_none]

/-- An entry that fits still does when more places are listed. -/
theorem Fits.mono {more : List SchemaPath} (hsubset : keys ⊆ more)
    (h : Fits document name keys key value) : Fits document name more key value :=
  ⟨h.members, fun hkey text path schema hvalue htext hnew =>
    h.target hkey text path schema hvalue htext fun hlisted => hnew (hsubset hlisted)⟩

/-- Of most entries nothing has to be known. -/
theorem fits_of_ne (hcombiner : key ∉ combiners) (href : key ≠ refKey) (value : Json) :
    Fits document name keys key value :=
  ⟨fun h => absurd h hcombiner, fun h => absurd h href⟩

/-- An object fits under any key. -/
theorem fits_obj (key : String) (entries : Entries) :
    Fits document name keys key (.obj entries) :=
  ⟨nofun, nofun⟩

/-- A reference to a listed place fits. -/
theorem fits_toPointer {path : SchemaPath} (h : path ∈ keys) :
    Fits document name keys refKey (.str path.toPointer) := by
  refine ⟨fun hcombiner => absurd hcombiner (by decide), ?_⟩
  rintro - text target schema htext htarget hnew
  obtain rfl := Json.str.inj htext
  rw [SchemaPath.ofPointer_toPointer] at htarget
  obtain rfl := Except.ok.inj htarget
  exact absurd h hnew

/-- A value whose entries fit still has such entries when more places are listed. -/
theorem FitsAll.mono {more : List SchemaPath} (hsubset : keys ⊆ more)
    (h : FitsAll document name keys value) : FitsAll document name more value :=
  Json.Throughout.mono (fun _ _ => Fits.mono hsubset) h

/-- In a merge of objects whose entries fit, all entries fit. -/
theorem FitsAll.merge {target source : Entries} {path : SchemaPath}
    (hagree : (merge target source path).conflict = none)
    (htarget : FitsAll document name keys (.obj target))
    (hsource : FitsAll document name keys (.obj source)) :
    FitsAll document name keys (.obj (merge target source path).value) :=
  throughout_merge fits_obj (fits_of_ne (by decide) (by decide))
    (fits_of_ne (by decide) (by decide)) hagree htarget hsource

/-- This is known of a document that can be squashed. -/
theorem fitsAll_of_isSquashable (hwf : document.wellFormed) (h : isSquashable name document) :
    FitsAll document name keys document := by
  rw [isSquashable, Bool.and_eq_true, List.all_eq_true] at h
  obtain ⟨hmembers, htargets⟩ := h
  refine Json.throughout_of_wellFormed hwf fun place entries hstands entry hentry => ⟨?_, ?_⟩
  · rintro hcombiner members hvalue member hmember
    have hproper : hasProperMembers name (.obj entries) :=
      Json.test_of_everywhere (hstands.everywhere hmembers)
    have hall := List.all_eq_true.mp hproper entry hentry
    rw [hvalue] at hall
    simp only [hcombiner, decide_true, Bool.not_true, Bool.false_or] at hall
    exact List.all_eq_true.mp hall member hmember
  · rintro hkey text path schema hvalue htext - hschema
    have hmem : (place, text) ∈ document.refs :=
      Json.mem_refs_of_mem hwf hstands (hkey ▸ hvalue ▸ hentry)
    have hall := htargets _ hmem
    rw [referent?_of_ofPointer htext, hschema] at hall
    exact Bool.and_eq_true_iff.mp hall

end Fitting

/-! ### Merging a property -/

/-- Whether a schema that results from a merge has taken up all that one schema declares, and
another one as well if there is one. -/
structure Absorbs (inner : Entries) (source : Option Json) (result : Entries) : Prop where
  declares : ∀ names, Declares inner names → Declares result names
  offers : ∀ text, Merge.Offers inner text → Merge.Offers result text
  plain : textRef? inner = none → textRef? result = none
  declares_source : ∀ node names, source = some (.obj node) → Declares node names →
    Declares result names
  /-- A reference becomes an alternative. -/
  offers_source : ∀ node text, source = some (.obj node) → textRef? node = some text →
    Merge.Offers result text

/-- A property that has a type and properties takes up that of a tidy schema that is merged. -/
theorem exists_absorbs {E : String → Json → Prop} {target source inner : Entries}
    {path : SchemaPath} {name type : String} (hagree : (merge target source path).conflict = none)
    (htarget : Json.Throughout E (.obj target)) (hsource : Json.Throughout E (.obj source))
    (htidy : isTidy name source) (hinner : property? target name = some (.obj inner))
    (htabled : isTabled (.obj inner)) (htype : Merge.Offers inner type) :
    ∃ result, property? (merge target source path).value name = some (.obj result) ∧
      Absorbs inner (property? source name) result := by
  obtain ⟨htabled', hproperty⟩ := isTidy_iff.mp htidy
  cases hnew : property? source name with
  | none =>
    have hlook : property? (merge target source path).value name = Merge.joined .names _ _ _ _ :=
      property?_merge hagree htarget hsource (tabled_of_property? hinner) htabled'
    rw [hinner, hnew, Merge.joined_none] at hlook
    exact ⟨inner, hlook, fun _ h => h, fun _ h => h, fun h => h, nofun, nofun⟩
  | some value =>
    obtain ⟨new, rfl, hnewTabled⟩ := hproperty value hnew
    obtain ⟨place, hboth, hmerged⟩ :=
      exists_merge_of_property? hagree htarget hsource hinner hnew
    have hinnerFits := throughout_of_property? htarget hinner
    have hnewFits := throughout_of_property? hsource hnew
    refine ⟨_, hmerged, fun names h => h.merge_left hboth hinnerFits hnewFits hnewTabled,
      fun text h => Merge.offers_mergeEntries hboth h, fun h => ?_, ?_, ?_⟩
    · rw [textRef?_eq_none_iff] at h ⊢
      exact Merge.find?_refKey_mergeEntries hboth hinnerFits.nodup htype h
    · rintro node names heq h
      obtain rfl := Json.obj.inj (Option.some.inj heq)
      exact h.merge_right hboth hinnerFits hnewFits htabled
    · rintro node text heq h
      obtain rfl := Json.obj.inj (Option.some.inj heq)
      have hmem := Assoc.mem_of_find? (textRef?_eq_some_iff.mp h)
      exact Merge.offers_of_mem hboth htype (.inr rfl) hmem List.mem_cons_self

/-! ### Overlaps -/

/-- Whether a schema is an object schema and no reference. -/
def IsInline (schema : Entries) : Prop :=
  textRef? schema = none ∧ Shape.ofSchema schema = .object

instance : DecidablePred IsInline := fun _ => inferInstanceAs (Decidable (_ ∧ _))

/-- An inline object schema is no reference. -/
theorem IsInline.plain {schema : Entries} (h : IsInline schema) : textRef? schema = none :=
  h.1

/-- An inline object schema is walked as an object. -/
theorem IsInline.object {schema : Entries} (h : IsInline schema) : HasObjectType schema :=
  ofSchema_eq_object.mp h.2

/-- A property that a schema declares, and that an object schema among the members of one of its
combiners declares again, both times as an inline object schema with properties. -/
structure Overlap (root : Entries) where
  /-- The name of the property. -/
  name : String
  /-- The schema of the property in the root. -/
  outer : Entries
  outer_declared : property? root name = some (.obj outer)
  outer_inline : IsInline outer
  /-- Its properties. -/
  outerMembers : Entries
  outer_members : Assoc.find? outer "properties" = some (.obj outerMembers)
  /-- The combiner. -/
  combiner : String
  combiner_mem : combiner ∈ combiners
  /-- The members of the combiner. -/
  members : List Json
  root_combiner : Assoc.find? root combiner = some (.arr members)
  /-- The position of the member. -/
  index : Nat
  /-- The member. -/
  member : Entries
  member_at : members[index]? = some (.obj member)
  member_inline : IsInline member
  /-- The schema of the property in the member. -/
  inner : Entries
  inner_declared : property? member name = some (.obj inner)
  inner_inline : IsInline inner
  /-- Its properties. -/
  innerMembers : Entries
  inner_members : Assoc.find? inner "properties" = some (.obj innerMembers)

namespace Overlap

variable {root : Entries} (o : Overlap root)

/-- The place of the member. -/
def memberPlace : SchemaPath :=
  (SchemaPath.root.child o.combiner).child (SchemaPath.ofIndex o.index)

/-- The place of the property in the root. -/
def outerPlace : SchemaPath :=
  (SchemaPath.root.child "properties").child o.name

/-- The place of the property in the member. -/
def innerPlace : SchemaPath :=
  (o.memberPlace.child "properties").child o.name

/-- The property in the root declares its own properties. -/
theorem outer_declares : Declares o.outer (Assoc.keys o.outerMembers) :=
  ⟨o.outerMembers, o.outer_members, List.Subset.refl _⟩

/-- The property in the member declares its own properties. -/
theorem inner_declares : Declares o.inner (Assoc.keys o.innerMembers) :=
  ⟨o.innerMembers, o.inner_members, List.Subset.refl _⟩

/-- What stands at the place of the member. -/
theorem at?_memberPlace (hwf : (Json.obj root).wellFormed) :
    (Json.obj root).at? o.memberPlace = some (.obj o.member) := by
  have hstands : Json.StandsAt (.obj root) o.memberPlace.segments (.obj o.member) :=
    .entry (Assoc.mem_of_find? o.root_combiner) (.item o.member_at (.here _))
  exact hstands.descend? hwf

/-- What stands at the place of its property. -/
theorem at?_innerPlace (hwf : (Json.obj root).wellFormed) :
    (Json.obj root).at? o.innerPlace = some (.obj o.inner) := by
  obtain ⟨members, hmembers, hinner⟩ := exists_of_property? o.inner_declared
  have hstands : Json.StandsAt (.obj root) o.innerPlace.segments (.obj o.inner) :=
    .entry (Assoc.mem_of_find? o.root_combiner) (.item o.member_at
      (.entry (Assoc.mem_of_find? hmembers) (.entry (Assoc.mem_of_find? hinner) (.here _))))
  exact hstands.descend? hwf

end Overlap

/-! ### What is shown -/

/-- The texts with which a schema names others: its `$ref` and those in a list of types. -/
def pointers (schema : Entries) : List String :=
  (textRef? schema).toList ++ match Assoc.find? schema typeKey with
    | some (.arr types) => types.filterMap Json.text?
    | _ => []

/-- Whether a property occurs among the properties of a schema or of a listed one that it names. -/
def shows (schemas : FlatSchemas) (schema : Json) (name : String) : Bool :=
  match schema with
  | .obj node => (property? node name).isSome || (pointers node).any fun text =>
    match SchemaPath.ofPointer text with
    | .ok path => (Assoc.find? schemas path).any fun entry => (property? entry name).isSome
    | .error _ => false
  | _ => false

/-- Whether the schema that the property of an overlap has in the entry of the document shows the
properties of both sides. -/
def Overlap.isKept {root : Entries} (o : Overlap root) (schemas : FlatSchemas) : Bool :=
  ((Assoc.find? schemas .root).bind (property? · o.name)).any fun schema =>
    (Assoc.keys o.outerMembers ++ Assoc.keys o.innerMembers).all (shows schemas schema)

end Flatten

end SchemaClasses
