import SchemaClasses.Proofs.Flatten.CombinerFree
import SchemaClasses.Proofs.Flatten.Growth
import SchemaClasses.Proofs.Flatten.Overlap
import SchemaClasses.Proofs.Merge.Separate
import SchemaClasses.Proofs.Model.Complete

/-!
# The order of squashed properties

Main statement (`keys_root_of_flattenWithin`): if the members of all combiners of a document, those
of their combiners included, are inline object schemas, then the entry of the root lists the
properties of the document first and then those of the members, one after the other in the order in
which they are folded, without those that are there already (`squashedNames`). The class that is
made of the entry has its properties in the same order.

What is known of a schema does not depend on what else is listed, since only the document and these
members are followed (`Constituent`). At the place of such a schema none but the one that stands
there is ever walked, so that whatever is left of it shows its squashed names (`Shows`), be it
listed, shared with a reference or taken over where it is. While its combiners are folded its names
and those that are still to be added make up the squashed names (`IsFolding.names`).
-/

namespace SchemaClasses.Flatten.Squashing

open Merge

/-! ### Members of combiners -/

/-- The members of a combiner of a schema, if it is a list. -/
def combined (node : Entries) (combiner : String) : List Json :=
  match Assoc.find? node combiner with
  | some (.arr members) => members
  | _ => []

/-- The members of a combiner are the schemas in its list. -/
theorem combined_of_arr {node : Entries} {combiner : String} {members : List Json}
    (h : Assoc.find? node combiner = some (.arr members)) : combined node combiner = members := by
  rw [combined, h]

/-- A combiner without a list has no members. -/
theorem combined_of_ne {node : Entries} {combiner : String}
    (h : ∀ members, Assoc.find? node combiner ≠ some (.arr members)) :
    combined node combiner = [] := by
  unfold combined
  split
  · rename_i members hmembers
    exact absurd hmembers (h members)
  · rfl

/-- A member at a position stands there in the list of the combiner. -/
theorem exists_of_mem_combined {node : Entries} {combiner : String} {index : Nat} {member : Json}
    (h : (combined node combiner)[index]? = some member) :
    ∃ members, Assoc.find? node combiner = some (.arr members) ∧ members[index]? = some member := by
  by_cases harr : ∃ members, Assoc.find? node combiner = some (.arr members)
  · obtain ⟨members, hmembers⟩ := harr
    exact ⟨members, hmembers, combined_of_arr hmembers ▸ h⟩
  · rw [combined_of_ne (not_exists.mp harr)] at h
    cases h

section Gather

variable {β : Type} (other : β) (f : Entries → (String → List β) → β)

mutual

/-- What a function makes of an object schema and of what has been made, in the same way, of the
items under each of its keywords. Any other value counts the same. -/
def gather : Json → β
  | .obj node => f node fun keyword => (Assoc.find? (gatherEntries node) keyword).getD []
  | _ => other

/-- What is made of the items under each keyword. -/
def gatherEntries : Entries → List (String × List β)
  | [] => []
  | (keyword, value) :: rest => (keyword, gatherUnder value) :: gatherEntries rest

/-- What is made of the items under a keyword with this value. -/
def gatherUnder : Json → List β
  | .arr items => gatherItems items
  | _ => []

/-- What is made of each item. -/
def gatherItems : List Json → List β
  | [] => []
  | item :: rest => gather item :: gatherItems rest

end

/-- Of a list, each item is made into something by itself. -/
theorem gatherItems_eq (items : List Json) :
    gatherItems other f items = items.map (gather other f) := by
  induction items with
  | nil => rfl
  | cons item rest ih => exact congrArg (gather other f item :: ·) ih

/-- What is made of the value of a keyword is what is made of its members one by one. -/
theorem gatherUnder_eq (node : Entries) (keyword : String) :
    ((Assoc.find? node keyword).map (gatherUnder other f)).getD [] =
      (combined node keyword).map (gather other f) := by
  by_cases harr : ∃ members, Assoc.find? node keyword = some (.arr members)
  · obtain ⟨members, hmembers⟩ := harr
    rw [hmembers, combined_of_arr hmembers]
    exact gatherItems_eq other f members
  · have hother := not_exists.mp harr
    rw [combined_of_ne hother]
    cases hvalue : Assoc.find? node keyword with
    | none => rfl
    | some value =>
      cases value with
      | arr members => exact absurd hvalue (hother members)
      | _ => rfl

/-- Looking up a keyword in what is made of the entries gives what is made of its value. -/
theorem find?_gatherEntries (node : Entries) (keyword : String) :
    Assoc.find? (gatherEntries other f node) keyword =
      (Assoc.find? node keyword).map (gatherUnder other f) := by
  induction node with
  | nil => rfl
  | cons entry rest ih =>
    obtain ⟨key, value⟩ := entry
    change Assoc.find? ((key, gatherUnder other f value) :: gatherEntries other f rest) keyword = _
    rw [Assoc.find?, Assoc.find?, ih]
    split_ifs <;> rfl

/-- What is made of an object schema depends on what is made of the members of its combiners. -/
theorem gather_obj (node : Entries) : gather other f (.obj node) =
    f node fun combiner => (combined node combiner).map (gather other f) := by
  change f node (fun keyword => (Assoc.find? (gatherEntries other f node) keyword).getD []) = _
  refine congrArg (f node) (funext fun combiner => ?_)
  rw [find?_gatherEntries, gatherUnder_eq]

end Gather

/-- Whether a schema and the members of its combiners, and of theirs, are inline object schemas. -/
def isInlineThroughout : Json → Bool :=
  gather false fun node below =>
    IsInline node && combiners.all fun combiner => (below combiner).all id

/-- Whether the members of the combiners of a schema are. -/
def combinesInline (node : Entries) : Bool :=
  combiners.all fun combiner => (combined node combiner).all isInlineThroughout

/-- A schema is inline throughout if it is inline and the members of its combiners are so
throughout. -/
theorem isInlineThroughout_obj {node : Entries} :
    isInlineThroughout (.obj node) ↔ IsInline node ∧ combinesInline node := by
  have hsame : isInlineThroughout (.obj node) =
      (decide (IsInline node) && combiners.all fun combiner =>
        ((combined node combiner).map isInlineThroughout).all id) := gather_obj _ _ node
  simp only [hsame, Bool.and_eq_true, decide_eq_true_eq, List.all_map]
  rfl

/-- A schema that is inline throughout is an object. -/
theorem exists_of_isInlineThroughout {schema : Json} (h : isInlineThroughout schema) :
    ∃ node, schema = .obj node ∧ IsInline node ∧ combinesInline node := by
  cases schema with
  | obj node => exact ⟨node, rfl, isInlineThroughout_obj.mp h⟩
  | _ => cases h

/-! ### Names -/

/-- The names of the properties that a schema declares itself. -/
def propertyNames (node : Entries) : List String :=
  match Assoc.find? node "properties" with
  | some (.obj members) => Assoc.keys members
  | _ => []

/-- The names of the properties that a schema has once its combiners are folded: its own, and then
those of the members, each time without the ones that are there already. -/
def squashedNames : Json → List String :=
  gather [] fun node below => combiners.foldl
    (fun names combiner => (below combiner).foldl addNames names) (propertyNames node)

/-- Appends to a list of names those that some members have once their combiners are folded. -/
def addMembers (names : List String) (members : List Json) : List String :=
  (members.map squashedNames).foldl addNames names

/-- Appends those of the members of some combiners of a schema. -/
def addCombined (node : Entries) (names : List String) (keywords : List String) : List String :=
  keywords.foldl (fun names combiner => addMembers names (combined node combiner)) names

/-- The squashed names of a schema are its own with those of its combiners appended. -/
theorem squashedNames_obj (node : Entries) :
    squashedNames (.obj node) = addCombined node (propertyNames node) combiners :=
  gather_obj _ _ node

section Names

variable {node other members : Entries}

/-- The names of properties depend only on what stands under `properties`. -/
theorem propertyNames_congr
    (h : Assoc.find? other "properties" = Assoc.find? node "properties") :
    propertyNames other = propertyNames node := by
  rw [propertyNames, propertyNames, h]

/-- The names of properties are the keys of the table of properties. -/
theorem propertyNames_of_find? (h : Assoc.find? node "properties" = some (.obj members)) :
    propertyNames node = Assoc.keys members := by
  rw [propertyNames, h]

/-- Without a table of properties there are no names of properties. -/
theorem propertyNames_of_ne (h : ∀ members, Assoc.find? node "properties" ≠ some (.obj members)) :
    propertyNames node = [] := by
  unfold propertyNames
  split
  · rename_i members hmembers
    exact absurd hmembers (h members)
  · rfl

/-- Appending the names of members does not repeat any. -/
theorem nodup_addMembers {names : List String} (h : names.Nodup) (members : List Json) :
    (addMembers names members).Nodup := by
  induction members generalizing names with
  | nil => exact h
  | cons member rest ih => exact ih (nodup_addNames h _)

/-- Squashed names are not repeated. -/
theorem nodup_squashedNames (hwf : (Json.obj node).wellFormed) :
    (squashedNames (.obj node)).Nodup := by
  have hown : (propertyNames node).Nodup := by
    unfold propertyNames
    split
    · rename_i members hmembers
      have hentry := (Json.wellFormed_obj.mp hwf).2 _ (Assoc.mem_of_find? hmembers)
      exact (Json.wellFormed_obj.mp hentry).1
    · exact List.nodup_nil
  have hadd : ∀ (keywords : List String) (names : List String), names.Nodup →
      (addCombined node names keywords).Nodup := by
    intro keywords
    induction keywords with
    | nil => exact fun _ h => h
    | cons keyword rest ih => exact fun names h => ih _ (nodup_addMembers h _)
  rw [squashedNames_obj]
  exact hadd _ _ hown

/-- A merge adds the names of the source. -/
theorem propertyNames_merge {target source : Entries} {path : SchemaPath}
    (hagree : (merge target source path).conflict = none) (htarget : (Assoc.keys target).Nodup)
    (hsource : (Assoc.keys source).Nodup) (htabled : isTabled (.obj source))
    (hnames : (propertyNames source).Nodup) :
    propertyNames (merge target source path).value =
      addNames (propertyNames target) (propertyNames source) := by
  have hkey : IsOrdinary .keywords "properties" := by decide
  have hlook : Assoc.find? (merge target source path).value "properties" =
      joined .keywords path "properties" _ _ := find?_mergeEntries hkey htarget hsource hagree
  cases hnew : Assoc.find? source "properties" with
  | none =>
    rw [hnew, joined_none] at hlook
    have hnone : propertyNames source = [] :=
      propertyNames_of_ne fun members hmembers => by cases hnew.symm.trans hmembers
    rw [hnone]
    exact propertyNames_congr hlook
  | some table =>
    obtain ⟨new, rfl⟩ := isTabled_iff.mp htabled table hnew
    rw [propertyNames_of_find? hnew] at hnames ⊢
    rw [hnew] at hlook
    by_cases hold : ∃ old, Assoc.find? target "properties" = some (.obj old)
    · obtain ⟨old, hold⟩ := hold
      rw [hold] at hlook
      rw [propertyNames_of_find? hlook, propertyNames_of_find? hold]
      exact keys_mergeEntries (agree_of_objects hkey htarget hagree hold hnew)
    · have hother := not_exists.mp hold
      rw [joined_of_ne hother] at hlook
      rw [propertyNames_of_find? hlook, propertyNames_of_ne hother, addNames_of_nodup hnames,
        List.nil_append]

end Names

/-! ### What is squashed into a document -/

/-- Whether a schema at a place is the document or a member of a combiner of such a schema. -/
inductive Constituent (document : Json) : SchemaPath → Json → Prop where
  /-- The document itself. -/
  | document : Constituent document .root document
  /-- A member of a combiner. -/
  | member {path : SchemaPath} {node : Entries} {combiner : String} {index : Nat} {member : Json}
      (h : Constituent document path (.obj node)) (hcombiner : combiner ∈ combiners)
      (hmember : (combined node combiner)[index]? = some member) :
      Constituent document (path ++ [combiner, SchemaPath.ofIndex index]) member

section Constituents

variable {document schema other : Json} {path : SchemaPath} {node root : Entries}

/-- A constituent stands at its place in the document. -/
theorem Constituent.standsAt (h : Constituent document path schema) :
    Json.StandsAt document path.segments schema := by
  induction h with
  | document => exact .here _
  | member _ _ hmember ih =>
    obtain ⟨members, hmembers, hindex⟩ := exists_of_mem_combined hmember
    exact ih.trans (.entry (Assoc.mem_of_find? hmembers) (.item hindex (.here _)))

/-- A constituent is what is found at its place. -/
theorem Constituent.at? (hwf : document.wellFormed) (h : Constituent document path schema) :
    document.at? path = some schema :=
  h.standsAt.descend? hwf

/-- There is one constituent at a place at most. -/
theorem Constituent.unique (hwf : document.wellFormed) (h : Constituent document path schema)
    (h' : Constituent document path other) : schema = other :=
  h.standsAt.unique h'.standsAt hwf

/-- A constituent of a well-formed document is well-formed. -/
theorem Constituent.wellFormed (hwf : document.wellFormed)
    (h : Constituent document path schema) : schema.wellFormed :=
  Json.wellFormed_of_descend? (h.at? hwf) hwf

/-- A constituent stands at the root or in a combiner. -/
theorem Constituent.place (h : Constituent document path schema) :
    path = .root ∨ IsMemberPlace path := by
  cases h with
  | document => exact .inl rfl
  | @member front _ combiner index _ _ hcombiner _ =>
    exact .inr ⟨front, combiner, index, hcombiner, SchemaPath.append_pair _ _ _⟩

/-- What stands in a combiner stands in one of a constituent. -/
theorem Constituent.exists_parent {combiner : String} {index : Nat}
    (h : Constituent document (path ++ [combiner, SchemaPath.ofIndex index]) schema) :
    ∃ node, Constituent document path (.obj node) ∧
      (combined node combiner)[index]? = some schema := by
  generalize hplace : path ++ [combiner, SchemaPath.ofIndex index] = place at h
  rw [SchemaPath.append_pair] at hplace
  cases h with
  | document => exact absurd hplace SchemaPath.child_ne_root
  | @member front node other position _ hparent _ hmember =>
    rw [SchemaPath.append_pair] at hplace
    obtain ⟨hfront, hindex⟩ := SchemaPath.child_inj.mp hplace
    obtain ⟨rfl, rfl⟩ := SchemaPath.child_inj.mp hfront
    obtain rfl := Text.decimal_injective hindex
    exact ⟨node, hparent, hmember⟩

/-- The members of its combiners are inline object schemas if those of the document are. -/
theorem Constituent.combinesInline (hinline : combinesInline root)
    (h : Constituent (.obj root) path schema) :
    ∀ node, schema = .obj node → Squashing.combinesInline node := by
  induction h with
  | document =>
    intro node heq
    exact Json.obj.inj heq ▸ hinline
  | @member _ parent combiner _ member _ hcombiner hmember ih =>
    intro node heq
    have hall := List.all_eq_true.mp (ih parent rfl) combiner hcombiner
    have hthrough := List.all_eq_true.mp hall member (List.mem_of_getElem? hmember)
    exact (isInlineThroughout_obj.mp (heq ▸ hthrough)).2

end Constituents

/-! ### The stages of the walk -/

/-- Whether a schema without combiners has a table of properties with these names, or none. -/
structure Shows (names : List String) (node : Entries) : Prop where
  nodup : (Assoc.keys node).Nodup
  folded : lacksCombiners (.obj node)
  tabled : isTabled (.obj node)
  names : propertyNames node = names

/-- Whether a schema is the one that stands at its place if that is the place of a constituent. -/
def IsRaw (document : Json) (path : SchemaPath) (schema : Json) : Prop :=
  ∀ other, Constituent document path other → schema = other

/-- What is known of a constituent while its combiners are folded. -/
structure IsFolding (document : Json) (first : Entries) (pending : Pending) (node : Entries) :
    Prop where
  nodup : (Assoc.keys node).Nodup
  /-- The combiners that are still to be folded are the last ones. -/
  behind : pending.combiners <:+ combiners
  /-- They are those that the schema had at first. -/
  later : ∀ combiner ∈ pending.combiners,
    Assoc.find? node combiner = Assoc.find? first combiner
  folded : FoldedBut pending.combiners node
  members : ∀ site ∈ pending.members, Constituent document site.1 site.2 ∧
    isInlineThroughout site.2
  /-- With the names that are still to be added there will be all squashed names. -/
  names : addCombined first (addMembers (propertyNames node) (pending.members.map Prod.snd))
    pending.combiners = squashedNames (.obj first)

/-- Whether a constituent is listed at its place, or shows its squashed names where it is. -/
def IsLeft (path : SchemaPath) (first : Entries) (walked : Walked) : Prop :=
  walked = .canonical path ∨
    ∃ source, walked = .inPlace (.obj source) ∧ Shows (squashedNames (.obj first)) source

/-- What is known at the stages of the walk: at the place of a constituent no other schema is
walked, and what is left there shows its squashed names. -/
def order (document : Json) : Invariant where
  raw _ path schema := IsRaw document path schema
  folding _ path _ pending node := (∀ site ∈ pending.members, IsRaw document site.1 site.2) ∧
    ∀ first, Constituent document path (.obj first) → IsFolding document first pending node
  left _ path _ walked := ∀ first, Constituent document path (.obj first) → IsInline first →
    IsLeft path first walked
  listed _ path entry := ∀ first, Constituent document path (.obj first) →
    Shows (squashedNames (.obj first)) entry ∧ (Assoc.find? entry "properties").isSome

section Walk

variable {document : Json} {path place : SchemaPath} {first node source : Entries}
  {combiner : String} {rest : List String} {member : Json} {others : List (SchemaPath × Json)}

/-- At first all combiners are still to be folded. -/
theorem isFolding_combiners (hwf : (Json.obj node).wellFormed) :
    IsFolding document node ⟨[], combiners⟩ node where
  nodup := (Json.wellFormed_obj.mp hwf).1
  behind := List.suffix_rfl
  later _ _ := rfl
  folded _ hmem hnot := absurd hmem hnot
  members _ hsite := absurd hsite List.not_mem_nil
  names := (squashedNames_obj node).symm

/-- A combiner that the constituent does not have may be skipped. -/
theorem IsFolding.skip (h : IsFolding document first ⟨[], combiner :: rest⟩ node)
    (hnone : Assoc.find? node combiner = none) : IsFolding document first ⟨[], rest⟩ node where
  nodup := h.nodup
  behind := (List.suffix_cons combiner rest).trans h.behind
  later other hother := h.later other (List.mem_cons_of_mem _ hother)
  folded := h.folded.skip hnone
  members _ hsite := absurd hsite List.not_mem_nil
  names := by
    have hfirst := (h.later combiner List.mem_cons_self).symm.trans hnone
    have hnames := h.names
    have hempty : combined first combiner = [] :=
      combined_of_ne fun members hmembers => by cases hfirst.symm.trans hmembers
    rw [addCombined, List.foldl_cons, hempty] at hnames
    exact hnames

/-- A combiner may be dropped for its members, which are constituents themselves. -/
theorem IsFolding.drop {members : List Json} (hcombiner : combiner ∈ combiners)
    (hconstituent : Constituent document path (.obj first)) (hinline : combinesInline first)
    (h : IsFolding document first ⟨[], combiner :: rest⟩ node)
    (hmembers : Assoc.find? node combiner = some (.arr members)) :
    IsFolding document first ⟨memberPlaces path combiner 0 members, rest⟩
      (Assoc.swapErase node combiner) := by
  have hfirst := (h.later combiner List.mem_cons_self).symm.trans hmembers
  have hcombined := combined_of_arr hfirst
  constructor
  case nodup => exact Assoc.nodup_keys_swapErase h.nodup combiner
  case behind => exact (List.suffix_cons combiner rest).trans h.behind
  case later =>
    intro other hother
    rw [Assoc.find?_swapErase_of_ne h.nodup (ne_of_behind h.behind hother)]
    exact h.later other (List.mem_cons_of_mem _ hother)
  case folded => exact h.folded.drop h.nodup
  case members =>
    intro site hsite
    obtain ⟨index, hmember, hplace⟩ := mem_memberPlaces.mp hsite
    rw [← hcombined] at hmember
    constructor
    · rw [hplace, Nat.zero_add]
      exact hconstituent.member hcombiner hmember
    · have hall := List.all_eq_true.mp hinline combiner hcombiner
      exact List.all_eq_true.mp hall _ (List.mem_of_getElem? hmember)
  case names =>
    have hsame : propertyNames (Assoc.swapErase node combiner) = propertyNames node :=
      propertyNames_congr (Assoc.find?_swapErase_of_ne h.nodup
        (ne_of_mem_of_not_mem hcombiner (by decide)))
    have hnames := h.names
    rw [addCombined, List.foldl_cons, hcombined] at hnames
    rw [hsame, map_snd_memberPlaces]
    exact hnames

/-- A member shows its squashed names when it is merged. -/
theorem shows_of_source (hsource : (∃ walked, walked ≠ .canonical place ∧
      IsLeft place first walked ∧ walked.toJson = .obj source) ∨
      Shows (squashedNames (.obj first)) source) : Shows (squashedNames (.obj first)) source := by
  rcases hsource with ⟨walked, hne, hcanonical | ⟨left, rfl, hshows⟩, hwalked⟩ | hshows
  · exact absurd hcanonical hne
  · exact Json.obj.inj hwalked ▸ hshows
  · exact hshows

/-- Merging a source that shows the squashed names of a member leaves the names still to come. -/
theorem IsFolding.merge {inner : Entries} (hwf : (Json.obj inner).wellFormed)
    (h : IsFolding document first ⟨(place, .obj inner) :: others, rest⟩ node)
    (hshows : Shows (squashedNames (.obj inner)) source)
    (hagree : (merge node source path).conflict = none) :
    IsFolding document first ⟨others, rest⟩ (merge node source path).value := by
  have hcombiner : ∀ combiner ∈ combiners,
      Assoc.find? (SchemaClasses.merge node source path).value combiner =
        Assoc.find? node combiner := fun combiner hcombiner =>
    find?_combiner_merge hagree h.nodup hshows.nodup hcombiner
      (find?_combiner hshows.folded hcombiner)
  constructor
  case nodup => exact nodup_keys_mergeEntries hagree h.nodup
  case behind => exact h.behind
  case later =>
    intro other hother
    exact (hcombiner other (h.behind.subset hother)).trans (h.later other hother)
  case folded =>
    intro other hmem hnot
    exact (hcombiner other hmem).trans (h.folded other hmem hnot)
  case members => exact fun site hsite => h.members site (List.mem_cons_of_mem _ hsite)
  case names =>
    have hnames : (propertyNames source).Nodup := hshows.names ▸ nodup_squashedNames hwf
    rw [propertyNames_merge hagree h.nodup hshows.nodup hshows.tabled hnames, hshows.names]
    exact h.names

/-- In the end the schema shows its squashed names if it keeps them in a table. -/
theorem IsFolding.shows {result : Entries} (h : IsFolding document first ⟨[], []⟩ node)
    (hnodup : (Assoc.keys result).Nodup) (hfolded : lacksCombiners (.obj result))
    (htabled : isTabled (.obj result)) (hnames : propertyNames result = propertyNames node) :
    Shows (squashedNames (.obj first)) result :=
  ⟨hnodup, hfolded, htabled, hnames.trans h.names⟩

end Walk

/-- The walk keeps what is known at its stages. -/
theorem order_kept {root : Entries} (hwf : (Json.obj root).wellFormed)
    (hinline : combinesInline root) : (order (.obj root)).Kept (.obj root) where
  raw_mono _ h := h
  folding_mono _ h := h
  left_mono _ h := h
  listed_mono _ h := h
  target _ _ _ _ hschema other hother :=
    Option.some.inj (hschema.symm.trans (hother.at? hwf))
  -- an inline constituent is no reference, nor an array in the cases further down
  follow _ h htext _ _ _ _ first hfirst hplain := by
    obtain rfl := Json.obj.inj (h _ hfirst)
    cases hplain.plain.symm.trans htext
  refer h htext _ _ _ first hfirst hplain := by
    obtain rfl := Json.obj.inj (h _ hfirst)
    cases hplain.plain.symm.trans htext
  reference _ _ _ _ _ := .inl rfl
  bool h first hfirst := by cases h _ hfirst
  other h _ hshape first hfirst hplain := by
    obtain rfl := Json.obj.inj (h _ hfirst)
    cases hshape.symm.trans hplain.2
  array h _ harray _ first hfirst hplain := by
    obtain rfl := Json.obj.inj (h _ hfirst)
    exact absurd harray (not_hasArrayType hplain.object)
  items _ _ _ _ other hother := by
    rcases hother.place with hroot | hmember
    · exact absurd hroot SchemaPath.child_ne_root
    · exact absurd hmember (not_isMemberPlace_items _)
  array_items h _ harray _ _ first hfirst hplain := by
    obtain rfl := Json.obj.inj (h _ hfirst)
    exact absurd harray (not_hasArrayType hplain.object)
  start h _ _ := by
    refine ⟨fun _ hsite => absurd hsite List.not_mem_nil, fun first hfirst => ?_⟩
    obtain rfl := Json.obj.inj (h _ hfirst)
    exact isFolding_combiners (hfirst.wellFormed hwf)
  skip _ h hnone := ⟨h.1, fun first hfirst => (h.2 first hfirst).skip hnone⟩
  drop {keys path origin combiner rest node members} hcombiner h hmembers := by
    refine ⟨fun site hsite other hother => ?_, fun first hfirst =>
      (h.2 first hfirst).drop hcombiner hfirst (hfirst.combinesInline hinline _ rfl) hmembers⟩
    obtain ⟨index, hmember, hplace⟩ := mem_memberPlaces.mp hsite
    rw [hplace] at hother
    -- the combiner is still that of the constituent, so its members stand at their places
    obtain ⟨first, hfirst, hother⟩ := hother.exists_parent
    have hsame := ((h.2 first hfirst).later combiner List.mem_cons_self).symm.trans hmembers
    rw [combined_of_arr hsame, Nat.zero_add, hmember] at hother
    exact Option.some.inj hother
  member h := h.1 _ List.mem_cons_self
  merge {keys path origin place member others rest node source} h hsource hagree := by
    refine ⟨fun site hsite => h.1 site (List.mem_cons_of_mem _ hsite), fun first hfirst => ?_⟩
    have hfolding := h.2 first hfirst
    obtain ⟨hmember, hthrough⟩ := hfolding.members _ List.mem_cons_self
    obtain ⟨inner, rfl, hplain, -⟩ := exists_of_isInlineThroughout hthrough
    have hshows : Shows (squashedNames (.obj inner)) source :=
      shows_of_source (hsource.imp
        (fun ⟨walked, hne, hleft, hwalked⟩ => ⟨walked, hne, hleft inner hmember hplain, hwalked⟩)
        fun hlisted => (hlisted inner hmember).1)
    exact hfolding.merge (hmember.wellFormed hwf) hshows hagree
  pass h hwalked hother := by
    refine ⟨fun site hsite => h.1 site (List.mem_cons_of_mem _ hsite), fun first hfirst => ?_⟩
    obtain ⟨hmember, hthrough⟩ := (h.2 first hfirst).members _ List.mem_cons_self
    obtain ⟨inner, rfl, hplain, -⟩ := exists_of_isInlineThroughout hthrough
    rcases hwalked inner hmember hplain with rfl | ⟨source, rfl, -⟩
    · exact absurd rfl (hother _)
    · exact absurd rfl (hother source)
  property {keys path origin node keyword members entry} _ hkeyword _ _ other hother := by
    rw [SchemaPath.append_pair] at hother
    have hnot : keyword ∉ combiners := by rcases hkeyword with rfl | rfl <;> decide
    rcases hother.place with hroot | hmember
    · exact absurd hroot SchemaPath.child_ne_root
    · exact absurd hmember (not_isMemberPlace_property hnot)
  list {keys path origin node members flat} h _ hmembers hflat first hfirst := by
    have hfolding := h.2 first hfirst
    have hinsert := Assoc.find?_insert_self node "properties" (.obj flat)
    refine ⟨hfolding.shows (Assoc.nodup_keys_insert hfolding.nodup _ _)
      (lacksCombiners_insert hfolding.folded.lacksCombiners (by decide))
      (isTabled_iff.mpr fun table htable => ?_) ?_, Option.isSome_of_eq_some hinsert⟩
    · exact ⟨flat, Option.some.inj (htable.symm.trans hinsert)⟩
    · rw [propertyNames_of_find? hinsert, propertyNames_of_find? hmembers, hflat.keys_eq]
  patterns {keys path origin node members flat} h hnone _ _ first hfirst _ := by
    have hfolding := h.2 first hfirst
    have hsame : Assoc.find? (Assoc.insert node "patternProperties" (.obj flat)) "properties" =
        Assoc.find? node "properties" := Assoc.find?_insert_of_ne _ _ (by decide)
    refine .inr ⟨_, rfl, hfolding.shows (Assoc.nodup_keys_insert hfolding.nodup _ _)
      (lacksCombiners_insert hfolding.folded.lacksCombiners (by decide))
      (isTabled_iff.mpr fun table htable => ?_) (propertyNames_congr hsame)⟩
    cases (hsame.trans hnone).symm.trans htable
  bare h hnone _ first hfirst _ := by
    have hfolding := h.2 first hfirst
    refine .inr ⟨_, rfl, hfolding.shows hfolding.nodup hfolding.folded.lacksCombiners
      (isTabled_iff.mpr fun table htable => ?_) rfl⟩
    cases hnone.symm.trans htable

/-! ### The entry of the root -/

/-- Squashing keeps all names, in a fixed order: if the members of the combiners of a document are
inline object schemas, as are the members of theirs, then the entry of the root lists the squashed
names of the document, wherever the combiners stand and whatever else refers to their members. So
does the class that is made of it. -/
theorem keys_root_of_flattenWithin {root : Entries} (hwf : (Json.obj root).wellFormed)
    (hinline : combinesInline root) {depth : Nat} {schemas : FlatSchemas}
    (hflatten : flattenWithin depth (.obj root) = .ok schemas) {entry : Entries}
    (hentry : Assoc.find? schemas .root = some entry) :
    (∃ members, Assoc.find? entry "properties" = some (.obj members) ∧
      Assoc.keys members = squashedNames (.obj root)) ∧
    ∀ rootName models, resolve schemas rootName = .ok models →
      ∃ properties, Assoc.find? models rootName = some properties ∧
        Assoc.keys properties = squashedNames (.obj root) := by
  have hkept := order_kept hwf hinline
  have hraw : (order (.obj root)).raw [] .root (.obj root) :=
    fun _ hother => Constituent.document.unique hwf hother
  have hgrounded := grounded_of_flattenWithin hkept hraw hflatten
  obtain ⟨hshows, htable⟩ := hgrounded.listed hkept hentry root .document
  obtain ⟨table, htable⟩ := Option.isSome_iff_exists.mp htable
  obtain ⟨members, rfl⟩ := isTabled_iff.mp hshows.tabled table htable
  have hnames : Assoc.keys members = squashedNames (.obj root) := by
    rw [← propertyNames_of_find? htable, hshows.names]
  refine ⟨⟨members, htable, hnames⟩, fun rootName models hmodels => ?_⟩
  obtain ⟨names, -, hcovers⟩ := resolve_complete hgrounded.nodup_keys hmodels
  obtain ⟨entry', members', properties, hentry', htable', hproperties, hsame⟩ :=
    hcovers.properties _ _ (hcovers.root (Option.isSome_of_eq_some hentry))
  obtain rfl := Option.some.inj (hentry.symm.trans hentry')
  obtain rfl := Json.obj.inj (Option.some.inj (htable.symm.trans htable'))
  have hkeys : Assoc.keys members = Assoc.keys properties :=
    map_eq_of_forall₂ hsame fun _ _ hproperty => hproperty.1.symm
  exact ⟨properties, hproperties, hkeys.symm.trans hnames⟩

/-- A document whose last combiner comes first and has a member with a combiner. The first member of
the other one refers to that member, which is shared then, and a property of the document refers to
the first member, which has left the table by then. -/
def medley : Entries :=
  [("allOf", .arr [.obj [
      ("properties", .obj [("d", .obj [(typeKey, .str "string")]), ("a", .obj [])]),
      ("anyOf", .arr [.obj [("properties", .obj [("e", .obj []), ("d", .obj [])])]])]]),
    ("properties", .obj [("b", .obj [(typeKey, .str "string")]),
      ("c", .obj [(refKey, .str "#/oneOf/0")])]),
    ("oneOf", .arr [
      .obj [("properties", .obj [("a", .obj [(refKey, .str "#/allOf/0")]), ("b", .obj [])])],
      .obj [(typeKey, .str "object"), ("properties", .obj [("f", .obj [])])]])]

/-- The theorem at `medley`: the names come in the order in which the combiners are folded. -/
theorem keys_root_of_flattenWithin_medley : (Json.obj medley).wellFormed ∧ combinesInline medley ∧
    squashedNames (.obj medley) = ["b", "c", "a", "f", "d", "e"] ∧
    ∃ schemas entry models, flatten (.obj medley) = .ok schemas ∧
      Assoc.keys schemas = [⟨["allOf", "0"]⟩, ⟨["oneOf", "0"]⟩, .root] ∧
      Assoc.find? schemas .root = some entry ∧ resolve schemas "Medley" = .ok models ∧
      (∃ members, Assoc.find? entry "properties" = some (.obj members) ∧
        Assoc.keys members = ["b", "c", "a", "f", "d", "e"]) ∧
      ∃ properties, Assoc.find? models "Medley" = some properties ∧
        Assoc.keys properties = ["b", "c", "a", "f", "d", "e"] := by
  have hwf : (Json.obj medley).wellFormed := by decide
  have hinline : combinesInline medley := by decide +kernel
  have hnames : squashedNames (.obj medley) = ["b", "c", "a", "f", "d", "e"] := by decide +kernel
  have hkeys : (flatten (.obj medley)).toOption.map Assoc.keys =
      some [⟨["allOf", "0"]⟩, ⟨["oneOf", "0"]⟩, .root] := by decide +kernel
  have hresolves : ((flatten (.obj medley)).toOption.bind fun schemas =>
      (resolve schemas "Medley").toOption).isSome := by decide +kernel
  cases hflatten : flatten (.obj medley) with
  | error error =>
    rw [hflatten] at hkeys
    cases hkeys
  | ok schemas =>
    rw [hflatten] at hkeys hresolves
    have hlisted : Assoc.keys schemas = _ := Option.some.inj hkeys
    have hroot : SchemaPath.root ∈ Assoc.keys schemas := by
      rw [hlisted]
      decide
    obtain ⟨entry, hentry⟩ := Assoc.exists_find?_of_mem_keys hroot
    cases hmodels : resolve schemas "Medley" with
    | error error =>
      rw [Except.toOption, Option.bind_some, hmodels] at hresolves
      cases hresolves
    | ok models =>
      obtain ⟨hentries, hclasses⟩ := keys_root_of_flattenWithin hwf hinline hflatten hentry
      rw [hnames] at hentries hclasses
      exact ⟨hwf, hinline, hnames, schemas, entry, models, rfl, hlisted, hentry, hmodels, hentries,
        hclasses "Medley" models hmodels⟩

end SchemaClasses.Flatten.Squashing
