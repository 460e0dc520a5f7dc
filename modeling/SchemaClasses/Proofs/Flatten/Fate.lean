import Mathlib.Logic.Relation
import SchemaClasses.Proofs.Flatten.Growth
import SchemaClasses.Proofs.Json.References

/-!
# What becomes of a schema by itself

The walk keeps a table, and what it makes of a schema may depend on what is in there. `Becomes` says
what should become of it: a relation between a schema at a place and its `Fate` that knows the
document but no table. A reference of the document leads to the value at the place that it names,
and a reference that the walk itself has made names a listed place. The schemas that a schema
consists of have fates of their own, and the combiners are folded and the result is settled
according to these (`foldAll`, `settle`).

There is one fate at most (`Becomes.unique`). `Calls` says which walks the walk of a schema calls
for, and whether for a member of a combiner, whose entry may leave the table again, or for a schema
that is listed in its own right.
-/

namespace SchemaClasses.Flatten

/-! ### Fates -/

/-- What becomes of a schema at a place. -/
inductive Fate where
  /-- It is listed there. -/
  | listed (entry : Entries)
  /-- It refers to a schema that is listed elsewhere. -/
  | refers (target : SchemaPath)
  /-- It stays where it is. -/
  | inPlace (schema : Json)

namespace Fate

/-- What the walk of a schema at a place ends with. -/
def walked (path : SchemaPath) : Fate → Walked
  | listed _ => .canonical path
  | refers target => .canonical target
  | inPlace schema => .inPlace schema

/-- What the holder of a schema at a place holds after the walk. -/
def toJson (path : SchemaPath) (fate : Fate) : Json :=
  (fate.walked path).toJson

/-- What a member of a combiner contributes to the schema around it. -/
def contribution : Fate → Json
  | listed entry => .obj entry
  | refers target => (Reference.canonical target).toSchema
  | inPlace schema => schema

/-- What becomes of a reference to a schema at a place. -/
def seenFrom (target : SchemaPath) : Fate → Fate
  | listed _ => .refers target
  | refers other => .refers other
  | inPlace schema => .inPlace schema

/-- Seen from a reference, a schema ends where it stands itself. -/
theorem walked_seenFrom (target path : SchemaPath) (fate : Fate) :
    (fate.seenFrom target).walked path = fate.walked target := by
  cases fate <;> rfl

/-- A schema that is not listed at its place contributes what stands in its place. -/
theorem contribution_eq_toJson {path : SchemaPath} {fate : Fate}
    (hne : fate.walked path ≠ .canonical path) :
    fate.contribution = (fate.walked path).toJson := by
  cases fate with
  | listed entry => exact absurd rfl hne
  | refers target => rfl
  | inPlace schema => rfl

end Fate

/-- The fates of schemas at places. -/
abbrev Fates := SchemaPath → Json → Fate

/-- A schema at a place. -/
abbrev Site := SchemaPath × Json

/-! ### What a schema consists of -/

/-- The keywords of tables of schemas. -/
def tables : List String := ["properties", "patternProperties"]

/-- The keywords of tables are `properties` and `patternProperties`. -/
theorem mem_tables_iff {keyword : String} :
    keyword ∈ tables ↔ keyword = "properties" ∨ keyword = "patternProperties" := by
  simp [tables]

/-- The members of some combiners of a schema. -/
def membersUnder (path : SchemaPath) (node : Entries) (keywords : List String) : List Site :=
  keywords.flatMap fun combiner =>
    match Assoc.find? node combiner with
    | some (.arr members) => memberPlaces path combiner 0 members
    | _ => []

/-- The members of the combiners of a schema. -/
abbrev membersOf (path : SchemaPath) (node : Entries) : List Site :=
  membersUnder path node combiners

/-- The schemas in the tables of a schema. -/
def schemasOf (path : SchemaPath) (node : Entries) : List Site :=
  tables.flatMap fun keyword =>
    match Assoc.find? node keyword with
    | some (.obj members) => members.map fun entry => (path ++ [keyword, entry.1], entry.2)
    | _ => []

/-- A combiner that a schema does not have contributes no members. -/
theorem membersUnder_of_none {path : SchemaPath} {node : Entries} {combiner : String}
    {rest : List String} (h : Assoc.find? node combiner = none) :
    membersUnder path node (combiner :: rest) = membersUnder path node rest := by
  rw [membersUnder, List.flatMap_cons, h]
  rfl

/-- A combiner contributes its members, before those of the combiners behind it. -/
theorem membersUnder_of_arr {path : SchemaPath} {node : Entries} {combiner : String}
    {rest : List String} {members : List Json}
    (h : Assoc.find? node combiner = some (.arr members)) :
    membersUnder path node (combiner :: rest) =
      memberPlaces path combiner 0 members ++ membersUnder path node rest := by
  rw [membersUnder, List.flatMap_cons, h]
  rfl

/-- The members of some combiners are those of each of them. -/
theorem mem_membersUnder {path : SchemaPath} {node : Entries} {keywords : List String}
    {site : Site} :
    site ∈ membersUnder path node keywords ↔ ∃ combiner ∈ keywords, ∃ members,
      Assoc.find? node combiner = some (.arr members) ∧
        site ∈ memberPlaces path combiner 0 members := by
  rw [membersUnder, List.mem_flatMap]
  refine exists_congr fun combiner => and_congr_right fun _ => ⟨fun h => ?_, ?_⟩
  · split at h
    · rename_i members hmembers
      exact ⟨members, hmembers, h⟩
    · cases h
  · rintro ⟨members, hmembers, h⟩
    rw [hmembers]
    exact h

/-- The schemas in the tables of a schema are those of both tables. -/
theorem mem_schemasOf {path : SchemaPath} {node : Entries} {site : Site} :
    site ∈ schemasOf path node ↔ ∃ keyword ∈ tables, ∃ members,
      Assoc.find? node keyword = some (.obj members) ∧ ∃ entry ∈ members,
        site = (path ++ [keyword, entry.1], entry.2) := by
  rw [schemasOf, List.mem_flatMap]
  refine exists_congr fun keyword => and_congr_right fun _ => ⟨fun h => ?_, ?_⟩
  · split at h
    · rename_i members hmembers
      obtain ⟨entry, hentry, rfl⟩ := List.mem_map.mp h
      exact ⟨members, hmembers, entry, hentry, rfl⟩
    · cases h
  · rintro ⟨members, hmembers, entry, hentry, rfl⟩
    rw [hmembers]
    exact List.mem_map_of_mem hentry

/-! ### Folding and settling -/

section Folding

variable (path : SchemaPath) (fates : Fates)

/-- Merges what a member contributes, unless there is a disagreement. -/
def foldFate (node : Entries) (member : Site) : Option Entries :=
  match (fates member.1 member.2).contribution with
  | .obj source =>
    match (merge node source path).conflict with
    | none => some (merge node source path).value
    | some _ => none
  | _ => some node

/-- Drops a combiner for the members that it had at first. -/
def foldCombinerFate (origin node : Entries) (combiner : String) : Option Entries :=
  match Assoc.find? origin combiner with
  | none => some node
  | some (.arr members) =>
    (memberPlaces path combiner 0 members).foldlM (foldFate path fates)
      (Assoc.swapErase node combiner)
  | some _ => none

/-- Folds all combiners of a schema. -/
def foldAll (origin : Entries) : Option Entries :=
  combiners.foldlM (foldCombinerFate path fates origin) origin

/-- The schemas of a table after their walks. -/
def flatTable (keyword : String) (members : Entries) : Entries :=
  members.map fun entry => (entry.1,
    (fates (path ++ [keyword, entry.1]) entry.2).toJson (path ++ [keyword, entry.1]))

/-- A table keeps its names in their order. -/
theorem keys_flatTable (keyword : String) (members : Entries) :
    Assoc.keys (flatTable path fates keyword members) = Assoc.keys members := by
  rw [flatTable, Assoc.keys, List.map_map]
  rfl

/-- What is found under a name is what has become of its schema. -/
theorem find?_flatTable (keyword : String) (members : Entries) (name : String) :
    Assoc.find? (flatTable path fates keyword members) name =
      (Assoc.find? members name).map fun schema =>
        (fates (path ++ [keyword, name]) schema).toJson (path ++ [keyword, name]) :=
  Assoc.find?_map (fun name schema =>
    (fates (path ++ [keyword, name]) schema).toJson (path ++ [keyword, name])) members name

/-- What becomes of a schema whose combiners are folded. -/
def settle (folded : Entries) : Option Fate :=
  match Assoc.find? folded "properties", Assoc.find? folded "patternProperties" with
  | some (.obj members), none =>
    some (.listed (Assoc.insert folded "properties"
      (.obj (flatTable path fates "properties" members))))
  | none, some (.obj members) =>
    some (.inPlace (.obj (Assoc.insert folded "patternProperties"
      (.obj (flatTable path fates "patternProperties" members)))))
  | none, none => some (.inPlace (.obj folded))
  | _, _ => none

/-- What becomes of an array schema. -/
def settleArray (node : Entries) : Fate :=
  match Assoc.find? node "items" with
  | none => .inPlace (.obj node)
  | some items => .inPlace (.obj (Assoc.insert node "items"
      ((fates (path.child "items") items).toJson (path.child "items"))))

end Folding

section Congruence

variable {path : SchemaPath} {fates fates' : Fates}

/-- Steps that agree on the items of a list agree on the list. -/
theorem foldlM_congr {α β : Type} {f g : β → α → Option β} {items : List α}
    (h : ∀ item ∈ items, ∀ b, f b item = g b item) (b : β) :
    items.foldlM f b = items.foldlM g b := by
  induction items generalizing b with
  | nil => rfl
  | cons first rest ih =>
    rw [List.foldlM_cons, List.foldlM_cons, h first List.mem_cons_self]
    exact congrArg _ (funext fun between =>
      ih (fun item hitem => h item (List.mem_cons_of_mem _ hitem)) between)

/-- What comes of folding depends on the fates of the members. -/
theorem foldAll_congr {origin : Entries}
    (h : ∀ member ∈ membersOf path origin, fates member.1 member.2 = fates' member.1 member.2) :
    foldAll path fates origin = foldAll path fates' origin := by
  refine foldlM_congr (fun combiner hcombiner node => ?_) origin
  unfold foldCombinerFate
  split
  · rfl
  · rename_i members hmembers
    refine foldlM_congr (fun member hmember between => ?_) _
    have hfate := h member (mem_membersUnder.mpr ⟨combiner, hcombiner, members, hmembers, hmember⟩)
    rw [foldFate, foldFate, hfate]
  · rfl

/-- Settling a schema depends only on what becomes of the schemas in its tables. -/
theorem settle_congr {folded : Entries}
    (h : ∀ site ∈ schemasOf path folded, fates site.1 site.2 = fates' site.1 site.2) :
    settle path fates folded = settle path fates' folded := by
  have hflat : ∀ keyword ∈ tables, ∀ members, Assoc.find? folded keyword = some (.obj members) →
      flatTable path fates keyword members = flatTable path fates' keyword members := by
    intro keyword hkeyword members hmembers
    refine List.map_congr_left fun entry hentry => ?_
    rw [h _ (mem_schemasOf.mpr ⟨keyword, hkeyword, members, hmembers, entry, hentry, rfl⟩)]
  unfold settle
  split
  · rename_i members hmembers _
    rw [hflat _ (by decide) members hmembers]
  · rename_i members _ hmembers
    rw [hflat _ (by decide) members hmembers]
  · rfl
  · rfl

/-- Settling an array depends only on what becomes of its items. -/
theorem settleArray_congr {node : Entries}
    (h : ∀ items, Assoc.find? node "items" = some items →
      fates (path.child "items") items = fates' (path.child "items") items) :
    settleArray path fates node = settleArray path fates' node := by
  unfold settleArray
  split
  · rfl
  · rename_i items hitems
    rw [h items hitems]

end Congruence

/-! ### What becomes of a schema -/

/-- Whether a reference of a document leads to a place in it. -/
def Named (document : Json) (target : SchemaPath) : Prop :=
  (∃ place text, (place, text) ∈ document.refs ∧ SchemaPath.ofPointer text = .ok target) ∧
    (document.at? target).isSome

/-- What becomes of a schema at a place. -/
inductive Becomes (document : Json) : SchemaPath → Json → Fate → Prop where
  /-- A reference of the document is followed. -/
  | follow {path target : SchemaPath} {node : Entries} {text : String} {schema : Json} {fate : Fate}
      (htext : textRef? node = some text) (htarget : SchemaPath.ofPointer text = .ok target)
      (hnamed : Named document target) (hschema : document.at? target = some schema)
      (hfate : Becomes document target schema fate) :
      Becomes document path (.obj node) (fate.seenFrom target)
  /-- Any other reference names a listed place. -/
  | refer {path target : SchemaPath} {node : Entries} {text : String}
      (htext : textRef? node = some text) (htarget : SchemaPath.ofPointer text = .ok target)
      (hother : ¬Named document target) : Becomes document path (.obj node) (.refers target)
  /-- A truth value stays the same. -/
  | bool {path : SchemaPath} {value : Bool} :
      Becomes document path (.bool value) (.inPlace (.bool value))
  /-- So does a schema that is neither object nor array. -/
  | other {path : SchemaPath} {node : Entries} (hplain : textRef? node = none)
      (hshape : Shape.ofSchema node = .other) :
      Becomes document path (.obj node) (.inPlace (.obj node))
  /-- The items of an array have a fate. -/
  | array {path : SchemaPath} {node : Entries} {fates : Fates} (hplain : textRef? node = none)
      (hshape : Shape.ofSchema node = .array)
      (hitems : ∀ items, Assoc.find? node "items" = some items →
        Becomes document (path.child "items") items (fates (path.child "items") items)) :
      Becomes document path (.obj node) (settleArray path fates node)
  /-- The combiners of an object are folded according to the fates of their members, and then it is
  settled according to those of the schemas in its tables. -/
  | object {path : SchemaPath} {node folded : Entries} {fates : Fates} {fate : Fate}
      (hplain : textRef? node = none) (hshape : Shape.ofSchema node = .object)
      (hmembers : ∀ site ∈ membersOf path node,
        Becomes document site.1 site.2 (fates site.1 site.2))
      (hfold : foldAll path fates node = some folded)
      (hschemas : ∀ site ∈ schemasOf path folded,
        Becomes document site.1 site.2 (fates site.1 site.2))
      (hsettle : settle path fates folded = some fate) : Becomes document path (.obj node) fate

section Unique

variable {document : Json} {path target : SchemaPath} {schema : Json} {node : Entries}
  {text : String} {fate fate' : Fate}

/-- What becomes of a reference is what becomes of its target, or it is no reference of the
document. -/
theorem Becomes.of_textRef? (h : Becomes document path (.obj node) fate)
    (htext : textRef? node = some text) (htarget : SchemaPath.ofPointer text = .ok target) :
    (Named document target ∧ ∃ schema below, document.at? target = some schema ∧
      Becomes document target schema below ∧ fate = below.seenFrom target) ∨
    ¬Named document target ∧ fate = .refers target := by
  cases h with
  | follow htext' htarget' hnamed hschema hfate =>
    obtain rfl := Option.some.inj (htext'.symm.trans htext)
    obtain rfl := Except.ok.inj (htarget'.symm.trans htarget)
    exact .inl ⟨hnamed, _, _, hschema, hfate, rfl⟩
  | refer htext' htarget' hother =>
    obtain rfl := Option.some.inj (htext'.symm.trans htext)
    obtain rfl := Except.ok.inj (htarget'.symm.trans htarget)
    exact .inr ⟨hother, rfl⟩
  | other hplain => cases hplain.symm.trans htext
  | array hplain => cases hplain.symm.trans htext
  | object hplain => cases hplain.symm.trans htext

/-- A schema that is neither an array nor an object stays in place. -/
theorem Becomes.of_other (h : Becomes document path (.obj node) fate)
    (hplain : textRef? node = none) (hshape : Shape.ofSchema node = .other) :
    fate = .inPlace (.obj node) := by
  cases h with
  | follow htext => cases hplain.symm.trans htext
  | refer htext => cases hplain.symm.trans htext
  | other => rfl
  | array _ hshape' => cases hshape.symm.trans hshape'
  | object _ hshape' => cases hshape.symm.trans hshape'

/-- An array becomes what it is settled to once its items have a fate. -/
theorem Becomes.of_array (h : Becomes document path (.obj node) fate)
    (hplain : textRef? node = none) (hshape : Shape.ofSchema node = .array) :
    ∃ fates, (∀ items, Assoc.find? node "items" = some items →
        Becomes document (path.child "items") items (fates (path.child "items") items)) ∧
      fate = settleArray path fates node := by
  cases h with
  | follow htext => cases hplain.symm.trans htext
  | refer htext => cases hplain.symm.trans htext
  | other _ hshape' => cases hshape.symm.trans hshape'
  | array _ _ hitems => exact ⟨_, hitems, rfl⟩
  | object _ hshape' => cases hshape.symm.trans hshape'

/-- An object becomes what it is settled to once its members and then its schemas have fates. -/
theorem Becomes.of_object (h : Becomes document path (.obj node) fate)
    (hplain : textRef? node = none) (hshape : Shape.ofSchema node = .object) :
    ∃ fates folded, (∀ site ∈ membersOf path node,
        Becomes document site.1 site.2 (fates site.1 site.2)) ∧
      foldAll path fates node = some folded ∧
      (∀ site ∈ schemasOf path folded, Becomes document site.1 site.2 (fates site.1 site.2)) ∧
      settle path fates folded = some fate := by
  cases h with
  | follow htext => cases hplain.symm.trans htext
  | refer htext => cases hplain.symm.trans htext
  | other _ hshape' => cases hshape.symm.trans hshape'
  | array _ hshape' => cases hshape.symm.trans hshape'
  | object _ _ hmembers hfold hschemas hsettle => exact ⟨_, _, hmembers, hfold, hschemas, hsettle⟩

/-- A schema has one fate at most. -/
theorem Becomes.unique (h : Becomes document path schema fate)
    (h' : Becomes document path schema fate') : fate = fate' := by
  induction h generalizing fate' with
  | follow htext htarget hnamed hschema _ ih =>
    rcases h'.of_textRef? htext htarget with ⟨-, _, _, hschema', hfate', rfl⟩ | ⟨hother, -⟩
    · obtain rfl := Option.some.inj (hschema.symm.trans hschema')
      rw [ih hfate']
    · exact absurd hnamed hother
  | refer htext htarget hother =>
    rcases h'.of_textRef? htext htarget with ⟨hnamed, -⟩ | ⟨-, rfl⟩
    · exact absurd hnamed hother
    · rfl
  | bool =>
    cases h' with
    | bool => rfl
  | other hplain hshape => exact (h'.of_other hplain hshape).symm
  | array hplain hshape _ ih =>
    obtain ⟨fates', hitems', rfl⟩ := h'.of_array hplain hshape
    exact settleArray_congr fun items hitems => ih items hitems (hitems' items hitems)
  | object hplain hshape _ hfold _ hsettle ihmembers ihschemas =>
    obtain ⟨fates', folded', hmembers', hfold', hschemas', hsettle'⟩ :=
      h'.of_object hplain hshape
    rw [foldAll_congr fun site hsite => ihmembers site hsite (hmembers' site hsite)] at hfold
    obtain rfl := Option.some.inj (hfold.symm.trans hfold')
    rw [settle_congr fun site hsite => ihschemas site hsite (hschemas' site hsite)] at hsettle
    exact Option.some.inj (hsettle.symm.trans hsettle')

end Unique

/-! ### The fates of all schemas -/

section FateOf

variable {document : Json} {path : SchemaPath} {schema : Json} {node folded : Entries} {fate : Fate}

open Classical in
/-- The fate of a schema at a place, if it has one. -/
noncomputable def fateOf (document : Json) : Fates := fun path schema =>
  if h : ∃ fate, Becomes document path schema fate then h.choose else .inPlace .null

/-- The fate of a schema is what it becomes. -/
theorem Becomes.fateOf_eq (h : Becomes document path schema fate) :
    fateOf document path schema = fate := by
  have hsome : ∃ fate, Becomes document path schema fate := ⟨fate, h⟩
  rw [fateOf, dif_pos hsome]
  exact hsome.choose_spec.unique h

/-- If a schema becomes anything, it becomes its fate. -/
theorem becomes_fateOf (h : ∃ fate, Becomes document path schema fate) :
    Becomes document path schema (fateOf document path schema) := by
  obtain ⟨fate, hfate⟩ := h
  exact hfate.fateOf_eq ▸ hfate

/-- Whether all members of the combiners of a schema have fates, and folding the combiners according
to these leaves a schema. -/
structure Folds (document : Json) (path : SchemaPath) (node folded : Entries) : Prop where
  members : ∀ site ∈ membersOf path node, ∃ fate, Becomes document site.1 site.2 fate
  eq_some : foldAll path (fateOf document) node = some folded

/-- There is only one way in which the combiners of a schema can be folded. -/
theorem Folds.unique {folded' : Entries} (h : Folds document path node folded)
    (h' : Folds document path node folded') : folded = folded' :=
  Option.some.inj (h.eq_some.symm.trans h'.eq_some)

/-- An object becomes what its fold is settled to, each schema in it according to its fate. -/
theorem Folds.becomes (h : Folds document path node folded) (hplain : textRef? node = none)
    (hshape : Shape.ofSchema node = .object)
    (hschemas : ∀ site ∈ schemasOf path folded, ∃ fate, Becomes document site.1 site.2 fate)
    (hsettle : settle path (fateOf document) folded = some fate) :
    Becomes document path (.obj node) fate :=
  .object hplain hshape (fun site hsite => becomes_fateOf (h.members site hsite)) h.eq_some
    (fun site hsite => becomes_fateOf (hschemas site hsite)) hsettle

/-- The fate of an object is what comes of settling what is left when its combiners are folded. -/
theorem Becomes.exists_folds (h : Becomes document path (.obj node) fate)
    (hplain : textRef? node = none) (hshape : Shape.ofSchema node = .object) :
    ∃ folded, Folds document path node folded ∧
      settle path (fateOf document) folded = some fate := by
  obtain ⟨fates, folded, hmembers, hfold, hschemas, hsettle⟩ := h.of_object hplain hshape
  refine ⟨folded, ⟨fun site hsite => ⟨_, hmembers site hsite⟩, ?_⟩, ?_⟩
  · exact (foldAll_congr fun site hsite => (hmembers site hsite).fateOf_eq).trans hfold
  · exact (settle_congr fun site hsite => (hschemas site hsite).fateOf_eq).trans hsettle

end FateOf

/-! ### Which walks a walk calls for -/

/-- What the walk of a schema is called for. -/
inductive Role where
  /-- To fold what becomes of it into the schema around it. -/
  | member
  /-- For its own sake. -/
  | own

/-- Whether the walk of one schema calls for that of another. -/
inductive Calls (document : Json) : Role → Site → Site → Prop where
  /-- The target of a reference of the document. -/
  | target {path target : SchemaPath} {node : Entries} {text : String} {schema : Json}
      (htext : textRef? node = some text) (htarget : SchemaPath.ofPointer text = .ok target)
      (hnamed : Named document target) (hschema : document.at? target = some schema) :
      Calls document .own (path, .obj node) (target, schema)
  /-- The items of an array. -/
  | items {path : SchemaPath} {node : Entries} {items : Json} (hplain : textRef? node = none)
      (hshape : Shape.ofSchema node = .array) (hitems : Assoc.find? node "items" = some items) :
      Calls document .own (path, .obj node) (path.child "items", items)
  /-- A member of a combiner. -/
  | member {path : SchemaPath} {node : Entries} {site : Site} (hplain : textRef? node = none)
      (hshape : Shape.ofSchema node = .object) (hmember : site ∈ membersOf path node) :
      Calls document .member (path, .obj node) site
  /-- A schema in one of the tables that are there once the combiners are folded. -/
  | schema {path : SchemaPath} {node folded members : Entries} {keyword name : String}
      {schema : Json} (hplain : textRef? node = none) (hshape : Shape.ofSchema node = .object)
      (hfolds : Folds document path node folded) (hkeyword : keyword ∈ tables)
      (hmembers : Assoc.find? folded keyword = some (.obj members))
      (hschema : Assoc.find? members name = some schema) :
      Calls document .own (path, .obj node) (path ++ [keyword, name], schema)

section Calls

variable {document : Json} {role : Role} {path target : SchemaPath} {node : Entries}
  {text : String} {next : Site} (h : Calls document role (path, .obj node) next)

include h

/-- A reference calls for its target. -/
theorem Calls.of_textRef? (htext : textRef? node = some text)
    (htarget : SchemaPath.ofPointer text = .ok target) :
    role = .own ∧ Named document target ∧
      ∃ schema, document.at? target = some schema ∧ next = (target, schema) := by
  cases h with
  | target htext' htarget' hnamed hschema =>
    obtain rfl := Option.some.inj (htext.symm.trans htext')
    obtain rfl := Except.ok.inj (htarget.symm.trans htarget')
    exact ⟨rfl, hnamed, _, hschema, rfl⟩
  | items hplain => cases hplain.symm.trans htext
  | member hplain => cases hplain.symm.trans htext
  | schema hplain => cases hplain.symm.trans htext

variable (hplain : textRef? node = none)

include hplain

/-- An array calls for its items. -/
theorem Calls.of_array (hshape : Shape.ofSchema node = .array) :
    role = .own ∧ ∃ items, Assoc.find? node "items" = some items ∧
      next = (path.child "items", items) := by
  cases h with
  | target htext => cases hplain.symm.trans htext
  | items _ _ hitems => exact ⟨rfl, _, hitems, rfl⟩
  | member _ hshape' => cases hshape.symm.trans hshape'
  | schema _ hshape' => cases hshape.symm.trans hshape'

/-- An object calls for the members of its combiners and, once they are folded, for the schemas in
its tables. -/
theorem Calls.of_object (hshape : Shape.ofSchema node = .object) :
    role = .member ∧ next ∈ membersOf path node ∨
      role = .own ∧ ∃ folded keyword members name schema, Folds document path node folded ∧
        keyword ∈ tables ∧ Assoc.find? folded keyword = some (.obj members) ∧
        Assoc.find? members name = some schema ∧ next = (path ++ [keyword, name], schema) := by
  cases h with
  | target htext => cases hplain.symm.trans htext
  | items _ hshape' => cases hshape.symm.trans hshape'
  | member _ _ hmember => exact .inl ⟨rfl, hmember⟩
  | schema _ _ hfolds hkeyword hmembers hschema =>
    exact .inr ⟨rfl, _, _, _, _, _, hfolds, hkeyword, hmembers, hschema, rfl⟩

/-- Any other schema calls for nothing. -/
theorem Calls.shape_ne_other : Shape.ofSchema node ≠ .other := by
  intro hshape
  cases h with
  | target htext => cases hplain.symm.trans htext
  | items _ hshape' => cases hshape.symm.trans hshape'
  | member _ hshape' => cases hshape.symm.trans hshape'
  | schema _ hshape' => cases hshape.symm.trans hshape'

end Calls

/-- Whether the walk of one schema leads to that of another. -/
abbrev Needs (document : Json) : Site → Site → Prop :=
  Relation.ReflTransGen fun site next => ∃ role, Calls document role site next

/-- Whether the walk of the document leads to that of a schema. -/
abbrev Visited (document : Json) : Site → Prop :=
  Needs document (.root, document)

/-- Whether the walk of the document leads to that of a schema for its own sake. -/
def Owned (document : Json) (site : Site) : Prop :=
  site = (.root, document) ∨ ∃ before, Visited document before ∧ Calls document .own before site

/-- A schema that the walk leads to for its own sake is one that it leads to. -/
theorem Owned.visited {document : Json} {site : Site} (h : Owned document site) :
    Visited document site := by
  rcases h with rfl | ⟨before, hbefore, hcall⟩
  · exact .refl
  · exact hbefore.tail ⟨_, hcall⟩

/-- Whether a schema is listed. -/
def GetsListed (document : Json) (site : Site) : Prop :=
  ∃ entry, Becomes document site.1 site.2 (.listed entry)

/-- Whether all that is listed for its own sake in the course of the walk of a schema is listed at
one of some places. -/
def ListsAt (document : Json) (keys : List SchemaPath) (site : Site) : Prop :=
  ∀ between next, Needs document site between → Calls document .own between next →
    GetsListed document next → next.1 ∈ keys

section ListsAt

variable {document : Json} {keys more : List SchemaPath} {site : Site}

/-- More places may be listed. -/
theorem ListsAt.mono (hsubset : keys ⊆ more) (h : ListsAt document keys site) :
    ListsAt document more site :=
  fun between next hneeds hcall hlisted => hsubset (h between next hneeds hcall hlisted)

/-- All that a walk needs is listed if that holds of each walk it calls for, and of the place of
that walk. -/
theorem listsAt_of_calls (h : ∀ role next, Calls document role site next →
      ListsAt document keys next ∧ (role = .own → GetsListed document next → next.1 ∈ keys)) :
    ListsAt document keys site := by
  intro between next hneeds hcall hlisted
  rcases hneeds.cases_head with rfl | ⟨first, ⟨role, hfirst⟩, hrest⟩
  · exact (h _ _ hcall).2 rfl hlisted
  · exact (h _ _ hfirst).1 between next hrest hcall hlisted

end ListsAt

end SchemaClasses.Flatten
