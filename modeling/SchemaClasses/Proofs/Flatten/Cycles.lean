import Mathlib.Data.List.Chain
import SchemaClasses.Proofs.Flatten.CombinerFree

/-!
# Cycles are found, and nothing else is reported as one

Main statement (`detects_cycles`): no document without combiners is flattened if a cycle of steps is
reached from its root, and a place that is reported to contain itself does so, by exactly the places
of the chain.

The places that are being walked form a trail of steps from the root (`IsTrail`), so one that is met
again closes a cycle (`isCycle_circular`). What has been walked, on the other hand, is not walked
again, and a cycle could hide there. It does not: when the walk of a place is over, all places that
its steps lead to have been walked, so no endless sequence of steps leads away from it
(`Rests`), and whatever is listed rests. `detects_walk` proves both at once by induction on the
depth.
-/

namespace SchemaClasses.Flatten

open FlattenM

variable {document : Json} {path next : SchemaPath}

/-! ### Places that rest -/

/-- Whether no endless sequence of steps leads away from a place. -/
def Rests (document : Json) (path : SchemaPath) : Prop :=
  Acc (fun next path => Step document path next) path

/-- A place rests once all places that its steps lead to do. -/
theorem rests_of_steps (h : ∀ next, Step document path next → Rests document next) :
    Rests document path :=
  Acc.intro path h

/-- From a place that rests no cycle is reached. -/
theorem Rests.not_cycle (h : Rests document path) {place : SchemaPath}
    (hreach : Reaches document path place) : ¬Relation.TransGen (Step document) place place := by
  induction h with
  | intro path _ ih =>
    intro hcycle
    rcases Relation.ReflTransGen.cases_head hreach with rfl | ⟨next, hstep, hrest⟩
    · obtain ⟨next, hstep, hback⟩ := Relation.TransGen.head'_iff.mp hcycle
      exact ih next hstep hback hcycle
    · exact ih next hstep hrest hcycle

/-- Whether all places that are listed rest. -/
def AllRest (document : Json) (schemas : FlatSchemas) : Prop :=
  ∀ path ∈ Assoc.keys schemas, Rests document path

/-- A place that rests may be listed. -/
theorem AllRest.insert {schemas : FlatSchemas} (h : AllRest document schemas)
    (hpath : Rests document path) (entry : Entries) :
    AllRest document (Assoc.insert schemas path entry) := by
  intro other hother
  rcases Assoc.mem_keys_insert.mp hother with hold | rfl
  · exact h other hold
  · exact hpath

/-! ### Trails -/

/-- Whether places follow each other step by step, and are reached from the root. -/
structure IsTrail (document : Json) (trail : List SchemaPath) : Prop where
  /-- Each place is one step after the one before it. -/
  steps : trail.IsChain (Step document)
  /-- Each place is reached from the root. -/
  reached : ∀ place ∈ trail, Reaches document .root place

/-- The root by itself is a trail. -/
theorem isTrail_root (document : Json) : IsTrail document [.root] where
  steps := List.isChain_singleton _
  reached _ hplace := List.mem_singleton.mp hplace ▸ .refl

/-- A trail goes on with any step from its last place. -/
theorem IsTrail.extend {trail : List SchemaPath} (h : IsTrail document (trail ++ [path]))
    (hstep : Step document path next) : IsTrail document (trail ++ [path] ++ [next]) where
  steps := by
    rw [List.append_assoc]
    exact List.isChain_append_cons_cons.mpr ⟨h.steps, hstep, List.isChain_singleton _⟩
  reached place hplace := by
    rcases List.mem_append.mp hplace with hold | hlast
    · exact h.reached place hold
    · have hpath := h.reached path (List.mem_append_right _ List.mem_cons_self)
      exact List.mem_singleton.mp hlast ▸ hpath.tail hstep

/-- Whether a chain of places leads from a place to itself, step by step. -/
structure IsCycle (document : Json) (path : SchemaPath) (chain : List SchemaPath) : Prop where
  /-- There is at least one step. -/
  length : 2 ≤ chain.length
  /-- The chain starts with the place. -/
  first : chain.head? = some path
  /-- The chain ends with the place. -/
  last : chain.getLast? = some path
  /-- Each place is one step after the one before it. -/
  steps : chain.IsChain (Step document)
  /-- The place is reached from the root. -/
  reached : Reaches document .root path

/-- A place that is met again closes a cycle. -/
theorem isCycle_circular {inProgress : List SchemaPath}
    (htrail : IsTrail document (inProgress ++ [path])) (hmet : path ∈ inProgress) :
    IsCycle document path (inProgress.dropWhile (fun place => place ≠ path) ++ [path]) := by
  obtain ⟨front, back, rfl, hfront⟩ := List.eq_append_cons_of_mem hmet
  have hchain : (front ++ path :: back).dropWhile (fun place => place ≠ path) = path :: back := by
    rw [List.dropWhile_append_of_pos, List.dropWhile_cons_of_neg (by simp)]
    intro place hplace
    exact decide_eq_true fun heq => hfront (heq ▸ hplace)
  rw [hchain]
  have hsteps := htrail.steps
  rw [List.append_assoc] at hsteps
  exact ⟨by simp, rfl, List.getLast?_concat, hsteps.right_of_append,
    htrail.reached path (List.mem_append_right _ List.mem_cons_self)⟩

/-! ### What a walk ends with -/

/-- Whether an error that reports a cycle is right about it. -/
def Truthful (document : Json) (error : FlattenError) : Prop :=
  ∀ path chain, error = .circular path chain → IsCycle document path chain

/-- What the walk of a schema ends with while some places are being walked. -/
def Settles (document : Json) (path : SchemaPath) (inProgress : List SchemaPath) (_ : Walked)
    (after : FlattenState) : Prop :=
  after.inProgress = inProgress ∧ AllRest document after.schemas ∧ Rests document path

/-- Whether a walk below some places that are being walked finds the cycles there are. -/
def Detects (document : Json) (walk : Walker) (inProgress : List SchemaPath) : Prop :=
  ∀ schema path state, state.inProgress = inProgress → AllRest document state.schemas →
    IsTrail document (inProgress ++ [path]) →
    (document.at? path = some schema ∨ path ∈ Assoc.keys state.schemas) →
    Ensures (walk schema path) state (Settles document path inProgress) (Truthful document)

/-! ### The steps of the walk -/

section Steps

variable {walk : Walker} {inProgress : List SchemaPath} {node : Entries} {state : FlattenState}
  (hwalk : Detects document walk (inProgress ++ [path]))
  (hprogress : state.inProgress = inProgress ++ [path]) (hlisted : AllRest document state.schemas)
  (htrail : IsTrail document (inProgress ++ [path]))
  (hnode : document.at? path = some (.obj node))

include hwalk hprogress hlisted htrail hnode

/-- Following a reference finds the cycles behind it. -/
theorem settles_followRef {text : String} (htext : textRef? node = some text) :
    Ensures (followRef document walk (.unresolved text)) state
      (Settles document path (inProgress ++ [path])) (Truthful document) := by
  have hrests : ∀ target, SchemaPath.ofPointer text = .ok target → Rests document target →
      Rests document path := by
    refine fun target hpointer htarget => rests_of_steps fun next hnext => ?_
    obtain rfl := Except.ok.inj (hpointer.symm.trans (hnext.of_ref hnode htext))
    exact htarget
  -- listed or not, the target is one step further
  have htarget : ∀ schema target, SchemaPath.ofPointer text = .ok target →
      (document.at? target = some schema ∨ target ∈ Assoc.keys state.schemas) →
      Ensures (walk schema target) state (Settles document path (inProgress ++ [path]))
        (Truthful document) := by
    intro schema target hpointer hschema
    refine (hwalk schema target state hprogress hlisted
      (htrail.extend (.ref hnode htext hpointer)) hschema).mono (fun walked after h => ?_)
      fun _ h => h
    exact ⟨h.1, h.2.1, hrests target hpointer h.2.2⟩
  exact ensures_followRef (fun _ _ _ => nofun)
    (fun target entry hpointer hentry =>
      htarget _ target hpointer (.inr (Assoc.mem_keys_of_find? hentry)))
    fun target schema hpointer _ hschema => htarget schema target hpointer (.inl hschema)

/-- Flattening an array finds the cycles behind its items. -/
theorem settles_flattenArray (hplain : textRef? node = none) (harray : HasArrayType node) :
    Ensures (flattenArray walk node path) state (Settles document path (inProgress ++ [path]))
      (Truthful document) := by
  have hrests : (∀ items, Assoc.find? node "items" = some items →
      Rests document (path.child "items")) → Rests document path := by
    refine fun hitems => rests_of_steps fun next hnext => ?_
    obtain ⟨items, hfind, rfl⟩ := hnext.of_array hnode hplain harray
    exact hitems items hfind
  refine ensures_flattenArray (fun _ _ _ => nofun) (fun _ _ _ _ => nofun) (fun _ hnone => ?_)
    fun _ items hitems _ => ?_
  · refine ⟨hprogress, hlisted, hrests fun items hitems => ?_⟩
    cases hnone.symm.trans hitems
  · refine (hwalk items _ state hprogress hlisted
      (htrail.extend (.items hnode hplain harray hitems))
      (.inl ((at?_child hnode "items").trans hitems))).mono (fun walked after h => ?_) fun _ h => h
    exact ⟨h.1, h.2.1, hrests fun _ _ => h.2.2⟩

omit hprogress hlisted in
/-- After the walk of some members all of them rest. -/
theorem settles_flattenEntries (hwf : document.wellFormed) {keyword : String} {members : Entries}
    (hmembers : Assoc.find? node keyword = some (.obj members))
    (hsteps : ∀ name ∈ Assoc.keys members, Step document path (path ++ [keyword, name]))
    {rest : Entries} (hrest : ∀ entry ∈ rest, entry ∈ members)
    (hprogress : state.inProgress = inProgress ++ [path])
    (hlisted : AllRest document state.schemas) :
    Ensures (flattenEntries walk path keyword rest) state
      (fun _ after => after.inProgress = inProgress ++ [path] ∧ AllRest document after.schemas ∧
        ∀ name ∈ Assoc.keys rest, Rests document (path ++ [keyword, name]))
      (Truthful document) := by
  induction rest generalizing state with
  | nil => exact ensures_pure ⟨hprogress, hlisted, fun _ h => absurd h List.not_mem_nil⟩
  | cons entry rest ih =>
    obtain ⟨name, member⟩ := entry
    have hmem := hrest _ List.mem_cons_self
    have hat := at?_of_mem_entry hwf hnode hmembers hmem
    refine ensures_flattenEntries_cons ((hwalk member _ state hprogress hlisted
      (htrail.extend (hsteps name (Assoc.mem_keys_of_mem hmem))) (.inl hat)).mono
      (fun walked between h => ?_) fun _ h => h)
    obtain ⟨hprogress', hlisted', hrests⟩ := h
    refine (ih (fun entry hentry => hrest entry (List.mem_cons_of_mem _ hentry)) hprogress'
      hlisted').mono (fun flat after h => ⟨h.1, h.2.1, fun other hother => ?_⟩) fun _ h => h
    rcases List.mem_cons.mp hother with rfl | hlater
    · exact hrests
    · exact h.2.2 other hlater

/-- Flattening an object finds the cycles behind its members. -/
theorem settles_flattenObject (hwf : document.wellFormed) (hplain : textRef? node = none)
    (hobject : HasObjectType node) (hfree : lacksCombiners (.obj node)) :
    Ensures (flattenObject document walk node path) state
      (Settles document path (inProgress ++ [path])) (Truthful document) := by
  refine ensures_flattenObject_of_lacksCombiners hfree (fun _ _ _ => nofun)
    (fun _ members hproperties _ => ?_) (fun _ members hnone hpatterns => ?_)
    fun _ hnone hnone' => ?_
  · refine (settles_flattenEntries hwalk htrail hnode hwf hproperties
      (fun name hname => .property hnode hplain hobject hproperties hname) (fun _ h => h)
      hprogress hlisted).mono (fun flat after h => ?_) fun _ h => h
    obtain ⟨hprogress', hlisted', hmembers⟩ := h
    have hrests : Rests document path := by
      refine rests_of_steps fun next hnext => ?_
      obtain ⟨name, hname, rfl⟩ := hnext.of_properties hnode hplain hobject hproperties
      exact hmembers name hname
    exact ⟨hprogress', hlisted'.insert hrests _, hrests⟩
  · refine (settles_flattenEntries hwalk htrail hnode hwf hpatterns
      (fun name hname => .pattern hnode hplain hobject hnone hpatterns hname) (fun _ h => h)
      hprogress hlisted).mono (fun flat after h => ?_) fun _ h => h
    obtain ⟨hprogress', hlisted', hmembers⟩ := h
    refine ⟨hprogress', hlisted', rests_of_steps fun next hnext => ?_⟩
    obtain ⟨name, hname, rfl⟩ := hnext.of_patterns hnode hplain hobject hnone hpatterns
    exact hmembers name hname
  · exact ⟨hprogress, hlisted, rests_of_steps fun _ hnext =>
      absurd hnext (not_step_of_bare hnode hplain hobject hnone hnone')⟩

end Steps

/-! ### The whole walk -/

/-- The walk finds the cycles there are, at every depth. -/
theorem detects_walk (hwf : document.wellFormed) (hfree : combinerFree document) (depth : Nat)
    (inProgress : List SchemaPath) : Detects document (walk document depth) inProgress := by
  induction depth generalizing inProgress with
  | zero => exact fun _ _ _ _ _ _ _ => ensures_throw nofun
  | succ depth ih =>
    intro schema path state hprogress hlisted htrail hschema
    subst hprogress
    refine ensures_visit (fun hmet => ?_) (fun _ hkey => ⟨rfl, hlisted, hlisted path hkey⟩)
      (fun node hobj hnew hkey => ?_) (fun value hbool _ hkey => ?_) fun _ _ _ _ => nofun
    · rintro _ _ h
      obtain ⟨rfl, rfl⟩ := FlattenError.circular.inj h
      exact isCycle_circular htrail hmet
    · subst hobj
      have hnode := hschema.resolve_right hkey
      have hbelow := ih (state.inProgress ++ [path])
      have hprogress : ({ state with inProgress := state.inProgress ++ [path] } :
          FlattenState).inProgress = state.inProgress ++ [path] := rfl
      have hdone : ∀ walked after,
          Settles document path (state.inProgress ++ [path]) walked after →
          Settles document path state.inProgress walked
            { after with inProgress := after.inProgress.erase path } := by
        rintro walked after ⟨hprogress, hrest⟩
        exact ⟨(congrArg (·.erase path) hprogress).trans (erase_last hnew), hrest⟩
      refine Ensures.mono ?_ hdone fun _ h => h
      refine ensures_flattenSchema (fun reference href => ?_) (fun href hshape => ?_)
        (fun href hshape => ?_) fun href hshape => ?_
      · obtain ⟨text, htext, rfl⟩ := Option.map_eq_some_iff.mp href
        exact settles_followRef hbelow hprogress hlisted htrail hnode htext
      · exact settles_flattenObject hbelow hprogress hlisted htrail hnode hwf
          (Option.map_eq_none_iff.mp href) (ofSchema_eq_object.mp hshape)
          (lacksCombiners_of_at? hnode hfree)
      · exact settles_flattenArray hbelow hprogress hlisted htrail hnode
          (Option.map_eq_none_iff.mp href) (ofSchema_eq_array.mp hshape)
      · exact ⟨rfl, hlisted, rests_of_steps fun _ hnext =>
          absurd hnext (not_step_of_other hnode (Option.map_eq_none_iff.mp href) hshape)⟩
    · subst hbool
      exact ⟨rfl, hlisted, rests_of_steps fun _ hnext =>
        absurd hnext (not_step_of_bool (hschema.resolve_right hkey))⟩

/-- Without combiners a document is refused if a cycle is reached from its root, whatever depth the
walk is given, and a cycle that is reported is there. -/
theorem detects_cycles (hwf : document.wellFormed) (hfree : combinerFree document) (depth : Nat) :
    (∀ path, Reaches document .root path → Relation.TransGen (Step document) path path →
      ∀ schemas, flattenWithin depth document ≠ .ok schemas) ∧
    ∀ path chain, flattenWithin depth document = .error (.circular path chain) →
      IsCycle document path chain := by
  have hroot : Ensures (walk document depth document .root) {} (Settles document .root [])
      (Truthful document) :=
    detects_walk hwf hfree depth [] document .root {} rfl (fun _ h => absurd h List.not_mem_nil)
      (isTrail_root document) (.inl rfl)
  refine ⟨fun path hreach hcycle schemas hok => ?_, fun path chain herror => ?_⟩
  · obtain ⟨walked, after, hrun, -⟩ := exists_run_of_flattenWithin hok
    exact (hroot.of_eq_ok hrun).2.2.not_cycle hreach hcycle
  · by_cases hobject : document.isObject
    · rw [flattenWithin_eq hobject] at herror
      cases hrun : (walk document depth document .root).run {} with
      | ok result => rw [hrun] at herror; cases herror
      | error error =>
        rw [hrun] at herror
        exact hroot.of_eq_error hrun path chain (Except.error.inj herror)
    · unfold flattenWithin at herror
      rw [if_neg hobject] at herror
      cases herror

/-- A schema whose property holds a list of the same schema. -/
def selfListing : Json :=
  .obj [
    ("properties", .obj [("first", .obj [(refKey, .str "#/definitions/node")])]),
    ("definitions", .obj [("node", .obj [("properties", .obj [
      ("next", .obj [(typeKey, .str "array"),
        ("items", .obj [(refKey, .str "#/definitions/node")])])])])])]

/-- The list is reported with the places in between. -/
theorem detects_cycles_selfListing : selfListing.wellFormed ∧ combinerFree selfListing ∧
    ∃ path chain, flatten selfListing = .error (.circular path chain) ∧
      chain = [⟨["definitions", "node"]⟩, ⟨["definitions", "node", "properties", "next"]⟩,
        ⟨["definitions", "node", "properties", "next", "items"]⟩, ⟨["definitions", "node"]⟩] ∧
      IsCycle selfListing path chain ∧
      ∀ path, Reaches selfListing .root path →
        Relation.TransGen (Step selfListing) path path →
        ∀ schemas, flatten selfListing ≠ .ok schemas := by
  have hwf : selfListing.wellFormed := by decide
  have hfree : combinerFree selfListing := by decide
  obtain ⟨hrefused, hreported⟩ := detects_cycles hwf hfree (depthBound selfListing)
  have hchain : (match flatten selfListing with
      | .error (.circular _ chain) => some chain
      | _ => none) =
      some [⟨["definitions", "node"]⟩, ⟨["definitions", "node", "properties", "next"]⟩,
        ⟨["definitions", "node", "properties", "next", "items"]⟩, ⟨["definitions", "node"]⟩] := by
    decide +kernel
  refine ⟨hwf, hfree, ?_⟩
  split at hchain
  · rename_i path chain herror
    exact ⟨path, chain, herror, Option.some.inj hchain, hreported path chain herror, hrefused⟩
  · cases hchain

end SchemaClasses.Flatten
