import SchemaClasses.Proofs.Flatten.Fated
import SchemaClasses.Proofs.Flatten.Followed

/-!
# Walks that go on

`Carries` says of a walk that it goes on from any table and that something holds of the schema
afterwards. Main statement (`carries_visit`): the walk of a schema goes on if the walks of all
schemas do that it calls for.

Whether a walk goes on depends on the schema itself only if it has no fate or a check stops it
(`Fit`). Everything else is given: which errors are allowed, what may be being walked meanwhile, and
what is to hold. The table is known to be that of a faithful document whose references all lead to
values (`trust`), so a reference leads somewhere, and what has been listed on the way is what the
walk itself would have listed.
-/

namespace SchemaClasses.Flatten

open FlattenM

/-- What is known at the stages of the walk of a faithful document whose references lead to
values. -/
abbrev trust (document : Json) : Invariant :=
  (faith document).and (leading document)

/-! ### Schemas that can be walked -/

/-- Whether the checks that are made of a schema itself let it pass. -/
structure Admitted (document : Json) (site : Site) : Prop where
  /-- An array allows for no items but the declared ones. -/
  items : ∀ node, site.2 = .obj node → textRef? node = none → Shape.ofSchema node = .array →
    isOn node "additionalItems" = false
  /-- An object whose combiners are folded allows for no properties but the declared ones. -/
  properties : ∀ node folded, site.2 = .obj node → textRef? node = none →
    Shape.ofSchema node = .object → Folds document site.1 node folded →
    isOn folded "additionalProperties" = false

/-- Whether a schema can be walked as far as it depends on itself. -/
structure Fit (document : Json) (site : Site) : Prop where
  fate : ∃ fate, Becomes document site.1 site.2 fate
  admitted : Admitted document site

section Fit

variable {document : Json} {path : SchemaPath} {node folded : Entries} {fate : Fate}

/-- What does not depend on the schema itself is not checked. -/
theorem admitted_of_forall {site : Site} (h : ∀ node, site.2 = .obj node →
      textRef? node = none → Shape.ofSchema node = .other) : Admitted document site where
  items node hobj hplain hshape := by cases (h node hobj hplain).symm.trans hshape
  properties node folded hobj hplain hshape := by cases (h node hobj hplain).symm.trans hshape

/-- Of an object only what is left when its combiners are folded is checked. -/
theorem admitted_of_folds (hshape : Shape.ofSchema node = .object)
    (hfolds : Folds document path node folded)
    (hoff : isOn folded "additionalProperties" = false) : Admitted document (path, .obj node) where
  items other hobj _ harray := by
    obtain rfl := Json.obj.inj hobj
    cases hshape.symm.trans harray
  properties other folded' hobj _ _ hfolds' := by
    obtain rfl := Json.obj.inj hobj
    exact hfolds.unique hfolds' ▸ hoff

/-- The fate of an object is what comes of settling it. -/
theorem Becomes.settles (h : Becomes document path (.obj node) fate)
    (hplain : textRef? node = none) (hshape : Shape.ofSchema node = .object)
    (hfolds : Folds document path node folded) :
    settle path (fateOf document) folded = some fate := by
  obtain ⟨other, hother, hsettle⟩ := h.exists_folds hplain hshape
  obtain rfl := hfolds.unique hother
  exact hsettle

/-- A schema that can be settled has one table at most, and that is an object. -/
theorem isSome_settle {fates : Fates} (h : settle path fates folded = some fate) :
    (Assoc.find? folded "properties" = none ∨ Assoc.find? folded "patternProperties" = none) ∧
      ∀ keyword ∈ tables, ∀ value, Assoc.find? folded keyword = some value →
        ∃ members, value = .obj members := by
  unfold settle at h
  split at h
  · rename_i members hmembers hnone
    refine ⟨.inr hnone, fun keyword hkeyword value hvalue => ?_⟩
    rcases mem_tables_iff.mp hkeyword with rfl | rfl
    · exact ⟨members, Option.some.inj (hvalue.symm.trans hmembers)⟩
    · cases hnone.symm.trans hvalue
  · rename_i members hnone hmembers
    refine ⟨.inl hnone, fun keyword hkeyword value hvalue => ?_⟩
    rcases mem_tables_iff.mp hkeyword with rfl | rfl
    · cases hnone.symm.trans hvalue
    · exact ⟨members, Option.some.inj (hvalue.symm.trans hmembers)⟩
  · rename_i hnone hnone'
    refine ⟨.inl hnone, fun keyword hkeyword value hvalue => ?_⟩
    rcases mem_tables_iff.mp hkeyword with rfl | rfl
    · cases hnone.symm.trans hvalue
    · cases hnone'.symm.trans hvalue
  · cases h

/-- A schema has a list that holds all that it calls for. -/
theorem exists_list_of_calls (document : Json) (site : Site) :
    ∃ sites : List Site, ∀ role next, Calls document role site next → next ∈ sites := by
  obtain ⟨path, schema⟩ := site
  cases schema with
  | obj node =>
    cases htext : textRef? node with
    | some text =>
      -- all calls of a reference are the same, if there are any
      by_cases hcall : ∃ role next, Calls document role (path, .obj node) next
      · obtain ⟨_, next, hnext⟩ := hcall
        refine ⟨[next], fun role other hother => List.mem_singleton.mpr ?_⟩
        cases htarget : SchemaPath.ofPointer text with
        | error error =>
          cases hnext with
          | target htext' htarget' =>
            obtain rfl := Option.some.inj (htext.symm.trans htext')
            cases htarget.symm.trans htarget'
          | items hplain => cases hplain.symm.trans htext
          | member hplain => cases hplain.symm.trans htext
          | schema hplain => cases hplain.symm.trans htext
        | ok target =>
          obtain ⟨-, -, schema, hschema, rfl⟩ := hnext.of_textRef? htext htarget
          obtain ⟨-, -, schema', hschema', rfl⟩ := hother.of_textRef? htext htarget
          rw [Option.some.inj (hschema.symm.trans hschema')]
      · exact ⟨[], fun role next hnext => absurd ⟨role, next, hnext⟩ hcall⟩
    | none =>
      cases hshape : Shape.ofSchema node with
      | other => exact ⟨[], fun _ _ hnext => absurd hshape (hnext.shape_ne_other htext)⟩
      | array =>
        cases hitems : Assoc.find? node "items" with
        | none =>
          refine ⟨[], fun _ _ hnext => ?_⟩
          obtain ⟨-, items, hitems', -⟩ := hnext.of_array htext hshape
          cases hitems.symm.trans hitems'
        | some items =>
          refine ⟨[(path.child "items", items)], fun _ _ hnext => List.mem_singleton.mpr ?_⟩
          obtain ⟨-, items', hitems', rfl⟩ := hnext.of_array htext hshape
          rw [Option.some.inj (hitems.symm.trans hitems')]
      | object =>
        by_cases hfolds : ∃ folded, Folds document path node folded
        · obtain ⟨folded, hfolded⟩ := hfolds
          refine ⟨membersOf path node ++ schemasOf path folded, fun role next hnext => ?_⟩
          rcases hnext.of_object htext hshape with
            ⟨-, hmember⟩ | ⟨-, _, _, _, _, _, hfolds', hkeyword, hmembers, hschema, rfl⟩
          · exact List.mem_append_left _ hmember
          · obtain rfl := hfolded.unique hfolds'
            exact List.mem_append_right _ (mem_schemasOf.mpr
              ⟨_, hkeyword, _, hmembers, _, Assoc.mem_of_find? hschema, rfl⟩)
        · refine ⟨membersOf path node, fun role next hnext => ?_⟩
          rcases hnext.of_object htext hshape with
            ⟨-, hmember⟩ | ⟨-, folded, _, _, _, _, hfolded, -⟩
          · exact hmember
          · exact absurd ⟨folded, hfolded⟩ hfolds
  | _ => exact ⟨[], fun _ _ hnext => nomatch hnext⟩

end Fit

/-! ### Walks below places that are being walked -/

/-- Whether no place that is being walked is listed. -/
def Apart (state : FlattenState) : Prop :=
  ∀ place ∈ state.inProgress, place ∉ Assoc.keys state.schemas

/-- What a walk lists in addition is not being walked. -/
theorem Apart.of_grows {inv : Invariant} {may : SchemaPath → Prop} {state after : FlattenState}
    (h : Apart state) (hgrows : Grows inv may state after) : Apart after := by
  intro place hplace
  rw [hgrows.inProgress] at hplace
  exact hgrows.not_mem_keys hplace (h place hplace)

/-- A place that is not listed may be added to those that are being walked. -/
theorem Apart.inside {state : FlattenState} {path : SchemaPath} (h : Apart state)
    (hnew : path ∉ Assoc.keys state.schemas) :
    Apart { state with inProgress := state.inProgress ++ [path] } := by
  intro place hplace
  rcases List.mem_append.mp hplace with hold | hlast
  · exact h place hold
  · exact List.mem_singleton.mp hlast ▸ hnew

/-- Whether something holds of all schemas that are walked at some places. -/
def Covers (document : Json) (Q : Site → Prop) (keys : List SchemaPath) : Prop :=
  ∀ path ∈ keys, ∀ schema, Visited document (path, schema) → Q (path, schema)

/-- Whether the walk of a schema goes on from any table on whose schemas something holds, leaves it
so and establishes the same of the schema. What may be being walked meanwhile and with which errors
the walk may fail is given. -/
def Carries (document : Json) (A : Site → List SchemaPath → Prop) (Q : Site → Prop)
    (fail : FlattenError → Prop) (walk : Walker) (site : Site) : Prop :=
  ∀ state, Grounded (trust document) state.schemas → Apart state →
    (trust document).raw (Assoc.keys state.schemas) site.1 site.2 →
    Covers document Q (Assoc.keys state.schemas) → A site state.inProgress →
    Ensures (walk site.2 site.1) state (fun walked after =>
      Kept (trust document) state site.1 site.2 walked after ∧
        Covers document Q (Assoc.keys after.schemas) ∧ Q site) fail

/-- Whether a walk stays at a place that is listed. -/
def Stops (fail : FlattenError → Prop) (walk : Walker) : Prop :=
  ∀ schema path state, path ∈ Assoc.keys state.schemas → Apart state →
    Ensures (walk schema path) state
      (fun walked after => walked = .canonical path ∧ after = state) fail

section Covers

variable {document : Json} {Q : Site → Prop} {keys fewer : List SchemaPath}

/-- What covers many places covers fewer. -/
theorem Covers.of_subset (h : Covers document Q keys) (hsubset : fewer ⊆ keys) :
    Covers document Q fewer :=
  fun path hpath => h path (hsubset hpath)

/-- Folding a member of a combiner lists nothing. -/
theorem ensures_contribution_subset {memberPath : SchemaPath} {shared : Bool} {walked : Walked}
    {state : FlattenState} :
    Ensures (contribution document memberPath shared walked) state
      (fun _ after => Assoc.keys after.schemas ⊆ Assoc.keys state.schemas) fun _ => True := by
  refine ensures_contribution (fun _ _ _ h => h) (fun _ _ _ _ h => h) (fun _ _ _ => trivial)
    (fun _ _ _ _ _ h => h) (fun _ _ _ _ _ _ h => h) fun _ _ path hpath => ?_
  obtain ⟨entry, hentry, rfl⟩ := List.mem_map.mp hpath
  exact Assoc.mem_keys_of_mem (Assoc.mem_of_mem_erase hentry)

end Covers

namespace Faithful

section Folding

variable {document : Json} {keys : List SchemaPath} {path place : SchemaPath}
  {first node source : Entries} {member : Json} {others : List Site} {rest : List String}

/-- What is merged into a schema is what its member contributes by its fate. -/
theorem exists_contribution (hfaithful : Faithful document)
    (h : IsFolding document keys path first ⟨(place, member) :: others, rest⟩ node)
    (hsource : (∃ walked, walked ≠ .canonical place ∧
        (faith document).left keys place member walked ∧ walked.toJson = .obj source) ∨
      (faith document).listed keys place source) :
    ∃ fate, Becomes document place member fate ∧ fate.contribution = .obj source := by
  have hvisited := h.isRaw.visited
  rcases hsource with ⟨walked, hne, hleft, hwalked⟩ | hlisted
  · obtain ⟨fate, hfate, rfl⟩ := (hleft hvisited).fate
    exact ⟨fate, hfate, (Fate.contribution_eq_toJson hne).trans hwalked⟩
  · have hentry : IsListed document keys place source := hlisted
    obtain ⟨schema, hvisited', hfate, -⟩ := hentry.site
    obtain rfl := hfaithful.unique hvisited hvisited' rfl
    exact ⟨_, hfate, rfl⟩

/-- Where folding leads to a schema, there is no disagreement on the way. -/
theorem conflict_merge_eq_none {folded : Entries}
    (h : IsFolding document keys path first ⟨(place, member) :: others, rest⟩ node)
    (hfold : foldAll path (fateOf document) first = some folded) {fate : Fate}
    (hfate : Becomes document place member fate) (hcontribution : fate.contribution = .obj source) :
    (merge node source path).conflict = none := by
  have hfinish := h.finish
  rw [finish_member, hfold, foldFate, hfate.fateOf_eq, hcontribution] at hfinish
  dsimp only at hfinish
  split at hfinish
  · assumption
  · cases hfinish

/-- Where folding leads to a schema, a combiner that is still to be folded is a list. -/
theorem IsFolding.exists_members {combiner : String} {folded : Entries} {value : Json}
    (h : IsFolding document keys path first ⟨[], combiner :: rest⟩ node)
    (hfold : foldAll path (fateOf document) first = some folded)
    (hvalue : Assoc.find? node combiner = some value) : ∃ members, value = .arr members := by
  have hfinish := h.finish
  have hfirst := (h.later combiner List.mem_cons_self).symm.trans hvalue
  rw [finish_combiner, hfold, foldCombinerFate, hfirst] at hfinish
  cases value with
  | arr members => exact ⟨members, rfl⟩
  | _ => cases hfinish

end Folding

end Faithful

section Steps

variable {document : Json} {A : Site → List SchemaPath → Prop} {Q : Site → Prop}
  {fail : FlattenError → Prop} {walk : Walker} {path : SchemaPath} {node first : Entries}
  {state : FlattenState} (hfaithful : Faithful document)
  (hkept : (trust document).Kept document)

open Faithful

include hkept

/-- The schemas of a table are walked one after the other. -/
theorem carries_flattenEntries {keyword : String} {members : Entries}
    (hgrounded : Grounded (trust document) state.schemas) (hapart : Apart state)
    (hcovers : Covers document Q (Assoc.keys state.schemas))
    (hraw : ∀ entry ∈ members, (trust document).raw (Assoc.keys state.schemas)
      (path ++ [keyword, entry.1]) entry.2)
    (hsites : ∀ entry ∈ members,
      Carries document A Q fail walk (path ++ [keyword, entry.1], entry.2) ∧
        A (path ++ [keyword, entry.1], entry.2) state.inProgress) :
    Ensures (flattenEntries walk path keyword members) state (fun _ after =>
      Covers document Q (Assoc.keys after.schemas) ∧
        ∀ entry ∈ members, Q (path ++ [keyword, entry.1], entry.2)) fail := by
  induction members generalizing state with
  | nil => exact ensures_pure ⟨hcovers, fun _ hentry => absurd hentry List.not_mem_nil⟩
  | cons member rest ih =>
    obtain ⟨hcarries, hallowed⟩ := hsites member List.mem_cons_self
    refine ensures_flattenEntries_cons ((hcarries state hgrounded hapart
      (hraw member List.mem_cons_self) hcovers hallowed).mono (fun walked between h => ?_)
      fun _ h => h)
    obtain ⟨⟨hgrows, -, -⟩, hcovers', hmember⟩ := h
    refine (ih hgrows.grounded (hapart.of_grows hgrows) hcovers' (fun entry hentry =>
      hkept.raw_mono hgrows.keys_subset (hraw entry (List.mem_cons_of_mem _ hentry)))
      fun entry hentry => ?_).mono (fun flat after h => ⟨h.1, fun entry hentry => ?_⟩) fun _ h => h
    · rw [hgrows.inProgress]
      exact hsites entry (List.mem_cons_of_mem _ hentry)
    · rcases List.mem_cons.mp hentry with rfl | hrest
      · exact hmember
      · exact h.2 entry hrest

/-- The schemas of the only table of a folded schema are walked, and they are all that it calls
for. -/
theorem carries_flattenMembers {keyword : String} {members : Json} {folded : Entries}
    (hgrounded : Grounded (trust document) state.schemas) (hapart : Apart state)
    (hcovers : Covers document Q (Assoc.keys state.schemas))
    (hfolded : (trust document).folding (Assoc.keys state.schemas) path (.obj node) ⟨[], []⟩ folded)
    (hplain : textRef? node = none) (hshape : Shape.ofSchema node = .object)
    (hbelow : ∀ role next, Calls document role (path, .obj node) next →
      Carries document A Q fail walk next ∧ A next state.inProgress)
    (hmembers : ∀ site ∈ membersOf path node, Q site) (hkeyword : keyword ∈ tables)
    (hfind : Assoc.find? folded keyword = some members)
    (hothers : ∀ other ∈ tables, other ≠ keyword → Assoc.find? folded other = none)
    (hfail : (∀ error, fail error) ∨ ∃ entries, members = .obj entries) :
    Ensures (flattenMembers walk path keyword members) state (fun _ after =>
      Covers document Q (Assoc.keys after.schemas) ∧
        ∀ role next, Calls document role (path, .obj node) next → Q next) fail := by
  obtain ⟨⟨first, horigin, hfolding⟩, -⟩ := id hfolded
  obtain rfl := Json.obj.inj horigin
  refine ensures_flattenMembers (fun hother => ?_) fun entries hentries => ?_
  · refine hfail.elim (fun h => h _) fun ⟨entries, hentries⟩ => ?_
    exact absurd hentries (hother entries)
  · subst hentries
    refine (carries_flattenEntries hkept hgrounded hapart hcovers
      (fun entry hentry => hkept.property hfolded (mem_tables_iff.mp hkeyword) hfind hentry)
      fun entry hentry => hbelow _ _ (hfolding.calls hkeyword hfind hentry)).mono
      (fun flat after h => ⟨h.1, fun role next hcall => ?_⟩) fun _ h => h
    rcases hcall.of_object hplain hshape with
      ⟨-, hmember⟩ | ⟨-, folded', other, _, _, _, hfolds, hother, hmembers', hschema, rfl⟩
    · exact hmembers next hmember
    · obtain rfl := hfolding.folds.unique hfolds
      by_cases hsame : other = keyword
      · subst hsame
        obtain rfl := Json.obj.inj (Option.some.inj (hfind.symm.trans hmembers'))
        exact h.2 _ (Assoc.mem_of_find? hschema)
      · cases (hothers other hother hsame).symm.trans hmembers'

include hfaithful

/-- The members of a combiner are walked one after the other. -/
theorem carries_foldMembers {combiner : String} {index : Nat} {members : List Json}
    {rest : List String} (hgrounded : Grounded (trust document) state.schemas)
    (hapart : Apart state) (hcovers : Covers document Q (Assoc.keys state.schemas))
    (hnode : (trust document).folding (Assoc.keys state.schemas) path (.obj first)
      ⟨memberPlaces path combiner index members, rest⟩ node)
    (hsites : ∀ site ∈ memberPlaces path combiner index members,
      Carries document A Q fail walk site ∧ A site state.inProgress)
    (hfail : (∀ error, fail error) ∨
      ∃ folded, foldAll path (fateOf document) first = some folded) :
    Ensures (foldMembers document walk path combiner node index members) state
      (fun folded after => Grows (trust document) (trust document).own state after ∧
        Covers document Q (Assoc.keys after.schemas) ∧
        (∀ site ∈ memberPlaces path combiner index members, Q site) ∧
        (trust document).folding (Assoc.keys after.schemas) path (.obj first) ⟨[], rest⟩ folded)
      fail := by
  induction members generalizing index node state with
  | nil =>
    exact ensures_pure
      ⟨.refl hgrounded, hcovers, fun _ hsite => absurd hsite List.not_mem_nil, hnode⟩
  | cons member others ih =>
    obtain ⟨hcarries, hallowed⟩ := hsites _ List.mem_cons_self
    refine ensures_foldMembers_cons (ensures_foldMember ((hcarries state hgrounded hapart
      (hkept.member hnode) hcovers hallowed).mono (fun walked between h => ?_) fun _ h => h))
    obtain ⟨hwalked, hcovers', hmember⟩ := h
    refine ((kept_contribution hkept hwalked).both ensures_contribution_subset).mono
      (fun contributed after h => ?_) fun _ h => h.1
    obtain ⟨⟨hgrows, hmerged, hpassed⟩, hsubset⟩ := h
    have hafter := hkept.folding_mono hgrows.keys_subset hnode
    -- the other members are folded into whatever this one has left
    have hothers : ∀ folded, (trust document).folding (Assoc.keys after.schemas) path (.obj first)
        ⟨memberPlaces path combiner (index + 1) others, rest⟩ folded →
        Ensures (foldMembers document walk path combiner folded (index + 1) others) after
          (fun folded after => Grows (trust document) (trust document).own state after ∧
            Covers document Q (Assoc.keys after.schemas) ∧
            (∀ site ∈ memberPlaces path combiner index (member :: others), Q site) ∧
            (trust document).folding (Assoc.keys after.schemas) path (.obj first) ⟨[], rest⟩
              folded) fail := by
      intro folded hfolded
      refine (ih hgrows.grounded (hapart.of_grows hgrows) (hcovers'.of_subset hsubset) hfolded
        fun site hsite => ?_).mono (fun _ _ h => ⟨hgrows.trans h.1, h.2.1, ?_, h.2.2.2⟩)
        fun _ h => h
      · rw [hgrows.inProgress]
        exact hsites site (List.mem_cons_of_mem _ hsite)
      · intro site hsite
        rcases List.mem_cons.mp hsite with rfl | hrest
        · exact hmember
        · exact h.2.2.1 site hrest
    refine ⟨fun source hsource => ⟨fun hagree => ?_, fun conflict hconflict => ?_⟩,
      fun hother => ?_⟩
    · exact hothers _ (hkept.merge hafter (hmerged source hsource) hagree)
    · rcases hfail with hfail | ⟨folded, hfold⟩
      · exact hfail _
      · obtain ⟨⟨first', horigin, hfolding⟩, -⟩ := hafter
        obtain rfl := Json.obj.inj horigin
        obtain ⟨fate, hfate, hcontribution⟩ := exists_contribution hfaithful hfolding
          ((hmerged source hsource).imp
            (fun ⟨walked, hne, hleft, hvalue⟩ => ⟨walked, hne, hleft.1, hvalue⟩) And.left)
        cases hconflict.symm.trans (conflict_merge_eq_none hfolding hfold hfate hcontribution)
    · obtain ⟨hleft, hnone⟩ := hpassed hother
      exact hothers _ (hkept.pass hafter hleft hnone)

/-- And the combiners. -/
theorem carries_foldCombiners {keywords : List String} (hkeywords : keywords ⊆ combiners)
    (hgrounded : Grounded (trust document) state.schemas) (hapart : Apart state)
    (hcovers : Covers document Q (Assoc.keys state.schemas))
    (hnode : (trust document).folding (Assoc.keys state.schemas) path (.obj first)
      ⟨[], keywords⟩ node)
    (hsites : ∀ site ∈ membersUnder path first keywords,
      Carries document A Q fail walk site ∧ A site state.inProgress)
    (hfail : (∀ error, fail error) ∨
      ∃ folded, foldAll path (fateOf document) first = some folded) :
    Ensures (keywords.foldlM (foldCombiner document walk path) node) state
      (fun folded after => Grows (trust document) (trust document).own state after ∧
        Covers document Q (Assoc.keys after.schemas) ∧
        (∀ site ∈ membersUnder path first keywords, Q site) ∧
        (trust document).folding (Assoc.keys after.schemas) path (.obj first) ⟨[], []⟩ folded)
      fail := by
  induction keywords generalizing node state with
  | nil =>
    exact ensures_pure
      ⟨.refl hgrounded, hcovers, fun _ hsite => absurd hsite List.not_mem_nil, hnode⟩
  | cons combiner rest ih =>
    obtain ⟨hcombiner, hrest⟩ := List.cons_subset.mp hkeywords
    obtain ⟨⟨first', horigin, hfolding⟩, -⟩ := id hnode
    obtain rfl := Json.obj.inj horigin
    have hfirst := hfolding.later combiner List.mem_cons_self
    rw [List.foldlM_cons]
    refine ensures_bind (ensures_foldCombiner (fun hnone => ?_) (fun members hmembers => ?_)
      fun value hvalue hother => ?_)
    · rw [membersUnder_of_none (hfirst.symm.trans hnone)] at hsites ⊢
      exact ih hrest hgrounded hapart hcovers (hkept.skip hcombiner hnode hnone) hsites
    · rw [membersUnder_of_arr (hfirst.symm.trans hmembers)] at hsites ⊢
      refine (carries_foldMembers hfaithful hkept hgrounded hapart hcovers
        (hkept.drop hcombiner hnode hmembers) (fun site hsite =>
          hsites site (List.mem_append_left _ hsite)) hfail).mono (fun folded between h => ?_)
        fun _ h => h
      obtain ⟨hgrows, hcovers', hdone, hfolded⟩ := h
      refine (ih hrest hgrows.grounded (hapart.of_grows hgrows) hcovers' hfolded
        fun site hsite => ?_).mono (fun _ _ h => ⟨hgrows.trans h.1, h.2.1, fun site hsite => ?_,
          h.2.2.2⟩) fun _ h => h
      · rw [hgrows.inProgress]
        exact hsites site (List.mem_append_right _ hsite)
      · exact (List.mem_append.mp hsite).elim (hdone site) (h.2.2.1 site)
    · rcases hfail with hfail | ⟨folded, hfold⟩
      · exact hfail _
      · obtain ⟨members, rfl⟩ := hfolding.exists_members hfold hvalue
        exact absurd rfl (hother members)

end Steps

/-! ### The walk of one schema -/

/-- What is known inside of the walk of a schema when all that it calls for has been walked. Of the
schema itself nothing is known yet, even if it is listed. -/
def Inner (document : Json) (Q : Site → Prop) (site : Site) (after : FlattenState) : Prop :=
  (∀ place ∈ Assoc.keys after.schemas, place ≠ site.1 → ∀ schema,
    Visited document (place, schema) → Q (place, schema)) ∧
  (∀ role next, Calls document role site next → Q next) ∧ Admitted document site

/-- If all that is listed is covered, then also all but the schema itself. -/
theorem Covers.inner {document : Json} {Q : Site → Prop} {site : Site} {after : FlattenState}
    (h : Covers document Q (Assoc.keys after.schemas))
    (hcalls : ∀ role next, Calls document role site next → Q next)
    (hadmitted : Admitted document site) : Inner document Q site after :=
  ⟨fun place hplace _ => h place hplace, hcalls, hadmitted⟩

section Visit

variable {document : Json} {A : Site → List SchemaPath → Prop} {Q : Site → Prop}
  {fail : FlattenError → Prop} {walk : Walker} {path : SchemaPath} {node : Entries}
  {state : FlattenState} {inProgress : List SchemaPath} (hfaithful : Faithful document)
  (hkept : (trust document).Kept document) (hstops : Stops fail walk)

open Faithful

section Inside

variable (hgrounded : Grounded (trust document) state.schemas) (hapart : Apart state)
  (hcovers : Covers document Q (Assoc.keys state.schemas))
  (hnode : (trust document).raw (Assoc.keys state.schemas) path (.obj node))
  (hbelow : ∀ role next, Calls document role (path, .obj node) next →
    Carries document A Q fail walk next ∧ A next state.inProgress)

include hkept hgrounded hapart hcovers hnode hbelow

include hstops in
/-- The walk of a reference is carried on by that of its target. -/
theorem carries_followRef {text : String} (htext : textRef? node = some text) :
    Ensures (followRef document walk (.unresolved text)) state
      (fun _ after => Inner document Q (path, .obj node) after) fail := by
  have hadmitted : Admitted document (path, .obj node) := by
    refine admitted_of_forall fun other hobj hplain => ?_
    cases (Json.obj.inj hobj ▸ hplain).symm.trans htext
  refine ensures_followRef (fun pointer reason hlost => ?_) (fun target entry hpointer hentry => ?_)
    fun target schema hpointer hnew hschema => ?_
  · exact absurd hlost (AllLead.of_textRef? hnode.2 htext).findSchema_ne_error
  · have hkey := Assoc.mem_keys_of_find? hentry
    refine (hstops _ target state hkey hapart).mono (fun walked after h => ?_) fun _ h => h
    obtain ⟨-, rfl⟩ := h
    refine hcovers.inner (fun role next hcall => ?_) hadmitted
    obtain ⟨-, -, schema, -, rfl⟩ := id (hcall.of_textRef? htext hpointer)
    exact hcovers target hkey schema (hnode.1.visited.tail ⟨role, hcall⟩)
  · have hnamed := (hnode.1.reliable.of_textRef? htext hpointer hschema).resolve_right hnew
    have hcall : Calls document .own (path, .obj node) (target, schema) :=
      .target htext hpointer hnamed hschema
    obtain ⟨hcarries, hallowed⟩ := hbelow _ _ hcall
    refine (hcarries state hgrounded hapart (hkept.target hnode htext hpointer hnew hschema) hcovers
      hallowed).mono (fun walked after h => ?_) fun _ h => h
    refine h.2.1.inner (fun role next hcall' => ?_) hadmitted
    obtain ⟨-, -, other, hother, rfl⟩ := hcall'.of_textRef? htext hpointer
    obtain rfl := Option.some.inj (hschema.symm.trans hother)
    exact h.2.2

variable (hplain : textRef? node = none)

include hplain

/-- The walk of an array is carried on by that of its items. -/
theorem carries_flattenArray (hshape : Shape.ofSchema node = .array)
    (hfail : (∀ error, fail error) ∨ Fit document (path, .obj node)) :
    Ensures (flattenArray walk node path) state
      (fun _ after => Inner document Q (path, .obj node) after) fail := by
  have hadmitted : isOn node "additionalItems" = false → Admitted document (path, .obj node) := by
    refine fun hoff => ⟨fun other hobj _ _ => Json.obj.inj hobj ▸ hoff,
      fun other _ hobj _ hobject _ => ?_⟩
    obtain rfl := Json.obj.inj hobj
    cases hshape.symm.trans hobject
  have hcall : ∀ items, Assoc.find? node "items" = some items →
      Calls document .own (path, .obj node) (path.child "items", items) :=
    fun items hitems => .items hplain hshape hitems
  refine ensures_flattenArray (fun hon => ?_) (fun list hlist => ?_) (fun hoff hnone => ?_)
    fun hoff items hitems _ => ?_
  · refine hfail.elim (fun h => h _) fun hfit => ?_
    cases hon.symm.trans (hfit.admitted.items node rfl hplain hshape)
  · refine hfail.elim (fun h => h _) fun hfit => ?_
    -- a list of schemas has no fate
    obtain ⟨fate, hfate⟩ := hfit.fate
    obtain ⟨fates, hitems, -⟩ := hfate.of_array hplain hshape
    exact nomatch hitems _ hlist
  · refine hcovers.inner (fun role next hnext => ?_) (hadmitted hoff)
    obtain ⟨-, items, hitems, -⟩ := hnext.of_array hplain hshape
    cases hnone.symm.trans hitems
  · obtain ⟨hcarries, hallowed⟩ := hbelow _ _ (hcall items hitems)
    refine (hcarries state hgrounded hapart
      (hkept.items hnode hplain (ofSchema_eq_array.mp hshape) hitems) hcovers hallowed).mono
      (fun walked after h => ?_) fun _ h => h
    refine h.2.1.inner (fun role next hnext => ?_) (hadmitted hoff)
    obtain ⟨-, other, hother, rfl⟩ := hnext.of_array hplain hshape
    obtain rfl := Option.some.inj (hitems.symm.trans hother)
    exact h.2.2

include hfaithful

/-- The walk of an object is carried on by those of its members and of the schemas in its tables. -/
theorem carries_flattenObject (hshape : Shape.ofSchema node = .object)
    (hfail : (∀ error, fail error) ∨ Fit document (path, .obj node)) :
    Ensures (flattenObject document walk node path) state
      (fun _ after => Inner document Q (path, .obj node) after) fail := by
  -- a schema with a fate can be folded, and is left with one table at most
  have hfate : (∀ error, fail error) ∨ ∃ folded fate, Folds document path node folded ∧
      settle path (fateOf document) folded = some fate := by
    refine hfail.imp_right fun hfit => ?_
    obtain ⟨fate, hfate⟩ := hfit.fate
    obtain ⟨folded, hfolds, hsettle⟩ := hfate.exists_folds hplain hshape
    exact ⟨folded, fate, hfolds, hsettle⟩
  refine ensures_flattenObject ((carries_foldCombiners hfaithful hkept (List.Subset.refl _)
    hgrounded hapart hcovers (hkept.start hnode hplain (ofSchema_eq_object.mp hshape))
    (fun site hsite => hbelow _ _ (.member hplain hshape hsite))
    (hfate.imp_right fun ⟨folded, _, hfolds, _⟩ => ⟨folded, hfolds.eq_some⟩)).mono
    (fun folded between h => ?_) fun _ h => h)
  obtain ⟨hgrows, hcovers', hmembers, hfolded⟩ := h
  obtain ⟨⟨first, horigin, hfolding⟩, -⟩ := id hfolded
  obtain rfl := Json.obj.inj horigin
  have hfolds := hfolding.folds
  have hsettled := hfate.imp_right fun ⟨other, _, hother, hsettle⟩ =>
    isSome_settle (hother.unique hfolds ▸ hsettle)
  -- the schemas of the only table are walked
  have htable : ∀ keyword ∈ tables, ∀ members, Assoc.find? folded keyword = some members →
      (∀ other ∈ tables, other ≠ keyword → Assoc.find? folded other = none) →
      Ensures (flattenMembers walk path keyword members) between
        (fun _ after => Covers document Q (Assoc.keys after.schemas) ∧
          ∀ role next, Calls document role (path, .obj node) next → Q next) fail :=
    fun keyword hkeyword members hfind hothers =>
      carries_flattenMembers hkept hgrows.grounded (hapart.of_grows hgrows) hcovers' hfolded
        hplain hshape (fun role next hcall => hgrows.inProgress ▸ hbelow role next hcall) hmembers
        hkeyword hfind hothers (hsettled.imp_right fun h => h.2 keyword hkeyword members hfind)
  refine ⟨fun hon => ?_, fun members patterns hproperties hpatterns => ?_, fun hoff =>
    ⟨fun members hproperties hnone => ?_, fun members hnone hpatterns => ?_,
      fun hnone hnone' => ?_⟩⟩
  · refine hfail.elim (fun h => h _) fun hfit => ?_
    cases hon.symm.trans (hfit.admitted.properties node folded rfl hplain hshape hfolds)
  · refine hsettled.elim (fun h => h _) fun h => ?_
    rcases h.1 with hnone | hnone
    · cases hnone.symm.trans hproperties
    · cases hnone.symm.trans hpatterns
  · refine (htable "properties" (by decide) members hproperties fun other hother hne =>
      (mem_tables_iff.mp hother).resolve_left hne ▸ hnone).mono (fun flat after h => ?_)
      fun _ h => h
    refine ⟨fun place hplace hne => h.1 place ?_, h.2, admitted_of_folds hshape hfolds hoff⟩
    exact (Assoc.mem_keys_insert.mp hplace).resolve_right hne
  · refine (htable "patternProperties" (by decide) members hpatterns fun other hother hne =>
      (mem_tables_iff.mp hother).resolve_right hne ▸ hnone).mono (fun flat after h => ?_)
      fun _ h => h
    exact h.1.inner h.2 (admitted_of_folds hshape hfolds hoff)
  · refine hcovers'.inner (fun role next hcall => ?_) (admitted_of_folds hshape hfolds hoff)
    rcases hcall.of_object hplain hshape with
      ⟨-, hmember⟩ | ⟨-, folded', keyword, _, _, _, hfolds', hkeyword, hmembers', -, rfl⟩
    · exact hmembers next hmember
    · obtain rfl := hfolds.unique hfolds'
      rcases mem_tables_iff.mp hkeyword with rfl | rfl
      · cases hnone.symm.trans hmembers'
      · cases hnone'.symm.trans hmembers'

end Inside

variable {schema : Json} (hkeeps : Keeps (trust document) (fun _ => True) walk)
  (hbelow : ∀ role next, Calls document role (path, schema) next →
    Carries document A Q fail walk next)
  (hallow : ∀ role next inProgress, Calls document role (path, schema) next →
    A (path, schema) inProgress → A next (inProgress ++ [path]))
  (hfail : (∀ error, fail error) ∨
    Fit document (path, schema) ∧ ∀ inProgress, A (path, schema) inProgress → path ∉ inProgress)
  (hspread : Visited document (path, schema) → Fit document (path, schema) →
    (∀ role next, Calls document role (path, schema) next → Q next) → Q (path, schema))

include hfaithful hkept hstops hkeeps hbelow hallow hfail hspread

/-- The walk of a schema goes on if the walks of all schemas do that it calls for. -/
theorem carries_visit : Carries document A Q fail (visit document walk) (path, schema) := by
  intro state hgrounded hapart hraw hcovers hallowed
  have hfit : (∀ error, fail error) ∨ Fit document (path, schema) := hfail.imp_right And.left
  have hinner : Ensures (visit document walk schema path) state (fun _ after =>
      (path ∈ Assoc.keys state.schemas ∧ Covers document Q (Assoc.keys after.schemas)) ∨
        Inner document Q (path, schema) after) fail := by
    refine ensures_visit (fun hmet => ?_) (fun _ hkey => .inl ⟨hkey, hcovers⟩)
      (fun entries hobj _ hnew => ?_) (fun value hbool _ _ => ?_) fun hobj hbool => ?_
    · refine hfail.elim (fun h => h _) fun h => absurd hmet (h.2 _ hallowed)
    · subst hobj
      have hinside : Grounded (trust document)
          ({ state with inProgress := state.inProgress ++ [path] } : FlattenState).schemas :=
        hgrounded
      have hcalled : ∀ role next, Calls document role (path, .obj entries) next →
          Carries document A Q fail walk next ∧ A next (state.inProgress ++ [path]) :=
        fun role next hcall => ⟨hbelow role next hcall, hallow role next _ hcall hallowed⟩
      have hwalked : Ensures (flattenSchema document walk entries path)
          { state with inProgress := state.inProgress ++ [path] }
          (fun _ after => Inner document Q (path, .obj entries) after) fail := by
        refine ensures_flattenSchema (fun reference href => ?_) (fun href hshape => ?_)
          (fun href hshape => ?_) fun href hshape => ?_
        · obtain ⟨text, htext, rfl⟩ := Option.map_eq_some_iff.mp href
          exact carries_followRef hkept hstops hinside (hapart.inside hnew) hcovers hraw hcalled
            htext
        · exact carries_flattenObject hfaithful hkept hinside (hapart.inside hnew) hcovers hraw
            hcalled (Option.map_eq_none_iff.mp href) hshape hfit
        · exact carries_flattenArray hkept hinside (hapart.inside hnew) hcovers hraw hcalled
            (Option.map_eq_none_iff.mp href) hshape hfit
        · have hplain := Option.map_eq_none_iff.mp href
          exact hcovers.inner (fun role next hcall => absurd hshape (hcall.shape_ne_other hplain))
            (admitted_of_forall fun other hobj _ => Json.obj.inj hobj ▸ hshape)
      exact hwalked.mono (fun _ _ h => .inr h) fun _ h => h
    · subst hbool
      exact .inr (hcovers.inner (fun role next hcall => nomatch hcall)
        (admitted_of_forall fun _ => nofun))
    · refine hfit.elim (fun h => h _) fun h => ?_
      obtain ⟨fate, hfate⟩ := h.fate
      cases hfate with
      | bool => exact absurd rfl (hbool _)
      | _ => exact absurd rfl (hobj _)
  refine ((kept_visit hkept averts_all.steps hkeeps.on hgrounded (.inr hraw)
    fun _ _ _ _ => trivial).both hinner).mono (fun walked after h => ?_) fun _ h => h.2
  obtain ⟨⟨hvisit, -⟩, hknown⟩ := h
  have hvisited := hraw.1.visited
  -- a listed place was covered before; a new one follows from all that it calls for
  rcases hknown with ⟨hkey, hcovers'⟩ | ⟨hothers, hcalls, hadmitted⟩
  · exact ⟨hvisit, hcovers', hcovers path hkey schema hvisited⟩
  · obtain ⟨fate, hfate, -⟩ := (hvisit.left.1 hvisited).fate
    have hself := hspread hvisited ⟨⟨fate, hfate⟩, hadmitted⟩ hcalls
    refine ⟨hvisit, fun place hplace other hother => ?_, hself⟩
    by_cases hsame : place = path
    · subst hsame
      obtain rfl := hfaithful.unique hvisited hother rfl
      exact hself
    · exact hothers place hplace hsame other hother

end Visit

end SchemaClasses.Flatten
