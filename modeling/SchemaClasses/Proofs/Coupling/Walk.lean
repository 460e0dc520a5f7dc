import SchemaClasses.Proofs.Coupling.Documents
import SchemaClasses.Proofs.Coupling.Lockstep
import SchemaClasses.Proofs.Coupling.Merge
import SchemaClasses.Proofs.Flatten.Faithful
import SchemaClasses.Proofs.Flatten.Guarded

/-!
# Walking coupled documents

Main statement (`flattenWithin_coupled`): coupled documents are flattened side by side. Either both
are refused or both give tables of coupled schemas at the same places, if the walk of the first one
keeps to a guard.

What a walk reads of the head of a schema is its reference and its shape. `Coupling.Fits` says that
heads that the guard lets through are read in the same way, or that there is nothing to be done on
either side. Every step of the walk is compared with itself here, over walks of the schemas below
that keep step (`KeepsStep`), and the depth follows by induction.
-/

namespace SchemaClasses

open Merge Json FlattenM Flatten

namespace Flatten

/-- Whether the walk of a schema of this shape finds nothing to do. -/
def isIdle (schema : Entries) : Shape → Bool
  | .object => (combiners ++ tables).all (fun keyword => !Assoc.contains schema keyword) &&
      !isOn schema "additionalProperties"
  | .array => !Assoc.contains schema "items" && !isOn schema "additionalItems"
  | .other => true

/-- Nothing is found under a keyword that a schema does not contain. -/
theorem find?_of_not_contains {schema : Entries} {keyword : String}
    (h : (!Assoc.contains schema keyword) = true) : Assoc.find? schema keyword = none := by
  rwa [Bool.not_eq_true', Assoc.contains, Option.isSome_eq_false_iff, Option.isNone_iff_eq_none]
    at h

/-- A schema in which there is nothing to do stays as it is. -/
theorem flattenSchema_of_isIdle (document : Json) (walk : Walker) {schema : Entries}
    (path : SchemaPath) (href : textRef? schema = none)
    (h : isIdle schema (Shape.ofSchema schema)) :
    flattenSchema document walk schema path = pure (.inPlace (.obj schema)) := by
  have hplain : Reference.ofSchema? schema = none := congrArg (Option.map _) href
  unfold flattenSchema
  rw [hplain]
  cases hshape : Shape.ofSchema schema with
  | other => rfl
  | array =>
    rw [hshape, isIdle, Bool.and_eq_true, Bool.not_eq_true' (isOn _ _)] at h
    unfold flattenArray
    simp only [h.2, find?_of_not_contains h.1, Bool.false_eq_true, if_false]
  | object =>
    rw [hshape, isIdle, Bool.and_eq_true, List.all_eq_true, Bool.not_eq_true' (isOn _ _)] at h
    have hnone : ∀ keyword ∈ combiners ++ tables, Assoc.find? schema keyword = none :=
      fun keyword hkeyword => find?_of_not_contains (h.1 keyword hkeyword)
    have hfold : combiners.foldlM (foldCombiner document walk path) schema = pure schema := by
      simp only [combiners, List.foldlM_cons, List.foldlM_nil, pure_bind,
        foldCombiner_absent document walk path (hnone "oneOf" (by decide)),
        foldCombiner_absent document walk path (hnone "anyOf" (by decide)),
        foldCombiner_absent document walk path (hnone "allOf" (by decide))]
    unfold flattenObject
    simp only [hfold, pure_bind, h.2, Bool.false_eq_true, if_false,
      hnone "properties" (by decide), hnone "patternProperties" (by decide)]

end Flatten

/-! ### Walks that keep step -/

/-- Whether a walk that keeps to a guard cannot tell coupled schemas apart. -/
structure Coupling.Fits (coupling : Coupling) (guard : Guard) : Prop where
  /-- The same references are followed. -/
  textRef : ∀ {schema schema' : Entries}, CoupledSchemas coupling schema schema' →
    guard.meets schema → textRef? schema = textRef? schema'
  /-- Schemas have the same shape, or nothing is done on either side. -/
  shape : ∀ {schema schema' : Entries}, CoupledSchemas coupling schema schema' →
    guard.meets schema → textRef? schema = none →
    Shape.ofSchema schema = Shape.ofSchema schema' ∨
      Shape.ofSchema schema = .other ∧ isIdle schema (Shape.ofSchema schema')
  /-- References lead to schemas. -/
  leads : ∀ {schema schema' : Entries} {text : String} {target : SchemaPath},
    CoupledSchemas coupling schema schema' → textRef? schema = some text →
    SchemaPath.ofPointer text = .ok target → keysAt target = .keywords
  /-- A reference to a schema is coupled with itself. -/
  reference : ∀ {path : SchemaPath}, keysAt path = .keywords →
    coupling.heads [(refKey, .str path.toPointer)] [(refKey, .str path.toPointer)]
  /-- It may be left in place. -/
  leaves_reference : ∀ {path : SchemaPath}, guard.leaves (Reference.canonical path).toSchema

/-- Two entries at the same place. -/
structure CoupledEntries (coupling : Coupling) (guard : Guard) (path : SchemaPath)
    (entry entry' : Entries) : Prop where
  /-- A schema stands there. -/
  place : keysAt path = .keywords
  /-- The entries are coupled. -/
  coupled : CoupledSchemas coupling entry entry'
  /-- The properties of the entry may be left in place. -/
  members : ∀ members, Assoc.find? entry "properties" = some (.obj members) →
    ∀ member ∈ members, guard.leaves member.2

/-- Two states of walks that keep step. -/
structure InStep (coupling : Coupling) (guard : Guard) (state state' : FlattenState) : Prop where
  /-- Coupled schemas are listed. -/
  schemas : Assoc.Related (CoupledEntries coupling guard) state.schemas state'.schemas
  /-- The same places are being walked. -/
  inProgress : state.inProgress = state'.inProgress

/-- The same became of two schemas. -/
inductive CoupledWalked (coupling : Coupling) : Walked → Walked → Prop where
  /-- Both are listed. -/
  | canonical {path : SchemaPath} (hpath : keysAt path = .keywords) :
      CoupledWalked coupling (.canonical path) (.canonical path)
  /-- Both stay where they are. -/
  | inPlace {schema schema' : Json} (h : Coupled coupling .keywords schema schema') :
      CoupledWalked coupling (.inPlace schema) (.inPlace schema')

/-- Whether what is said to be listed is. -/
def IsListed (walked : Walked) (state : FlattenState) : Prop :=
  ∀ path, walked = .canonical path → path ∈ Assoc.keys state.schemas

/-- What two walks that keep step end with. -/
structure SameOutcome (coupling : Coupling) (guard : Guard) (walked walked' : Walked)
    (state state' : FlattenState) : Prop where
  /-- The same became of the schemas. -/
  became : CoupledWalked coupling walked walked'
  /-- What is said to be listed is. -/
  listed : IsListed walked state
  /-- The walks are in step. -/
  inStep : InStep coupling guard state state'

/-- Whether the walks of coupled schemas keep step. -/
def KeepsStep (coupling : Coupling) (guard : Guard) (stop : FlattenError) (walk walk' : Walker) :
    Prop :=
  ∀ {schema schema' : Json} {path : SchemaPath} {state state' : FlattenState},
    keysAt path = .keywords → Coupled coupling .keywords schema schema' →
    InStep coupling guard state state' →
    Lockstep stop (walk schema path) (walk' schema' path) state state'
      fun walked walked' after after' => SameOutcome coupling guard walked walked' after after' ∧
        guard.leaves walked.toJson

/-- Whether a walk refuses what cannot be walked. -/
def Refuses (walk : Walker) : Prop :=
  ∀ {schema : Json} {path : SchemaPath} {state : FlattenState}, schema.isWalkable = false →
    path ∉ Assoc.keys state.schemas → ∃ error, (walk schema path).run state = .error error

section Steps

variable {coupling : Coupling} {guard : Guard} {document document' : Json} {stop : FlattenError}
  {walk walk' : Walker} {schema schema' : Entries} {path : SchemaPath} {state state' : FlattenState}
  {walked walked' : Walked}

/-! ### What is left in the place of a schema -/

/-- A reference put in place of a schema is coupled with itself. -/
theorem Coupling.Fits.coupled_toSchema (hfits : coupling.Fits guard)
    (hpath : keysAt path = .keywords) :
    Coupled coupling .keywords (Reference.canonical path).toSchema
      (Reference.canonical path).toSchema := by
  have hnodup : (Assoc.keys [(refKey, Json.str path.toPointer)]).Nodup := List.nodup_singleton _
  refine .schema hnodup hnodup (hfits.reference hpath) (fun _ _ => rfl) (fun _ _ => rfl)
    (fun _ _ => Iff.rfl) fun key value other _ hvalue hother => ?_
  obtain rfl := Option.some.inj (hvalue.symm.trans hother)
  obtain ⟨-, rfl⟩ := Prod.mk.inj (List.mem_singleton.mp (Assoc.mem_of_find? hvalue))
  exact .atom rfl

/-- What two walks put in place of coupled schemas is coupled. -/
theorem CoupledWalked.toJson (hfits : coupling.Fits guard)
    (h : CoupledWalked coupling walked walked') :
    Coupled coupling .keywords walked.toJson walked'.toJson := by
  cases h with
  | canonical hpath => exact hfits.coupled_toSchema hpath
  | inPlace h => exact h

/-- Nothing is said to be listed where a schema is left in place. -/
theorem isListed_inPlace (schema : Json) : IsListed (.inPlace schema) state :=
  fun path h => by cases h

/-! ### Following references -/

section Following

variable {text : String} {target : SchemaPath}

/-- Following a reference is finding its target and walking that. -/
theorem run_followRef (document : Json) (walk : Walker) (reference : Reference)
    (state : FlattenState) : (followRef document walk reference).run state =
      (findSchema document state.schemas reference >>= fun found =>
        (walk found.1 found.2).run state) := by
  unfold followRef
  cases h : findSchema document state.schemas reference with
  | error error =>
    change (do
      let found ← (liftM (findSchema document state.schemas reference) : FlattenM _)
      walk found.1 found.2 : FlattenM Walked).run state = _
    rw [h]
    rfl
  | ok found =>
    change (do
      let found ← (liftM (findSchema document state.schemas reference) : FlattenM _)
      walk found.1 found.2 : FlattenM Walked).run state = _
    rw [h]
    rfl

/-- A reference to something that cannot be walked is refused. -/
theorem followRef_fails (hrefuses : Refuses walk) (htarget : SchemaPath.ofPointer text = .ok target)
    (hmissing : target ∉ Assoc.keys state.schemas)
    (hbarren : ∀ schema, document.at? target = some schema → schema.isWalkable = false) :
    ∃ error, (followRef document walk (.unresolved text)).run state = .error error := by
  have hnames : Names (.unresolved text) target := htarget
  rw [run_followRef, findSchema_of_names document state.schemas hnames,
    Assoc.find?_eq_none_iff.mpr hmissing]
  cases hat : document.at? target with
  | none => exact ⟨_, rfl⟩
  | some schema =>
    exact hrefuses (hbarren schema hat) hmissing

/-- Following the same reference keeps step. -/
theorem lockstep_followRef (hdocuments : CoupledDocuments coupling document document')
    (hwalk : KeepsStep coupling guard stop walk walk') (hrefuses : Refuses walk)
    (hrefuses' : Refuses walk') (hstate : InStep coupling guard state state')
    (hleads : ∀ target, SchemaPath.ofPointer text = .ok target → keysAt target = .keywords) :
    Lockstep stop (followRef document walk (.unresolved text))
      (followRef document' walk' (.unresolved text)) state state'
      fun walked walked' after after' => SameOutcome coupling guard walked walked' after after' ∧
        guard.leaves walked.toJson := by
  cases htarget : SchemaPath.ofPointer text with
  | error reason =>
    refine lockstep_of_errors ⟨.invalidRef text (.malformed reason), ?_⟩
      ⟨.invalidRef text (.malformed reason), ?_⟩ <;>
    · rw [run_followRef, findSchema_of_error _ _ htarget]
      rfl
  | ok target =>
    have hnames : Names (.unresolved text) target := htarget
    have hrun := run_followRef document walk (.unresolved text) state
    have hrun' := run_followRef document' walk' (.unresolved text) state'
    rw [findSchema_of_names _ _ hnames] at hrun hrun'
    rcases hstate.schemas.find?_cases target with
      ⟨hnone, hnone'⟩ | ⟨entry, entry', hentry, hentry', hcoupled⟩
    · rcases hdocuments target with ⟨v, w, hv, hw, hcoupled⟩ | ⟨hbarren, hbarren'⟩
      · change document.at? target = some v at hv
        change document'.at? target = some w at hw
        simp only [hnone, hv] at hrun
        simp only [hnone', hw] at hrun'
        have hkeys := hleads target htarget
        exact lockstep_congr hrun hrun' (hwalk hkeys (hcoupled hkeys) hstate)
      · exact lockstep_of_errors
          (followRef_fails hrefuses htarget (Assoc.find?_eq_none_iff.mp hnone) hbarren)
          (followRef_fails hrefuses' htarget (Assoc.find?_eq_none_iff.mp hnone') hbarren')
    · simp only [hentry] at hrun
      simp only [hentry'] at hrun'
      exact lockstep_congr hrun hrun'
        (hwalk hcoupled.place (coupled_schema_iff.mpr hcoupled.coupled) hstate)

end Following

/-! ### Arrays and tables -/

/-- Flattening coupled arrays keeps step. -/
theorem lockstep_flattenArray (hlawful : coupling.Lawful)
    (hfits : coupling.Fits guard) (hwalk : KeepsStep coupling guard stop walk walk')
    (hpath : keysAt path = .keywords) (h : CoupledSchemas coupling schema schema')
    (hstate : InStep coupling guard state state') :
    Lockstep stop (flattenArray walk schema path) (flattenArray walk' schema' path) state state'
      (SameOutcome coupling guard) := by
  have hitems : "items" ∉ coupling.apart := hlawful.counted _ (by decide)
  unfold flattenArray
  rw [h.switches "additionalItems" (by decide)]
  split_ifs
  · exact lockstep_bind (lockstep_throw _ _)
  · rcases h.find?_cases "items" hitems with
      ⟨hnone, hnone'⟩ | ⟨items, items', hvalue, hvalue', hcoupled⟩
    · rw [hnone, hnone']
      exact lockstep_pure ⟨.inPlace (coupled_schema_iff.mpr h), isListed_inPlace _, hstate⟩
    rw [hvalue, hvalue']
    have hwalked : ∀ {items items'}, Coupled coupling .keywords items items' →
        Lockstep stop
          (walk items (path.child "items") >>= fun walked =>
            pure (.inPlace (.obj (Assoc.insert schema "items" walked.toJson))))
          (walk' items' (path.child "items") >>= fun walked =>
            pure (.inPlace (.obj (Assoc.insert schema' "items" walked.toJson))))
          state state' (SameOutcome coupling guard) := by
      intro items items' hcoupled
      refine lockstep_bind ((hwalk (Beneath.items.keysAt hpath) hcoupled hstate).mono ?_)
      rintro walked walked' after after' ⟨hsame, -⟩
      refine lockstep_pure ⟨.inPlace (coupled_schema_iff.mpr ?_), isListed_inPlace _, hsame.inStep⟩
      have hswitch : "items" ∉ switches := by decide
      exact h.insert hlawful hitems (hsame.became.toJson hfits) (fun hmem => absurd hmem hswitch)
        (by decide)
    rcases hcoupled.cases_kind with ⟨hatom, rfl⟩ | ⟨_, _, rfl, rfl, -⟩ | ⟨_, _, rfl, rfl⟩
    · cases items' with
      | arr => cases hatom
      | obj => cases hatom
      | _ => exact hwalked hcoupled
    · exact lockstep_throw _ _
    · exact hwalked hcoupled

/-- The members of a table are schemas. -/
theorem keysAt_table {keyword name : String} (hkeyword : keyword ∈ tables)
    (hpath : keysAt path = .keywords) : keysAt (path ++ [keyword, name]) = .keywords := by
  rw [SchemaPath.append_pair]
  exact (Beneath.schema hkeyword name).keysAt hpath

/-- Flattening the members of coupled tables, one after the other, keeps step. -/
theorem lockstep_flattenEntries (hfits : coupling.Fits guard)
    (hwalk : KeepsStep coupling guard stop walk walk') {keyword : String}
    (hkeyword : keyword ∈ tables) (hpath : keysAt path = .keywords) {entries others : Entries}
    (h : Assoc.Related (fun _ => Coupled coupling .keywords) entries others)
    (hstate : InStep coupling guard state state') :
    Lockstep stop (flattenEntries walk path keyword entries)
      (flattenEntries walk' path keyword others) state state' fun flat flat' after after' =>
        Assoc.Related (fun _ => Coupled coupling .keywords) flat flat' ∧
        (∀ member ∈ flat, guard.leaves member.2) ∧ Assoc.keys flat = Assoc.keys entries ∧
        InStep coupling guard after after' := by
  induction h generalizing state state' with
  | nil => exact lockstep_pure ⟨.nil, fun _ hmem => absurd hmem List.not_mem_nil, rfl, hstate⟩
  | @cons entry other rest rest' hfirst _ ih =>
    obtain ⟨name, member⟩ := entry
    obtain ⟨name', member'⟩ := other
    obtain ⟨hname, hcoupled⟩ := hfirst
    obtain rfl : name = name' := hname
    unfold flattenEntries
    refine lockstep_bind ((hwalk (keysAt_table hkeyword hpath) hcoupled hstate).mono ?_)
    rintro walked walked' between between' ⟨hsame, hleaves⟩
    refine lockstep_bind ((ih hsame.inStep).mono ?_)
    rintro flat flat' after after' ⟨hrelated, hall, hkeys, hafter⟩
    refine lockstep_pure ⟨.cons ⟨rfl, hsame.became.toJson hfits⟩ hrelated, ?_, ?_, hafter⟩
    · intro member hmember
      rcases List.mem_cons.mp hmember with rfl | hrest
      · exact hleaves
      · exact hall member hrest
    · exact congrArg (name :: ·) hkeys

/-- Flattening coupled tables keeps step, whether they have members or are none at all. -/
theorem lockstep_flattenMembers (hfits : coupling.Fits guard)
    (hwalk : KeepsStep coupling guard stop walk walk') {keyword : String}
    (hkeyword : keyword ∈ tables) (hpath : keysAt path = .keywords) {members members' : Json}
    (h : Coupled coupling .names members members') (hstate : InStep coupling guard state state') :
    Lockstep stop (flattenMembers walk path keyword members)
      (flattenMembers walk' path keyword members') state state' fun flat flat' after after' =>
        Coupled coupling .names flat flat' ∧ flat.isTruthy = flat'.isTruthy ∧
        (∀ entries, flat = .obj entries → ∀ member ∈ entries, guard.leaves member.2) ∧
        InStep coupling guard after after' := by
  rcases h.cases_kind with ⟨hatom, rfl⟩ | ⟨_, _, rfl, rfl, -⟩ | ⟨entries, others, rfl, rfl⟩
  · cases members' with
    | arr => cases hatom
    | obj => cases hatom
    | _ => exact lockstep_throw _ _
  · exact lockstep_throw _ _
  · obtain ⟨hnodup, hrelated⟩ := coupled_table_iff.mp h
    unfold flattenMembers
    refine lockstep_bind ((lockstep_flattenEntries hfits hwalk hkeyword hpath hrelated hstate).mono
      ?_)
    rintro flat flat' after after' ⟨hflat, hall, hkeys, hafter⟩
    refine lockstep_pure ⟨coupled_table_iff.mpr ⟨hkeys ▸ hnodup, hflat⟩, ?_, ?_, hafter⟩
    · cases hflat <;> rfl
    · intro entries hentries
      exact Json.obj.inj hentries ▸ hall

/-! ### Combiners -/

variable {combiner : String}

/-- What coupled members contribute is coupled. -/
theorem lockstep_contribution (hfits : coupling.Fits guard) {memberPath : SchemaPath}
    {shared : Bool} (h : SameOutcome coupling guard walked walked' state state') :
    Lockstep stop (contribution document memberPath shared walked)
      (contribution document' memberPath shared walked') state state'
      fun contributed contributed' after after' =>
        Coupled coupling .keywords contributed contributed' ∧
        InStep coupling guard after after' := by
  obtain ⟨hbecame, hlisted, hstate⟩ := h
  cases hbecame with
  | inPlace h => exact lockstep_pure ⟨h, hstate⟩
  | @canonical target htarget =>
    obtain ⟨entry, hentry⟩ := Assoc.exists_find?_of_mem_keys (hlisted target rfl)
    obtain ⟨entry', hentry', hcoupled⟩ : ∃ entry', Assoc.find? state'.schemas target = some entry' ∧
        CoupledEntries coupling guard target entry entry' := by
      rcases hstate.schemas.find?_cases target with ⟨hnone, -⟩ | ⟨v, w, hv, hw, hcoupled⟩
      · cases hentry.symm.trans hnone
      · obtain rfl := Option.some.inj (hentry.symm.trans hv)
        exact ⟨w, hw, hcoupled⟩
    have hschema := coupled_schema_iff.mpr hcoupled.coupled
    unfold contribution
    by_cases hown : target = memberPath
    · subst hown
      simp only [ne_eq, not_true_eq_false, if_false]
      cases shared with
      | true =>
        have hnames : Names (.canonical target) target := rfl
        simp only [if_true]
        refine lockstep_bind (lockstep_get (lockstep_bind ?_))
        rw [findSchema_of_names document state.schemas hnames,
          findSchema_of_names document' state'.schemas hnames, hentry, hentry']
        exact lockstep_pure (lockstep_pure ⟨hschema, hstate⟩)
      | false =>
        simp only [Bool.false_eq_true, if_false]
        refine lockstep_bind (lockstep_get (lockstep_bind (lockstep_set (lockstep_pure ?_))))
        rw [hentry, hentry']
        exact ⟨hschema, hstate.schemas.erase target, hstate.inProgress⟩
    · simp only [ne_eq, hown, not_false_eq_true, if_true]
      exact lockstep_pure ⟨hfits.coupled_toSchema htarget, hstate⟩

/-- The members of a combiner are schemas. -/
theorem keysAt_member (hcombiner : combiner ∈ combiners) (index : Nat)
    (hpath : keysAt path = .keywords) :
    keysAt (path ++ [combiner, SchemaPath.ofIndex index]) = .keywords := by
  rw [SchemaPath.append_pair]
  exact (Beneath.member hcombiner index).keysAt hpath

/-- Folding a coupled member into coupled schemas keeps step. -/
theorem lockstep_foldMember (hlawful : coupling.Lawful) (hfits : coupling.Fits guard)
    (hwalk : KeepsStep coupling guard stop walk walk') (hcombiner : combiner ∈ combiners)
    (hpath : keysAt path = .keywords) (h : CoupledSchemas coupling schema schema') (index : Nat)
    {member member' : Json} (hmember : Coupled coupling .keywords member member')
    (hstate : InStep coupling guard state state') :
    Lockstep stop (foldMember document walk path combiner schema index member)
      (foldMember document' walk' path combiner schema' index member') state state'
      fun folded folded' after after' => CoupledSchemas coupling folded folded' ∧
        InStep coupling guard after after' := by
  unfold foldMember
  refine lockstep_bind (lockstep_get (lockstep_bind ?_))
  refine (hwalk (keysAt_member hcombiner index hpath) hmember hstate).mono ?_
  rintro walked walked' between between' ⟨hsame, -⟩
  rw [← hstate.schemas.contains_eq]
  refine lockstep_bind ((lockstep_contribution hfits hsame).mono ?_)
  rintro contributed contributed' after after' ⟨hcontributed, hafter⟩
  rcases hcontributed.cases_kind with
    ⟨hatom, rfl⟩ | ⟨_, _, rfl, rfl, -⟩ | ⟨source, source', rfl, rfl⟩
  · cases contributed' with
    | arr => cases hatom
    | obj => cases hatom
    | _ => exact lockstep_pure ⟨h, hafter⟩
  · exact lockstep_pure ⟨h, hafter⟩
  · obtain ⟨hiff, hmerged⟩ := h.merge hlawful (coupled_schema_iff.mp hcontributed)
    dsimp only
    cases hconflict : (merge schema source path).conflict with
    | none =>
      rw [hiff.mp hconflict]
      exact lockstep_pure ⟨hmerged hconflict, hafter⟩
    | some conflict =>
      cases hconflict' : (merge schema' source' path).conflict with
      | none => cases hconflict.symm.trans (hiff.mpr hconflict')
      | some conflict' => exact lockstep_throw _ _

/-- Folding coupled members one after the other keeps step. -/
theorem lockstep_foldMembers (hlawful : coupling.Lawful) (hfits : coupling.Fits guard)
    (hwalk : KeepsStep coupling guard stop walk walk') (hcombiner : combiner ∈ combiners)
    (hpath : keysAt path = .keywords) (h : CoupledSchemas coupling schema schema') (index : Nat)
    {members members' : List Json}
    (hmembers : List.Forall₂ (Coupled coupling .keywords) members members')
    (hstate : InStep coupling guard state state') :
    Lockstep stop (foldMembers document walk path combiner schema index members)
      (foldMembers document' walk' path combiner schema' index members') state state'
      fun folded folded' after after' => CoupledSchemas coupling folded folded' ∧
        InStep coupling guard after after' := by
  induction hmembers generalizing schema schema' index state state' with
  | nil => exact lockstep_pure ⟨h, hstate⟩
  | cons hfirst _ ih =>
    unfold foldMembers
    refine lockstep_bind ((lockstep_foldMember hlawful hfits hwalk hcombiner hpath h index hfirst
      hstate).mono ?_)
    rintro folded folded' between between' ⟨hfolded, hbetween⟩
    exact ih hfolded (index + 1) hbetween

/-- Folding a combiner keeps step. -/
theorem lockstep_foldCombiner (hlawful : coupling.Lawful) (hfits : coupling.Fits guard)
    (hwalk : KeepsStep coupling guard stop walk walk') (hcombiner : combiner ∈ combiners)
    (hpath : keysAt path = .keywords) (h : CoupledSchemas coupling schema schema')
    (hstate : InStep coupling guard state state') :
    Lockstep stop (foldCombiner document walk path schema combiner)
      (foldCombiner document' walk' path schema' combiner) state state'
      fun folded folded' after after' => CoupledSchemas coupling folded folded' ∧
        InStep coupling guard after after' := by
  have hplain : ∀ combiner ∈ combiners, combiner ∈ countedKeywords ∧ combiner ∉ switches ∧
      combiner ∉ comparedKeywords := by decide
  obtain ⟨hcounted, hswitch, hcompared⟩ := hplain combiner hcombiner
  have hkey := hlawful.counted combiner hcounted
  unfold foldCombiner
  rcases h.find?_cases combiner hkey with ⟨hnone, hnone'⟩ | ⟨value, value', hv, hv', hcoupled⟩
  · rw [hnone, hnone']
    exact lockstep_pure ⟨h, hstate⟩
  rw [hv, hv']
  cases value with
  | arr members =>
    obtain ⟨members', rfl, hmembers⟩ := hcoupled.exists_arr
    exact lockstep_foldMembers hlawful hfits hwalk hcombiner hpath
      (h.swapErase hlawful hkey hswitch hcompared) 0 hmembers hstate
  | obj =>
    obtain ⟨_, rfl⟩ := hcoupled.exists_obj
    exact lockstep_throw _ _
  | _ =>
    obtain rfl := hcoupled.eq_of_isAtom rfl
    exact lockstep_throw _ _

/-- Folding all combiners keeps step. -/
theorem lockstep_foldCombiners (hlawful : coupling.Lawful) (hfits : coupling.Fits guard)
    (hwalk : KeepsStep coupling guard stop walk walk') (hpath : keysAt path = .keywords)
    {keywords : List String} (hkeywords : ∀ keyword ∈ keywords, keyword ∈ combiners)
    (h : CoupledSchemas coupling schema schema') (hstate : InStep coupling guard state state') :
    Lockstep stop (keywords.foldlM (foldCombiner document walk path) schema)
      (keywords.foldlM (foldCombiner document' walk' path) schema') state state'
      fun folded folded' after after' => CoupledSchemas coupling folded folded' ∧
        InStep coupling guard after after' := by
  induction keywords generalizing schema schema' state state' with
  | nil => exact lockstep_pure ⟨h, hstate⟩
  | cons keyword rest ih =>
    rw [List.foldlM_cons, List.foldlM_cons]
    refine lockstep_bind ((lockstep_foldCombiner hlawful hfits hwalk
      (hkeywords keyword List.mem_cons_self) hpath h hstate).mono ?_)
    rintro folded folded' between between' ⟨hfolded, hbetween⟩
    exact ih (fun other hother => hkeywords other (List.mem_cons_of_mem _ hother)) hfolded hbetween

/-! ### Schemas -/

/-- Flattening coupled objects keeps step. -/
theorem lockstep_flattenObject (hlawful : coupling.Lawful) (hfits : coupling.Fits guard)
    (hwalk : KeepsStep coupling guard stop walk walk') (hpath : keysAt path = .keywords)
    (h : CoupledSchemas coupling schema schema') (hstate : InStep coupling guard state state') :
    Lockstep stop (flattenObject document walk schema path)
      (flattenObject document' walk' schema' path) state state' (SameOutcome coupling guard) := by
  have hproperties : "properties" ∉ coupling.apart := hlawful.counted _ (by decide)
  have hpatterns : "patternProperties" ∉ coupling.apart := hlawful.counted _ (by decide)
  unfold flattenObject
  refine lockstep_bind ((lockstep_foldCombiners hlawful hfits hwalk hpath (fun _ h => h) h
    hstate).mono ?_)
  rintro folded folded' between between' ⟨hfolded, hbetween⟩
  rw [hfolded.switches "additionalProperties" (by decide)]
  split_ifs
  · exact lockstep_bind (lockstep_throw _ _)
  rcases hfolded.find?_cases _ hproperties with
    ⟨hnone, hnone'⟩ | ⟨members, members', hv, hv', hmembers⟩
  · rcases hfolded.find?_cases _ hpatterns with
      ⟨hbare, hbare'⟩ | ⟨members, members', hv, hv', hmembers⟩
    · rw [hnone, hnone', hbare, hbare']
      exact lockstep_pure ⟨.inPlace (coupled_schema_iff.mpr hfolded), isListed_inPlace _, hbetween⟩
    · rw [hnone, hnone', hv, hv']
      refine lockstep_bind ((lockstep_flattenMembers hfits hwalk (by decide) hpath hmembers
        hbetween).mono ?_)
      rintro flat flat' after after' ⟨hflat, htruthy, -, hafter⟩
      exact lockstep_pure ⟨.inPlace (coupled_schema_iff.mpr (hfolded.insert hlawful hpatterns hflat
        (fun _ => htruthy) (by decide))), isListed_inPlace _, hafter⟩
  · rcases hfolded.find?_cases _ hpatterns with ⟨hbare, hbare'⟩ | ⟨_, _, hw, hw', -⟩
    · rw [hv, hv', hbare, hbare']
      refine lockstep_bind ((lockstep_flattenMembers hfits hwalk (by decide) hpath hmembers
        hbetween).mono ?_)
      rintro flat flat' after after' ⟨hflat, htruthy, hall, hafter⟩
      have hentry : CoupledEntries coupling guard path (Assoc.insert folded "properties" flat)
          (Assoc.insert folded' "properties" flat') := by
        refine ⟨hpath, hfolded.insert hlawful hproperties hflat (fun _ => htruthy) (by decide),
          fun table htable => ?_⟩
        rw [Assoc.find?_insert_self] at htable
        exact hall table (Option.some.inj htable)
      refine lockstep_bind (lockstep_modify (lockstep_pure ⟨.canonical hpath, ?_, ?_⟩))
      · intro target htarget
        obtain rfl := Walked.canonical.inj htarget
        exact Assoc.mem_keys_insert.mpr (.inr rfl)
      · exact ⟨hafter.schemas.insert hentry, hafter.inProgress⟩
    · rw [hv, hv', hw, hw']
      exact lockstep_throw _ _

/-- Coupled schemas of the same shape leave the walk idle on both sides or on neither. -/
theorem CoupledSchemas.isIdle_eq (hlawful : coupling.Lawful)
    (h : CoupledSchemas coupling schema schema') (shape : Shape) :
    isIdle schema shape = isIdle schema' shape := by
  have hcontains : ∀ key ∈ countedKeywords,
      Assoc.contains schema key = Assoc.contains schema' key :=
    fun key hkey => (h.contains_eq (hlawful.counted key hkey)).1
  cases shape with
  | object =>
    simp only [isIdle, combiners, tables, List.cons_append, List.nil_append, List.all_cons,
      List.all_nil, hcontains "oneOf" (by decide), hcontains "anyOf" (by decide),
      hcontains "allOf" (by decide), hcontains "properties" (by decide),
      hcontains "patternProperties" (by decide), h.switches "additionalProperties" (by decide)]
  | array => rw [isIdle, isIdle, hcontains "items" (by decide), h.switches _ (by decide)]
  | other => rfl

/-- The walk of a schema that the guard lets through keeps step. -/
theorem lockstep_flattenSchema (hlawful : coupling.Lawful) (hfits : coupling.Fits guard)
    (hdocuments : CoupledDocuments coupling document document')
    (hwalk : KeepsStep coupling guard stop walk walk') (hrefuses : Refuses walk)
    (hrefuses' : Refuses walk') (hpath : keysAt path = .keywords)
    (h : CoupledSchemas coupling schema schema') (hmeets : guard.meets schema)
    (hstate : InStep coupling guard state state') :
    Lockstep stop (flattenSchema document walk schema path)
      (flattenSchema document' walk' schema' path) state state' (SameOutcome coupling guard) := by
  have hreference : ∀ schema, Reference.ofSchema? schema = (textRef? schema).map .unresolved :=
    fun _ => rfl
  have htext := hfits.textRef h hmeets
  cases href : textRef? schema with
  | some text =>
    unfold flattenSchema
    rw [hreference, hreference, ← htext, href]
    refine (lockstep_followRef hdocuments hwalk hrefuses hrefuses' hstate fun target htarget =>
      hfits.leads h href htarget).mono fun walked walked' after after' hsame => hsame.1
  | none =>
    rcases hfits.shape h hmeets href with hshape | ⟨hshape, hidle⟩
    · unfold flattenSchema
      rw [hreference, hreference, ← htext, href, ← hshape]
      dsimp only [Option.map_none]
      cases Shape.ofSchema schema with
      | object => exact lockstep_flattenObject hlawful hfits hwalk hpath h hstate
      | array => exact lockstep_flattenArray hlawful hfits hwalk hpath h hstate
      | other =>
        exact lockstep_pure ⟨.inPlace (coupled_schema_iff.mpr h), isListed_inPlace _, hstate⟩
    · rw [flattenSchema_of_isIdle document' walk' path (htext ▸ href)
        (h.isIdle_eq hlawful _ ▸ hidle)]
      unfold flattenSchema
      rw [hreference, href, hshape]
      exact lockstep_pure ⟨.inPlace (coupled_schema_iff.mpr h), isListed_inPlace _, hstate⟩

/-! ### Walks of some depth -/

/-- The walk of a value at a place that the guard lets through keeps step. -/
theorem lockstep_visit (hlawful : coupling.Lawful) (hfits : coupling.Fits guard)
    (hdocuments : CoupledDocuments coupling document document')
    (hwalk : KeepsStep coupling guard stop walk walk') (hrefuses : Refuses walk)
    (hrefuses' : Refuses walk') (hpath : keysAt path = .keywords) {value value' : Json}
    (h : Coupled coupling .keywords value value') (hstate : InStep coupling guard state state')
    (hmeets : Assoc.contains state.schemas path || guard.admits value) :
    Lockstep stop (visit document walk value path) (visit document' walk' value' path) state state'
      (SameOutcome coupling guard) := by
  unfold visit
  refine lockstep_bind (lockstep_get ?_)
  rw [← hstate.inProgress, ← hstate.schemas.contains_eq]
  split_ifs with hprogress hlisted
  · exact lockstep_throw _ _
  · refine lockstep_pure ⟨.canonical hpath, fun target htarget => ?_, hstate⟩
    obtain rfl := Walked.canonical.inj htarget
    exact (Assoc.mem_keys_iff_contains _ _).mpr hlisted
  rcases h.cases_kind with ⟨hatom, rfl⟩ | ⟨_, _, rfl, rfl, -⟩ | ⟨schema, schema', rfl, rfl⟩
  · cases value' with
    | arr => cases hatom
    | obj => cases hatom
    | bool value => exact lockstep_pure ⟨.inPlace h, isListed_inPlace _, hstate⟩
    | _ => exact lockstep_throw _ _
  · exact lockstep_throw _ _
  · rw [Bool.eq_false_iff.mpr hlisted, Bool.false_or] at hmeets
    have hentered : InStep coupling guard
        { state with inProgress := state.inProgress ++ [path] }
        { state' with inProgress := state.inProgress ++ [path] } := ⟨hstate.schemas, rfl⟩
    refine lockstep_bind (lockstep_set (lockstep_bind ?_))
    refine (lockstep_flattenSchema hlawful hfits hdocuments hwalk hrefuses hrefuses' hpath
      (coupled_schema_iff.mp h) hmeets hentered).mono ?_
    rintro walked walked' after after' ⟨hbecame, hlisted, hafter⟩
    refine lockstep_bind (lockstep_modify (lockstep_pure ⟨hbecame, hlisted, hafter.schemas, ?_⟩))
    rw [hafter.inProgress]

/-- The walk that stops where the guard says so keeps step with the one that does not. -/
theorem keepsStep_guarded (hlawful : coupling.Lawful) (hfits : coupling.Fits guard)
    (hdocuments : CoupledDocuments coupling document document')
    (hwalk : KeepsStep coupling guard stop walk walk') (hrefuses : Refuses walk)
    (hrefuses' : Refuses walk') :
    KeepsStep coupling guard stop (guarded guard stop (visit document walk))
      (visit document' walk') := by
  intro value value' path state state' hpath h hstate
  by_cases hmeets : Assoc.contains state.schemas path || guard.admits value
  · have hrun : (guarded guard stop (visit document walk) value path).run state =
        (visit document walk value path >>= guard.pass stop).run state := by
      rw [run_guarded, if_pos hmeets]
    have hrun' : (visit document' walk' value' path).run state' =
        (visit document' walk' value' path >>= pure).run state' := by rw [bind_pure]
    refine lockstep_congr hrun hrun' (lockstep_bind ((lockstep_visit hlawful hfits hdocuments hwalk
      hrefuses hrefuses' hpath h hstate hmeets).mono ?_))
    intro walked walked' after after' hsame
    cases hwalked : walked with
    | canonical target =>
      subst hwalked
      exact lockstep_pure ⟨hsame, hfits.leaves_reference⟩
    | inPlace schema =>
      subst hwalked
      rw [Guard.pass]
      by_cases hleaves : guard.leaves schema
      · rw [if_pos hleaves]
        exact lockstep_pure ⟨hsame, hleaves⟩
      · rw [if_neg hleaves]
        exact lockstep_stop rfl
  · exact lockstep_stop (by rw [run_guarded, if_neg hmeets])

/-- Whatever the walk below does, visiting refuses what cannot be walked. -/
theorem refuses_visit (document : Json) (walk : Walker) : Refuses (visit document walk) := by
  intro schema path state hother hmissing
  have hvisit : Ensures (visit document walk schema path) state (fun _ _ => False)
      (fun _ => True) := by
    refine ensures_visit (fun _ => trivial) (fun _ hmem => hmissing hmem) (fun entries heq => ?_)
      (fun value heq => ?_) fun _ _ => trivial
    · rw [heq] at hother
      cases hother
    · rw [heq] at hother
      cases hother
  cases hrun : (visit document walk schema path).run state with
  | error error => exact ⟨error, rfl⟩
  | ok result => exact (hvisit.of_eq_ok hrun).elim

/-- The walk refuses what cannot be walked, at every depth. -/
theorem refuses_walk (document : Json) (depth : Nat) : Refuses (Flatten.walk document depth) := by
  cases depth with
  | zero => exact fun _ _ => ⟨.tooDeep, rfl⟩
  | succ depth => exact refuses_visit document _

/-- The guarded walk refuses what cannot be walked, at every depth. -/
theorem refuses_guardedWalk (guard : Guard) (beyond : FlattenError) (document : Json)
    (depth : Nat) : Refuses (guardedWalk guard beyond document depth) := by
  cases depth with
  | zero => exact fun _ _ => ⟨.tooDeep, rfl⟩
  | succ depth =>
    intro schema path state hother hmissing
    obtain ⟨error, herror⟩ := refuses_visit document (guardedWalk guard beyond document depth)
      hother hmissing
    have hadmits : guard.admits schema := by
      cases schema with
      | obj => cases hother
      | _ => rfl
    refine ⟨error, ?_⟩
    rw [guardedWalk, run_guarded, if_pos (by rw [hadmits, Bool.or_true]), StateT.run_bind, herror]
    rfl

/-- The walks of coupled documents keep step. -/
theorem keepsStep_walk (hlawful : coupling.Lawful) (hfits : coupling.Fits guard)
    (hdocuments : CoupledDocuments coupling document document') (stop : FlattenError)
    (depth : Nat) :
    KeepsStep coupling guard stop (guardedWalk guard stop document depth)
      (Flatten.walk document' depth) := by
  induction depth with
  | zero => exact fun _ _ _ => lockstep_throw _ _
  | succ depth ih =>
    exact keepsStep_guarded hlawful hfits hdocuments ih
      (refuses_guardedWalk guard stop document depth) (refuses_walk document' depth)

end Steps

/-! ### Whole documents -/

section Documents

variable {coupling : Coupling} {guard : Guard} {document document' : Json} {depth : Nat}

/-- Coupled documents are objects both or neither. -/
theorem CoupledDocuments.root (h : CoupledDocuments coupling document document') :
    (∃ schema schema', document = .obj schema ∧ document' = .obj schema' ∧
      Coupled coupling .keywords document document') ∨
    document.isObject = false ∧ document'.isObject = false := by
  have hbarren : ∀ {value : Json}, value.isWalkable = false → value.isObject = false := by
    intro value h
    cases value with
    | obj => cases h
    | _ => rfl
  rcases h .root with ⟨v, w, hv, hw, hcoupled⟩ | ⟨hleft, hright⟩
  · obtain rfl := Option.some.inj hv
    obtain rfl := Option.some.inj hw
    have hroot : Coupled coupling .keywords document document' := hcoupled rfl
    rcases hroot.cases_kind with ⟨hatom, rfl⟩ | ⟨_, _, rfl, rfl, -⟩ | ⟨schema, schema', rfl, rfl⟩
    · cases document' with
      | obj => cases hatom
      | _ => exact .inr ⟨rfl, rfl⟩
    · exact .inr ⟨rfl, rfl⟩
    · exact .inl ⟨schema, schema', rfl, rfl, hroot⟩
  · exact .inr ⟨hbarren (hleft document rfl), hbarren (hright document' rfl)⟩

/-- Flattening an object with a guard is the guarded walk of its root. -/
theorem guardedWithin_eq {beyond : FlattenError} (h : document.isObject) :
    guardedWithin guard beyond depth document =
      ((guardedWalk guard beyond document depth document .root).run {}).map fun result =>
        result.2.schemas :=
  if_pos h

/-- If the walk of a document keeps to a guard then the document and one that is coupled with it are
both refused, or both flattened to coupled entries at the same places. -/
theorem flattenWithin_coupled (hlawful : coupling.Lawful) (hfits : coupling.Fits guard)
    (hdocuments : CoupledDocuments coupling document document')
    (hkeeps : KeepsTo guard depth document) :
    (∃ error error', flattenWithin depth document = .error error ∧
      flattenWithin depth document' = .error error') ∨
    ∃ schemas schemas', flattenWithin depth document = .ok schemas ∧
      flattenWithin depth document' = .ok schemas' ∧
      Assoc.Related (CoupledEntries coupling guard) schemas schemas' := by
  rcases hdocuments.root with ⟨schema, schema', hleft, hright, hroot⟩ | ⟨hleft, hright⟩
  swap
  · refine .inl ⟨_, _, if_neg ?_, if_neg ?_⟩
    · rw [hleft]
      exact Bool.false_ne_true
    · rw [hright]
      exact Bool.false_ne_true
  have hobject : document.isObject := hleft ▸ rfl
  have hobject' : document'.isObject := hright ▸ rfl
  have hstart : InStep coupling guard {} {} := ⟨.nil, rfl⟩
  have hplace : keysAt .root = .keywords := rfl
  have hstep := fun stop =>
    keepsStep_walk hlawful hfits hdocuments stop depth hplace hroot hstart
  -- what the guarded walk ends with, flattening ends with
  have hrun : ∀ stop, flattenWithin depth document =
      ((guardedWalk guard stop document depth document .root).run {}).map fun result =>
        result.2.schemas := fun stop => (hkeeps stop).symm.trans (guardedWithin_eq hobject)
  have hrun' := flattenWithin_eq hobject' depth
  cases h' : (Flatten.walk document' depth document' .root).run {} with
  | error error' =>
    cases h : (guardedWalk guard .tooDeep document depth document .root).run {} with
    | error error =>
      refine .inl ⟨error, error', ?_, ?_⟩
      · rw [hrun .tooDeep, h]
        rfl
      · rw [hrun', h']
        rfl
    | ok result =>
      obtain ⟨_, _, hok, -⟩ := (hstep .tooDeep).exists_ok h
      cases hok.symm.trans h'
  | ok result' =>
    -- if it stopped, then it would stop with every error
    have hgoes : ∃ stop walked after,
        (guardedWalk guard stop document depth document .root).run {} = .ok (walked, after) ∧
        InStep coupling guard after result'.2 := by
      rcases (hstep .tooDeep).of_eq_ok h' with hdeep | ⟨walked, after, hok, hsame, -⟩
      · rcases (hstep (.violation .root .notObjectSchema)).of_eq_ok h' with
          hrule | ⟨walked, after, hok, hsame, -⟩
        · have hsame := (hrun .tooDeep).symm.trans (hrun (.violation .root .notObjectSchema))
          rw [hdeep, hrule] at hsame
          cases hsame
        · exact ⟨_, walked, after, hok, hsame.inStep⟩
      · exact ⟨_, walked, after, hok, hsame.inStep⟩
    obtain ⟨stop, walked, after, hok, hafter⟩ := hgoes
    refine .inr ⟨after.schemas, result'.2.schemas, ?_, ?_, hafter.schemas⟩
    · rw [hrun stop, hok]
      rfl
    · rw [hrun', h']
      rfl

end Documents

end SchemaClasses
