import SchemaClasses.Proofs.Flatten.Growth
import SchemaClasses.Proofs.Flatten.Termination

/-!
# The walk without a limit

Main statement (`terminates_of_wellFounded`): flattening a document ends if no chain of calls goes
on for ever. A call is a schema at a place below the places that are being walked, and an invariant
of the walk tells which calls it may lead to (`Invariant.Leads`), so what is to be shown is about
single steps of the walk, and no longer about its runs.

The walk down to a depth always ends. What is the same for all depths from some depth on is the walk
without a limit (`IsUnbounded`): it is the walk of a schema over itself (`IsUnbounded.eq_visit`),
and it goes too deep just where all walks do. So the induction is along the calls and not on the
depth, and no bound for it has to be known beforehand.
-/

namespace SchemaClasses.Flatten

open FlattenM

/-! ### All depths at once -/

/-- Whether a walk does what the walks down to all depths do from some depth on. -/
def IsUnbounded (document : Json) (unbounded : Walker) : Prop :=
  ∀ schema path state, ∃ bound, ∀ depth, bound ≤ depth →
    (walk document depth schema path).run state = (unbounded schema path).run state

section Unbounded

variable {document : Json} {unbounded : Walker}

/-- All walks down to a high enough depth do the same. -/
theorem exists_run (document schema : Json) (path : SchemaPath) (state : FlattenState) :
    ∃ result, ∃ bound, ∀ depth, bound ≤ depth →
      (walk document depth schema path).run state = result := by
  by_cases hends : ∃ bound, (walk document bound schema path).run state ≠ .error .tooDeep
  · obtain ⟨bound, hbound⟩ := hends
    exact ⟨_, bound, fun depth hdepth => walk_of_le hdepth hbound⟩
  · exact ⟨.error .tooDeep, 0, fun depth _ => not_not.mp (not_exists.mp hends depth)⟩

/-- There is a walk without a limit. -/
theorem exists_isUnbounded (document : Json) : ∃ unbounded, IsUnbounded document unbounded := by
  choose result bound hresult using exists_run document
  exact ⟨fun schema path state => result schema path state,
    fun schema path state => ⟨bound schema path state, hresult schema path state⟩⟩

/-- The walk without a limit is the walk of a schema over itself. -/
theorem IsUnbounded.eq_visit (h : IsUnbounded document unbounded) (schema : Json)
    (path : SchemaPath) : unbounded schema path = visit document unbounded schema path := by
  -- the walks down to each depth, and the one without a limit as what they come to
  let walks : Option (Nat × Walker) → Walker :=
    fun limit => limit.elim unbounded fun bounded => walk document bounded.1
  have hwalks : ∀ schema path, EventuallySame fun i => walks i schema path := by
    intro schema path state
    obtain ⟨bound, hbound⟩ := h schema path state
    exact ⟨bound, fun depth hdepth _ => hbound depth hdepth⟩
  refine StateT.ext fun state => ?_
  obtain ⟨bound, hbound⟩ := h schema path state
  obtain ⟨bound', hbound'⟩ :=
    admissible_visit admissible_eventuallySame hwalks document schema path state
  calc (unbounded schema path).run state
    _ = (walk document (max bound bound' + 1) schema path).run state :=
        (hbound _ ((Nat.le_max_left _ _).trans (Nat.le_succ _))).symm
    _ = (visit document unbounded schema path).run state :=
        hbound' _ (Nat.le_max_right _ _) unbounded

/-- The walk without a limit keeps whatever all walks keep. -/
theorem IsUnbounded.keeps (h : IsUnbounded document unbounded) {inv : Invariant}
    (hkept : inv.Kept document) : Keeps inv (fun _ => True) unbounded := by
  intro schema path state hgrounded hschema
  obtain ⟨bound, hbound⟩ := h schema path state
  exact (keeps_walk hkept averts_all bound schema path state hgrounded hschema).congr
    (hbound bound (Nat.le_refl _))

end Unbounded

/-! ### Chains of calls -/

/-- A schema at a place that is walked while others are being walked. -/
structure Call where
  /-- The places that are being walked. -/
  inProgress : List SchemaPath
  /-- The place of the schema. -/
  path : SchemaPath
  /-- The schema. -/
  schema : Json

/-- Whether a call may be made by another one, which has not met its place again. -/
structure Invariant.Descends (inv : Invariant) (document : Json) (inner outer : Call) : Prop where
  fresh : outer.path ∉ outer.inProgress
  inProgress : inner.inProgress = outer.inProgress ++ [outer.path]
  leads : inv.Leads document outer.path outer.schema inner.path inner.schema

section Ends

variable {inv : Invariant} {document : Json} (hkept : inv.Kept document)

include hkept

/-- A call ends if no chain of calls goes on for ever from there. -/
theorem ends_of_acc {unbounded : Walker} (hunbounded : IsUnbounded document unbounded)
    {call : Call} (hacc : Acc (inv.Descends document) call) {state : FlattenState}
    (hprogress : state.inProgress = call.inProgress) (hgrounded : Grounded inv state.schemas)
    (hraw : inv.raw (Assoc.keys state.schemas) call.path call.schema) :
    Ensures (unbounded call.schema call.path) state (fun _ _ => True) (· ≠ .tooDeep) := by
  induction hacc generalizing state with
  | intro call _ ih =>
    have hsteps : inv.StepsAvert document (· ≠ .tooDeep) :=
      ⟨fun _ hne _ => hne, fun _ _ _ => nofun⟩
    -- the calls that are made end, and whatever ends has kept the invariant
    have hwalk : KeepsOn inv (· ≠ .tooDeep) unbounded fun inProgress path schema =>
        inv.Descends document ⟨inProgress, path, schema⟩ call := by
      intro schema path state hgrounded hcall
      have hends : Ensures (unbounded schema path) state (fun _ _ => True) (· ≠ .tooDeep) := by
        rcases hcall with hlisted | ⟨hraw, hdescends⟩
        · rw [hunbounded.eq_visit]
          exact ensures_visit (fun _ => nofun) (fun _ _ => trivial)
            (fun _ _ _ hnew => absurd hlisted hnew) (fun _ _ _ _ => trivial) fun _ _ => nofun
        · exact ih _ hdescends rfl hgrounded hraw
      refine ((hunbounded.keeps hkept schema path state hgrounded
        (hcall.imp_right And.left)).both hends).mono (fun _ _ h => h.1) fun _ h => h.2
    have hvisit := kept_visit hkept hsteps hwalk hgrounded (.inr hraw) fun hnew place next hleads =>
      ⟨hprogress ▸ hnew, congrArg (· ++ [call.path]) hprogress, hleads⟩
    rw [hunbounded.eq_visit]
    exact hvisit.mono (fun _ _ _ => trivial) fun _ h => h

/-- Flattening ends if no chain of calls goes on for ever. -/
theorem terminates_of_wellFounded (hraw : inv.raw [] .root document)
    (hwellFounded : WellFounded (inv.Descends document)) : Terminates document := by
  obtain ⟨unbounded, hunbounded⟩ := exists_isUnbounded document
  have hends : Ensures (unbounded document .root) {} (fun _ _ => True) (· ≠ .tooDeep) :=
    ends_of_acc hkept hunbounded (hwellFounded.apply ⟨[], .root, document⟩) rfl .nil hraw
  obtain ⟨bound, hbound⟩ := hunbounded document .root {}
  refine terminates_iff_walk.mpr ⟨bound, fun hdeep => ?_⟩
  exact hends.of_eq_error ((hbound bound (Nat.le_refl _)).symm.trans hdeep) rfl

end Ends

end SchemaClasses.Flatten
