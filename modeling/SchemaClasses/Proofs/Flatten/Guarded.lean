import SchemaClasses.Proofs.Flatten.Outcome

/-!
# Walks that keep to something

A `Guard` says which schemas a walk may meet and what it may leave in place. `guardedWalk` is the
walk that stops where something else happens, and a document is flattened within the guard if that
makes no difference (`KeepsTo`), whichever error it would stop with.
-/

namespace SchemaClasses.Flatten

/-- What a walk may come across. -/
structure Guard where
  /-- Whether an object may be walked. -/
  meets : Entries → Bool
  /-- Whether a value may be left in place. -/
  leaves : Json → Bool

/-- Whether a value may be walked. -/
def Guard.admits (guard : Guard) : Json → Bool
  | .obj schema => guard.meets schema
  | _ => true

/-- Stops where something is left in place that may not be. -/
def Guard.pass (guard : Guard) (beyond : FlattenError) : Walked → FlattenM Walked
  | .canonical target => return .canonical target
  | .inPlace schema => if guard.leaves schema then return .inPlace schema else throw beyond

/-- A walk that also stops before schemas that may not be walked, unless they are complete. -/
def guarded (guard : Guard) (beyond : FlattenError) (walk : Walker) : Walker :=
  fun schema path => do
    let state ← get
    if Assoc.contains state.schemas path || guard.admits schema then
      guard.pass beyond (← walk schema path)
    else throw beyond

/-- A guarded walk is the walk if the schema is complete or may be walked, and stops otherwise. -/
theorem run_guarded (guard : Guard) (beyond : FlattenError) (walk : Walker) (schema : Json)
    (path : SchemaPath) (state : FlattenState) :
    (guarded guard beyond walk schema path).run state =
      if Assoc.contains state.schemas path || guard.admits schema then
        (walk schema path >>= guard.pass beyond).run state
      else .error beyond := by
  change (if Assoc.contains state.schemas path || guard.admits schema then
    walk schema path >>= guard.pass beyond else throw beyond : FlattenM _).run state = _
  split_ifs <;> rfl

/-- The walk of a document, down to a depth, that keeps to a guard. -/
def guardedWalk (guard : Guard) (beyond : FlattenError) (document : Json) : Nat → Walker
  | 0 => fun _ _ => throw .tooDeep
  | depth + 1 => guarded guard beyond (visit document (guardedWalk guard beyond document depth))

/-- The flattened schemas of a document, if its walk keeps to a guard. -/
def guardedWithin (guard : Guard) (beyond : FlattenError) (depth : Nat) (document : Json) :
    Except FlattenError FlatSchemas :=
  if document.isObject then
    ((guardedWalk guard beyond document depth document .root).run {}).map fun result =>
      result.2.schemas
  else .error (.violation .root .notObjectSchema)

/-- Whether flattening a document down to a depth meets nothing and leaves nothing in place that a
guard does not let through, so that it makes no difference with which error it would stop there. -/
def KeepsTo (guard : Guard) (depth : Nat) (document : Json) : Prop :=
  ∀ beyond, guardedWithin guard beyond depth document = flattenWithin depth document

/-- A guard that lets everything through changes nothing. -/
theorem keepsTo_of_all {guard : Guard} (hmeets : ∀ schema, guard.meets schema)
    (hleaves : ∀ value, guard.leaves value) (depth : Nat) (document : Json) :
    KeepsTo guard depth document := by
  intro beyond
  have hadmits : ∀ schema, guard.admits schema := by
    intro schema
    cases schema with
    | obj schema => exact hmeets schema
    | _ => rfl
  have hpass : guard.pass beyond = pure := by
    funext walked
    cases walked with
    | canonical target => rfl
    | inPlace schema => exact if_pos (hleaves schema)
  have hguarded : ∀ walk : Walker, guarded guard beyond walk = walk := by
    intro walk
    funext schema path state
    have hrun := run_guarded guard beyond walk schema path state
    rwa [hadmits, Bool.or_true, if_pos rfl, hpass, bind_pure] at hrun
  have hwalk : ∀ depth, guardedWalk guard beyond document depth = walk document depth := by
    intro depth
    induction depth with
    | zero => rfl
    | succ depth ih => rw [guardedWalk, hguarded, ih, walk]
  by_cases hobject : document.isObject
  · rw [flattenWithin_eq hobject, guardedWithin, if_pos hobject, hwalk]
  · unfold flattenWithin guardedWithin
    rw [if_neg hobject, if_neg hobject]

/-! ### Checking a walk -/

/-- Whether one computation succeeds with what another one succeeds with. -/
def Follows {α : Type} (x y : FlattenM α) : Prop :=
  ∀ state result, x.run state = .ok result → y.run state = .ok result

/-- Following is kept by the operations that the walk is put together from. -/
theorem admissible_follows : Admissible fun {α : Type} (family : Bool → FlattenM α) =>
    Follows (family false) (family true) where
  const := fun _ _ _ h => h
  bind := by
    intro α β x f hx hf state result h
    rw [StateT.run_bind] at h ⊢
    cases hfirst : (x false).run state with
    | error error =>
      rw [hfirst] at h
      cases h
    | ok first =>
      rw [hfirst] at h
      rw [hx state first hfirst]
      exact hf first.1 first.2 result h

/-- If the walks below follow each other, so do the visits. -/
theorem follows_visit {walk walk' : Walker}
    (hwalk : ∀ schema path, Follows (walk schema path) (walk' schema path)) (document schema : Json)
    (path : SchemaPath) :
    Follows (visit document walk schema path) (visit document walk' schema path) := by
  let walks : Bool → Walker := fun wider => cond wider walk' walk
  have hwalks : ∀ schema path, Follows (walks false schema path) (walks true schema path) := hwalk
  have hvisit : Follows (visit document (walks false) schema path)
      (visit document (walks true) schema path) :=
    admissible_visit admissible_follows hwalks document schema path
  exact hvisit

section Wider

variable {guard guard' : Guard} (hmeets : ∀ schema, guard.meets schema → guard'.meets schema)
  (hleaves : ∀ value, guard.leaves value → guard'.leaves value) (beyond beyond' : FlattenError)

include hmeets hleaves

/-- What one guard lets through a wider one does. -/
theorem follows_guarded {walk walk' : Walker}
    (hwalk : ∀ schema path, Follows (walk schema path) (walk' schema path)) (schema : Json)
    (path : SchemaPath) :
    Follows (guarded guard beyond walk schema path) (guarded guard' beyond' walk' schema path) := by
  have hadmits : guard.admits schema → guard'.admits schema := by
    cases schema with
    | obj schema => exact hmeets schema
    | _ => exact fun h => h
  have hpass : ∀ walked, Follows (guard.pass beyond walked) (guard'.pass beyond' walked) := by
    intro walked state result h
    cases walked with
    | canonical target => exact h
    | inPlace value =>
      unfold Guard.pass at h ⊢
      dsimp only at h ⊢
      split_ifs at h with hleft
      · rwa [if_pos (hleaves value hleft)]
      · cases h
  let computations : Bool → FlattenM Walked := fun wider => cond wider
    (walk' schema path >>= guard'.pass beyond') (walk schema path >>= guard.pass beyond)
  have hcomputations : Follows (computations false) (computations true) :=
    admissible_follows.bind (fun wider => cond wider (walk' schema path) (walk schema path))
      (fun wider => cond wider (guard'.pass beyond') (guard.pass beyond)) (hwalk schema path) hpass
  intro state result h
  rw [run_guarded] at h ⊢
  split_ifs at h with hthrough
  have hwider : (Assoc.contains state.schemas path || guard'.admits schema) = true := by
    rw [Bool.or_eq_true] at hthrough ⊢
    exact hthrough.imp_right hadmits
  rw [if_pos hwider]
  exact hcomputations state result h

/-- What a guarded walk succeeds with, one with a wider guard succeeds with as well. -/
theorem follows_guardedWalk (document : Json) (depth : Nat) (schema : Json) (path : SchemaPath) :
    Follows (guardedWalk guard beyond document depth schema path)
      (guardedWalk guard' beyond' document depth schema path) := by
  induction depth generalizing schema path with
  | zero => exact fun _ _ h => h
  | succ depth ih =>
    exact follows_guarded hmeets hleaves beyond beyond' (follows_visit ih document) schema path

/-- Flattening with a wider guard gives the same table. -/
theorem guardedWithin_of_ok {depth : Nat} {document : Json} {schemas : FlatSchemas}
    (h : guardedWithin guard beyond depth document = .ok schemas) :
    guardedWithin guard' beyond' depth document = .ok schemas := by
  unfold guardedWithin at h ⊢
  split_ifs at h ⊢ with hobject
  cases hrun : (guardedWalk guard beyond document depth document .root).run {} with
  | error error =>
    rw [hrun] at h
    cases h
  | ok result =>
    rw [hrun] at h
    rwa [follows_guardedWalk hmeets hleaves beyond beyond' document depth document .root _ _ hrun]

end Wider

/-- A walk that succeeds within a guard keeps to it. -/
theorem keepsTo_of_isOk {guard : Guard} {beyond : FlattenError} {depth : Nat} {document : Json}
    (h : (guardedWithin guard beyond depth document).isOk) : KeepsTo guard depth document := by
  intro beyond'
  cases hflat : guardedWithin guard beyond depth document with
  | error error =>
    rw [hflat] at h
    cases h
  | ok schemas =>
    let wide : Guard := ⟨fun _ => true, fun _ => true⟩
    have hwide : guardedWithin wide beyond depth document = .ok schemas :=
      guardedWithin_of_ok (fun _ _ => rfl) (fun _ _ => rfl) beyond beyond hflat
    have hsame : guardedWithin guard beyond' depth document = .ok schemas :=
      guardedWithin_of_ok (fun _ h => h) (fun _ h => h) beyond beyond' hflat
    exact hsame.trans (hwide.symm.trans
      (keepsTo_of_all (fun _ => rfl) (fun _ => rfl) depth document beyond))

end SchemaClasses.Flatten
