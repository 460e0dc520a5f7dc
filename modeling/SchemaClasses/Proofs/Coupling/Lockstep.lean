import SchemaClasses.Flatten.Walk

/-!
# Two walks side by side

`FlattenM.Lockstep stop x y state other good` says that two computations which are run from two
states either both fail or both succeed with results and states that are `good` together, but for
one thing: the first one may stop with the error `stop` where the second one goes on.
-/

namespace SchemaClasses

namespace FlattenM

variable {α β γ δ : Type} {stop : FlattenError} {state other : FlattenState}
  {good : α → β → FlattenState → FlattenState → Prop}

/-- Whether two computations both fail or have good results together, unless the first one stops. -/
def Lockstep (stop : FlattenError) (x : FlattenM α) (y : FlattenM β) (state other : FlattenState)
    (good : α → β → FlattenState → FlattenState → Prop) : Prop :=
  match x.run state, y.run other with
  | .ok (a, after), .ok (b, after') => good a b after after'
  | .error error, .ok _ => error = stop
  | .ok _, .error _ => False
  | .error _, .error _ => True

/-- Good results are good together. -/
theorem lockstep_pure {a : α} {b : β} (h : good a b state other) :
    Lockstep stop (pure a) (pure b) state other good := h

/-- Failures need not agree on the error. -/
theorem lockstep_throw (error error' : FlattenError) :
    Lockstep stop (throw error : FlattenM α) (throw error' : FlattenM β) state other good :=
  trivial

/-- The first computation may stop. -/
theorem lockstep_stop {x : FlattenM α} {y : FlattenM β} (h : x.run state = .error stop) :
    Lockstep stop x y state other good := by
  unfold Lockstep
  rw [h]
  cases y.run other with
  | error error => trivial
  | ok result => rfl

/-- Computations that both fail are in lockstep. -/
theorem lockstep_of_errors {x : FlattenM α} {y : FlattenM β}
    (h : ∃ error, x.run state = .error error) (h' : ∃ error, y.run other = .error error) :
    Lockstep stop x y state other good := by
  obtain ⟨error, h⟩ := h
  obtain ⟨error', h'⟩ := h'
  unfold Lockstep
  rw [h, h']
  trivial

/-- Two sequences go side by side if their first steps do, and then what comes after them. -/
theorem lockstep_bind {x : FlattenM α} {y : FlattenM β} {f : α → FlattenM γ} {g : β → FlattenM δ}
    {good : γ → δ → FlattenState → FlattenState → Prop}
    (h : Lockstep stop x y state other fun a b after after' =>
      Lockstep stop (f a) (g b) after after' good) :
    Lockstep stop (x >>= f) (y >>= g) state other good := by
  unfold Lockstep at h ⊢
  rw [StateT.run_bind, StateT.run_bind]
  cases hx : x.run state with
  | error error =>
    rw [hx] at h
    cases hy : y.run other with
    | error error' => trivial
    | ok result =>
      rw [hy] at h
      change match (.error error : Except FlattenError (γ × FlattenState)),
        (g result.1).run result.2 with
        | .ok (a, after), .ok (b, after') => good a b after after'
        | .error error, .ok _ => error = stop
        | .ok _, .error _ => False
        | .error _, .error _ => True
      cases (g result.1).run result.2 with
      | error error' => trivial
      | ok last => exact h
  | ok result =>
    rw [hx] at h
    cases hy : y.run other with
    | error error' =>
      rw [hy] at h
      exact h.elim
    | ok result' =>
      rw [hy] at h
      exact h

/-- Reading the states keeps them. -/
theorem lockstep_get {good : FlattenState → FlattenState → FlattenState → FlattenState → Prop}
    (h : good state other state other) : Lockstep stop get get state other good := h

/-- The states that are put in count from then on. -/
theorem lockstep_set {after after' : FlattenState}
    {good : PUnit → PUnit → FlattenState → FlattenState → Prop} (h : good ⟨⟩ ⟨⟩ after after') :
    Lockstep stop (set after) (set after') state other good := h

/-- The changed states count from then on. -/
theorem lockstep_modify {f g : FlattenState → FlattenState}
    {good : PUnit → PUnit → FlattenState → FlattenState → Prop}
    (h : good ⟨⟩ ⟨⟩ (f state) (g other)) :
    Lockstep stop (modify f) (modify g) state other good := h

/-- Whether computations are in lockstep depends only on what they end with. -/
theorem lockstep_congr {x x' : FlattenM α} {y y' : FlattenM β} (hx : x.run state = x'.run state)
    (hy : y.run other = y'.run other) (h : Lockstep stop x' y' state other good) :
    Lockstep stop x y state other good := by
  unfold Lockstep at h ⊢
  rw [hx, hy]
  exact h

/-- What is good may be weakened. -/
theorem Lockstep.mono {x : FlattenM α} {y : FlattenM β}
    {good' : α → β → FlattenState → FlattenState → Prop} (h : Lockstep stop x y state other good)
    (hgood : ∀ a b after after', good a b after after' → good' a b after after') :
    Lockstep stop x y state other good' := by
  unfold Lockstep at h ⊢
  cases hx : x.run state with
  | error error =>
    rw [hx] at h
    cases hy : y.run other with
    | error error' => trivial
    | ok result' =>
      rw [hy] at h
      exact h
  | ok result =>
    rw [hx] at h
    cases hy : y.run other with
    | error error' =>
      rw [hy] at h
      exact h.elim
    | ok result' =>
      rw [hy] at h
      exact hgood _ _ _ _ h

/-- What the second computation succeeds with the first one does as well, unless it stops. -/
theorem Lockstep.of_eq_ok {x : FlattenM α} {y : FlattenM β}
    (h : Lockstep stop x y state other good) {b : β} {after' : FlattenState}
    (hy : y.run other = .ok (b, after')) :
    x.run state = .error stop ∨
      ∃ a after, x.run state = .ok (a, after) ∧ good a b after after' := by
  unfold Lockstep at h
  rw [hy] at h
  cases hx : x.run state with
  | error error =>
    rw [hx] at h
    exact .inl (congrArg Except.error h)
  | ok result =>
    rw [hx] at h
    exact .inr ⟨result.1, result.2, rfl, h⟩

/-- What the first computation succeeds with the second one does as well. -/
theorem Lockstep.exists_ok {x : FlattenM α} {y : FlattenM β}
    (h : Lockstep stop x y state other good) {a : α} {after : FlattenState}
    (hx : x.run state = .ok (a, after)) :
    ∃ b after', y.run other = .ok (b, after') ∧ good a b after after' := by
  unfold Lockstep at h
  rw [hx] at h
  cases hy : y.run other with
  | error error =>
    rw [hy] at h
    exact h.elim
  | ok result =>
    rw [hy] at h
    exact ⟨result.1, result.2, rfl, h⟩

-- from here on only the rules open it: the unifier would run the computations
attribute [irreducible] Lockstep

end FlattenM

end SchemaClasses
