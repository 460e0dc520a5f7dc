import SchemaClasses.Proofs.Flatten.Growth

/-!
# What a walk adds for its caller

Main statement (`adds_walk`): whatever a walk does on the way, for its caller it only adds entries.
The places that are being walked are the same ones in the same order again, the table is the former
one with more entries behind it, and the place that the walk has arrived at, if any, is in the
table (`Adds`).

* Folding a combiner takes an entry out of the table again, but never one that the caller had: it is
  the last entry, and the member that was just walked has brought it about. That is part of
  `keeps_walk`, which holds of every invariant, so of the one that asks for nothing (`anything`) as
  well. All that is left of being grounded is that no place is listed twice
  (`grounded_anything_iff`).
* No walk makes such a table, so the statement holds of every call in a run from an empty state. To
  say this of the calls, and not of states that they might begin with, `assertedWalk` looks at the
  state before and after each call, and fails if something else has happened than that entries were
  added. It does the same as the walk without the test, whatever the error would be
  (`assertedWalk_eq_walk`), so the test never fails.
-/

namespace SchemaClasses.Flatten

open FlattenM

/-- What a call of the walk has done, as far as its caller can see: nothing but to add entries to
the table, among them or among the former ones that of the place it has arrived at. -/
structure Adds (before : FlattenState) (walked : Walked) (after : FlattenState) : Prop where
  /-- The same places are being walked, in the same order. -/
  inProgress : after.inProgress = before.inProgress
  /-- The former entries are the first ones, as they were. -/
  schemas : before.schemas <+: after.schemas
  /-- What the caller refers to is listed. -/
  listed : ∀ path, walked = .canonical path → path ∈ Assoc.keys after.schemas

/-! ### Every call by itself -/

/-- Nothing is asked of the schemas that are walked. -/
def anything : Invariant where
  raw := fun _ _ _ => True
  folding := fun _ _ _ _ _ => True
  left := fun _ _ _ _ => True
  listed := fun _ _ _ => True

/-- Since nothing is asked, the walk keeps it. -/
theorem anything_kept (document : Json) : anything.Kept document := by
  constructor <;> simp [anything]

/-- What remains to be asked of a table. -/
theorem grounded_anything_iff {schemas : FlatSchemas} :
    Grounded anything schemas ↔ (Assoc.keys schemas).Nodup := by
  refine ⟨Grounded.nodup_keys, fun hnodup => ?_⟩
  induction schemas using List.reverseRecOn with
  | nil => exact .nil
  | append_singleton front last ih =>
    obtain ⟨path, entry⟩ := last
    rw [keys_append] at hnodup
    have hnew : path ∉ Assoc.keys front := fun hmem =>
      List.disjoint_of_nodup_append hnodup hmem List.mem_cons_self
    exact (ih hnodup.of_append_left).snoc hnew trivial

section Calls

variable {document : Json} {path : SchemaPath} {schema origin : Json} {walked : Walked}
  {before after : FlattenState}

/-- Whatever invariant a walk keeps, it only adds entries. -/
theorem Kept.adds {inv : Invariant} (h : Kept inv before path origin walked after) :
    Adds before walked after := by
  obtain ⟨added, hadded, -⟩ := h.grows.added
  refine ⟨h.grows.inProgress, ⟨added, hadded.symm⟩, ?_⟩
  rintro place rfl
  exact h.arrives.1

/-- A walk that ends with a result has only added entries, and has listed no place twice. -/
theorem adds_of_run (hnodup : (Assoc.keys before.schemas).Nodup) {depth : Nat}
    (hrun : (walk document depth schema path).run before = .ok (walked, after)) :
    Adds before walked after ∧ (Assoc.keys after.schemas).Nodup := by
  have hkept := (keeps_walk (anything_kept document) averts_all depth schema path before
    (grounded_anything_iff.mpr hnodup) (.inr trivial)).of_eq_ok hrun
  exact ⟨hkept.1.adds, hkept.1.grows.grounded.nodup_keys⟩

end Calls

/-! ### All calls of a run -/

open Classical in
/-- A walk with a look at the state before and after it, which fails if it has done anything but add
entries. -/
noncomputable def asserted (error : FlattenError) (walk : Walker) : Walker := fun schema path => do
  let before ← get
  let walked ← walk schema path
  let after ← get
  if Adds before walked after then return walked else throw error

/-- The walk of a document, down to a depth, in which every call is looked at. -/
noncomputable def assertedWalk (error : FlattenError) (document : Json) : Nat → Walker
  | 0 => fun _ _ => throw .tooDeep
  | depth + 1 => asserted error (visit document (assertedWalk error document depth))

/-- Whether computations that fail with an error of their own, each with another one, do what one
without does, unless all of them fail. -/
def Transparent {α : Type} (family : Option FlattenError → FlattenM α) : Prop :=
  ∀ state, (∀ error, (family (some error)).run state = .error error) ∨
    ∀ error, (family (some error)).run state = (family none).run state

/-- Being transparent is kept by the operations that the walk is put together from. -/
theorem admissible_transparent : Admissible @Transparent where
  const := fun _ _ => .inr fun _ => rfl
  bind := by
    intro α β x f hx hf state
    simp only [StateT.run_bind]
    rcases hx state with hfails | hsame
    · left
      intro error
      rw [hfails error]
      rfl
    · simp only [hsame]
      cases (x none).run state with
      | error e => exact .inr fun _ => rfl
      | ok result => exact hf result.1 result.2

open Classical in
/-- An asserted walk is the walk, but fails with its own error if more was done than to add
entries. -/
theorem run_asserted (error : FlattenError) (walk : Walker) (schema : Json) (path : SchemaPath)
    (state : FlattenState) :
    (asserted error walk schema path).run state =
      ((walk schema path).run state).bind fun result =>
        if Adds state result.1 result.2 then .ok result else .error error := by
  change (walk schema path >>= fun walked => do
    let after ← get
    if Adds state walked after then return walked else throw error : FlattenM _).run state = _
  rw [StateT.run_bind]
  cases (walk schema path).run state with
  | error e => rfl
  | ok result =>
    change (if Adds state result.1 result.2 then pure result.1 else throw error :
      FlattenM _).run result.2 = if Adds state result.1 result.2 then .ok result else .error error
    split_ifs <;> rfl

/-- An asserted walk does what the walk does, unless it fails with its own error. -/
theorem transparent_asserted {walks : Option FlattenError → Walker} {schema : Json}
    {path : SchemaPath} (h : Transparent fun i => walks i schema path) :
    Transparent fun
      | none => walks none schema path
      | some error => asserted error (walks (some error)) schema path := by
  intro state
  simp only [run_asserted]
  rcases h state with hfails | hsame
  · left
    intro error
    rw [hfails error]
    rfl
  · simp only [hsame]
    cases (walks none schema path).run state with
    | error e => exact .inr fun _ => rfl
    | ok result =>
      by_cases hadds : Adds state result.1 result.2
      · exact .inr fun _ => if_pos hadds
      · exact .inl fun _ => if_neg hadds

/-! ### No test fails -/

/-- An error that no walk fails with: there is no text that the pointer to the root could be
mistaken for. -/
def unheard : FlattenError :=
  .invalidRef "#" (.malformed (.wrongAnchor "#" "#"))

/-- Finding the target of a reference does not fail with this error. -/
theorem findSchema_ne_unheard (document : Json) (schemas : FlatSchemas) (text : String) :
    findSchema document schemas (.unresolved text) ≠ .error unheard := by
  intro h
  cases hpath : SchemaPath.ofPointer text with
  | error error =>
    rw [findSchema_of_error document schemas hpath] at h
    obtain ⟨rfl, -⟩ := FlattenError.invalidRef.inj (Except.error.inj h)
    have hroot : SchemaPath.ofPointer "#" = .ok .root := rfl
    cases hroot.symm.trans hpath
  | ok path =>
    have hnames : Names (.unresolved text) path := hpath
    rw [findSchema_of_names document schemas hnames] at h
    split at h
    · cases h
    · split at h
      · cases h
      · cases (FlattenError.invalidRef.inj (Except.error.inj h)).2

/-- No step of the walk fails with an error that nothing reports. -/
theorem averts_unheard (document : Json) : anything.Averts document (· ≠ unheard) where
  other := fun _ hother heq => hother _ _ heq
  lost := fun _ _ hlost heq => findSchema_ne_unheard _ _ _ (heq ▸ hlost)

/-- An asserted walk ends like the walk if that is known to only add entries. -/
theorem ensures_asserted {error : FlattenError} {walk : Walker} {schema : Json} {path : SchemaPath}
    {state : FlattenState} {good : Walked → FlattenState → Prop} {fail : FlattenError → Prop}
    (hadds : ∀ walked after, good walked after → Adds state walked after)
    (h : Ensures (walk schema path) state good fail) :
    Ensures (asserted error walk schema path) state good fail := by
  refine ensures_bind (ensures_get (ensures_bind (h.mono (fun walked after hgood => ?_)
    fun _ h => h)))
  refine ensures_bind (ensures_get ?_)
  rw [if_pos (hadds walked after hgood)]
  exact ensures_pure hgood

/-- Every call in a run that is looked at keeps the table as it has to be for the next one. -/
theorem keeps_assertedWalk (document : Json) (depth : Nat) :
    Keeps anything (· ≠ unheard) (assertedWalk unheard document depth) := by
  induction depth with
  | zero => exact fun _ _ _ _ _ => ensures_throw nofun
  | succ depth ih =>
    intro schema path state hgrounded hschema
    exact ensures_asserted (fun _ _ h => h.1.adds)
      (kept_visit (anything_kept document) (averts_unheard document).steps ih.on hgrounded hschema
        fun _ _ _ _ => trivial)

/-- A walk whose calls are all asserted does what the walk does, unless it fails with its own
error. -/
theorem transparent_assertedWalk (document : Json) (depth : Nat) (schema : Json)
    (path : SchemaPath) :
    Transparent fun
      | none => walk document depth schema path
      | some error => assertedWalk error document depth schema path := by
  induction depth generalizing schema path with
  | zero => exact admissible_transparent.const _
  | succ depth ih =>
    let walks : Option FlattenError → Walker
      | none => walk document depth
      | some error => assertedWalk error document depth
    have hwalks : ∀ schema path, Transparent fun i => walks i schema path := by
      intro schema path state
      exact ih schema path state
    have hvisit : Transparent fun i => visit document (walks i) schema path :=
      admissible_visit admissible_transparent hwalks document schema path
    intro state
    exact transparent_asserted hvisit state

/-- A run in which every call is looked at does the same as one without. -/
theorem assertedWalk_eq_walk (error : FlattenError) (document : Json) (depth : Nat) :
    (assertedWalk error document depth document .root).run {} =
      (walk document depth document .root).run {} := by
  rcases transparent_assertedWalk document depth document .root {} with hfails | hsame
  · have hkept := keeps_assertedWalk document depth document .root {} .nil (.inr trivial)
    exact absurd rfl (hkept.of_eq_error (hfails unheard))
  · exact hsame error

/-- Every walk that ends with a result has only added entries for its caller, from whatever table
without double entries it begins; and in a run from an empty state every call of the walk does so,
since the run does not change if each call is tested for it. -/
theorem adds_walk (document : Json) :
    (∀ (depth : Nat) (schema : Json) (path : SchemaPath) (before : FlattenState) (walked : Walked)
      (after : FlattenState), (Assoc.keys before.schemas).Nodup →
      (walk document depth schema path).run before = .ok (walked, after) →
      Adds before walked after) ∧
    ∀ (error : FlattenError) (depth : Nat),
      (assertedWalk error document depth document .root).run {} =
        (walk document depth document .root).run {} :=
  ⟨fun _ _ _ _ _ _ hnodup hrun => (adds_of_run hnodup hrun).1,
    fun error depth => assertedWalk_eq_walk error document depth⟩

/-- A combiner whose member has a property that is listed as well. -/
def nested : Json :=
  .obj [("allOf", .arr [.obj [("properties", .obj [("x", .obj [("properties", .obj [])])])]])]

/-- A walk in the middle of a document. -/
def halfway : FlattenState where
  schemas := [(⟨["definitions", "d"]⟩, [("properties", .obj [])])]
  inProgress := [.root]

/-- The entry of the combiner's member has come and gone, and the one below it has stayed, behind
the entry that was there before. -/
theorem adds_walk_nested :
    ∃ walked after,
      (walk nested 4 nested ⟨["properties", "a"]⟩).run halfway = .ok (walked, after) ∧
      Assoc.keys after.schemas = [⟨["definitions", "d"]⟩,
        ⟨["properties", "a", "allOf", "0", "properties", "x"]⟩, ⟨["properties", "a"]⟩] ∧
      Adds halfway walked after := by
  have hkeys : ((walk nested 4 nested ⟨["properties", "a"]⟩).run halfway).toOption.map
      (fun result => Assoc.keys result.2.schemas) = some [⟨["definitions", "d"]⟩,
        ⟨["properties", "a", "allOf", "0", "properties", "x"]⟩, ⟨["properties", "a"]⟩] := by
    decide +kernel
  cases hrun : (walk nested 4 nested ⟨["properties", "a"]⟩).run halfway with
  | error error =>
    rw [hrun] at hkeys
    cases hkeys
  | ok result =>
    rw [hrun] at hkeys
    have hadds := (adds_walk nested).1 4 nested _ halfway result.1 result.2 (by decide) hrun
    exact ⟨result.1, result.2, rfl, Option.some.inj hkeys, hadds⟩

end SchemaClasses.Flatten
