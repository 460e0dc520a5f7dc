import SchemaClasses.Proofs.Flatten.Carried
import SchemaClasses.Proofs.Flatten.Guarded

/-!
# Walks that succeed wherever they begin

Main statement (`exists_resumes`): if a faithful document whose references all lead to values can be
flattened, then each schema that is walked on the way can be walked from any other table as well, as
long as nothing that the walk needs is being walked already. So it does not matter for success in
which order schemas are walked.

A walk that meets another table than the walk of the document did cannot take over what is not
listed there. It has to walk it once more, and below that whatever it needs in turn. This comes to
an end and meets no check that fails, because the walk of the document has been there: what holds of
a schema that has a fate and passes the checks, if it holds of all that the schema calls for, holds
of all that was walked (`fit_induction`). Nothing of that needs itself (`not_needs_self`).

The root is being walked all the time. `sealedWalk` refuses it in advance, so that it does the same
in every document that differs in what stands at the root only (`follows_sealedWalk`).
-/

namespace SchemaClasses.Flatten

open FlattenM

/-! ### All that has been walked -/

section Runs

variable {document : Json} {schemas : FlatSchemas} {depth : Nat}

/-- Where references lead somewhere, the walk of a faithful document keeps all that is trusted
in. -/
theorem trust_kept (hfaithful : Faithful document) (hwf : document.wellFormed)
    (hleads : AllLead document [] document) : (trust document).Kept document :=
  (faith_kept hfaithful hwf).and (leading_kept hleads)

/-- At first this is known of the document itself. -/
theorem Faithful.isRaw_root (hfaithful : Faithful document) (hwf : document.wellFormed)
    (hleads : AllLead document [] document) : (trust document).raw [] .root document :=
  ⟨⟨.refl, hfaithful.allReliable hwf⟩, hleads⟩

/-- A visit stays at a place that is listed, whatever the walks below do. -/
theorem stops_visit {fail : FlattenError → Prop} {walk : Walker} :
    Stops fail (visit document walk) :=
  fun _ _ _ hkey hapart => ensures_visit_listed (fun hmet => hapart _ hmet hkey) hkey ⟨rfl, rfl⟩

/-- The walk to any depth stays at a place that is listed. -/
theorem stops_walk (depth : Nat) : Stops (fun _ => True) (walk document depth) := by
  cases depth with
  | zero => exact fun _ _ _ _ _ => ensures_throw trivial
  | succ depth => exact stops_visit

variable (hfaithful : Faithful document) (hwf : document.wellFormed)
  (hleads : AllLead document [] document) (hflatten : flattenWithin depth document = .ok schemas)

include hfaithful hwf hleads hflatten

/-- What holds of a schema that has a fate and passes the checks if it holds of all that the schema
calls for holds of all that is walked when a document is flattened. -/
theorem fit_induction {P : Site → Prop}
    (hstep : ∀ site, Visited document site → Fit document site →
      (∀ role next, Calls document role site next → P next) → P site)
    {site : Site} (hvisited : Visited document site) : P site := by
  have hkept := trust_kept hfaithful hwf hleads
  -- the step carries over to all that a schema needs
  let Q : Site → Prop := fun site => ∀ between, Needs document site between → P between
  have hspread : ∀ site, Visited document site → Fit document site →
      (∀ role next, Calls document role site next → Q next) → Q site := by
    intro site hvisited hfit hcalls between hneeds
    rcases hneeds.cases_head with rfl | ⟨next, ⟨role, hcall⟩, hrest⟩
    · exact hstep _ hvisited hfit fun role next hcall => hcalls role next hcall next .refl
    · exact hcalls role next hcall between hrest
  have hcarries : ∀ depth site,
      Carries document (fun _ _ => True) Q (fun _ => True) (walk document depth) site := by
    intro depth
    induction depth with
    | zero => exact fun _ _ _ _ _ _ _ => ensures_throw trivial
    | succ depth ih =>
      exact fun site => carries_visit hfaithful hkept (stops_walk depth)
        (keeps_walk hkept averts_all depth) (fun _ next _ => ih next) (fun _ _ _ _ _ => trivial)
        (.inl fun _ => trivial) (hspread _)
  obtain ⟨walked, after, hrun, rfl⟩ := exists_run_of_flattenWithin hflatten
  have hroot := hcarries depth (.root, document) {} .nil (fun _ hplace => absurd hplace
    List.not_mem_nil) (hfaithful.isRaw_root hwf hleads) (fun _ hkey => absurd hkey List.not_mem_nil)
    trivial
  exact (hroot.of_eq_ok hrun).2.2 site hvisited

/-- All that is walked has a fate and passes the checks. -/
theorem Visited.fit {site : Site} (hvisited : Visited document site) : Fit document site :=
  fit_induction hfaithful hwf hleads hflatten (fun _ _ hfit _ => hfit) hvisited

/-- What a schema that is walked calls for does not need what stands at the place of the schema. -/
theorem not_needs_self {site next : Site} {role : Role} (hvisited : Visited document site)
    (hcall : Calls document role site next) (schema : Json) :
    ¬Needs document next (site.1, schema) := by
  intro hneeds
  have hback : Visited document (site.1, schema) := (hvisited.tail ⟨role, hcall⟩).trans hneeds
  obtain rfl : schema = site.2 := hfaithful.unique hback hvisited rfl
  -- a cycle through a schema is one through what it calls for next
  refine fit_induction hfaithful hwf hleads hflatten
    (P := fun site => ¬Relation.TransGen (fun site next => ∃ role, Calls document role site next)
      site site) (fun site _ _ hcalls hcycle => ?_) hvisited (.head' ⟨role, hcall⟩ hneeds)
  obtain ⟨next, ⟨role, hcall⟩, hrest⟩ := Relation.TransGen.head'_iff.mp hcycle
  exact hcalls role next hcall (.tail' hrest ⟨role, hcall⟩)

end Runs

/-! ### Walks that leave the root alone -/

/-- A walk that is refused at the root, unless that is listed. -/
def sealed (walk : Walker) : Walker :=
  fun schema path => do
    let state ← get
    if path = .root ∧ path ∉ Assoc.keys state.schemas then throw .tooDeep else walk schema path

/-- The walk of a document, down to a depth, that leaves the root alone. -/
def sealedWalk (document : Json) : Nat → Walker
  | 0 => fun _ _ => throw .tooDeep
  | depth + 1 => sealed (visit document (sealedWalk document depth))

section Sealed

variable {document : Json} {walk : Walker} {path : SchemaPath} {schema : Json}
  {state : FlattenState}

/-- A sealed walk ends as the walk itself, or too deep at the root. -/
theorem ensures_sealed {good : Walked → FlattenState → Prop} {fail : FlattenError → Prop}
    (hroot : path = .root → path ∉ Assoc.keys state.schemas → fail .tooDeep)
    (h : Ensures (walk schema path) state good fail) :
    Ensures (sealed walk schema path) state good fail := by
  unfold sealed
  refine ensures_bind (ensures_get ?_)
  split_ifs with hsealed
  · exact ensures_throw (hroot hsealed.1 hsealed.2)
  · exact h

/-- A sealed walk of a document keeps the invariants that its walk keeps. -/
theorem keeps_sealedWalk {inv : Invariant} (hkept : inv.Kept document) (depth : Nat) :
    Keeps inv (fun _ => True) (sealedWalk document depth) := by
  induction depth with
  | zero => exact fun _ _ _ _ _ => ensures_throw trivial
  | succ depth ih =>
    exact fun _ _ _ hgrounded hschema => ensures_sealed (fun _ _ => trivial)
      (kept_visit hkept averts_all.steps ih.on hgrounded hschema fun _ _ _ _ => trivial)

/-- A sealed visit stays at a place that is listed. -/
theorem stops_sealed {fail : FlattenError → Prop} : Stops fail (sealed (visit document walk)) :=
  fun _ _ _ hkey hapart => ensures_sealed (fun _ hnew => absurd hkey hnew)
    (stops_visit _ _ _ hkey hapart)

end Sealed

section Follows

/-- A sealed walk fails at the root, unless that is listed, and is the walk itself elsewhere. -/
theorem run_sealed (walk : Walker) (schema : Json) (path : SchemaPath) (state : FlattenState) :
    (sealed walk schema path).run state =
      if path = .root ∧ path ∉ Assoc.keys state.schemas then .error .tooDeep
      else (walk schema path).run state := by
  change (if path = .root ∧ path ∉ Assoc.keys state.schemas then throw .tooDeep
    else walk schema path : FlattenM _).run state = _
  split_ifs <;> rfl

/-- Following a reference looks it up and walks what is found. -/
theorem run_followRef (document : Json) (walk : Walker) (reference : Reference)
    (state : FlattenState) :
    (followRef document walk reference).run state =
      (findSchema document state.schemas reference).bind fun found =>
        (walk found.1 found.2).run state := by
  change (do
    let found ← liftM (findSchema document state.schemas reference)
    walk found.1 found.2 : FlattenM _).run state = _
  cases findSchema document state.schemas reference <;> rfl

/-- A shared member contributes what is found at its place, and the state stays as it is. -/
theorem run_contribution_shared (document : Json) (path : SchemaPath) (state : FlattenState) :
    (contribution document path true (.canonical path)).run state =
      (findSchema document state.schemas (.canonical path)).map fun found => (found.1, state) := by
  unfold contribution
  dsimp only
  rw [if_neg (not_not_intro rfl), if_pos rfl]
  change (do
    let found ← liftM (findSchema document state.schemas (.canonical path))
    pure found.1 : FlattenM _).run state = _
  cases findSchema document state.schemas (.canonical path) <;> rfl

variable {document again : Json} (hsame : ∀ path schema, path ≠ .root →
  document.at? path = some schema → again.at? path = some schema)

include hsame

omit hsame in
/-- What is found by a reference stands at the place that the reference names. -/
theorem names_of_findSchema {schemas : FlatSchemas} {reference : Reference}
    {found : Json × SchemaPath} (h : findSchema document schemas reference = .ok found) :
    Names reference found.2 := by
  rcases findSchema_cases document schemas reference with
    ⟨pointer, reason, hlost⟩ | ⟨place, entry, hnames, -, hfound⟩ |
      ⟨place, schema, hnames, -, -, hfound⟩
  · cases hlost.symm.trans h
  · exact Except.ok.inj (hfound.symm.trans h) ▸ hnames
  · exact Except.ok.inj (hfound.symm.trans h) ▸ hnames

/-- What stands at any other place than the root is found in the other document as well. -/
theorem findSchema_of_at? {schemas : FlatSchemas} {reference : Reference} {target : Json}
    {path : SchemaPath} (h : findSchema document schemas reference = .ok (target, path))
    (hroot : path = .root → path ∈ Assoc.keys schemas) :
    findSchema again schemas reference = .ok (target, path) := by
  rcases findSchema_cases document schemas reference with
    ⟨pointer, reason, hlost⟩ | ⟨place, entry, hnames, hentry, hfound⟩ |
      ⟨place, schema, hnames, hnew, hschema, hfound⟩
  · cases hlost.symm.trans h
  · obtain ⟨rfl, rfl⟩ := Prod.mk.inj (Except.ok.inj (hfound.symm.trans h))
    rw [findSchema_of_names again schemas hnames, hentry]
  · obtain ⟨rfl, rfl⟩ := Prod.mk.inj (Except.ok.inj (hfound.symm.trans h))
    rw [findSchema_of_names again schemas hnames, Assoc.find?_eq_none_iff.mpr hnew,
      hsame place schema (fun heq => hnew (hroot heq)) hschema]

/-- Contributions follow each other where two documents agree on what they look up. -/
theorem follows_contribution {memberPath : SchemaPath} (hchild : memberPath ≠ .root)
    (shared : Bool) (walked : Walked) :
    Follows (contribution document memberPath shared walked)
      (contribution again memberPath shared walked) := by
  intro state result h
  cases walked with
  | inPlace schema => exact h
  | canonical target =>
    by_cases htarget : target = memberPath
    · subst htarget
      cases shared with
      | true =>
        rw [run_contribution_shared] at h ⊢
        cases hfound : findSchema document state.schemas (.canonical target) with
        | error error =>
          rw [hfound] at h
          cases h
        | ok found =>
          rw [hfound] at h
          have hplace : target = found.2 := names_of_findSchema hfound
          rw [findSchema_of_at? hsame hfound fun heq => absurd (hplace.trans heq) hchild]
          exact h
      | false =>
        unfold contribution at h ⊢
        exact h
    · unfold contribution at h ⊢
      simp only [ne_eq, htarget, not_false_eq_true, if_true] at h ⊢
      exact h

omit hsame in
/-- A sealed walk fails at the root as long as that is not listed. -/
theorem sealedWalk_ne_ok {depth : Nat} {schema : Json} {path : SchemaPath} {state : FlattenState}
    {result : Walked × FlattenState} (hroot : path = .root)
    (hnew : path ∉ Assoc.keys state.schemas) :
    (sealedWalk document depth schema path).run state ≠ .ok result := by
  cases depth with
  | zero => exact nofun
  | succ depth =>
    rw [sealedWalk, run_sealed, if_pos ⟨hroot, hnew⟩]
    nofun

/-- A walk that leaves the root alone does the same in a document that differs at the root only. -/
theorem follows_sealedWalk (depth : Nat) (schema : Json) (path : SchemaPath) :
    Follows (sealedWalk document depth schema path) (walk again depth schema path) := by
  induction depth generalizing schema path with
  | zero => exact fun _ _ h => h
  | succ depth ih =>
    let documents : Bool → Json := fun other => cond other again document
    let walks : Bool → Walker :=
      fun other => cond other (walk again depth) (sealedWalk document depth)
    have hrefs : ∀ reference, Follows (followRef document (sealedWalk document depth) reference)
        (followRef again (walk again depth) reference) := by
      intro reference state result h
      rw [run_followRef] at h ⊢
      cases hfound : findSchema document state.schemas reference with
      | error error =>
        rw [hfound] at h
        cases h
      | ok found =>
        rw [hfound] at h
        have hroot : found.2 = .root → found.2 ∈ Assoc.keys state.schemas := fun heq =>
          by_contra fun hnew => sealedWalk_ne_ok heq hnew h
        rw [findSchema_of_at? hsame hfound hroot]
        exact ih found.1 found.2 state result h
    have hmembers : ∀ (path : SchemaPath) combiner index shared walked,
        Follows
          (contribution document (path ++ [combiner, SchemaPath.ofIndex index]) shared walked)
          (contribution again (path ++ [combiner, SchemaPath.ofIndex index]) shared walked) := by
      intro path combiner index shared walked
      have hchild : path ++ [combiner, SchemaPath.ofIndex index] ≠ .root := by
        rw [SchemaPath.append_pair]
        exact SchemaPath.child_ne_root
      exact follows_contribution hsame hchild shared walked
    have hvisit : Follows (visit document (sealedWalk document depth) schema path)
        (visit again (walk again depth) schema path) :=
      @admissible_visit_documents _ _ admissible_follows documents walks ih hmembers hrefs schema
        path
    intro state result h
    rw [sealedWalk, run_sealed] at h
    split_ifs at h
    exact hvisit state result h

end Follows

/-! ### Walks that can be resumed -/

/-- Whether the walk of a schema needs neither the root nor any of the places that are being
walked. -/
def Avoids (document : Json) (site : Site) (inProgress : List SchemaPath) : Prop :=
  ∀ place, place = .root ∨ place ∈ inProgress → ∀ schema, ¬Needs document site (place, schema)

/-- Whether the walk of a schema down to a depth succeeds from any table, as long as it avoids the
places that are being walked. -/
abbrev Resumes (document : Json) (depth : Nat) : Site → Prop :=
  Carries document (Avoids document) (fun _ => True) (fun _ => False) (sealedWalk document depth)

/-- What holds of each item from some depth on holds of all of them from some depth on. -/
theorem exists_least_of_forall {α : Type} {R : Nat → α → Prop} {items : List α}
    (h : ∀ item ∈ items, ∃ least, ∀ depth ≥ least, R depth item) :
    ∃ least, ∀ depth ≥ least, ∀ item ∈ items, R depth item := by
  induction items with
  | nil => exact ⟨0, fun _ _ _ hitem => absurd hitem List.not_mem_nil⟩
  | cons first rest ih =>
    obtain ⟨least, hrest⟩ := ih fun item hitem => h item (List.mem_cons_of_mem _ hitem)
    obtain ⟨least', hfirst⟩ := h first List.mem_cons_self
    refine ⟨max least least', fun depth hdepth item hitem => ?_⟩
    rcases List.mem_cons.mp hitem with rfl | hmem
    · exact hfirst depth (Nat.le_trans (Nat.le_max_right _ _) hdepth)
    · exact hrest depth (Nat.le_trans (Nat.le_max_left _ _) hdepth) item hmem

section Resumes

variable {document : Json} {schemas : FlatSchemas} {depth : Nat} {site : Site}

/-- What is needed for a walk avoids the places that the walk avoids. -/
theorem Avoids.of_needs {next : Site} {inProgress : List SchemaPath}
    (h : Avoids document site inProgress) (hneeds : Needs document site next) :
    Avoids document next inProgress :=
  fun place hplace schema hback => h place hplace schema (hneeds.trans hback)

/-- Of the walks that are called for each can be resumed, so the walk that calls for them can. -/
theorem resumes_succ (hfaithful : Faithful document) (hkept : (trust document).Kept document)
    (hfit : Fit document site) (hself : ∀ role next, Calls document role site next →
      ∀ schema, ¬Needs document next (site.1, schema))
    (hbelow : ∀ role next, Calls document role site next → Resumes document (depth + 1) next) :
    Resumes document (depth + 2) site := by
  have hvisit : Carries document (Avoids document) (fun _ => True) (fun _ => False)
      (visit document (sealedWalk document (depth + 1))) site := by
    refine carries_visit hfaithful hkept stops_sealed (keeps_sealedWalk hkept (depth + 1)) hbelow
      (fun role next inProgress hcall havoids => ?_)
      (.inr ⟨hfit, fun inProgress havoids hmet => havoids site.1 (.inr hmet) site.2 .refl⟩)
      fun _ _ _ => trivial
    intro place hplace schema hneeds
    have hbefore := havoids.of_needs (.single ⟨role, hcall⟩)
    rcases hplace with hroot | hmem
    · exact hbefore place (.inl hroot) schema hneeds
    · rcases List.mem_append.mp hmem with hold | hlast
      · exact hbefore place (.inr hold) schema hneeds
      · obtain rfl := List.mem_singleton.mp hlast
        exact hself role next hcall schema hneeds
  intro state hgrounded hapart hraw hcovers havoids
  exact ensures_sealed (fun hroot _ => havoids site.1 (.inl hroot) site.2 .refl)
    (hvisit state hgrounded hapart hraw hcovers havoids)

/-- If a faithful document whose references lead to values can be flattened, then the walk of each
schema on the way succeeds from any table, from some depth on. -/
theorem exists_resumes (hfaithful : Faithful document) (hwf : document.wellFormed)
    (hleads : AllLead document [] document) (hflatten : flattenWithin depth document = .ok schemas)
    (hvisited : Visited document site) : ∃ least, ∀ depth ≥ least, Resumes document depth site := by
  have hkept := trust_kept hfaithful hwf hleads
  refine fit_induction hfaithful hwf hleads hflatten
    (P := fun site => ∃ least, ∀ depth ≥ least, Resumes document depth site)
    (fun site hvisited hfit hcalls => ?_) hvisited
  obtain ⟨sites, hsites⟩ := exists_list_of_calls document site
  have hbelow : ∃ least, ∀ depth ≥ least, ∀ next ∈ sites,
      (∃ role, Calls document role site next) → Resumes document depth next := by
    refine exists_least_of_forall fun next _ => ?_
    by_cases hcall : ∃ role, Calls document role site next
    · obtain ⟨role, hcall⟩ := hcall
      exact (hcalls role next hcall).imp fun least hleast depth hdepth _ => hleast depth hdepth
    · exact ⟨0, fun _ _ hcall' => absurd hcall' hcall⟩
  obtain ⟨least, hleast⟩ := hbelow
  refine ⟨least + 2, fun depth hdepth => ?_⟩
  obtain ⟨depth, rfl⟩ : ∃ n, depth = n + 2 := ⟨depth - 2, by omega⟩
  refine resumes_succ hfaithful hkept hfit
    (fun role next hcall => not_needs_self hfaithful hwf hleads hflatten hvisited hcall)
    fun role next hcall => ?_
  exact hleast (depth + 1) (by omega) next (hsites role next hcall) ⟨role, hcall⟩

end Resumes

end SchemaClasses.Flatten
