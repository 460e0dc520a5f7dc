import Mathlib.Data.List.Chain
import Mathlib.Logic.Function.Iterate
import SchemaClasses.Proofs.Inline.Aliases

/-!
# Chains of references that never end

Main statement (`inline_circular_iff`): once a survey has succeeded, inlining says that references
are circular just if there is a location from which the recorded edges can be followed forever. The
chain that it reports starts at the location that it complains of, follows the edges, and ends at a
location that it has passed before. The start itself need not be met again.

To be seen to end, `finalFrom` counts how many edges it may still follow. The loop that it stands
for, `Chases`, has no such count: it ends where there is no edge, or at a location that has been
passed. The count is never what ends it (`chases_finalFrom`), because the locations that have been
passed are different and each of them has an edge (`Trail`), so there are no more of them than
edges.
-/

namespace SchemaClasses

namespace Survey

/-- Whether an edge leads from a location to another. -/
abbrev Edge (edges : List (Location × Location)) (source target : Location) : Prop :=
  Assoc.find? edges source = some target

/-- Whether following the edges from a location, with the locations that have been passed before
it, comes to a result, however many steps that takes. -/
inductive Chases (edges : List (Location × Location)) (first : Location) :
    List Location → Location → Except InlineError Location → Prop where
  /-- There is no edge from the location. -/
  | leaves {passed : List Location} {current : Location}
      (hend : Assoc.find? edges current = none) : Chases edges first passed current (.ok current)
  /-- The location has been passed before. -/
  | closes {passed : List Location} {current next : Location} (hedge : Edge edges current next)
      (hpassed : current ∈ passed) :
      Chases edges first passed current (.error (.circular first (passed ++ [current])))
  /-- The edge from the location is followed. -/
  | follows {passed : List Location} {current next : Location}
      {result : Except InlineError Location} (hedge : Edge edges current next)
      (hnew : current ∉ passed) (hrest : Chases edges first (passed ++ [current]) next result) :
      Chases edges first passed current result

/-- What is known of the locations that have been passed: they are different, and each of them has
its edge to the next one. -/
structure Trail (edges : List (Location × Location)) (passed : List Location)
    (current : Location) : Prop where
  /-- No location has been passed twice. -/
  nodup : passed.Nodup
  /-- The edges lead from each location to the next one. -/
  steps : (passed ++ [current]).IsChain (Edge edges)

section Chains

variable {edges : List (Location × Location)} {first current next location : Location}
  {passed : List Location} {result other : Except InlineError Location}

/-- Following the edges has one result. -/
theorem Chases.unique (h : Chases edges first passed current result)
    (h' : Chases edges first passed current other) : result = other := by
  induction h with
  | leaves hend =>
    cases h' with
    | leaves => rfl
    | closes hedge => cases hend.symm.trans hedge
    | follows hedge => cases hend.symm.trans hedge
  | closes hedge hpassed =>
    cases h' with
    | leaves hend => cases hend.symm.trans hedge
    | closes => rfl
    | follows _ hnew => exact absurd hpassed hnew
  | follows hedge hnew _ ih =>
    cases h' with
    | leaves hend => cases hend.symm.trans hedge
    | closes _ hpassed => exact absurd hpassed hnew
    | follows hedge' _ hrest =>
      obtain rfl := Option.some.inj (hedge.symm.trans hedge')
      exact ih hrest

/-- After one step the start has been passed. -/
theorem trail_singleton (hedge : Edge edges first next) : Trail edges [first] next :=
  ⟨List.nodup_singleton _, List.isChain_pair.mpr hedge⟩

/-- A trail goes on along an edge to a location that has not been passed. -/
theorem Trail.snoc (h : Trail edges passed current) (hedge : Edge edges current next)
    (hnew : current ∉ passed) : Trail edges (passed ++ [current]) next := by
  constructor
  · exact List.nodup_append.mpr ⟨h.nodup, List.nodup_singleton _, fun a ha b hb heq =>
      hnew (List.mem_singleton.mp hb ▸ heq ▸ ha)⟩
  · rw [List.append_assoc]
    exact List.isChain_append_cons_cons.mpr ⟨h.steps, hedge, List.isChain_singleton _⟩

/-- From each location that has been passed an edge leads to the one behind it. -/
theorem Trail.exists_edge (h : Trail edges passed current) (hmem : location ∈ passed) :
    ∃ next ∈ passed ++ [current], Edge edges location next := by
  obtain ⟨before, behind, rfl⟩ := List.append_of_mem hmem
  have hsteps := h.steps
  rw [List.append_assoc, List.cons_append] at hsteps
  cases hrest : behind ++ [current] with
  | nil => exact absurd hrest (List.append_ne_nil_of_right_ne_nil _ nofun)
  | cons next rest =>
    rw [hrest] at hsteps
    refine ⟨next, ?_, (List.isChain_append_cons_cons.mp hsteps).2.1⟩
    rw [List.append_assoc, List.cons_append, hrest]
    exact List.mem_append_right _ (List.mem_cons_of_mem _ List.mem_cons_self)

/-- No more locations have been passed than there are edges. -/
theorem Trail.length_le (h : Trail edges passed current) : passed.length ≤ edges.length := by
  have hkeys : passed ⊆ Assoc.keys edges := fun location hmem => by
    obtain ⟨next, -, hedge⟩ := h.exists_edge hmem
    exact Assoc.mem_keys_of_find? hedge
  have hlength := (List.subperm_of_subset h.nodup hkeys).length_le
  rwa [Assoc.keys, List.length_map] at hlength

/-- The loop ends by itself before the steps are used up. -/
theorem chases_finalFrom {steps : Nat} (h : Trail edges passed current)
    (hsteps : edges.length < passed.length + steps) :
    Chases edges first passed current (finalFrom edges first steps passed current) := by
  induction steps generalizing passed current with
  | zero => exact absurd h.length_le (Nat.not_le.mpr hsteps)
  | succ steps ih =>
    unfold finalFrom
    split
    · rename_i hend
      exact .leaves hend
    · rename_i next hedge
      split_ifs with hpassed
      · exact .closes hedge hpassed
      · refine .follows hedge hpassed (ih (h.snoc hedge hpassed) ?_)
        rw [List.length_append, List.length_singleton]
        omega

/-- The final target is what following the edges comes to. -/
theorem chases_finalTarget (hedge : Edge edges first next) :
    Chases edges first [first] next (finalTarget edges first) := by
  unfold finalTarget
  rw [hedge]
  refine chases_finalFrom (trail_singleton hedge) ?_
  rw [List.length_singleton]
  omega

/-- A chain that is reported follows the edges from where it has begun, to a location that it has
passed before. -/
theorem Chases.exists_trail {error : InlineError}
    (h : Chases edges first passed current (.error error)) (htrail : Trail edges passed current) :
    ∃ front last, error = .circular first (front ++ [last]) ∧ passed <+: front ∧ last ∈ front ∧
      Trail edges front last := by
  generalize hresult : Except.error error = result at h
  induction h with
  | leaves => cases hresult
  | @closes passed current _ _ hpassed =>
    exact ⟨passed, current, Except.error.inj hresult, List.prefix_rfl, hpassed, htrail⟩
  | follows hedge hnew _ ih =>
    obtain ⟨front, last, herror, hprefix, hlast, htrail'⟩ := ih (htrail.snoc hedge hnew) hresult
    exact ⟨front, last, herror, (List.prefix_append _ _).trans hprefix, hlast, htrail'⟩

/-! ### Routes that never end -/

/-- A trail that closes can be followed forever. -/
theorem Trail.exists_route (h : Trail edges passed current) (hclosed : current ∈ passed) :
    ∃ route : Nat → Location, ∀ n, Edge edges (route n) (route (n + 1)) := by
  have hnext : ∀ location ∈ passed, ∃ next ∈ passed, Edge edges location next :=
    fun location hmem => by
      obtain ⟨next, hnext, hedge⟩ := h.exists_edge hmem
      rcases List.mem_append.mp hnext with hnext | hlast
      · exact ⟨next, hnext, hedge⟩
      · exact ⟨next, List.mem_singleton.mp hlast ▸ hclosed, hedge⟩
  choose! step hstep hedge using hnext
  have hroute : ∀ n, step^[n] current ∈ passed := fun n => by
    induction n with
    | zero => exact hclosed
    | succ n ih =>
      rw [Function.iterate_succ_apply']
      exact hstep _ ih
  refine ⟨fun n => step^[n] current, fun n => ?_⟩
  dsimp only
  rw [Function.iterate_succ_apply']
  exact hedge _ (hroute n)

/-- What is reached from a route is on the route. -/
theorem exists_eq_route {route : Nat → Location}
    (hroute : ∀ n, Edge edges (route n) (route (n + 1))) {n : Nat}
    (h : Relation.ReflTransGen (Edge edges) (route n) location) : ∃ m, location = route m := by
  induction h with
  | refl => exact ⟨n, rfl⟩
  | tail _ hedge ih =>
    obtain ⟨m, rfl⟩ := ih
    exact ⟨m + 1, Option.some.inj (hedge.symm.trans (hroute m))⟩

/-- The references cannot be redirected if the edges can be followed forever from somewhere. -/
theorem redirections_of_route {route : Nat → Location}
    (hroute : ∀ n, Edge edges (route n) (route (n + 1))) :
    ∃ location chain, redirections edges = .error (.circular location chain) := by
  cases hfound : redirections edges with
  | ok found =>
    -- the chain from the start of the route would leave the edges at a location on the route
    obtain ⟨hkeys, hfinal⟩ := redirections_eq_ok hfound
    obtain ⟨pointer, hpointer⟩ :=
      Assoc.exists_find?_of_mem_keys (hkeys ▸ Assoc.mem_keys_of_find? (hroute 0))
    obtain ⟨last, hlast, -⟩ := hfinal _ pointer (Assoc.mem_of_find? hpointer)
    obtain ⟨next, hnext, hreach, hend⟩ := reaches_of_finalTarget hlast
    obtain ⟨m, rfl⟩ := exists_eq_route hroute (.head hnext hreach)
    cases hend.symm.trans (hroute m)
  | error error =>
    obtain ⟨location, chain, rfl⟩ := eq_circular_of_redirections hfound
    exact ⟨location, chain, rfl⟩

/-- References that cannot be redirected report a chain that closes. -/
theorem exists_trail_of_redirections {error : InlineError}
    (h : redirections edges = .error error) :
    ∃ source front last, error = .circular source (front ++ [last]) ∧ [source] <+: front ∧
      last ∈ front ∧ Trail edges front last := by
  obtain ⟨source, hsource, hfinal⟩ := exists_of_redirections_eq_error h
  obtain ⟨next, hedge⟩ := Assoc.exists_find?_of_mem_keys hsource
  have hchases : Chases edges source [source] next (.error error) :=
    hfinal ▸ chases_finalTarget hedge
  exact ⟨source, hchases.exists_trail (trail_singleton hedge)⟩

end Chains

/-! ### Combining -/

/-- Redirecting the references of all documents fails only for a location that is lost. -/
theorem eq_lostLocation_of_redirectAll {documents : List (Space × Json)}
    {found : List (Location × String)} {error : InlineError}
    (h : redirectAll documents found = .error error) :
    ∃ location, error = .lostLocation location := by
  induction found generalizing documents with
  | nil => cases h
  | cons entry rest ih =>
    obtain ⟨source, pointer⟩ := entry
    rw [redirectAll] at h
    cases hone : redirectOne documents source pointer with
    | ok documents' =>
      rw [hone] at h
      exact ih h
    | error other =>
      rw [hone] at h
      obtain rfl : other = error := Except.error.inj h
      unfold redirectOne at hone
      split at hone
      · cases hone
      · exact ⟨source, (Except.error.inj hone).symm⟩

/-- Attaching the documents fails only for a base document that is no object. -/
theorem eq_notAnObject_of_attach {base : Uri} {spaces : List (String × Space)}
    {documents : List (Space × Json)} {error : InlineError}
    (h : attach base spaces documents = .error error) : error = .notAnObject base := by
  unfold attach at h
  dsimp only at h
  split at h
  · cases h
  · cases h
  · exact (Except.error.inj h).symm

/-- Combining fails where redirecting the references does, or it misses a document. -/
theorem combine_eq_error {base : Uri} {survey : Survey} {error : InlineError}
    (h : survey.combine base = .error error) :
    redirections survey.edges = .error error ∨ (∃ location, error = .lostLocation location) ∨
      error = .notAnObject base := by
  unfold combine at h
  cases hfound : redirections survey.edges with
  | error other =>
    rw [hfound] at h
    exact .inl (congrArg Except.error (Except.error.inj h))
  | ok found =>
    rw [hfound] at h
    change (redirectAll survey.documents found).bind _ = _ at h
    cases hall : redirectAll survey.documents found with
    | error other =>
      rw [hall] at h
      obtain rfl : other = error := Except.error.inj h
      exact .inr (.inl (eq_lostLocation_of_redirectAll hall))
    | ok documents =>
      rw [hall] at h
      exact .inr (.inr (eq_notAnObject_of_attach h))

/-- Nothing but redirecting the references finds them circular. -/
theorem combine_eq_circular_iff {base : Uri} {survey : Survey} {location : Location}
    {chain : List Location} :
    survey.combine base = .error (.circular location chain) ↔
      redirections survey.edges = .error (.circular location chain) := by
  constructor
  · intro h
    exact (combine_eq_error h).resolve_right (not_or.mpr ⟨nofun, nofun⟩)
  · intro h
    unfold combine
    rw [h]
    rfl

end Survey

/-! ### Inlining -/

/-- Once a survey has succeeded, inlining finds the references circular just if the recorded edges
can be followed forever from some location. Following them from a reference always comes to an end,
which is its final target. The chain that is reported starts at the location that is complained of
and follows the edges to a location that it has passed before. -/
theorem inline_circular_iff {limit : Nat} {fetch : Fetch} {baseUri : String} {document : Json}
    {uri : Uri} {survey : Survey} (hparse : Uri.parse baseUri = .ok uri)
    (hrun : Survey.run limit fetch uri.withoutFragment document = (.ok (), survey)) :
    ((∃ location chain,
        (inline limit fetch baseUri document).result = .error (.circular location chain)) ↔
      ∃ route : Nat → Location, ∀ n, Survey.Edge survey.edges (route n) (route (n + 1))) ∧
    (∀ source next result, Survey.Edge survey.edges source next →
      (Survey.Chases survey.edges source [source] next result ↔
        Survey.finalTarget survey.edges source = result)) ∧
    ∀ location chain,
      (inline limit fetch baseUri document).result = .error (.circular location chain) →
        chain.head? = some location ∧ chain.IsChain (Survey.Edge survey.edges) ∧
          ∃ front last, chain = front ++ [last] ∧ last ∈ front := by
  have hresult : ∀ {location chain},
      (inline limit fetch baseUri document).result = .error (.circular location chain) ↔
        Survey.redirections survey.edges = .error (.circular location chain) := by
    intro location chain
    rw [inline_eq hparse hrun]
    exact Survey.combine_eq_circular_iff
  simp only [hresult]
  refine ⟨⟨?_, ?_⟩, ?_, ?_⟩
  · rintro ⟨location, chain, h⟩
    obtain ⟨_, front, last, -, -, hclosed, htrail⟩ := Survey.exists_trail_of_redirections h
    exact htrail.exists_route hclosed
  · rintro ⟨route, hroute⟩
    exact Survey.redirections_of_route hroute
  · intro source next result hedge
    have hchases := Survey.chases_finalTarget hedge
    exact ⟨fun h => hchases.unique h, fun h => h ▸ hchases⟩
  · intro location chain h
    obtain ⟨source, front, last, heq, ⟨rest, hfront⟩, hclosed, htrail⟩ :=
      Survey.exists_trail_of_redirections h
    obtain ⟨rfl, rfl⟩ := InlineError.circular.inj heq
    refine ⟨?_, htrail.steps, front, last, rfl, hclosed⟩
    rw [← hfront]
    rfl

/-- A document whose reference leads into a circle that goes through another document. -/
def lassoBase : Json :=
  .obj [("start", .obj [(refKey, .str "#/a")]), ("a", .obj [(refKey, .str "b#/z")])]

/-- A source of one document, whose reference goes back to the first one. -/
def lassoFetch : Fetch := fun uri =>
  if uri.toText = "file:///b" then .ok (.obj [("z", .obj [(refKey, .str "a#/a")])])
  else .error (.fileNotFound uri.toText)

/-- The chain that is reported starts outside the circle. -/
theorem inline_circular_lasso : ∃ uri survey, Uri.parse "file:///a" = .ok uri ∧
    Survey.run 2 lassoFetch uri.withoutFragment lassoBase = (.ok (), survey) ∧
    (∃ route : Nat → Location, ∀ n, Survey.Edge survey.edges (route n) (route (n + 1))) ∧
    ∃ location chain,
      (inline 2 lassoFetch "file:///a" lassoBase).result = .error (.circular location chain) ∧
        location.toPointer = "#/start" ∧
        chain.map Location.toPointer = ["#/start", "#/a", "#/remote/schema0/z", "#/a"] ∧
        chain.head? = some location := by
  have hsurvey : ((Uri.parse "file:///a").toOption.map fun uri =>
      (Survey.run 2 lassoFetch uri.withoutFragment lassoBase).1.toOption.isSome) = some true := by
    decide +kernel
  have hcircular : (match (inline 2 lassoFetch "file:///a" lassoBase).result with
      | .error (.circular location chain) =>
        some (location.toPointer, chain.map Location.toPointer)
      | _ => none) = some ("#/start", ["#/start", "#/a", "#/remote/schema0/z", "#/a"]) := by
    decide +kernel
  cases hparse : Uri.parse "file:///a" with
  | error error =>
    rw [hparse] at hsurvey
    cases hsurvey
  | ok uri =>
    rcases hrun : Survey.run 2 lassoFetch uri.withoutFragment lassoBase with ⟨outcome, survey⟩
    simp only [hparse, Except.toOption, Option.map_some, hrun] at hsurvey
    cases outcome with
    | error error => cases hsurvey
    | ok =>
      obtain ⟨hiff, -, hchain⟩ := inline_circular_iff hparse hrun
      split at hcircular
      · rename_i location chain h
        obtain ⟨hlocation, hpointers⟩ := Prod.mk.inj (Option.some.inj hcircular)
        exact ⟨uri, survey, rfl, hrun, hiff.mp ⟨_, _, h⟩, location, chain, h, hlocation,
          hpointers, (hchain location chain h).1⟩
      · cases hcircular

end SchemaClasses
