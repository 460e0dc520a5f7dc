import SchemaClasses.Proofs.Inline.Resolution

/-!
# What inlining leaves of aliases

A reference to a location that is itself a reference is an alias. Main statement
(`inline_unaliased`): inlining redirects each reference past all aliases, or fails if they lead back
to where they started. So what a reference of the result names is no reference itself
(`Survey.Combined.isDirect`).

That is said of the places of the result, and a place spells the position of an item in one way
only, while a pointer may lead to the item by another spelling. The survey takes such a pointer for
another location and does not see that there is a reference (`inline_aliased`).
-/

namespace SchemaClasses

/-- Whether each reference of a document is the pointer to a value in it, at a place that has no
reference itself. -/
def Json.IsDirect (document : Json) : Prop :=
  ∀ place text, (place, text) ∈ document.refs → ∃ path : SchemaPath, text = path.toPointer ∧
    (document.at? path).isSome ∧ ∀ other, (path.segments, other) ∉ document.refs

namespace Corpus

variable {fetch : Fetch} {corpus : Corpus}

/-! ### Locations and their places -/

/-- If there are remote documents then the base document has nothing under the reserved key. -/
theorem Lawful.descend?_reserved (h : corpus.Lawful fetch) {number : Nat} {found : Uri × Json}
    (hremote : corpus.document? (.remote number) = some found) (place : List String) :
    corpus.document.descend? (remoteKey :: place) = none := by
  have hfree : corpus.document.get? remoteKey = none := by
    apply h.unreserved
    intro hnil
    rw [document?, hnil] at hremote
    cases hremote
  have hindex : arrayIndex? remoteKey = none := by decide
  rw [Json.descend?]
  cases hdocument : corpus.document with
  | obj entries =>
    rw [hdocument, Json.get?] at hfree
    rw [Json.step?, hfree, Option.bind_none]
  | arr items => rw [Json.step?, hindex, Option.bind_none, Option.bind_none]
  | null => rfl
  | bool => rfl
  | num => rfl
  | str => rfl

/-- Locations of values have different places once all documents are one. -/
theorem Lawful.localPath_injective (h : corpus.Lawful fetch) {first second : Location}
    {found other : Uri × Json} (hfound : corpus.document? first.space = some found)
    (hsome : (found.2.at? first.path).isSome) (hother : corpus.document? second.space = some other)
    (hsome' : (other.2.at? second.path).isSome) (heq : first.localPath = second.localPath) :
    first = second := by
  obtain ⟨space, ⟨place⟩⟩ := first
  obtain ⟨space', ⟨place'⟩⟩ := second
  have hplaces : space.root.segments ++ place = space'.root.segments ++ place' :=
    congrArg SchemaPath.segments heq
  -- a place of the base document cannot be one of a remote document
  have hapart : ∀ {number : Nat} {remote : Uri × Json} {below : List String},
      corpus.document? (.remote number) = some remote →
      (corpus.document.descend? ((Space.remote number).root.segments ++ below)).isSome →
      False := by
    intro number remote below hremote hsome
    rw [Space.root, List.cons_append, h.descend?_reserved hremote] at hsome
    cases hsome
  cases space with
  | base =>
    obtain rfl := Option.some.inj hfound
    cases space' with
    | base =>
      obtain rfl : place = place' := hplaces
      rfl
    | remote number =>
      obtain rfl : place = (Space.remote number).root.segments ++ place' := hplaces
      exact (hapart hother hsome).elim
  | remote number =>
    cases space' with
    | base =>
      obtain rfl := Option.some.inj hother
      obtain rfl : (Space.remote number).root.segments ++ place = place' := hplaces
      exact (hapart hfound hsome').elim
    | remote number' =>
      obtain ⟨-, hrest⟩ := List.cons.inj hplaces
      obtain ⟨hname, hbelow⟩ := List.cons.inj hrest
      obtain rfl : place = place' := hbelow
      rw [Survey.remoteName_injective hname]

/-! ### Where references lead -/

/-- A reference leads to one location only. -/
theorem RefersTo.unique (hdistinct : (Assoc.keys corpus.spaces).Nodup) (hwf : corpus.WellFormed)
    {source target other : Location} (h : corpus.RefersTo source target)
    (h' : corpus.RefersTo source other) : target = other := by
  obtain ⟨scope, content, value, text, hdocument, hvalue, htext, hresolves⟩ := h
  obtain ⟨scope', content', value', text', hdocument', hvalue', htext', hresolves'⟩ := h'
  obtain ⟨rfl, rfl⟩ := Prod.mk.inj (Option.some.inj (hdocument.symm.trans hdocument'))
  obtain rfl := hvalue.unique hvalue' (hwf _ _ _ hdocument)
  obtain rfl := Option.some.inj (htext.symm.trans htext')
  obtain ⟨uri, address, found, hjoin, hdecode, hfound, haddress⟩ := hresolves
  obtain ⟨uri', address', found', hjoin', hdecode', hfound', haddress'⟩ := hresolves'
  obtain rfl := Except.ok.inj (hjoin.symm.trans hjoin')
  have hsegments := Except.ok.inj (hdecode.symm.trans hdecode')
  have hspace := (find?_spaces_iff hdistinct).mpr ⟨address, found, hfound, haddress⟩
  have hspace' := (find?_spaces_iff hdistinct).mpr ⟨address', found', hfound', haddress'⟩
  obtain ⟨space, ⟨place⟩⟩ := target
  obtain ⟨space', ⟨place'⟩⟩ := other
  obtain rfl : space = space' := Option.some.inj (hspace.symm.trans hspace')
  obtain rfl : place = place' := hsegments
  rfl

end Corpus

namespace Survey

variable {fetch : Fetch} {corpus : Corpus} {survey : Survey}

/-- Each reference has its edge. -/
theorem Maps.find?_of_refersTo (h : Maps fetch corpus survey)
    (hsearched : ∀ source text, corpus.HasRef source text → source ∈ Assoc.keys survey.edges)
    (hwf : corpus.WellFormed) {source target : Location} (hrefers : corpus.RefersTo source target) :
    Assoc.find? survey.edges source = some target := by
  obtain ⟨scope, content, value, text, hdocument, hvalue, htext, -⟩ := id hrefers
  have hsource : corpus.HasRef source text := ⟨scope, content, value, hdocument, hvalue, htext⟩
  obtain ⟨other, hother⟩ := Assoc.exists_find?_of_mem_keys (hsearched source text hsource)
  rw [hother, (h.refersTo source other hother).unique h.lawful.distinct hwf hrefers]

/-- At the place that a reference of the combined document points to there is no reference. -/
theorem Combined.isDirect {out : Json} (hcombined : Combined corpus survey.edges out)
    (h : Maps fetch corpus survey)
    (hsearched : ∀ source text, corpus.HasRef source text → source ∈ Assoc.keys survey.edges)
    (hwf : corpus.WellFormed) : out.IsDirect := by
  intro place text hmem
  obtain ⟨source, old, last, -, -, hlast, rfl⟩ := (hcombined.refs place text).mp hmem
  obtain ⟨first, -, -, hend⟩ := endsAt_of_finalTarget h hsearched hlast
  obtain ⟨uri, content, hdocument, hsome⟩ := exists_value_of_finalTarget h hlast
  refine ⟨last.localPath, rfl, hcombined.values last uri content hdocument hsome, ?_⟩
  intro other hother
  obtain ⟨source', old', -, hsource', hplace, -⟩ := (hcombined.refs _ _).mp hother
  obtain ⟨uri', content', value, hdocument', hvalue, -⟩ := id hsource'
  have hsome' : (content'.at? source'.path).isSome := by
    rw [Json.at?, hvalue.descend? (hwf _ _ _ hdocument')]
    rfl
  have hpath : last.localPath = source'.localPath := congrArg SchemaPath.mk hplace
  obtain rfl := h.lawful.localPath_injective hdocument hsome hdocument' hsome' hpath
  exact hend old' hsource'

/-! ### Chains that lead back to themselves -/

variable {edges : List (Location × Location)}

/-- A chain of edges breaks off only because it leads back to itself. -/
theorem eq_circular_of_finalFrom {first current : Location} {steps : Nat} {passed : List Location}
    {error : InlineError} (h : finalFrom edges first steps passed current = .error error) :
    ∃ chain, error = .circular first chain := by
  induction steps generalizing passed current with
  | zero =>
    unfold finalFrom at h
    split at h
    · cases h
    · split_ifs at h <;> exact ⟨_, (Except.error.inj h).symm⟩
  | succ steps ih =>
    unfold finalFrom at h
    split at h
    · cases h
    · split_ifs at h
      · exact ⟨_, (Except.error.inj h).symm⟩
      · exact ih h

/-- Where a chain of edges ends nothing before leads back to itself. -/
theorem not_cycle_of_reaches {source last : Location}
    (hreach : Relation.ReflTransGen (fun a b => Assoc.find? edges a = some b) source last)
    (hend : Assoc.find? edges last = none) :
    ¬Relation.TransGen (fun a b => Assoc.find? edges a = some b) source source := by
  induction hreach using Relation.ReflTransGen.head_induction_on with
  | refl =>
    intro hcycle
    obtain ⟨next, hnext, -⟩ := Relation.TransGen.head'_iff.mp hcycle
    cases hend.symm.trans hnext
  | @head source next hnext _ ih =>
    intro hcycle
    obtain ⟨other, hother, hback⟩ := Relation.TransGen.head'_iff.mp hcycle
    obtain rfl := Option.some.inj (hnext.symm.trans hother)
    exact ih (Relation.TransGen.tail' hback hnext)

/-- References that cannot be redirected lead back to themselves. -/
theorem eq_circular_of_redirections {error : InlineError}
    (h : redirections edges = .error error) :
    ∃ location chain, error = .circular location chain := by
  obtain ⟨source, hsource, hfinal⟩ := exists_of_redirections_eq_error h
  obtain ⟨next, hnext⟩ := Assoc.exists_find?_of_mem_keys hsource
  unfold finalTarget at hfinal
  rw [hnext] at hfinal
  exact ⟨source, eq_circular_of_finalFrom hfinal⟩

/-- If some chain leads back to itself then the references cannot be redirected. -/
theorem redirections_of_cycle {source : Location}
    (hcycle : Relation.TransGen (fun a b => Assoc.find? edges a = some b) source source) :
    ∃ location chain, redirections edges = .error (.circular location chain) := by
  cases hfound : redirections edges with
  | ok found =>
    -- the end of the chain from the location would not lead back
    obtain ⟨hkeys, hfinal⟩ := redirections_eq_ok hfound
    obtain ⟨next, hnext, -⟩ := Relation.TransGen.head'_iff.mp hcycle
    obtain ⟨pointer, hpointer⟩ :=
      Assoc.exists_find?_of_mem_keys (hkeys ▸ Assoc.mem_keys_of_find? hnext)
    obtain ⟨last, hlast, -⟩ := hfinal source pointer (Assoc.mem_of_find? hpointer)
    obtain ⟨first, hfirst, hreach, hend⟩ := reaches_of_finalTarget hlast
    exact absurd hcycle (not_cycle_of_reaches (.head hfirst hreach) hend)
  | error error =>
    obtain ⟨location, chain, rfl⟩ := eq_circular_of_redirections hfound
    exact ⟨location, chain, rfl⟩

end Survey

/-! ### Inlining -/

/-- What inlining gives is a document with direct references. -/
theorem isDirect_of_inline {limit : Nat} {fetch : Fetch} {baseUri : String} {document out : Json}
    (hdocument : document.wellFormed)
    (hfetch : ∀ uri content, fetch uri = .ok content → content.wellFormed)
    (h : (inline limit fetch baseUri document).result = .ok out) :
    out.wellFormed ∧ out.IsDirect := by
  obtain ⟨uri, survey, -, hrun, hcombine⟩ := exists_survey_of_inline h
  obtain ⟨corpus, -, rfl, hmaps, hsearched⟩ := Survey.maps_of_run hrun
  have hwf := hmaps.wellFormed hdocument hfetch
  have hcombined := Survey.combined_of_combine hmaps hsearched hwf hcombine
  exact ⟨hcombined.wellFormed, hcombined.isDirect hmaps hsearched hwf⟩

/-- Inlining leaves no alias, as far as pointers spell positions in the plain way: what a reference
of the result names exists, and is no reference itself if it stands at the place that the pointer
spells. Each reference is redirected to the end of its chain, and if a chain leads back to itself
then inlining fails. -/
theorem inline_unaliased {limit : Nat} {fetch : Fetch} {baseUri : String} {document : Json}
    (hdocument : document.wellFormed)
    (hfetch : ∀ uri content, fetch uri = .ok content → content.wellFormed) :
    (∀ out, (inline limit fetch baseUri document).result = .ok out →
      ∀ place value text, Json.StandsAt out place value → value.ref? = some text →
        ∃ path target, SchemaPath.ofPointer text = .ok path ∧ out.at? path = some target ∧
          (Json.StandsAt out path.segments target → target.ref? = none)) ∧
    ∀ uri survey, Uri.parse baseUri = .ok uri →
      Survey.run limit fetch uri.withoutFragment document = (.ok (), survey) →
      ∃ corpus : Corpus, corpus.address = uri.withoutFragment ∧ corpus.document = document ∧
        corpus.remotes.map Prod.fst = survey.requested ∧ corpus.Lawful fetch ∧
        (∀ source, Relation.TransGen corpus.RefersTo source source → ∃ location chain,
          (inline limit fetch baseUri document).result = .error (.circular location chain)) ∧
        ∀ out, (inline limit fetch baseUri document).result = .ok out →
          ∀ source text, corpus.HasRef source text → ∃ first last value,
            corpus.RefersTo source first ∧ corpus.EndsAt first last ∧
              out.at? source.localPath = some value ∧ value.ref? = some last.toPointer := by
  constructor
  · intro out hout place value text hvalue htext
    have hmem := Json.mem_refs.mpr ⟨value, hvalue, htext⟩
    obtain ⟨path, rfl, hsome, hnone⟩ := (isDirect_of_inline hdocument hfetch hout).2 place text hmem
    obtain ⟨target, htarget⟩ := Option.isSome_iff_exists.mp hsome
    refine ⟨path, target, path.ofPointer_toPointer, htarget, fun hstands => ?_⟩
    apply Option.eq_none_iff_forall_ne_some.mpr
    intro other hother
    exact hnone other (Json.mem_refs.mpr ⟨target, hstands, hother⟩)
  · intro uri survey hparse hrun
    obtain ⟨corpus, haddress, rfl, hmaps, hsearched⟩ := Survey.maps_of_run hrun
    have hwf := hmaps.wellFormed hdocument hfetch
    refine ⟨corpus, haddress, rfl, hmaps.requested.symm, hmaps.lawful, ?_, ?_⟩
    · intro source hcycle
      have hedges := Relation.TransGen.mono
        (fun _ _ hrefers => hmaps.find?_of_refersTo hsearched hwf hrefers) _ _ hcycle
      obtain ⟨location, chain, hredirections⟩ := Survey.redirections_of_cycle hedges
      refine ⟨location, chain, ?_⟩
      rw [inline_eq hparse hrun]
      show survey.combine uri.withoutFragment = _
      rw [Survey.combine, hredirections]
      rfl
    · intro out hout source text hsource
      rw [inline_eq hparse hrun] at hout
      exact (Survey.resolved_of_combine hmaps hsearched hwf hout).pointsToEnd source text hsource

/-- A document whose reference leads to another one that goes to another document. -/
def relayBase : Json :=
  .obj [("x", .obj [(refKey, .str "#/y")]), ("y", .obj [(refKey, .str "b#/z")])]

/-- A source of one document, in which a reference leads to an object. -/
def relayFetch : Fetch := fun uri =>
  if uri.toText = "file:///b" then
    .ok (.obj [("z", .obj [(refKey, .str "#/w")]), ("w", .obj [])])
  else .error (.fileNotFound uri.toText)

/-- The theorem at `relayBase`: each reference is replaced by the pointer to the object at the
end. -/
theorem inline_unaliased_relay : relayBase.wellFormed ∧
    (∀ uri content, relayFetch uri = .ok content → content.wellFormed) ∧
    (inline 2 relayFetch "file:///a" relayBase).result.toOption.map Json.refs =
      some [(["x"], "#/remote/schema0/w"), (["y"], "#/remote/schema0/w"),
        (["remote", "schema0", "z"], "#/remote/schema0/w")] ∧
    (∀ out, (inline 2 relayFetch "file:///a" relayBase).result = .ok out →
      ∀ place value text, Json.StandsAt out place value → value.ref? = some text →
        ∃ path target, SchemaPath.ofPointer text = .ok path ∧ out.at? path = some target ∧
          (Json.StandsAt out path.segments target → target.ref? = none)) ∧
    ∀ uri survey, Uri.parse "file:///a" = .ok uri →
      Survey.run 2 relayFetch uri.withoutFragment relayBase = (.ok (), survey) →
      ∃ corpus : Corpus, corpus.address = uri.withoutFragment ∧ corpus.document = relayBase ∧
        corpus.remotes.map Prod.fst = survey.requested ∧ corpus.Lawful relayFetch ∧
        (∀ source, Relation.TransGen corpus.RefersTo source source → ∃ location chain,
          (inline 2 relayFetch "file:///a" relayBase).result =
            .error (.circular location chain)) ∧
        ∀ out, (inline 2 relayFetch "file:///a" relayBase).result = .ok out →
          ∀ source text, corpus.HasRef source text → ∃ first last value,
            corpus.RefersTo source first ∧ corpus.EndsAt first last ∧
              out.at? source.localPath = some value ∧ value.ref? = some last.toPointer := by
  have hbase : relayBase.wellFormed := by decide
  have hfetch : ∀ uri content, relayFetch uri = .ok content → content.wellFormed := by
    intro uri content h
    unfold relayFetch at h
    split_ifs at h
    obtain rfl := Except.ok.inj h
    decide
  exact ⟨hbase, hfetch, by decide +kernel, inline_unaliased hbase hfetch⟩

/-- A reference to the first item of an array, by another spelling of its position. -/
def spelledBase : Json :=
  .obj [("a", .arr [.obj [(refKey, .str "#/b")]]), ("b", .obj [(typeKey, .str "string")]),
    ("c", .obj [(refKey, .str "#/a/00")])]

/-- A reference to itself, by another spelling of its position. -/
def spelledCycle : Json :=
  .obj [("a", .arr [.obj [(refKey, .str "#/a/00")]])]

/-- Where a pointer spells a position in another way, an alias is left: the pointer leads to a
reference, and a reference may even lead to itself. -/
theorem inline_aliased :
    (spelledBase.wellFormed ∧ ∃ out,
      (inline 1 relayFetch "file:///a" spelledBase).result = .ok out ∧
      (out.at? ⟨["c"]⟩).bind Json.ref? = some "#/a/00" ∧
      SchemaPath.ofPointer "#/a/00" = .ok ⟨["a", "00"]⟩ ∧
      (out.at? ⟨["a", "00"]⟩).bind Json.ref? = some "#/b") ∧
    spelledCycle.wellFormed ∧ ∃ out,
      (inline 1 relayFetch "file:///a" spelledCycle).result = .ok out ∧
      (out.at? ⟨["a", "00"]⟩).bind Json.ref? = some "#/a/00" := by
  have hout : (inline 1 relayFetch "file:///a" spelledBase).result.toOption.map (fun out =>
      ((out.at? ⟨["c"]⟩).bind Json.ref?, (out.at? ⟨["a", "00"]⟩).bind Json.ref?)) =
        some (some "#/a/00", some "#/b") := by decide +kernel
  have hcycle : (inline 1 relayFetch "file:///a" spelledCycle).result.toOption.map (fun out =>
      (out.at? ⟨["a", "00"]⟩).bind Json.ref?) = some (some "#/a/00") := by decide +kernel
  constructor
  · refine ⟨by decide, ?_⟩
    cases h : (inline 1 relayFetch "file:///a" spelledBase).result with
    | error error =>
      rw [h] at hout
      cases hout
    | ok out =>
      rw [h] at hout
      obtain ⟨hc, ha⟩ := Prod.mk.inj (Option.some.inj hout)
      exact ⟨out, rfl, hc, by decide +kernel, ha⟩
  · refine ⟨by decide, ?_⟩
    cases h : (inline 1 relayFetch "file:///a" spelledCycle).result with
    | error error =>
      rw [h] at hcycle
      cases hcycle
    | ok out =>
      rw [h] at hcycle
      exact ⟨out, rfl, Option.some.inj hcycle⟩

end SchemaClasses
