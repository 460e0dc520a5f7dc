import SchemaClasses.Proofs.Inline.Attachment

/-!
# Inlining resolves every reference

Main statement (`inline_resolved`): if inlining gives a document, then that document holds exactly
the references of the base document and of the documents that were fetched, each below the root of
its document, and each of them is the pointer to the end of the chain that began where it led. All
these pointers lead to a value.

A survey that succeeds maps a corpus (`Survey.maps_of_run`), its chains end where there is no
reference (`endsAt_of_finalTarget`), and rewriting and attaching the documents keep their places
(`Survey.redirectAll_contents`, `Survey.mem_refs_attach`).
-/

namespace SchemaClasses

/-- Whether a document is what the documents of a corpus come to once all references are
resolved. -/
structure Corpus.Resolved (corpus : Corpus) (out : Json) : Prop where
  /-- Each reference is the pointer to the end of the chain that begins where it led. -/
  pointsToEnd : ∀ source text, corpus.HasRef source text → ∃ first last value,
    corpus.RefersTo source first ∧ corpus.EndsAt first last ∧
      out.at? source.localPath = some value ∧ value.ref? = some last.toPointer
  /-- There are no other references. -/
  onlyRefs : ∀ place value text, Json.StandsAt out place value → value.ref? = some text →
    ∃ source old, corpus.HasRef source old ∧ place = source.localPath.segments
  /-- Each reference leads to a value. -/
  leads : ∀ place value text, Json.StandsAt out place value → value.ref? = some text →
    ∃ path, SchemaPath.ofPointer text = .ok path ∧ (out.at? path).isSome

namespace Survey

variable {fetch : Fetch} {corpus : Corpus} {survey : Survey}

/-- A chain of edges is one of references, and where there is no edge there is no reference. -/
theorem endsAt_of_finalTarget (h : Maps fetch corpus survey)
    (hsearched : ∀ source text, corpus.HasRef source text → source ∈ Assoc.keys survey.edges)
    {source last : Location} (hfinal : finalTarget survey.edges source = .ok last) :
    ∃ first, corpus.RefersTo source first ∧ corpus.EndsAt first last := by
  obtain ⟨first, hfirst, hreach, hend⟩ := reaches_of_finalTarget hfinal
  refine ⟨first, h.refersTo _ _ hfirst, Relation.ReflTransGen.mono h.refersTo _ _ hreach,
    fun text href => ?_⟩
  exact Assoc.find?_eq_none_iff.mp hend (hsearched last text href)

/-- At the end of a chain of edges there is a value. -/
theorem exists_value_of_finalTarget (h : Maps fetch corpus survey) {source last : Location}
    (hfinal : finalTarget survey.edges source = .ok last) :
    ∃ uri content, corpus.document? last.space = some (uri, content) ∧
      (content.at? last.path).isSome := by
  obtain ⟨first, hfirst, hreach, -⟩ := reaches_of_finalTarget hfinal
  cases hreach with
  | refl => exact h.exists_target _ _ hfirst
  | tail _ hlast => exact h.exists_target _ _ hlast

/-- All edges begin at references. -/
theorem Maps.hasRef (h : Maps fetch corpus survey) {source : Location}
    (hsource : source ∈ Assoc.keys survey.edges) : ∃ text, corpus.HasRef source text := by
  obtain ⟨target, htarget⟩ := Assoc.exists_find?_of_mem_keys hsource
  obtain ⟨scope, content, value, text, hdocument, hvalue, htext, -⟩ :=
    h.refersTo source target htarget
  exact ⟨text, scope, content, value, hdocument, hvalue, htext⟩

/-- The documents of a survey are those of the corpus in which nothing is redirected yet. -/
theorem Maps.documents_eq (h : Maps fetch corpus survey) :
    survey.documents = (corpus.redirect fun _ => none).contents := by
  rw [h.documents, Corpus.contents_redirect]
  simp only [Json.redirect_none]
  exact (List.map_id _).symm

/-- Combining the documents of a survey attaches them once all references are redirected. -/
theorem combine_of_redirections (h : Maps fetch corpus survey) (hwf : corpus.WellFormed)
    {found : List (Location × String)} (hfound : redirections survey.edges = .ok found)
    (base : Uri) : combine base survey =
      attach base (corpus.redirect (Assoc.find? found)).spaces
        (corpus.redirect (Assoc.find? found)).contents := by
  obtain ⟨hkeys, -⟩ := redirections_eq_ok hfound
  have hnodup : (Assoc.keys found).Nodup := hkeys ▸ h.nodup
  have hnone : corpus.OnlyRefs fun _ => none := nofun
  have hall := redirectAll_contents hwf hnodup (fun source hsource => h.hasRef (hkeys ▸ hsource))
    hnone
  simp only [Option.or_none] at hall
  unfold combine
  simp only [hfound, bind, Except.bind, h.documents_eq, hall, h.spaces, Corpus.spaces_redirect]

/-- Combining the documents of a survey redirects each reference to the end of its chain and
attaches the documents. -/
theorem combine_eq_ok (h : Maps fetch corpus survey) (hwf : corpus.WellFormed) {base : Uri}
    {out : Json} (hcombine : combine base survey = .ok out) :
    ∃ table : Location → Option String, corpus.OnlyRefs table ∧
      (∀ source ∈ Assoc.keys survey.edges, ∃ last, finalTarget survey.edges source = .ok last ∧
        table source = some last.toPointer) ∧
      attach base (corpus.redirect table).spaces (corpus.redirect table).contents = .ok out := by
  cases hfound : redirections survey.edges with
  | error e =>
    rw [combine, hfound] at hcombine
    cases hcombine
  | ok found =>
    obtain ⟨hkeys, hfinal⟩ := redirections_eq_ok hfound
    rw [combine_of_redirections h hwf hfound] at hcombine
    refine ⟨Assoc.find? found, ?_, ?_, hcombine⟩
    · intro source pointer hpointer
      exact h.hasRef (hkeys ▸ Assoc.mem_keys_of_find? hpointer)
    · intro source hsource
      obtain ⟨pointer, hpointer⟩ := Assoc.exists_find?_of_mem_keys (hkeys ▸ hsource)
      obtain ⟨last, hlast, rfl⟩ := hfinal source pointer (Assoc.mem_of_find? hpointer)
      exact ⟨last, hlast, hpointer⟩

/-- The documents that a survey has fetched are still objects once they are redirected. -/
theorem Maps.isObject_redirect (h : Maps fetch corpus survey) (table : Location → Option String) :
    ∀ remote ∈ (corpus.redirect table).remotes, remote.2.isObject := by
  intro remote hremote
  obtain ⟨number, hnumber, rfl⟩ := List.mem_mapIdx.mp hremote
  rw [Json.isObject_redirect]
  exact h.lawful.isObject _ (List.getElem_mem hnumber)

/-- If a survey has fetched anything, the reserved key is still free once the base document is
redirected. -/
theorem Maps.unreserved_redirect (h : Maps fetch corpus survey)
    (table : Location → Option String) (hremotes : (corpus.redirect table).remotes ≠ []) :
    (corpus.redirect table).document.get? remoteKey = none := by
  have hkey := h.lawful.unreserved fun hnil => hremotes (by rw [Corpus.redirect, hnil]; rfl)
  rw [← Option.isNone_iff_eq_none, ← Option.not_isSome, Corpus.redirect,
    Json.isSome_get?_redirect, hkey]
  simp

/-- What is asked for is fetched, document by document. -/
theorem Maps.length_redirect (h : Maps fetch corpus survey) (table : Location → Option String) :
    (corpus.redirect table).remotes.length = survey.requested.length := by
  rw [h.requested, List.length_map, Corpus.redirect, List.length_mapIdx]

/-- Nothing was asked for just if there are no remote documents. -/
theorem Maps.requested_eq_nil_iff (h : Maps fetch corpus survey)
    (table : Location → Option String) :
    survey.requested = [] ↔ (corpus.redirect table).remotes = [] := by
  rw [← List.length_eq_zero_iff, ← List.length_eq_zero_iff, h.length_redirect table]

/-- Whether a document is made of the documents of a corpus, with each reference redirected to the
end of a chain of edges. -/
structure Combined (corpus : Corpus) (edges : List (Location × Location)) (out : Json) : Prop where
  /-- No key is repeated. -/
  wellFormed : out.wellFormed
  /-- The chains that begin at the references end. -/
  ends : ∀ source text, corpus.HasRef source text → ∃ last, finalTarget edges source = .ok last
  /-- The references are those of the documents, below the roots of these. -/
  refs : ∀ place text, (place, text) ∈ out.refs ↔ ∃ source old last, corpus.HasRef source old ∧
    place = source.localPath.segments ∧ finalTarget edges source = .ok last ∧
    text = last.toPointer
  /-- The values are those of the documents, too. -/
  values : ∀ (location : Location) uri content,
    corpus.document? location.space = some (uri, content) →
    (content.at? location.path).isSome → (out.at? location.localPath).isSome

/-- Combining the documents of a complete survey keeps their places. -/
theorem combined_of_combine (h : Maps fetch corpus survey)
    (hsearched : ∀ source text, corpus.HasRef source text → source ∈ Assoc.keys survey.edges)
    (hwf : corpus.WellFormed) {base : Uri} {out : Json}
    (hcombine : combine base survey = .ok out) : Combined corpus survey.edges out := by
  obtain ⟨table, hfit, htable, hattach⟩ := combine_eq_ok h hwf hcombine
  have hwf' : (corpus.redirect table).WellFormed := Corpus.wellFormed_redirect hwf
  have hobject := h.isObject_redirect table
  have hfree := h.unreserved_redirect table
  constructor
  case wellFormed => exact wellFormed_attach hwf' hobject hfree hattach
  case ends =>
    intro source text hsource
    obtain ⟨last, hlast, -⟩ := htable source (hsearched source text hsource)
    exact ⟨last, hlast⟩
  case refs =>
    intro place text
    constructor
    · intro hmem
      obtain ⟨space, uri, content, below, hdocument, rfl, hbelow⟩ :=
        (mem_refs_attach hwf' hobject hfree hattach).mp hmem
      obtain ⟨old, hsource, rfl⟩ :=
        (Corpus.hasRef_redirect hwf hfit).mp ((Corpus.hasRef_iff hdocument).mpr hbelow)
      obtain ⟨last, hlast, hpointer⟩ := htable _ (hsearched _ _ hsource)
      exact ⟨_, old, last, hsource, rfl, hlast, by rw [hpointer]; rfl⟩
    · rintro ⟨source, old, last, hsource, rfl, hlast, rfl⟩
      obtain ⟨other, hother, hpointer⟩ := htable source (hsearched source old hsource)
      obtain rfl : last = other := Except.ok.inj (hlast.symm.trans hother)
      have hsource' : (corpus.redirect table).HasRef source last.toPointer :=
        (Corpus.hasRef_redirect hwf hfit).mpr ⟨old, hsource, by rw [hpointer]; rfl⟩
      obtain ⟨space, ⟨place⟩⟩ := source
      obtain ⟨uri, content, _, hdocument, -⟩ := id hsource'
      exact (mem_refs_attach hwf' hobject hfree hattach).mpr
        ⟨space, uri, content, place, hdocument, rfl, (Corpus.hasRef_iff hdocument).mp hsource'⟩
  case values =>
    intro location uri content hdocument hsome
    have hdocument' : (corpus.redirect table).document? location.space =
        some (uri, content.redirect fun place => table ⟨location.space, ⟨place⟩⟩) := by
      rw [Corpus.document?_redirect, hdocument]
      rfl
    exact isSome_descend?_attach hwf' hobject hfree hattach hdocument'
      (Json.isSome_descend?_redirect (hfit.document? hdocument) (hwf _ _ _ hdocument) hsome)

/-- What combining the documents of a complete survey gives is what they come to once all
references are resolved. -/
theorem resolved_of_combine (h : Maps fetch corpus survey)
    (hsearched : ∀ source text, corpus.HasRef source text → source ∈ Assoc.keys survey.edges)
    (hwf : corpus.WellFormed) {base : Uri} {out : Json}
    (hcombine : combine base survey = .ok out) : corpus.Resolved out := by
  have hcombined := combined_of_combine h hsearched hwf hcombine
  constructor
  case pointsToEnd =>
    intro source text hsource
    obtain ⟨last, hlast⟩ := hcombined.ends source text hsource
    obtain ⟨first, hfirst, hend⟩ := endsAt_of_finalTarget h hsearched hlast
    obtain ⟨value, hvalue, htext⟩ := Json.mem_refs.mp
      ((hcombined.refs _ _).mpr ⟨source, text, last, hsource, rfl, hlast, rfl⟩)
    exact ⟨first, last, value, hfirst, hend, hvalue.descend? hcombined.wellFormed, htext⟩
  case onlyRefs =>
    intro place value text hvalue htext
    obtain ⟨source, old, _, hsource, hplace, -⟩ :=
      (hcombined.refs place text).mp (Json.mem_refs.mpr ⟨value, hvalue, htext⟩)
    exact ⟨source, old, hsource, hplace⟩
  case leads =>
    intro place value text hvalue htext
    obtain ⟨_, _, last, -, -, hlast, rfl⟩ :=
      (hcombined.refs place text).mp (Json.mem_refs.mpr ⟨value, hvalue, htext⟩)
    obtain ⟨uri, content, hdocument, hsome⟩ := exists_value_of_finalTarget h hlast
    exact ⟨last.localPath, SchemaPath.ofPointer_toPointer _,
      hcombined.values last uri content hdocument hsome⟩

/-- The documents of a survey are well formed if all that is fetched is. -/
theorem Maps.wellFormed (h : Maps fetch corpus survey) (hdocument : corpus.document.wellFormed)
    (hfetch : ∀ uri content, fetch uri = .ok content → content.wellFormed) :
    corpus.WellFormed := by
  intro space address content hfound
  cases space with
  | base =>
    obtain ⟨-, rfl⟩ := Prod.mk.inj (Option.some.inj hfound)
    exact hdocument
  | remote number => exact hfetch _ _ (h.lawful.fetched _ (List.mem_of_getElem? hfound))

end Survey

/-- Inlining comes to a survey and to combining what it has found. -/
theorem inline_eq {limit : Nat} {fetch : Fetch} {baseUri : String} {document : Json} {uri : Uri}
    (hparse : Uri.parse baseUri = .ok uri) {outcome : Except InlineError Unit} {survey : Survey}
    (hrun : Survey.run limit fetch uri.withoutFragment document = (outcome, survey)) :
    inline limit fetch baseUri document =
      ⟨outcome.bind fun _ => survey.combine uri.withoutFragment, survey.requested⟩ := by
  unfold inline
  simp only [hparse, hrun]

/-- If inlining gives a document then the survey has succeeded and could be combined. -/
theorem exists_survey_of_inline {limit : Nat} {fetch : Fetch} {baseUri : String}
    {document out : Json} (h : (inline limit fetch baseUri document).result = .ok out) :
    ∃ uri survey, Uri.parse baseUri = .ok uri ∧
      Survey.run limit fetch uri.withoutFragment document = (.ok (), survey) ∧
      survey.combine uri.withoutFragment = .ok out := by
  cases hparse : Uri.parse baseUri with
  | error e =>
    unfold inline at h
    rw [hparse] at h
    cases h
  | ok uri =>
    rcases hrun : Survey.run limit fetch uri.withoutFragment document with ⟨outcome, survey⟩
    rw [inline_eq hparse hrun] at h
    cases outcome with
    | error e => cases h
    | ok _ => exact ⟨uri, survey, rfl, hrun, h⟩

/-- Whenever inlining gives a document, it resolves every reference of the base document and of the
documents that were fetched, in the order in which they were asked for. -/
theorem inline_resolved {limit : Nat} {fetch : Fetch} {baseUri : String} {document out : Json}
    (hdocument : document.wellFormed)
    (hfetch : ∀ uri content, fetch uri = .ok content → content.wellFormed)
    (h : (inline limit fetch baseUri document).result = .ok out) :
    ∃ (corpus : Corpus) (uri : Uri), Uri.parse baseUri = .ok uri ∧
      corpus.address = uri.withoutFragment ∧ corpus.document = document ∧
      corpus.remotes.map Prod.fst = (inline limit fetch baseUri document).requested ∧
      corpus.Lawful fetch ∧ corpus.Resolved out := by
  obtain ⟨uri, survey, hparse, hrun, hcombine⟩ := exists_survey_of_inline h
  obtain ⟨corpus, haddress, rfl, hmaps, hsearched⟩ := Survey.maps_of_run hrun
  rw [inline_eq hparse hrun]
  exact ⟨corpus, uri, hparse, haddress, rfl, hmaps.requested.symm, hmaps.lawful,
    Survey.resolved_of_combine hmaps hsearched (hmaps.wellFormed hdocument hfetch) hcombine⟩

/-- A document whose reference goes to another document. -/
def circuitBase : Json :=
  .obj [("x", .obj [(refKey, .str "b#/y")]), ("z", .obj [])]

/-- A source of one document, whose reference goes back to the first one. -/
def circuitFetch : Fetch := fun uri =>
  if uri.toText = "file:///b" then .ok (.obj [("y", .obj [(refKey, .str "a#/z")])])
  else .error (.fileNotFound uri.toText)

/-- The source has well-formed documents only. -/
theorem wellFormed_circuitFetch (uri : Uri) (content : Json) (h : circuitFetch uri = .ok content) :
    content.wellFormed := by
  unfold circuitFetch at h
  split_ifs at h
  obtain rfl := Except.ok.inj h
  decide

/-- A chain through another document and back ends in the base document. -/
theorem inline_resolved_circuit : circuitBase.wellFormed ∧
    (∀ uri content, circuitFetch uri = .ok content → content.wellFormed) ∧
    ∃ out, (inline 2 circuitFetch "file:///a" circuitBase).result = .ok out ∧
      (out.at? ⟨["x"]⟩).bind Json.ref? = some "#/z" ∧
      ∃ (corpus : Corpus) (uri : Uri), Uri.parse "file:///a" = .ok uri ∧
        corpus.address = uri.withoutFragment ∧ corpus.document = circuitBase ∧
        corpus.remotes.map Prod.fst =
          (inline 2 circuitFetch "file:///a" circuitBase).requested ∧
        corpus.Lawful circuitFetch ∧ corpus.Resolved out := by
  have hbase : circuitBase.wellFormed := by decide
  have hend : (inline 2 circuitFetch "file:///a" circuitBase).result.toOption.bind
      (fun out => (out.at? ⟨["x"]⟩).bind Json.ref?) = some "#/z" := by decide +kernel
  cases h : (inline 2 circuitFetch "file:///a" circuitBase).result with
  | error e => rw [h] at hend; cases hend
  | ok out =>
    rw [h] at hend
    exact ⟨hbase, wellFormed_circuitFetch, out, rfl, hend,
      inline_resolved hbase wellFormed_circuitFetch h⟩

end SchemaClasses
