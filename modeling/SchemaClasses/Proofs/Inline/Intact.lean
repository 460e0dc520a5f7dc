import SchemaClasses.Proofs.Inline.Termination

/-!
# Nothing that is recorded gets lost

Main statement (`inline_intact`): inlining never finds that a document or a location which it has
recorded is not there (`InlineError.lostLocation`). While the references are redirected, one after
the other, every location that was recorded still leads to an object.

* During the survey each document that has a number has a content as well, the base document among
  them (`Stocked`). Fetching a document gives it a number and a content in one step, and nothing is
  ever taken away, so each step of the survey keeps that and finds the documents it looks for
  (`keepsStock_search`).
* Chains are followed from locations that have an edge, so their ends are found or they are circular
  (`eq_circular_of_redirections`).
* Locations are recorded on the documents as they were fetched and are used on documents in which
  some references have been redirected already. Those come of the same corpus by `Corpus.redirect`,
  which keeps the place of each reference (`Corpus.hasRef_redirect`), so after any number of
  redirections all locations lead to objects (`exists_object_of_redirectAll`).
-/

namespace SchemaClasses

namespace Survey

/-! ### The survey -/

/-- Whether the base document and all documents that are known by a URI have a content. -/
structure Stocked (survey : Survey) : Prop where
  /-- The base document has one. -/
  base : Space.base ∈ Assoc.keys survey.documents
  /-- So has every document with a URI. -/
  known : ∀ text space, Assoc.find? survey.spaces text = some space →
    space ∈ Assoc.keys survey.documents

/-- Whether a computation keeps every document, and does not miss any. -/
def KeepsStock {α : Type} (x : SurveyM α) (fit : α → Survey → Prop) : Prop :=
  ∀ survey, survey.Stocked → Ends x survey (fun a after => after.Stocked ∧ fit a after)
    fun error _ => ∀ location, error ≠ .lostLocation location

section Stocked

variable {fetch : Fetch} {survey : Survey}

/-- At first the base document is known, and has its content. -/
theorem stocked_start (base : Uri) (document : Json) : (start base document).Stocked where
  base := List.mem_cons_self
  known := by
    intro text space hspace
    obtain ⟨-, rfl⟩ := Prod.mk.inj (List.mem_singleton.mp (Assoc.mem_of_find? hspace))
    exact List.mem_cons_self

/-- A document that gets its number and its content at once. -/
theorem Stocked.insert (h : survey.Stocked) (text : String) (space : Space) (content : Json) :
    Stocked { survey with
      spaces := Assoc.insert survey.spaces text space
      documents := Assoc.insert survey.documents space content } where
  base := Assoc.mem_keys_insert.mpr (.inl h.base)
  known := by
    intro other found hfound
    apply Assoc.mem_keys_insert.mpr
    by_cases hother : text = other
    · subst hother
      rw [Assoc.find?_insert_self] at hfound
      exact .inr (Option.some.inj hfound).symm
    · rw [Assoc.find?_insert_of_ne _ _ hother] at hfound
      exact .inl (h.known other found hfound)

/-- A document that is asked for is there afterwards. -/
theorem keepsStock_spaceOf (uri : Uri) :
    KeepsStock (spaceOf fetch uri) fun found after =>
      found.1 ∈ Assoc.keys after.documents := by
  intro survey h
  refine ends_spaceOf (fun space hspace => ⟨h, h.known _ _ hspace⟩) fun _ => ends_load
    (fun hlost => absurd h.base (Assoc.find?_eq_none_iff.mp hlost)) nofun fun _ _ _ =>
      ⟨fun _ _ => nofun, fun content _ => ⟨fun _ => nofun, fun _ => ?_⟩⟩
  have hinsert := h.insert uri.toText survey.next content
  exact ⟨⟨hinsert.base, hinsert.known⟩, Assoc.mem_keys_insert.mpr (.inr rfl)⟩

/-- Recording a reference finds the document that it leads to. -/
theorem keepsStock_record (scope : Uri) (source : Location) (reference : String) :
    KeepsStock (record fetch scope source reference) fun _ _ => True := by
  intro survey h
  refine ends_record (fun _ _ => nofun) (fun _ _ _ _ => nofun) fun uri _ _ _ =>
    (keepsStock_spaceOf uri.withoutFragment survey h).mono (fun found between hfound => ?_)
      fun _ _ h => h
  obtain ⟨hstocked, hspace⟩ := hfound
  have hrecorded : ∀ target, Stocked (between.withEdge source target) :=
    fun _ => ⟨hstocked.base, hstocked.known⟩
  exact ⟨fun hlost => absurd hspace (Assoc.find?_eq_none_iff.mp hlost), fun _ _ =>
    ⟨fun _ => nofun, fun _ => ⟨fun _ => ⟨hrecorded _, trivial⟩, fun _ => ⟨hrecorded _, trivial⟩⟩⟩⟩

/-- The whole search of a document misses none. -/
theorem keepsStock_search (fetch : Fetch) (limit : Nat) (space : Space) (scope : Uri)
    (content : Json) :
    KeepsStock (Survey.search fetch limit space scope content) fun _ _ => True := by
  intro survey h
  refine (ends_search (fun scope source reference survey h =>
    (keepsStock_record scope source reference survey h).mono (fun _ _ h => h.1) fun _ _ h => h)
    (fun _ _ => nofun) limit space scope content h).mono (fun _ _ h => ⟨h, trivial⟩) fun _ _ h => h

end Stocked

/-- A survey fails for other reasons than that something is missed. -/
theorem run_ne_lostLocation (limit : Nat) (fetch : Fetch) (base : Uri) (document : Json)
    (location : Location) (survey : Survey) :
    run limit fetch base document ≠ (.error (.lostLocation location), survey) := by
  intro hrun
  have hends := keepsStock_search fetch limit .base base document _ (stocked_start base document)
  exact hends.of_eq_error hrun location rfl

/-! ### Redirecting the references -/

section Redirecting

variable {fetch : Fetch} {corpus : Corpus} {survey : Survey}

/-- The location of a reference leads to an object in the documents of the corpus, also if some of
the references have been redirected. -/
theorem exists_object_of_hasRef (hwf : corpus.WellFormed) {table : Location → Option String}
    (hfit : corpus.OnlyRefs table) {source : Location} {text : String}
    (hsource : corpus.HasRef source text) :
    ∃ content entries, Assoc.find? (corpus.redirect table).contents source.space = some content ∧
      content.at? source.path = some (.obj entries) := by
  obtain ⟨uri, content, value, hdocument, hvalue, htext⟩ :=
    (Corpus.hasRef_redirect hwf hfit).mpr ⟨text, hsource, rfl⟩
  have hplace := hvalue.descend? (Corpus.wellFormed_redirect hwf _ _ _ hdocument)
  have hcontent : Assoc.find? (corpus.redirect table).contents source.space = some content := by
    rw [Corpus.find?_contents, hdocument]
    rfl
  cases value with
  | obj entries => exact ⟨content, entries, hcontent, hplace⟩
  | arr => cases htext
  | null => cases htext
  | bool => cases htext
  | num => cases htext
  | str => cases htext

/-- Redirecting any of the references succeeds, and leaves an object at the location of each
reference. -/
theorem exists_object_of_redirectAll (h : Maps fetch corpus survey) (hwf : corpus.WellFormed)
    {front : List (Location × String)} (hnodup : (Assoc.keys front).Nodup)
    (hsources : Assoc.keys front ⊆ Assoc.keys survey.edges) :
    ∃ documents, redirectAll survey.documents front = .ok documents ∧
      ∀ source ∈ Assoc.keys survey.edges, ∃ content entries,
        Assoc.find? documents source.space = some content ∧
          content.at? source.path = some (.obj entries) := by
  have hempty : corpus.OnlyRefs fun _ => none := nofun
  have hall := redirectAll_contents hwf hnodup
    (fun source hsource => h.hasRef (hsources hsource)) hempty
  simp only [Option.or_none] at hall
  have hfit : corpus.OnlyRefs (Assoc.find? front) := fun source pointer hpointer =>
    h.hasRef (hsources (Assoc.mem_keys_of_find? hpointer))
  refine ⟨_, h.documents_eq.symm ▸ hall, fun source hsource => ?_⟩
  obtain ⟨text, htext⟩ := h.hasRef hsource
  exact exists_object_of_hasRef hwf hfit htext

/-- Combining the documents of a survey fails for other reasons, too. -/
theorem combine_ne_lostLocation (h : Maps fetch corpus survey) (hwf : corpus.WellFormed)
    (base : Uri) (location : Location) : survey.combine base ≠ .error (.lostLocation location) := by
  intro hlost
  cases hfound : redirections survey.edges with
  | error error =>
    obtain ⟨first, chain, rfl⟩ := eq_circular_of_redirections hfound
    rw [combine, hfound] at hlost
    cases hlost
  | ok found =>
    rw [combine_of_redirections h hwf hfound] at hlost
    cases eq_notAnObject_of_attach hlost

end Redirecting

end Survey

/-- Whatever is inlined, no document and no location that was recorded is missed. Once the survey is
complete and the chains of references have ends, the references can be redirected one after the
other, and at any moment of that every recorded location leads to an object. -/
theorem inline_intact {fetch : Fetch} {document : Json} (hdocument : document.wellFormed)
    (hfetch : ∀ uri content, fetch uri = .ok content → content.wellFormed) (limit : Nat)
    (baseUri : String) :
    (∀ location, (inline limit fetch baseUri document).result ≠ .error (.lostLocation location)) ∧
    ∀ uri survey redirections, Uri.parse baseUri = .ok uri →
      Survey.run limit fetch uri.withoutFragment document = (.ok (), survey) →
      Survey.redirections survey.edges = .ok redirections →
      ∀ done left, redirections = done ++ left →
        ∃ documents, Survey.redirectAll survey.documents done = .ok documents ∧
          ∀ source ∈ Assoc.keys survey.edges, ∃ content entries,
            Assoc.find? documents source.space = some content ∧
              content.at? source.path = some (.obj entries) := by
  constructor
  case right =>
    intro uri survey redirections _ hrun hfound done left hsplit
    obtain ⟨corpus, -, rfl, hmaps, -⟩ := Survey.maps_of_run hrun
    obtain ⟨hkeys, -⟩ := Survey.redirections_eq_ok hfound
    have hprefix : Assoc.keys done <+: Assoc.keys survey.edges :=
      hkeys ▸ hsplit ▸ (List.prefix_append done left).map Prod.fst
    exact Survey.exists_object_of_redirectAll hmaps (hmaps.wellFormed hdocument hfetch)
      (hmaps.nodup.sublist hprefix.sublist) hprefix.subset
  case left =>
    intro location hlost
    cases hparse : Uri.parse baseUri with
    | error error =>
      unfold inline at hlost
      rw [hparse] at hlost
      cases hlost
    | ok uri =>
      rcases hrun : Survey.run limit fetch uri.withoutFragment document with ⟨outcome, survey⟩
      rw [inline_eq hparse hrun] at hlost
      cases outcome with
      | error error =>
        obtain rfl := Except.error.inj hlost
        exact Survey.run_ne_lostLocation _ _ _ _ location survey hrun
      | ok =>
        obtain ⟨corpus, -, rfl, hmaps, -⟩ := Survey.maps_of_run hrun
        exact Survey.combine_ne_lostLocation hmaps (hmaps.wellFormed hdocument hfetch) _ _ hlost

/-- Two references in two documents: one of them is redirected, and both are still in place. -/
theorem inline_intact_circuit : circuitBase.wellFormed ∧
    (∀ uri content, circuitFetch uri = .ok content → content.wellFormed) ∧
    ∃ uri survey redirections documents, Uri.parse "file:///a" = .ok uri ∧
      Survey.run 2 circuitFetch uri.withoutFragment circuitBase = (.ok (), survey) ∧
      Survey.redirections survey.edges = .ok redirections ∧ redirections.length = 2 ∧
      Survey.redirectAll survey.documents (redirections.take 1) = .ok documents ∧
      ∀ source ∈ Assoc.keys survey.edges, ∃ content entries,
        Assoc.find? documents source.space = some content ∧
          content.at? source.path = some (.obj entries) := by
  have hbase : circuitBase.wellFormed := by decide
  have hrefs : ((Uri.parse "file:///a").toOption.bind fun uri =>
      let run := Survey.run 2 circuitFetch uri.withoutFragment circuitBase
      run.1.toOption.bind fun _ =>
        (Survey.redirections run.2.edges).toOption.map List.length) = some 2 := by
    decide +kernel
  refine ⟨hbase, wellFormed_circuitFetch, ?_⟩
  cases hparse : Uri.parse "file:///a" with
  | error error =>
    rw [hparse] at hrefs
    cases hrefs
  | ok uri =>
    rcases hrun : Survey.run 2 circuitFetch uri.withoutFragment circuitBase with ⟨outcome, survey⟩
    simp only [hparse, Except.toOption, Option.bind_some, hrun] at hrefs
    cases outcome with
    | error error => cases hrefs
    | ok =>
      cases hfound : Survey.redirections survey.edges with
      | error error =>
        rw [hfound] at hrefs
        cases hrefs
      | ok redirections =>
        rw [hfound] at hrefs
        obtain ⟨documents, hdocuments, hobjects⟩ :=
          (inline_intact hbase wellFormed_circuitFetch 2 "file:///a").2 uri survey redirections
            hparse hrun hfound (redirections.take 1) (redirections.drop 1)
            (List.take_append_drop 1 redirections).symm
        exact ⟨uri, survey, redirections, documents, rfl, hrun, hfound, Option.some.inj hrefs,
          hdocuments, hobjects⟩

end SchemaClasses
