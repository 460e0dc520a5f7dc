import SchemaClasses.Proofs.Inline.Aliases
import SchemaClasses.Proofs.Uri

/-!
# Inlining twice

Main statement (`inline_idempotent`): inlining leaves a document as it is that has come from
inlining, and asks for no other document.

All references of such a document are pointers to values in it, and no reference stands there
(`isDirect_of_inline`). Resolved against the URI of the document they lead back into it
(`SchemaPath.join_toPointer`), so the survey never asks for another one (`Survey.local_followAll`).
Each chain ends where its reference leads, and so each reference is redirected to the pointer that
it has already (`redirections_of_direct`).
-/

namespace SchemaClasses

namespace Survey

variable {document : Json} {base : Uri} {survey : Survey}

/-! ### The survey -/

/-- Whether a survey knows the base document alone. -/
structure IsLocal (base : Uri) (document : Json) (survey : Survey) : Prop where
  spaces : survey.spaces = [(base.toText, .base)]
  documents : survey.documents = [(.base, document)]
  requested : survey.requested = []

/-- The base document is known. -/
theorem local_spaceOf (h : IsLocal base document survey) (fetch : Fetch)
    {fit : Space × Bool → Survey → Prop} {fail : InlineError → Survey → Prop}
    (hfit : fit (.base, false) survey) : Ends (spaceOf fetch base) survey fit fail := by
  have hspace : Assoc.find? survey.spaces base.toText = some .base := by
    rw [h.spaces]
    exact if_pos rfl
  refine ends_spaceOf (fun space hknown => ?_) fun hnew => ?_
  · obtain rfl := Option.some.inj (hspace.symm.trans hknown)
    exact hfit
  · cases hspace.symm.trans hnew

/-- The content of the base space is the base document. -/
theorem IsLocal.document_eq (h : IsLocal base document survey) :
    Assoc.find? survey.documents .base = some document := by
  rw [h.documents]
  exact if_pos rfl

/-- A survey that knows the base document alone still does when it knows another edge. -/
theorem IsLocal.withEdge (h : IsLocal base document survey) (source target : Location) :
    IsLocal base document (survey.withEdge source target) :=
  ⟨h.spaces, h.documents, h.requested⟩

/-- A pointer to a value of the document is recorded, and nothing is asked for. -/
theorem local_record (hbase : ∀ fragment, ({ base with fragment } : Uri).withoutFragment = base)
    (h : IsLocal base document survey) (fetch : Fetch) (source : Location) {path : SchemaPath}
    (hsome : (document.at? path).isSome) :
    Ends (record fetch base source path.toPointer) survey
      (fun found after => found = none ∧ IsLocal base document after) fun _ _ => False := by
  have hjoin := SchemaPath.join_toPointer base path
  have hdecode := SchemaPath.decode_fragment path
  refine ends_record (fun error herror => ?_) (fun uri error huri herror => ?_)
    fun uri segments huri hsegments => ?_
  · cases hjoin.symm.trans herror
  · obtain rfl := Except.ok.inj (hjoin.symm.trans huri)
    cases hdecode.symm.trans herror
  · obtain rfl := Except.ok.inj (hjoin.symm.trans huri)
    obtain rfl := Except.ok.inj (hdecode.symm.trans hsegments)
    rw [hbase]
    refine local_spaceOf h fetch ⟨fun hlost => ?_, fun content hcontent => ?_⟩
    · cases h.document_eq.symm.trans hlost
    · obtain rfl := Option.some.inj (h.document_eq.symm.trans hcontent)
      refine ⟨fun hnone => ?_, fun _ => ⟨fun _ => ⟨rfl, h.withEdge _ _⟩, nofun⟩⟩
      rw [hnone] at hsome
      cases hsome

/-- Following such pointers one after another asks for nothing. -/
theorem local_followAll
    (hbase : ∀ fragment, ({ base with fragment } : Uri).withoutFragment = base)
    (h : IsLocal base document survey) (fetch : Fetch)
    (search : Space → Uri → Json → SurveyM Unit) {refs : List (List String × String)}
    (hrefs : ∀ ref ∈ refs, ∃ path : SchemaPath, ref.2 = path.toPointer ∧
      (document.at? path).isSome) :
    Ends (followAll fetch search .base base refs) survey (fun _ => IsLocal base document)
      fun _ _ => False := by
  induction refs generalizing survey with
  | nil => exact ends_pure h
  | cons ref rest ih =>
    obtain ⟨place, text⟩ := ref
    obtain ⟨path, hpath, hsome⟩ := hrefs _ List.mem_cons_self
    obtain rfl : text = path.toPointer := hpath
    refine ends_bind (ends_follow ((local_record hbase h fetch _ hsome).mono
      (fun found between hfound => ?_) fun _ _ h => h))
    obtain ⟨rfl, hbetween⟩ := hfound
    exact ih hbetween fun other hother => hrefs other (List.mem_cons_of_mem _ hother)

/-- The survey of a document with direct references succeeds and asks for nothing. -/
theorem run_of_isDirect (hbase : ∀ fragment, ({ base with fragment } : Uri).withoutFragment = base)
    (hdirect : document.IsDirect) (limit : Nat) (fetch : Fetch) :
    ∃ after, run (limit + 1) fetch base document = (.ok (), after) ∧ after.requested = [] := by
  have hstart : IsLocal base document (start base document) := ⟨rfl, rfl, rfl⟩
  have hrefs : ∀ ref ∈ document.refs, ∃ path : SchemaPath, ref.2 = path.toPointer ∧
      (document.at? path).isSome := by
    intro ref href
    obtain ⟨path, htext, hsome, -⟩ := hdirect ref.1 ref.2 href
    exact ⟨path, htext, hsome⟩
  have hends := local_followAll hbase hstart fetch (search fetch limit) hrefs
  rcases hrun : run (limit + 1) fetch base document with ⟨error | ⟨⟩, after⟩
  · exact absurd (hends.of_eq_error hrun) id
  · exact ⟨after, rfl, (hends.of_eq_ok hrun).requested⟩

/-! ### The redirections -/

variable {edges : List (Location × Location)}

/-- If no edge leads to where another one begins, each of them is the end of its own chain. -/
theorem finalTarget_of_direct {source target : Location}
    (hedge : Assoc.find? edges source = some target) (hend : Assoc.find? edges target = none) :
    finalTarget edges source = .ok target := by
  unfold finalTarget
  rw [hedge]
  dsimp only
  unfold finalFrom
  rw [hend]

/-- If all edges lead to locations without one, the redirections can be found. -/
theorem redirections_of_direct
    (hdirect : ∀ source target, Assoc.find? edges source = some target →
      Assoc.find? edges target = none) :
    ∃ found, redirections edges = .ok found := by
  cases hfound : redirections edges with
  | ok found => exact ⟨found, rfl⟩
  | error error =>
    obtain ⟨source, hsource, hfinal⟩ := exists_of_redirections_eq_error hfound
    obtain ⟨target, hedge⟩ := Assoc.exists_find?_of_mem_keys hsource
    cases hfinal.symm.trans (finalTarget_of_direct hedge (hdirect source target hedge))

/-- An edge between places of a document with direct references leads from a reference to the place
that it points to, where there is no other reference. -/
theorem Maps.edge_of_isDirect {fetch : Fetch} {corpus : Corpus} (h : Maps fetch corpus survey)
    (hremotes : corpus.remotes = []) (hdirect : corpus.document.IsDirect) {source target : Location}
    (hedge : Assoc.find? survey.edges source = some target) :
    (source.path.segments, target.toPointer) ∈ corpus.document.refs ∧
      ∀ text, ¬corpus.HasRef target text := by
  obtain ⟨scope, content, value, text, hdocument, hvalue, htext, uri, address, found, hjoin,
    hdecode, hfound, -⟩ := h.refersTo source target hedge
  obtain ⟨-, heq⟩ := corpus.eq_base_of_document? hremotes hdocument
  obtain ⟨rfl, rfl⟩ := Prod.mk.inj heq
  have hmem : (source.path.segments, text) ∈ corpus.document.refs :=
    Json.mem_refs.mpr ⟨value, hvalue, htext⟩
  obtain ⟨path, rfl, -, hnone⟩ := hdirect _ _ hmem
  rw [SchemaPath.join_toPointer] at hjoin
  obtain rfl := Except.ok.inj hjoin
  obtain ⟨space, ⟨place⟩⟩ := target
  obtain ⟨rfl, -⟩ := corpus.eq_base_of_document? hremotes hfound
  have hplace : path.segments = place :=
    Except.ok.inj ((SchemaPath.decode_fragment path).symm.trans hdecode)
  subst hplace
  exact ⟨hmem, fun other hother => hnone other ((Corpus.hasRef_iff rfl).mp hother)⟩

end Survey

/-- Inlining leaves a document with direct references as it is and asks for no other one. -/
theorem inline_of_isDirect {baseUri : String} {uri : Uri} (hparse : Uri.parse baseUri = .ok uri)
    {document : Json} (hwf : document.wellFormed) (hdirect : document.IsDirect) (limit : Nat)
    (fetch : Fetch) : inline (limit + 1) fetch baseUri document = ⟨.ok document, []⟩ := by
  obtain ⟨survey, hrun, hrequested⟩ :=
    Survey.run_of_isDirect uri.withoutFragment_withFragment hdirect limit fetch
  obtain ⟨corpus, -, rfl, hmaps, -⟩ := Survey.maps_of_run hrun
  have hremotes : corpus.remotes = [] := by
    rw [hmaps.requested] at hrequested
    exact List.map_eq_nil_iff.mp hrequested
  have hfinal : ∀ source target, Assoc.find? survey.edges source = some target →
      Assoc.find? survey.edges target = none := by
    intro source target htarget
    apply Assoc.find?_eq_none_iff.mpr
    intro hkey
    obtain ⟨text, hsource⟩ := hmaps.hasRef hkey
    exact (hmaps.edge_of_isDirect hremotes hdirect htarget).2 text hsource
  have hwf' := Corpus.wellFormed_of_remotes_nil hremotes hwf
  obtain ⟨found, hfound⟩ := Survey.redirections_of_direct hfinal
  obtain ⟨-, hlasts⟩ := Survey.redirections_eq_ok hfound
  have hsame : (corpus.redirect (Assoc.find? found)).document = corpus.document := by
    show Json.redirect _ corpus.document = _
    apply Json.redirect_refs hwf
    intro place pointer hpointer
    obtain ⟨last, hlast, rfl⟩ := hlasts _ _ (Assoc.mem_of_find? hpointer)
    obtain ⟨target, htarget, -⟩ := Survey.reaches_of_finalTarget hlast
    obtain rfl : target = last := by
      have hdone := Survey.finalTarget_of_direct htarget (hfinal _ _ htarget)
      exact Except.ok.inj (hdone.symm.trans hlast)
    exact (hmaps.edge_of_isDirect hremotes hdirect htarget).1
  have hnil : (corpus.redirect (Assoc.find? found)).remotes = [] := by
    rw [Corpus.redirect, hremotes]
    rfl
  rw [inline_eq hparse hrun, hrequested]
  show Inlined.mk (survey.combine uri.withoutFragment) [] = _
  rw [Survey.combine_of_redirections hmaps hwf' hfound, Survey.attach_of_nil _ hnil, hsame]

/-- Inlining is idempotent: the document that it gives it gives again, without asking for another
one, whatever the other documents are then. -/
theorem inline_idempotent {limit : Nat} {fetch : Fetch} {baseUri : String} {document out : Json}
    (hdocument : document.wellFormed)
    (hfetch : ∀ uri content, fetch uri = .ok content → content.wellFormed)
    (h : (inline limit fetch baseUri document).result = .ok out) (more : Nat) (other : Fetch) :
    inline (more + 1) other baseUri out = ⟨.ok out, []⟩ := by
  obtain ⟨uri, -, hparse, -⟩ := exists_survey_of_inline h
  obtain ⟨hwf, hdirect⟩ := isDirect_of_inline hdocument hfetch h
  exact inline_of_isDirect hparse hwf hdirect more other

/-- A document with a reference through another document and back, and one by another spelling of a
position. -/
def journeyBase : Json :=
  .obj [("x", .obj [(refKey, .str "b#/y")]), ("z", .arr [.obj []]),
    ("w w", .obj [(refKey, .str "#/z/00")])]

/-- A source of one document, whose reference goes back to the first one. -/
def journeyFetch : Fetch := fun uri =>
  if uri.toText = "file:///b" then .ok (.obj [("y", .obj [(refKey, .str "a#/w%20w")])])
  else .error (.fileNotFound uri.toText)

/-- The theorem at `journeyBase`: a second run leaves all three references as they are. -/
theorem inline_idempotent_journey : journeyBase.wellFormed ∧
    (∀ uri content, journeyFetch uri = .ok content → content.wellFormed) ∧
    ∃ out, (inline 2 journeyFetch "file:///a" journeyBase).result = .ok out ∧
      out.refs = [(["x"], "#/z/00"), (["w w"], "#/z/00"), (["remote", "schema0", "y"], "#/z/00")] ∧
      ∀ more other, inline (more + 1) other "file:///a" out = ⟨.ok out, []⟩ := by
  have hbase : journeyBase.wellFormed := by decide
  have hfetch : ∀ uri content, journeyFetch uri = .ok content → content.wellFormed := by
    intro uri content h
    unfold journeyFetch at h
    split_ifs at h
    obtain rfl := Except.ok.inj h
    decide
  have hrefs : (inline 2 journeyFetch "file:///a" journeyBase).result.toOption.map Json.refs =
      some [(["x"], "#/z/00"), (["w w"], "#/z/00"), (["remote", "schema0", "y"], "#/z/00")] := by
    decide +kernel
  cases h : (inline 2 journeyFetch "file:///a" journeyBase).result with
  | error error =>
    rw [h] at hrefs
    cases hrefs
  | ok out =>
    rw [h] at hrefs
    exact ⟨hbase, hfetch, out, rfl, Option.some.inj hrefs, inline_idempotent hbase hfetch h⟩

end SchemaClasses
