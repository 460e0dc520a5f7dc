import SchemaClasses.Proofs.Inline.Corpus
import SchemaClasses.Proofs.Inline.Outcome

/-!
# What a survey has found when it succeeds

The invariant of a survey, `Survey.Maps`, is that its tables are those of a lawful corpus and that
each of its edges leads from a reference to the location that the reference names, where there is a
value. A search adds documents and edges (`Survey.Grows`) and ends with an edge for every reference
of the document that was searched and of every document that was added meanwhile
(`explores_search`). So a survey that succeeds has an edge for every reference of every document
(`maps_of_run`).
-/

namespace SchemaClasses.Survey

/-! ### The invariant -/

/-- Whether a survey is a map of a corpus: its tables are those of the corpus, and each edge leads
from a reference to the location that the reference names, where there is a value. -/
structure Maps (fetch : Fetch) (corpus : Corpus) (survey : Survey) : Prop where
  /-- The corpus has what a survey guarantees. -/
  lawful : corpus.Lawful fetch
  /-- The documents by their URIs are those of the corpus. -/
  spaces : survey.spaces = corpus.spaces
  /-- The contents are those of the corpus. -/
  documents : survey.documents = corpus.contents
  /-- What was asked for has become the remote documents. -/
  requested : survey.requested = corpus.remotes.map Prod.fst
  /-- No reference has two edges. -/
  nodup : (Assoc.keys survey.edges).Nodup
  /-- Each edge leads from a reference to the location that it names. -/
  refersTo : ∀ source target, Assoc.find? survey.edges source = some target →
    corpus.RefersTo source target
  /-- Each edge leads to a value. -/
  exists_target : ∀ source target, Assoc.find? survey.edges source = some target →
    ∃ uri content, corpus.document? target.space = some (uri, content) ∧
      (content.at? target.path).isSome

/-- Whether all references of a document have an edge. -/
def Searched (corpus : Corpus) (survey : Survey) (space : Space) : Prop :=
  ∀ place text, corpus.HasRef ⟨space, place⟩ text → ⟨space, place⟩ ∈ Assoc.keys survey.edges

/-- What becomes of a survey and its corpus in the course of a search: both grow, and the documents
that are added are searched as well. -/
structure Grows (corpus : Corpus) (survey : Survey) (later : Corpus) (after : Survey) : Prop where
  /-- There are the same documents and perhaps more. -/
  continues : corpus.Continues later
  /-- There are the same edges and perhaps more. -/
  keys : ∀ source ∈ Assoc.keys survey.edges, source ∈ Assoc.keys after.edges
  /-- Further documents are searched. -/
  searched : ∀ number, corpus.remotes.length ≤ number → number < later.remotes.length →
    Searched later after (.remote number)

variable {fetch : Fetch} {corpus later latest : Corpus} {survey after last : Survey}

/-- A document that has been searched stays so. -/
theorem Searched.grows {space : Space} (h : Searched corpus survey space)
    (hgrows : Grows corpus survey later after) {found : Uri × Json}
    (hdocument : corpus.document? space = some found) : Searched later after space := by
  rintro place text ⟨uri, content, value, hlater, hvalue, htext⟩
  rw [hgrows.continues.document? hdocument] at hlater
  obtain rfl := Option.some.inj hlater
  exact hgrows.keys _ (h place text ⟨uri, content, value, hdocument, hvalue, htext⟩)

/-- Nothing has to be added in a search. -/
theorem Grows.refl (corpus : Corpus) (survey : Survey) : Grows corpus survey corpus survey :=
  ⟨.refl corpus, fun _ h => h, fun _ hle hlt => absurd hlt (Nat.not_lt.mpr hle)⟩

/-- One search may follow the other. -/
theorem Grows.trans (h : Grows corpus survey later after) (h' : Grows later after latest last) :
    Grows corpus survey latest last where
  continues := h.continues.trans h'.continues
  keys := fun source hsource => h'.keys source (h.keys source hsource)
  searched := by
    intro number hle hlt
    rcases Nat.lt_or_ge number later.remotes.length with hbefore | hafter
    · have hdocument : later.document? (.remote number) = some later.remotes[number] :=
        List.getElem?_eq_getElem hbefore
      exact (h.searched number hle hbefore).grows h' hdocument
    · exact h'.searched number hafter hlt

/-- Recording an edge from a reference to the location that it names keeps the invariant. -/
theorem Maps.withEdge (h : Maps fetch corpus survey) {source target : Location}
    (hrefers : corpus.RefersTo source target) {uri : Uri} {content : Json}
    (hdocument : corpus.document? target.space = some (uri, content))
    (hsome : (content.at? target.path).isSome) :
    Maps fetch corpus (survey.withEdge source target) where
  lawful := h.lawful
  spaces := h.spaces
  documents := h.documents
  requested := h.requested
  nodup := Assoc.nodup_keys_insert h.nodup source target
  refersTo := by
    intro from' to' hedge
    rw [Survey.withEdge] at hedge
    by_cases heq : source = from'
    · subst heq
      rw [Assoc.find?_insert_self] at hedge
      obtain rfl := Option.some.inj hedge
      exact hrefers
    · rw [Assoc.find?_insert_of_ne _ _ heq] at hedge
      exact h.refersTo from' to' hedge
  exists_target := by
    intro from' to' hedge
    rw [Survey.withEdge] at hedge
    by_cases heq : source = from'
    · subst heq
      rw [Assoc.find?_insert_self] at hedge
      obtain rfl := Option.some.inj hedge
      exact ⟨uri, content, hdocument, hsome⟩
    · rw [Assoc.find?_insert_of_ne _ _ heq] at hedge
      exact h.exists_target from' to' hedge

/-! ### The steps of a survey -/

/-- A document that was fetched is added to the corpus. -/
theorem Maps.withDocument (h : Maps fetch corpus survey) {uri : Uri} {content : Json}
    (hnew : Assoc.find? survey.spaces uri.toText = none)
    (hfree : corpus.document.get? remoteKey = none) (hfetch : fetch uri = .ok content)
    (hobject : content.isObject) :
    survey.next = .remote corpus.remotes.length ∧
      Maps fetch (corpus.add uri content) (survey.withDocument uri content) := by
  have hnext : survey.next = .remote corpus.remotes.length := by
    rw [next, h.spaces, Corpus.length_spaces, Nat.add_sub_cancel]
  have hkey : uri.toText ∉ Assoc.keys corpus.spaces := by
    rw [← h.spaces]
    exact Assoc.find?_eq_none_iff.mp hnew
  have hspace : Space.remote corpus.remotes.length ∉ Assoc.keys corpus.contents := by
    refine Assoc.find?_eq_none_iff.mp ?_
    rw [Corpus.find?_contents, Corpus.document?, List.getElem?_eq_none (Nat.le_refl _)]
    rfl
  have hcontinues := corpus.continues_add uri content
  refine ⟨hnext, ?_⟩
  constructor
  case lawful => exact h.lawful.add (h.spaces ▸ hnew) hfetch hobject hfree
  case spaces =>
    rw [Survey.withDocument, hnext, h.spaces, Assoc.insert_of_not_mem hkey, Corpus.spaces_add]
  case documents =>
    rw [Survey.withDocument, hnext, h.documents, Assoc.insert_of_not_mem hspace,
      Corpus.contents_add]
  case requested =>
    rw [Survey.withDocument, h.requested, Corpus.add, List.map_append]
    rfl
  case nodup => exact h.nodup
  case refersTo =>
    exact fun source target hedge => hcontinues.refersTo (h.refersTo source target hedge)
  case exists_target =>
    intro source target hedge
    obtain ⟨address, found, hdocument, hsome⟩ := h.exists_target source target hedge
    exact ⟨address, found, hcontinues.document? hdocument, hsome⟩

/-- A document that has not been asked for yet becomes the last one, any other is found. -/
theorem maps_spaceOf (h : Maps fetch corpus survey) (uri : Uri) :
    Ends (spaceOf fetch uri) survey (fun found after => after.edges = survey.edges ∧
      ∃ later address content, Maps fetch later after ∧
        later.document? found.1 = some (address, content) ∧ address.toText = uri.toText ∧
        (found.2 = false → later = corpus) ∧
        (found.2 = true → address = uri ∧ found.1 = .remote corpus.remotes.length ∧
          later = corpus.add uri content)) fun _ _ => True := by
  refine ends_spaceOf (fun space hknown => ?_) fun hnew => ends_load (fun _ => trivial) trivial
    fun base hbase hfree => ⟨fun _ _ => trivial,
      fun content hfetch => ⟨fun _ => trivial, fun hobject => ?_⟩⟩
  · obtain ⟨address, content, hdocument, haddress⟩ :=
      (Corpus.find?_spaces_iff h.lawful.distinct).mp (h.spaces ▸ hknown)
    exact ⟨rfl, corpus, address, content, h, hdocument, haddress, fun _ => rfl,
      fun hfetched => absurd hfetched Bool.false_ne_true⟩
  · rw [h.documents, Corpus.find?_contents, Corpus.document?, Option.map_some] at hbase
    obtain rfl := Option.some.inj hbase
    obtain ⟨hnext, hmaps⟩ := h.withDocument hnew hfree hfetch hobject
    refine ⟨rfl, _, uri, content, hmaps, ?_, rfl,
      fun hknown => absurd hknown.symm Bool.false_ne_true, fun _ => ⟨rfl, hnext, rfl⟩⟩
    dsimp only
    rw [hnext, Corpus.document?, Corpus.add, List.getElem?_append_right (Nat.le_refl _),
      Nat.sub_self]
    rfl

/-- What a search of a document is expected to do. -/
def Explores (fetch : Fetch) (search : Space → Uri → Json → SurveyM Unit) : Prop :=
  ∀ corpus survey space scope content, Maps fetch corpus survey →
    corpus.document? space = some (scope, content) →
    Ends (search space scope content) survey (fun _ after => ∃ later, Maps fetch later after ∧
      Grows corpus survey later after ∧ Searched later after space) fun _ _ => True

/-- Recording a reference records its edge, and adds its target document if that is new. -/
theorem grows_record (h : Maps fetch corpus survey) {source : Location} {scope : Uri}
    {content value : Json} {text : String}
    (hdocument : corpus.document? source.space = some (scope, content))
    (hvalue : Json.StandsAt content source.path.segments value) (htext : value.ref? = some text) :
    Ends (record fetch scope source text) survey (fun found after =>
      source ∈ Assoc.keys after.edges ∧
      (∀ other ∈ Assoc.keys survey.edges, other ∈ Assoc.keys after.edges) ∧
      match found with
      | none => Maps fetch corpus after
      | some (space, uri, content) => Maps fetch (corpus.add uri content) after ∧
          space = .remote corpus.remotes.length) fun _ _ => True := by
  refine ends_record (fun _ _ => trivial) (fun _ _ _ _ => trivial)
    fun uri segments hjoin hdecode => (maps_spaceOf h _).mono (fun found between hspace => ?_)
      fun _ _ _ => trivial
  obtain ⟨hedges, later, address, target, hmaps, htarget, haddress, hknown, hadded⟩ := hspace
  refine ⟨fun _ => trivial, fun content' hfound => ⟨fun _ => trivial, fun hsome => ?_⟩⟩
  rw [hmaps.documents, Corpus.find?_contents, htarget, Option.map_some] at hfound
  obtain rfl := Option.some.inj hfound
  have hcontinues : corpus.Continues later := by
    cases hfetched : found.2 with
    | false => exact hknown hfetched ▸ .refl corpus
    | true => exact (hadded hfetched).2.2 ▸ corpus.continues_add _ _
  have hrefers : later.RefersTo source ⟨found.1, ⟨segments⟩⟩ :=
    ⟨scope, content, value, text, hcontinues.document? hdocument, hvalue, htext, uri, address,
      target, hjoin, hdecode, htarget, haddress⟩
  have hinsert := hmaps.withEdge hrefers htarget hsome
  have hsource : source ∈ Assoc.keys (between.withEdge source ⟨found.1, ⟨segments⟩⟩).edges :=
    Assoc.mem_keys_insert.mpr (.inr rfl)
  have hkeys : ∀ other ∈ Assoc.keys survey.edges,
      other ∈ Assoc.keys (between.withEdge source ⟨found.1, ⟨segments⟩⟩).edges :=
    fun other hother => Assoc.mem_keys_insert.mpr (.inl (hedges ▸ hother))
  refine ⟨fun hfetched => ⟨hsource, hkeys, ?_⟩, fun hfetched => ⟨hsource, hkeys, ?_, ?_⟩⟩
  · exact hknown hfetched ▸ hinsert
  · exact (hadded hfetched).2.2 ▸ hinsert
  · exact (hadded hfetched).2.1

variable {search : Space → Uri → Json → SurveyM Unit}

/-- Following a reference records its edge. -/
theorem grows_follow (hsearch : Explores fetch search) (h : Maps fetch corpus survey)
    {source : Location} {scope : Uri} {content value : Json} {text : String}
    (hdocument : corpus.document? source.space = some (scope, content))
    (hvalue : Json.StandsAt content source.path.segments value) (htext : value.ref? = some text) :
    Ends (follow fetch search scope source text) survey (fun _ after =>
      ∃ later, Maps fetch later after ∧ Grows corpus survey later after ∧
        source ∈ Assoc.keys after.edges) fun _ _ => True := by
  refine ends_follow ((grows_record h hdocument hvalue htext).mono
    (fun found between hrecord => ?_) fun _ _ h => h)
  obtain ⟨hsource, hkeys, hfound⟩ := hrecord
  cases found with
  | none =>
    exact ⟨corpus, hfound, ⟨.refl corpus, hkeys, fun _ hle hlt =>
      absurd hlt (Nat.not_lt.mpr hle)⟩, hsource⟩
  | some found =>
    obtain ⟨space, uri, target⟩ := found
    obtain ⟨hmaps, rfl⟩ := hfound
    have htarget : (corpus.add uri target).document? (.remote corpus.remotes.length) =
        some (uri, target) := by
      rw [Corpus.document?, Corpus.add, List.getElem?_append_right (Nat.le_refl _), Nat.sub_self]
      rfl
    refine (hsearch _ _ _ _ _ hmaps htarget).mono (fun _ after hafter => ?_) fun _ _ h => h
    obtain ⟨latest, hmaps', hgrows, hsearched⟩ := hafter
    refine ⟨latest, hmaps', ⟨(corpus.continues_add _ _).trans hgrows.continues,
      fun other hother => hgrows.keys other (hkeys other hother), fun number hle hlt => ?_⟩,
      hgrows.keys source hsource⟩
    rcases Nat.eq_or_lt_of_le hle with rfl | hbehind
    · exact hsearched
    · refine hgrows.searched number ?_ hlt
      rw [Corpus.add, List.length_append]
      exact hbehind

/-- Following references one after another records an edge for each of them. -/
theorem grows_followAll (hsearch : Explores fetch search) {space : Space} {scope : Uri}
    {content : Json} {refs : List (List String × String)}
    (hrefs : ∀ ref ∈ refs, ref ∈ content.refs) (h : Maps fetch corpus survey)
    (hdocument : corpus.document? space = some (scope, content)) :
    Ends (followAll fetch search space scope refs) survey (fun _ after =>
      ∃ later, Maps fetch later after ∧ Grows corpus survey later after ∧
        ∀ ref ∈ refs, ⟨space, ⟨ref.1⟩⟩ ∈ Assoc.keys after.edges) fun _ _ => True := by
  induction refs generalizing corpus survey with
  | nil => exact ends_pure ⟨corpus, h, .refl _ _, fun ref href => absurd href List.not_mem_nil⟩
  | cons ref rest ih =>
    obtain ⟨place, text⟩ := ref
    obtain ⟨value, hvalue, htext⟩ := Json.mem_refs.mp (hrefs _ List.mem_cons_self)
    have hsource : corpus.document? (Location.mk space ⟨place⟩).space = some (scope, content) :=
      hdocument
    refine ends_bind ((grows_follow hsearch h hsource hvalue htext).mono
      (fun _ between hfollow => ?_) fun _ _ h => h)
    obtain ⟨later, hmaps, hgrows, hedge⟩ := hfollow
    refine (ih (fun ref href => hrefs ref (List.mem_cons_of_mem _ href)) hmaps
      (hgrows.continues.document? hdocument)).mono (fun _ after hrest => ?_) fun _ _ h => h
    obtain ⟨latest, hmaps', hgrows', hothers⟩ := hrest
    refine ⟨latest, hmaps', hgrows.trans hgrows', fun ref href => ?_⟩
    rcases List.mem_cons.mp href with rfl | hmem
    · exact hgrows'.keys _ hedge
    · exact hothers ref hmem

/-- A search explores its document. -/
theorem explores_search (fetch : Fetch) (limit : Nat) :
    Explores fetch (Survey.search fetch limit) := by
  induction limit with
  | zero => exact fun _ _ _ _ _ _ _ => ends_throw trivial
  | succ limit ih =>
    intro corpus survey space scope content h hdocument
    refine (grows_followAll ih (fun _ href => href) h hdocument).mono (fun _ after hafter => ?_)
      fun _ _ h => h
    obtain ⟨later, hmaps, hgrows, hkeys⟩ := hafter
    refine ⟨later, hmaps, hgrows, ?_⟩
    rintro ⟨place⟩ text ⟨uri, found, value, hfound, hvalue, htext⟩
    rw [hgrows.continues.document? hdocument] at hfound
    obtain ⟨rfl, rfl⟩ := Prod.mk.inj (Option.some.inj hfound)
    exact hkeys (place, text) (Json.mem_refs.mpr ⟨value, hvalue, htext⟩)

/-- At the start only the base document is known. -/
theorem maps_start (fetch : Fetch) (base : Uri) (document : Json) :
    Maps fetch ⟨base, document, []⟩ (start base document) where
  lawful :=
    { distinct := List.nodup_singleton _
      fetched := fun _ h => absurd h List.not_mem_nil
      isObject := fun _ h => absurd h List.not_mem_nil
      unreserved := fun h => absurd rfl h }
  spaces := rfl
  documents := rfl
  requested := rfl
  nodup := List.nodup_nil
  refersTo := nofun
  exists_target := nofun

/-- A survey that succeeds maps a corpus of which all documents have been searched. -/
theorem maps_of_run {limit : Nat} {base : Uri} {document : Json}
    (h : run limit fetch base document = (.ok (), after)) :
    ∃ corpus, corpus.address = base ∧ corpus.document = document ∧ Maps fetch corpus after ∧
      ∀ source text, corpus.HasRef source text → source ∈ Assoc.keys after.edges := by
  obtain ⟨corpus, hmaps, hgrows, hbase⟩ :=
    (explores_search fetch limit _ _ .base base document (maps_start fetch base document)
      rfl).of_eq_ok h
  refine ⟨corpus, hgrows.continues.address, hgrows.continues.document, hmaps, ?_⟩
  rintro ⟨space, place⟩ text hsource
  cases space with
  | base => exact hbase place text hsource
  | remote number =>
    obtain ⟨_, _, _, hdocument, -⟩ := id hsource
    obtain ⟨hnumber, -⟩ := List.getElem?_eq_some_iff.mp hdocument
    exact hgrows.searched number (Nat.zero_le _) hnumber place text hsource

end SchemaClasses.Survey
