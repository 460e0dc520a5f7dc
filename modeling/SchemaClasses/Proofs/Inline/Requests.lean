import SchemaClasses.Proofs.Inline.Resolution

/-!
# What inlining asks for

Main statement (`inline_requests`): whether inlining succeeds or fails, no document is asked for
twice, the base document is not asked for, no URI that is asked for has a fragment, and nothing is
asked for if the base document uses the reserved key (`Prudent`). If it succeeds, then what was
asked for has been fetched and stands under the reserved key, numbered in the order in which it was
asked for (`Attaches`).

A survey that fails may have asked for a document that it does not know, the last one. So the
invariant of a survey that goes on, `Survey.Tracks`, says more than what is left if it fails: all
documents but the base document have been asked for, and conversely. `Survey.Leads` is the
judgement with both ends.
-/

namespace SchemaClasses

/-- What is true of the documents asked for on behalf of a document with some URI. -/
structure Prudent (base : Uri) (document : Json) (requested : List Uri) : Prop where
  /-- No document is asked for twice, nor is the base document asked for. -/
  distinct : (base.toText :: requested.map Uri.toText).Nodup
  /-- Whole documents are asked for. -/
  bare : ∀ uri ∈ requested, uri.fragment = none
  /-- Nothing is asked for if the base document uses the reserved key. -/
  unreserved : requested ≠ [] → document.get? remoteKey = none

/-- Whether a document is another one with nothing changed but the texts of references. -/
def Json.Redirected (document redirected : Json) : Prop :=
  ∃ target, redirected = document.redirect target

/-- Whether a document is another one, except for its references, with the documents that were
asked for under the reserved key. -/
structure Attaches (fetch : Fetch) (document : Json) (requested : List Uri) (out : Json) :
    Prop where
  /-- Everything that was asked for could be fetched. -/
  fetched : ∀ uri ∈ requested, ∃ content, fetch uri = .ok content
  /-- If nothing was asked for, no key is added. -/
  alone : requested = [] → document.Redirected out ∧
    (out.get? remoteKey).isSome = (document.get? remoteKey).isSome
  /-- Else the documents are numbered in the order in which they were asked for, each behind a
  comment with its URI. -/
  attached : requested ≠ [] → ∃ entries remotes, document.Redirected (.obj entries) ∧
    remoteKey ∉ Assoc.keys entries ∧ out = .obj (entries ++ [(remoteKey, .obj remotes)]) ∧
    Assoc.keys remotes = (List.range requested.length).map remoteName ∧
    ∀ number uri, requested[number]? = some uri → ∃ content entries, fetch uri = .ok content ∧
      content.Redirected (.obj entries) ∧
      Assoc.find? remotes (remoteName number) = some (.obj (Survey.withSource uri.toText entries))

/-- A URI without its fragment has none. -/
theorem Uri.fragment_withoutFragment (uri : Uri) : uri.withoutFragment.fragment = none := by
  unfold withoutFragment
  split <;> rfl

namespace Survey

/-! ### The invariant -/

/-- Whether a survey knows a base document and what it has asked for. -/
structure Tracks (base : Uri) (document : Json) (survey : Survey) : Prop where
  /-- The documents that it knows, in the order in which they were asked for. -/
  keys : Assoc.keys survey.spaces = base.toText :: survey.requested.map Uri.toText
  /-- The base document stays what it is. -/
  root : Assoc.find? survey.documents .base = some document
  /-- So far, nothing was asked for that should not be. -/
  prudent : Prudent base document survey.requested

/-- Whether a computation that starts from a survey that tracks its documents ends with one, and
asks for nothing that it should not ask for even if it fails. -/
def Heeds {α : Type} (base : Uri) (document : Json) (x : SurveyM α) : Prop :=
  ∀ survey, Tracks base document survey →
    Ends x survey (fun _ => Tracks base document)
      (fun _ after => Prudent base document after.requested)

variable {base : Uri} {document : Json} {fetch : Fetch}

/-- At first nothing has been asked for. -/
theorem tracks_start (base : Uri) (document : Json) :
    Tracks base document (start base document) where
  keys := rfl
  root := rfl
  prudent := ⟨List.nodup_singleton _, fun _ h => absurd h List.not_mem_nil, fun h => absurd rfl h⟩

/-- A document that is not known may be asked for. -/
theorem Tracks.request {survey : Survey} (h : Tracks base document survey) {uri : Uri}
    (hnew : uri.toText ∉ Assoc.keys survey.spaces) (hbare : uri.fragment = none)
    (hfree : document.get? remoteKey = none) :
    Prudent base document (survey.requested ++ [uri]) where
  distinct := by
    rw [List.map_append, ← List.cons_append, ← h.keys]
    refine List.nodup_append.mpr ⟨h.keys ▸ h.prudent.distinct, List.nodup_singleton _, ?_⟩
    rintro text htext _ hlast rfl
    exact hnew (List.mem_singleton.mp hlast ▸ htext)
  bare := by
    intro other hother
    rcases List.mem_append.mp hother with hold | hlast
    · exact h.prudent.bare other hold
    · exact List.mem_singleton.mp hlast ▸ hbare
  unreserved := fun _ => hfree

/-- A document that is not known is asked for only if the reserved key is free. If it is not known
afterwards, then the survey has failed. -/
theorem heeds_spaceOf {uri : Uri} (hbare : uri.fragment = none) :
    Heeds base document (spaceOf fetch uri) := by
  intro survey h
  refine ends_spaceOf (fun _ _ => h) fun hnew => ends_load (fun _ => h.prudent) h.prudent
    fun content hcontent hkey => ?_
  obtain rfl : document = content := Option.some.inj (h.root.symm.trans hcontent)
  have hnew := Assoc.find?_eq_none_iff.mp hnew
  have hasked := h.request hnew hbare hkey
  refine ⟨fun _ _ => hasked, fun content _ => ⟨fun _ => hasked, fun _ => ⟨?_, ?_, hasked⟩⟩⟩
  · show Assoc.keys (Assoc.insert survey.spaces uri.toText _) =
      _ :: (survey.requested ++ [uri]).map Uri.toText
    rw [Assoc.insert_of_not_mem hnew, Assoc.keys, List.map_append, ← Assoc.keys, h.keys,
      List.map_append]
    rfl
  · have hne : survey.next ≠ .base := Space.noConfusion
    exact (Assoc.find?_insert_of_ne _ _ hne).trans h.root

/-- Recording a reference asks only for a document that may be asked for. -/
theorem heeds_record (scope : Uri) (source : Location) (text : String) :
    Heeds base document (record fetch scope source text) := by
  intro survey h
  refine ends_record (fun _ _ => h.prudent) (fun _ _ _ _ => h.prudent) fun uri _ _ _ =>
    (heeds_spaceOf uri.fragment_withoutFragment survey h).mono (fun found between h => ?_)
      fun _ _ h => h
  have hrecorded : ∀ target, Tracks base document (between.withEdge source target) :=
    fun _ => ⟨h.keys, h.root, h.prudent⟩
  exact ⟨fun _ => h.prudent, fun _ _ => ⟨fun _ => h.prudent,
    fun _ => ⟨fun _ => hrecorded _, fun _ => hrecorded _⟩⟩⟩

/-- Whatever becomes of a survey, it asks for nothing that it should not ask for. -/
theorem prudent_run (limit : Nat) (fetch : Fetch) (base : Uri) (document : Json) :
    Prudent base document (run limit fetch base document).2.requested := by
  have h : Ends (search fetch limit .base base document) (start base document)
      (fun _ => Tracks base document) fun _ after => Prudent base document after.requested :=
    ends_search (fun scope source reference => heeds_record scope source reference)
      (fun _ h => h.prudent) limit .base base document (tracks_start base document)
  exact h.at_end (fun _ _ h => h.prudent) fun _ _ h => h

/-! ### What is attached -/

variable {corpus : Corpus}

/-- The remote documents are numbered in the order in which they were asked for. -/
theorem keys_remoteEntries (hobject : ∀ remote ∈ corpus.remotes, remote.2.isObject) :
    Assoc.keys (remoteEntries corpus.spaces corpus.contents) =
      (List.range corpus.remotes.length).map remoteName := by
  have hentry : ∀ number (h : number < corpus.remotes.length),
      ∃ content, Assoc.find? corpus.contents (.remote number) = some (.obj content) := by
    intro number h
    have hremote : corpus.document? (.remote number) = some corpus.remotes[number] :=
      List.getElem?_eq_getElem h
    obtain ⟨content, hcontent⟩ := Json.exists_of_isObject (hobject _ (List.getElem_mem h))
    exact ⟨content, by rw [Corpus.find?_contents, hremote, Option.map_some, hcontent]⟩
  let name : String × Space → String
    | (_, .base) => remoteKey
    | (_, .remote number) => remoteName number
  unfold remoteEntries Assoc.keys Corpus.spaces
  rw [List.filterMap_cons_none (by rfl), List.map_filterMap]
  calc _ = (corpus.remotes.mapIdx fun number remote =>
          (remote.1.toText, Space.remote number)).filterMap (some ∘ name) := by
        refine List.filterMap_congr ?_
        rintro ⟨text, space⟩ hmem
        obtain ⟨number, hnumber, heq⟩ := List.mem_mapIdx.mp hmem
        obtain ⟨rfl, rfl⟩ := Prod.mk.inj heq
        obtain ⟨content, hcontent⟩ := hentry number hnumber
        simp only [hcontent, Option.map_some, Function.comp_apply, name]
    _ = (List.range corpus.remotes.length).map remoteName := by
        rw [List.filterMap_eq_map]
        exact List.ext_getElem (by simp) (by simp [name])

/-- What a survey has asked for was fetched, and redirected it stands behind its comment. -/
theorem Maps.exists_remote {survey : Survey} (h : Maps fetch corpus survey)
    (table : Location → Option String) {number : Nat} {uri : Uri}
    (huri : survey.requested[number]? = some uri) :
    ∃ content below, fetch uri = .ok (.obj content) ∧
      corpus.document? (.remote number) = some (uri, .obj content) ∧
      (Json.obj content).redirect (fun place => table ⟨.remote number, ⟨place⟩⟩) = .obj below ∧
      Assoc.find? (remoteEntries (corpus.redirect table).spaces (corpus.redirect table).contents)
        (remoteName number) = some (.obj (withSource uri.toText below)) := by
  rw [h.requested, List.getElem?_map, Option.map_eq_some_iff] at huri
  obtain ⟨⟨address, content⟩, hremote, rfl⟩ := huri
  have hdocument : corpus.document? (.remote number) = some (address, content) := hremote
  obtain ⟨content, rfl⟩ := Json.exists_of_isObject
    (h.lawful.isObject _ (List.mem_of_getElem? hremote))
  refine ⟨content, _, h.lawful.fetched _ (List.mem_of_getElem? hremote), hdocument, rfl,
    (Assoc.find?_eq_some_iff nodup_keys_remoteEntries).mpr (mem_remoteEntries.mpr ?_)⟩
  refine ⟨number, address, _, ?_, rfl, rfl⟩
  rw [Corpus.document?_redirect, hdocument]
  rfl

/-- What a survey that succeeded has asked for is attached. -/
theorem attaches_of_combine {survey : Survey} (h : Maps fetch corpus survey)
    (hwf : corpus.WellFormed) {base : Uri} {out : Json} (hcombine : combine base survey = .ok out) :
    Attaches fetch corpus.document survey.requested out := by
  obtain ⟨table, -, -, hattach⟩ := combine_eq_ok h hwf hcombine
  have hobject := h.isObject_redirect table
  have hsame : corpus.document.Redirected (corpus.redirect table).document := ⟨_, rfl⟩
  have hlength := h.length_redirect table
  have hempty := h.requested_eq_nil_iff table
  have hcases := attach_eq_ok hobject (h.unreserved_redirect table) hattach
  constructor
  case fetched =>
    intro uri huri
    rw [h.requested] at huri
    obtain ⟨remote, hremote, rfl⟩ := List.mem_map.mp huri
    exact ⟨_, h.lawful.fetched remote hremote⟩
  case alone =>
    intro hnone
    rw [attach_of_nil base (hempty.mp hnone)] at hattach
    obtain rfl := Except.ok.inj hattach
    exact ⟨hsame, Json.isSome_get?_redirect _ _ _⟩
  case attached =>
    intro hsome
    rcases hcases with ⟨hnil, -⟩ | ⟨entries, hentries, hkey, rfl⟩
    · exact absurd (hempty.mpr hnil) hsome
    · refine ⟨entries, _, hentries ▸ hsame, hkey, rfl, by rw [keys_remoteEntries hobject, hlength],
        fun number uri huri => ?_⟩
      obtain ⟨content, below, hfetch, -, hredirect, hfind⟩ := h.exists_remote table huri
      exact ⟨_, below, hfetch, ⟨_, hredirect.symm⟩, hfind⟩

end Survey

/-! ### Inlining -/

/-- Inlining asks for no document twice and for no document that it must not or need not ask for,
whether it succeeds or fails. If it succeeds, it has attached what it asked for. -/
theorem inline_requests {fetch : Fetch} {document : Json} (hdocument : document.wellFormed)
    (hfetch : ∀ uri content, fetch uri = .ok content → content.wellFormed) (limit : Nat)
    (baseUri : String) :
    (∀ error, Uri.parse baseUri = .error error →
      (inline limit fetch baseUri document).requested = []) ∧
    (∀ uri, Uri.parse baseUri = .ok uri →
      Prudent uri.withoutFragment document (inline limit fetch baseUri document).requested) ∧
    ∀ out, (inline limit fetch baseUri document).result = .ok out →
      Attaches fetch document (inline limit fetch baseUri document).requested out := by
  refine ⟨?_, ?_, ?_⟩
  · intro error herror
    rw [inline, herror]
  · intro uri huri
    rw [inline_eq huri rfl]
    exact Survey.prudent_run limit fetch uri.withoutFragment document
  · intro out hout
    obtain ⟨uri, survey, hparse, hrun, hcombine⟩ := exists_survey_of_inline hout
    obtain ⟨corpus, -, rfl, hmaps, -⟩ := Survey.maps_of_run hrun
    rw [inline_eq hparse hrun]
    exact Survey.attaches_of_combine hmaps (hmaps.wellFormed hdocument hfetch) hcombine

/-- A document that refers to two others. -/
def diamondBase : Json :=
  .obj [("x", .obj [(refKey, .str "b#/y")]), ("z", .obj [(refKey, .str "c#")])]

/-- A source of two documents that refer to each other and to the first one. -/
def diamondFetch : Fetch := fun uri =>
  if uri.toText = "file:///b" then
    .ok (.obj [("y", .obj [(refKey, .str "c#/w")]), ("a", .obj [(refKey, .str "a#")])])
  else if uri.toText = "file:///c" then
    .ok (.obj [("w", .obj []), ("v", .obj [(refKey, .str "b#")])])
  else .error (.fileNotFound uri.toText)

/-- Two documents that are met several times are asked for once each. -/
theorem inline_requests_diamond : diamondBase.wellFormed ∧
    (∀ uri content, diamondFetch uri = .ok content → content.wellFormed) ∧
    (inline 3 diamondFetch "file:///a" diamondBase).requested.map Uri.toText =
      ["file:///b", "file:///c"] ∧
    ∃ out, (inline 3 diamondFetch "file:///a" diamondBase).result = .ok out ∧
      Attaches diamondFetch diamondBase (inline 3 diamondFetch "file:///a" diamondBase).requested
        out := by
  have hbase : diamondBase.wellFormed := by decide
  have hfetch : ∀ uri content, diamondFetch uri = .ok content → content.wellFormed := by
    intro uri content h
    unfold diamondFetch at h
    split_ifs at h
    all_goals
      obtain rfl := Except.ok.inj h
      decide
  have hok : (inline 3 diamondFetch "file:///a" diamondBase).result.isOk = true := by
    decide +kernel
  obtain ⟨-, -, hattaches⟩ := inline_requests hbase hfetch 3 "file:///a"
  refine ⟨hbase, hfetch, by decide +kernel, ?_⟩
  cases h : (inline 3 diamondFetch "file:///a" diamondBase).result with
  | error error =>
    rw [h] at hok
    cases hok
  | ok out => exact ⟨out, rfl, hattaches out h⟩

end SchemaClasses
