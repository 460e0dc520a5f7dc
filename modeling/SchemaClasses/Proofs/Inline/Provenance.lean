import SchemaClasses.Proofs.Inline.Requests

/-!
# Where remote documents came from

Main statement (`inline_provenance`): each document that was fetched stands under the reserved key,
by its number, and its comment there is the URI without fragment that it was fetched from if and
only if it has no comment of its own, or that very text. The URI is put in first and the entries of
the document after it, so a comment of the document takes its place (`find?_comment`), and nothing
else in the result says where the document came from (`inline_unsourced`).
-/

namespace SchemaClasses

/-- A redirected text is the same text, and nothing else becomes one. -/
theorem Json.Redirected.eq_str_iff {value redirected : Json} (h : value.Redirected redirected)
    (text : String) : redirected = .str text ↔ value = .str text := by
  obtain ⟨target, rfl⟩ := h
  cases value with
  | arr items => exact ⟨nofun, nofun⟩
  | obj entries => exact ⟨nofun, nofun⟩
  | null => rfl
  | bool => rfl
  | num => rfl
  | str => rfl

/-- What stands under a key that is not that of references is redirected in its own right. -/
theorem Json.Redirected.find? {content entries : Entries}
    (h : (obj content).Redirected (obj entries)) {key : String} (hkey : key ≠ refKey) :
    (Assoc.find? content key = none ∧ Assoc.find? entries key = none) ∨
      ∃ value redirected, Assoc.find? content key = some value ∧
        Assoc.find? entries key = some redirected ∧ value.Redirected redirected := by
  obtain ⟨target, heq⟩ := h
  obtain rfl : entries = redirectEntries target content := Json.obj.inj heq
  rw [find?_redirectEntries]
  cases Assoc.find? content key with
  | none => exact .inl ⟨rfl, rfl⟩
  | some value => exact .inr ⟨value, _, rfl, rfl, _, by rw [redirectEntry, if_neg hkey]; rfl⟩

namespace Survey

/-- The comment behind which a document stands is that of the document, if it has one, and else the
URI. -/
theorem find?_comment {content entries : Entries} (hnodup : (Assoc.keys content).Nodup)
    (h : (Json.obj content).Redirected (.obj entries)) (uri : String) :
    ∃ comment, Assoc.find? (withSource uri entries) commentKey = some comment ∧
      (Assoc.find? content commentKey = none → comment = .str uri) ∧
      ∀ own, Assoc.find? content commentKey = some own → own.Redirected comment := by
  have hentries : (Assoc.keys entries).Nodup := by
    obtain ⟨target, heq⟩ := h
    obtain rfl : entries = Json.redirectEntries target content := Json.obj.inj heq
    rwa [Json.keys_redirectEntries]
  have hsource : Assoc.find? [(commentKey, Json.str uri)] commentKey = some (.str uri) := rfl
  rw [find?_withSource hentries, hsource]
  have hkey : commentKey ≠ refKey := by decide
  rcases h.find? hkey with ⟨hnone, hnone'⟩ | ⟨own, comment, hown, hcomment, hredirected⟩
  · rw [hnone, hnone']
    exact ⟨_, rfl, fun _ => rfl, nofun⟩
  · rw [hown, hcomment]
    refine ⟨comment, rfl, nofun, fun other hother => ?_⟩
    obtain rfl := Option.some.inj hother
    exact hredirected

end Survey

/-- What was fetched is found behind its comment. -/
theorem Attaches.at?_comment {fetch : Fetch} {document out : Json} {requested : List Uri}
    (h : Attaches fetch document requested out)
    (hfetch : ∀ uri content, fetch uri = .ok content → content.wellFormed) {number : Nat}
    {uri : Uri} (huri : requested[number]? = some uri) : ∃ content, fetch uri = .ok content ∧
      ∃ comment, out.at? ⟨[remoteKey, remoteName number, Survey.commentKey]⟩ = some comment ∧
        (content.get? Survey.commentKey = none → comment = .str uri.toText) ∧
        ∀ own, content.get? Survey.commentKey = some own → own.Redirected comment := by
  have hsome : requested ≠ [] := List.ne_nil_of_mem (List.mem_of_getElem? huri)
  obtain ⟨entries, remotes, -, hnew, rfl, -, hremotes⟩ := h.attached hsome
  obtain ⟨content, below, hcontent, hredirected, hfound⟩ := hremotes number uri huri
  have hroot : Assoc.find? (entries ++ [(remoteKey, Json.obj remotes)]) remoteKey =
      some (.obj remotes) := by
    rw [Assoc.find?_append, Assoc.find?_eq_none_iff.mpr hnew]
    rfl
  obtain ⟨inner, rfl⟩ : ∃ inner, content = .obj inner := by
    obtain ⟨target, heq⟩ := hredirected
    have hobject : (content.redirect target).isObject = true := heq ▸ rfl
    exact Json.exists_of_isObject (Json.isObject_redirect content ▸ hobject)
  obtain ⟨hnodup, -⟩ := Json.wellFormed_obj.mp (hfetch uri _ hcontent)
  obtain ⟨comment, hcomment, hbare, hown⟩ := Survey.find?_comment hnodup hredirected uri.toText
  refine ⟨_, hcontent, comment, ?_, hbare, hown⟩
  simp only [Json.at?, Json.descend?, Json.step?, hroot, hfound, hcomment, Option.bind_some]

/-- Whenever inlining succeeds, each document that was asked for was fetched from a URI without
fragment, and the comment behind which it stands is its own one, if it has one, and else that URI.
So the URI is recorded exactly for the documents that have no other comment. -/
theorem inline_provenance {limit : Nat} {fetch : Fetch} {baseUri : String} {document out : Json}
    (hdocument : document.wellFormed)
    (hfetch : ∀ uri content, fetch uri = .ok content → content.wellFormed)
    (h : (inline limit fetch baseUri document).result = .ok out) {number : Nat} {uri : Uri}
    (huri : (inline limit fetch baseUri document).requested[number]? = some uri) :
    uri.fragment = none ∧ ∃ content, fetch uri = .ok content ∧
      ∃ comment, out.at? ⟨[remoteKey, remoteName number, Survey.commentKey]⟩ = some comment ∧
        (content.get? Survey.commentKey = none → comment = .str uri.toText) ∧
        (∀ own, content.get? Survey.commentKey = some own → own.Redirected comment) ∧
        (comment = .str uri.toText ↔
          ∀ own, content.get? Survey.commentKey = some own → own = .str uri.toText) := by
  obtain ⟨base, survey, hparse, hrun, hcombine⟩ := exists_survey_of_inline h
  obtain ⟨corpus, -, rfl, hmaps, -⟩ := Survey.maps_of_run hrun
  have hprudent := Survey.prudent_run limit fetch base.withoutFragment corpus.document
  rw [hrun] at hprudent
  rw [inline_eq hparse hrun] at huri
  have hattaches := Survey.attaches_of_combine hmaps (hmaps.wellFormed hdocument hfetch) hcombine
  obtain ⟨content, hcontent, comment, hat, hbare, hown⟩ := hattaches.at?_comment hfetch huri
  have hrecorded : comment = .str uri.toText ↔
      ∀ own, content.get? Survey.commentKey = some own → own = .str uri.toText := by
    constructor
    · rintro rfl own hfound
      exact ((hown own hfound).eq_str_iff _).mp rfl
    · intro hsame
      cases hfound : content.get? Survey.commentKey with
      | none => exact hbare hfound
      | some own => exact ((hown own hfound).eq_str_iff _).mpr (hsame own hfound)
  exact ⟨hprudent.bare uri (List.mem_of_getElem? huri), content, hcontent, comment, hat, hbare,
    hown, hrecorded⟩

/-- A document that refers to two others. -/
def signedBase : Json :=
  .obj [("x", .obj [(refKey, .str "b#/y")]), ("z", .obj [(refKey, .str "c#/w")])]

/-- A source of two documents, of which the second one has a comment of its own. -/
def signedFetch : Fetch := fun uri =>
  if uri.toText = "file:///b" then .ok (.obj [("y", .obj [])])
  else if uri.toText = "file:///c" then
    .ok (.obj [(Survey.commentKey, .str "to be reviewed"), ("w", .obj [])])
  else .error (.fileNotFound uri.toText)

/-- The source has well-formed documents only. -/
theorem wellFormed_signedFetch (uri : Uri) (content : Json) (h : signedFetch uri = .ok content) :
    content.wellFormed := by
  unfold signedFetch at h
  split_ifs at h
  all_goals
    obtain rfl := Except.ok.inj h
    decide

/-- The document without comment gets one that says where it came from. -/
theorem inline_provenance_signed : signedBase.wellFormed ∧
    (∀ uri content, signedFetch uri = .ok content → content.wellFormed) ∧
    ∃ out uri, (inline 2 signedFetch "file:///a" signedBase).result = .ok out ∧
      (inline 2 signedFetch "file:///a" signedBase).requested[0]? = some uri ∧
      uri.fragment = none ∧ ∃ content, signedFetch uri = .ok content ∧
      ∃ comment, out.at? ⟨[remoteKey, remoteName 0, Survey.commentKey]⟩ = some comment ∧
        (content.get? Survey.commentKey = none → comment = .str uri.toText) ∧
        (∀ own, content.get? Survey.commentKey = some own → own.Redirected comment) ∧
        (comment = .str uri.toText ↔
          ∀ own, content.get? Survey.commentKey = some own → own = .str uri.toText) := by
  have hbase : signedBase.wellFormed := by decide
  have hok : (inline 2 signedFetch "file:///a" signedBase).result.isOk = true := by
    decide +kernel
  have hasked : (inline 2 signedFetch "file:///a" signedBase).requested[0]?.isSome = true := by
    decide +kernel
  obtain ⟨uri, huri⟩ := Option.isSome_iff_exists.mp hasked
  refine ⟨hbase, wellFormed_signedFetch, ?_⟩
  cases h : (inline 2 signedFetch "file:///a" signedBase).result with
  | error error =>
    rw [h] at hok
    cases hok
  | ok out => exact ⟨out, uri, rfl, huri, inline_provenance hbase wellFormed_signedFetch h huri⟩

/-- The other one keeps its own comment, and the URI that it was fetched from is lost. -/
theorem inline_unsourced : signedBase.wellFormed ∧
    (∀ uri content, signedFetch uri = .ok content → content.wellFormed) ∧
    (inline 2 signedFetch "file:///a" signedBase).requested.map Uri.toText =
      ["file:///b", "file:///c"] ∧
    ∃ out, (inline 2 signedFetch "file:///a" signedBase).result = .ok out ∧
      out.at? ⟨[remoteKey, remoteName 1, Survey.commentKey]⟩ = some (.str "to be reviewed") := by
  have hat : (inline 2 signedFetch "file:///a" signedBase).result.toOption.bind (fun out =>
      (out.at? ⟨[remoteKey, remoteName 1, Survey.commentKey]⟩).bind Json.text?) =
        some "to be reviewed" := by decide +kernel
  refine ⟨by decide, wellFormed_signedFetch, by decide +kernel, ?_⟩
  cases h : (inline 2 signedFetch "file:///a" signedBase).result with
  | error error =>
    rw [h] at hat
    cases hat
  | ok out =>
    rw [h] at hat
    obtain ⟨comment, hcomment, htext⟩ := Option.bind_eq_some_iff.mp
      (show (out.at? _).bind Json.text? = some "to be reviewed" from hat)
    refine ⟨out, rfl, ?_⟩
    rw [hcomment]
    cases comment with
    | str text => rw [Option.some.inj htext]
    | null => cases htext
    | bool => cases htext
    | num => cases htext
    | arr => cases htext
    | obj => cases htext

end SchemaClasses
