import SchemaClasses.Proofs.Inline.Requests

/-!
# Inlining changes nothing but references

Main statement (`inline_frame`): inlining leaves the base document and every document that was
fetched as they are, once the texts of all references are blanked out. The order of keys stays the
same, and what stands below the reserved key are the documents that were asked for, each behind its
comment.

References are redirected one after the other where they stand, so it counts that each of these
writes hits the `$ref` of the object that it is meant for and that none of them disturbs another
one. That is what a table which has texts `OnlyRefs` is about: redirecting by it changes texts of
references only (`blanked_redirect`), and it is such a table by which a corpus is redirected before
its documents are attached to each other (`preserves_of_combine`).
-/

namespace SchemaClasses

namespace Json

/-! ### Blanking references out -/

mutual

/-- The value with the text of each reference replaced by a placeholder. -/
def blanked (placeholder : String) : Json → Json
  | arr items => arr (blankedItems placeholder items)
  | obj entries => obj (blankedEntries placeholder entries)
  | value => value

/-- The items of an array with the texts of their references replaced. -/
def blankedItems (placeholder : String) : List Json → List Json
  | [] => []
  | item :: rest => blanked placeholder item :: blankedItems placeholder rest

/-- The entries of an object with the text of its reference and of those in the entries
replaced. -/
def blankedEntries (placeholder : String) : Entries → Entries
  | [] => []
  | (key, value) :: rest =>
    (key, if key = refKey ∧ value.text?.isSome then str placeholder
      else blanked placeholder value) :: blankedEntries placeholder rest

end

/-- What an entry of an object becomes. -/
def blankedEntry (placeholder key : String) (value : Json) : Json :=
  if key = refKey ∧ value.text?.isSome then str placeholder else blanked placeholder value

variable {placeholder : String} {target : List String → Option String}

/-- The items of an array are blanked one by one. -/
theorem blankedItems_eq_map (items : List Json) :
    blankedItems placeholder items = items.map (blanked placeholder) := by
  induction items with
  | nil => rfl
  | cons item rest ih => rw [blankedItems, ih, List.map_cons]

/-- The entries of an object are blanked one by one, each under its key. -/
theorem blankedEntries_eq_map (entries : Entries) :
    blankedEntries placeholder entries =
      entries.map fun entry => (entry.1, blankedEntry placeholder entry.1 entry.2) := by
  induction entries with
  | nil => rfl
  | cons entry rest ih => rw [blankedEntries, ih, List.map_cons, blankedEntry]

/-- Blanking changes nothing but what stands under a key. -/
theorem find?_blankedEntries (entries : Entries) (key : String) :
    Assoc.find? (blankedEntries placeholder entries) key =
      (Assoc.find? entries key).map (blankedEntry placeholder key) := by
  rw [blankedEntries_eq_map, Assoc.find?_map]

/-- Redirecting the references below a value leaves it a text if it is one, and the same text. -/
theorem text?_redirect (value : Json) : (value.redirect target).text? = value.text? := by
  cases value <;> rfl

/-- Redirecting the references of a value shows in their texts only. -/
theorem blanked_redirect {value : Json} (hfit : OnlyRefs target value) (hwf : value.wellFormed) :
    (value.redirect target).blanked placeholder = value.blanked placeholder := by
  induction value using Json.induction generalizing target with
  | arr items ih =>
    obtain ⟨-, hitems⟩ := wellFormed_arr.mp hwf
    rw [redirect, blanked, blanked, blankedItems_eq_map, blankedItems_eq_map]
    refine congrArg arr (List.ext_getElem? fun index => ?_)
    rw [List.getElem?_map, List.getElem?_map, getElem?_redirectItems, Nat.zero_add]
    cases hitem : items[index]? with
    | none => rfl
    | some item =>
      have hmem := List.mem_of_getElem? hitem
      exact congrArg some (ih item hmem (hfit.item hitem) (hitems item hmem))
  | obj entries ih =>
    obtain ⟨hnodup, hentries⟩ := wellFormed_obj.mp hwf
    rw [redirect, blanked, blanked, blankedEntries_eq_map, blankedEntries_eq_map,
      redirectEntries_eq_map, List.map_map]
    refine congrArg obj (List.map_congr_left fun entry hentry => ?_)
    obtain ⟨key, value⟩ := entry
    refine congrArg (Prod.mk key) ?_
    show blankedEntry placeholder key (redirectEntry target key value) =
      blankedEntry placeholder key value
    rcases redirectEntry_cases hfit ((Assoc.find?_eq_some_iff hnodup).mpr hentry) with
      ⟨rfl, text, new, rfl, -, hnew⟩ | ⟨-, hnew⟩
    · rw [hnew]
      rfl
    · have hbelow : (value.redirect fun place => target (key :: place)).blanked placeholder =
          value.blanked placeholder :=
        ih (key, value) hentry (hfit.entry hnodup hentry) (hentries _ hentry)
      rw [hnew, blankedEntry, blankedEntry, text?_redirect, hbelow]
  | null => rfl
  | bool => rfl
  | num => rfl
  | str => rfl

end Json

/-! ### Inlined documents -/

/-- Whether a document is another one with the documents that were asked for under the reserved
key, and nothing is changed in any of them but the texts of references. -/
structure Preserves (fetch : Fetch) (document : Json) (requested : List Uri) (out : Json) :
    Prop where
  /-- If nothing was asked for, there is no other document. -/
  alone : requested = [] → ∀ placeholder, out.blanked placeholder = document.blanked placeholder
  /-- Else the others stand in the last entry. A document that was fetched keeps its entries behind
  the comment, but for its own comment. -/
  attached : requested ≠ [] → ∃ entries remotes,
    out = .obj (entries ++ [(remoteKey, .obj remotes)]) ∧ remoteKey ∉ Assoc.keys entries ∧
    (∀ placeholder, (Json.obj entries).blanked placeholder = document.blanked placeholder) ∧
    Assoc.keys remotes = (List.range requested.length).map remoteName ∧
    ∀ number uri, requested[number]? = some uri → ∃ content below, fetch uri = .ok (.obj content) ∧
      Assoc.find? remotes (remoteName number) = some (.obj below) ∧
      Assoc.keys below = Survey.commentKey ::
        (Assoc.keys content).filter (fun key => key ≠ Survey.commentKey) ∧
      ∀ placeholder key, key ≠ Survey.commentKey →
        ((Json.obj below).blanked placeholder).get? key =
          ((Json.obj content).blanked placeholder).get? key

namespace Survey

/-- Inserting entries appends the keys that are new. -/
theorem keys_foldl_insert {entries : Entries} (hnodup : (Assoc.keys entries).Nodup)
    (table : Entries) :
    Assoc.keys (entries.foldl (fun table entry => Assoc.insert table entry.1 entry.2) table) =
      Assoc.keys table ++ (Assoc.keys entries).filter (fun key => key ∉ Assoc.keys table) := by
  induction entries generalizing table with
  | nil => exact (List.append_nil _).symm
  | cons entry rest ih =>
    obtain ⟨key, value⟩ := entry
    obtain ⟨hnew, hrest⟩ := List.nodup_cons.mp hnodup
    have hkeys := Assoc.keys_insert table key value
    have hcons : Assoc.keys ((key, value) :: rest) = key :: Assoc.keys rest := rfl
    rw [List.foldl_cons, ih hrest, hcons]
    by_cases hmem : key ∈ Assoc.keys table
    · rw [if_pos ((Assoc.mem_keys_iff_contains _ _).mp hmem)] at hkeys
      rw [hkeys, List.filter_cons_of_neg (by simpa using hmem)]
    · rw [if_neg fun h => hmem ((Assoc.mem_keys_iff_contains _ _).mpr h)] at hkeys
      rw [hkeys, List.filter_cons_of_pos (by simpa using hmem), List.append_assoc]
      refine congrArg (Assoc.keys table ++ ·) (congrArg (key :: ·) (List.filter_congr ?_))
      intro other hother
      have hne : other ≠ key := fun heq => hnew (heq ▸ hother)
      simp [hne]

/-- The comment comes first, and the other keys follow in their order. -/
theorem keys_withSource {content : Entries} (hnodup : (Assoc.keys content).Nodup) (uri : String) :
    Assoc.keys (withSource uri content) =
      commentKey :: (Assoc.keys content).filter (fun key => key ≠ commentKey) := by
  unfold withSource
  rw [keys_foldl_insert hnodup]
  simp [Assoc.keys]

/-- What a survey that succeeded has asked for is attached as it was fetched. -/
theorem preserves_of_combine {fetch : Fetch} {corpus : Corpus} {survey : Survey}
    (h : Maps fetch corpus survey) (hwf : corpus.WellFormed) {base : Uri} {out : Json}
    (hcombine : combine base survey = .ok out) :
    Preserves fetch corpus.document survey.requested out := by
  obtain ⟨table, hfit, -, hattach⟩ := combine_eq_ok h hwf hcombine
  have hobject := h.isObject_redirect table
  -- blanked out, each document is the one that was there
  have hsame : ∀ {space uri content}, corpus.document? space = some (uri, content) →
      ∀ placeholder, (content.redirect fun place => table ⟨space, ⟨place⟩⟩).blanked placeholder =
        content.blanked placeholder :=
    fun hdocument _ => Json.blanked_redirect (hfit.document? hdocument) (hwf _ _ _ hdocument)
  have hdocument : corpus.document? .base = some (corpus.address, corpus.document) := rfl
  have hbase : ∀ placeholder, (corpus.redirect table).document.blanked placeholder =
      corpus.document.blanked placeholder := hsame hdocument
  have hlength := h.length_redirect table
  have hempty := h.requested_eq_nil_iff table
  have hcases := attach_eq_ok hobject (h.unreserved_redirect table) hattach
  constructor
  case alone =>
    intro hnone
    rw [attach_of_nil base (hempty.mp hnone)] at hattach
    obtain rfl := Except.ok.inj hattach
    exact hbase
  case attached =>
    intro hsome
    rcases hcases with ⟨hnil, -⟩ | ⟨entries, hentries, hkey, rfl⟩
    · exact absurd (hempty.mpr hnil) hsome
    · refine ⟨entries, _, rfl, hkey, hentries ▸ hbase,
        by rw [keys_remoteEntries hobject, hlength], fun number uri huri => ?_⟩
      obtain ⟨content, below, hfetch, hdocument, hredirect, hfind⟩ := h.exists_remote table huri
      obtain ⟨hnodup, -⟩ := Json.wellFormed_obj.mp (hwf _ _ _ hdocument)
      have hkeys : Assoc.keys below = Assoc.keys content := by
        rw [← Json.obj.inj hredirect, Json.keys_redirectEntries]
      refine ⟨content, _, hfetch, hfind, ?_, fun placeholder key hne => ?_⟩
      · rw [keys_withSource (hkeys ▸ hnodup), hkeys]
      · have hbelow : Assoc.find? (withSource uri.toText below) key = Assoc.find? below key := by
          rw [find?_withSource (hkeys ▸ hnodup), Assoc.find?, if_neg hne.symm, Assoc.find?,
            Option.or_none]
        have hblanked := hsame hdocument placeholder
        rw [hredirect] at hblanked
        rw [← hblanked, Json.blanked, Json.blanked, Json.get?, Json.get?,
          Json.find?_blankedEntries, Json.find?_blankedEntries, hbelow]

end Survey

/-! ### Inlining -/

/-- Inlining changes no document in anything but the texts of its references, and it keeps the
order of the keys. -/
theorem inline_frame {fetch : Fetch} {document : Json} (hdocument : document.wellFormed)
    (hfetch : ∀ uri content, fetch uri = .ok content → content.wellFormed) {limit : Nat}
    {baseUri : String} {out : Json} (h : (inline limit fetch baseUri document).result = .ok out) :
    Preserves fetch document (inline limit fetch baseUri document).requested out := by
  obtain ⟨uri, survey, hparse, hrun, hcombine⟩ := exists_survey_of_inline h
  obtain ⟨corpus, -, rfl, hmaps, -⟩ := Survey.maps_of_run hrun
  rw [inline_eq hparse hrun]
  exact Survey.preserves_of_combine hmaps (hmaps.wellFormed hdocument hfetch) hcombine

/-- A document that refers to two others, in an array and among other keys. -/
def fringedBase : Json :=
  .obj [("items", .arr [.obj [("title", .str "first"), (refKey, .str "b#/y"), ("x", .null)],
    .obj [(refKey, .str "c#")]]), ("x", .obj [(refKey, .obj [])])]

/-- A source of two documents, of which the second one has a comment and a reference at its
root. -/
def fringedFetch : Fetch := fun uri =>
  if uri.toText = "file:///b" then .ok (.obj [("y", .bool true), ("z", .arr [])])
  else if uri.toText = "file:///c" then
    .ok (.obj [("w", .obj []), (Survey.commentKey, .str "to be reviewed"), (refKey, .str "b#/z")])
  else .error (.fileNotFound uri.toText)

/-- The theorem at `fringedBase`, where one of the fetched documents has a comment of its own. -/
theorem inline_frame_fringed : fringedBase.wellFormed ∧
    (∀ uri content, fringedFetch uri = .ok content → content.wellFormed) ∧
    ∃ out, (inline 3 fringedFetch "file:///a" fringedBase).result = .ok out ∧
      Preserves fringedFetch fringedBase (inline 3 fringedFetch "file:///a" fringedBase).requested
        out := by
  have hbase : fringedBase.wellFormed := by decide
  have hfetch : ∀ uri content, fringedFetch uri = .ok content → content.wellFormed := by
    intro uri content h
    unfold fringedFetch at h
    split_ifs at h
    all_goals
      obtain rfl := Except.ok.inj h
      decide
  have hok : (inline 3 fringedFetch "file:///a" fringedBase).result.isOk = true := by
    decide +kernel
  refine ⟨hbase, hfetch, ?_⟩
  cases h : (inline 3 fringedFetch "file:///a" fringedBase).result with
  | error error =>
    rw [h] at hok
    cases hok
  | ok out => exact ⟨out, rfl, inline_frame hbase hfetch h⟩

end SchemaClasses
