import SchemaClasses.Proofs.Inline.Redirection

/-!
# One document out of a corpus

Attaching the remote documents to the base document puts each document below its root: the values
and the references at a place of a document are those behind the root of the document in the
result (`isSome_descend?_attach`, `mem_refs_attach`), and the result has no other references.
-/

namespace SchemaClasses.Survey

/-! ### The comment with the URI -/

/-- The fetched content comes before the comment that is added to it. -/
theorem find?_withSource {content : Entries} (hnodup : (Assoc.keys content).Nodup)
    (uri key : String) : Assoc.find? (withSource uri content) key =
      (Assoc.find? content key).or (Assoc.find? [(commentKey, .str uri)] key) :=
  Assoc.find?_foldl_insert hnodup _ key

/-- With the comment added, no key is repeated. -/
theorem nodup_keys_withSource (uri : String) (content : Entries) :
    (Assoc.keys (withSource uri content)).Nodup := by
  have hcomment : (Assoc.keys [(commentKey, Json.str uri)]).Nodup := List.nodup_singleton _
  exact Assoc.nodup_keys_foldl_insert hcomment content

/-- An entry behind the comment is one of the content, or the comment. -/
theorem mem_withSource {content : Entries} (hnodup : (Assoc.keys content).Nodup) {uri key : String}
    {value : Json} (h : (key, value) ∈ withSource uri content) :
    (key, value) ∈ content ∨ (key = commentKey ∧ value = .str uri) := by
  have hfind := (Assoc.find?_eq_some_iff (nodup_keys_withSource uri content)).mpr h
  rw [find?_withSource hnodup, Option.or_eq_some_iff] at hfind
  rcases hfind with hcontent | ⟨-, hcomment⟩
  · exact .inl (Assoc.mem_of_find? hcontent)
  · obtain ⟨rfl, rfl⟩ := Prod.mk.inj (List.mem_singleton.mp (Assoc.mem_of_find? hcomment))
    exact .inr ⟨rfl, rfl⟩

/-- What the content has is still there. -/
theorem mem_withSource_of_mem {content : Entries} (hnodup : (Assoc.keys content).Nodup)
    {uri key : String} {value : Json} (h : (key, value) ∈ content) :
    (key, value) ∈ withSource uri content := by
  refine Assoc.mem_of_find? ?_
  rw [find?_withSource hnodup, (Assoc.find?_eq_some_iff hnodup).mpr h]
  rfl

/-- The content stays well-formed. -/
theorem wellFormed_withSource {content : Entries} (hwf : (Json.obj content).wellFormed)
    (uri : String) : (Json.obj (withSource uri content)).wellFormed := by
  obtain ⟨hnodup, hcontent⟩ := Json.wellFormed_obj.mp hwf
  refine Json.wellFormed_obj.mpr ⟨nodup_keys_withSource uri content, fun entry hentry => ?_⟩
  rcases mem_withSource hnodup hentry with hmem | ⟨-, hvalue⟩
  · exact hcontent _ hmem
  · rw [hvalue]; rfl

/-- The comment adds no reference. -/
theorem mem_refs_withSource {content : Entries} (hwf : (Json.obj content).wellFormed) {uri : String}
    {place : List String} {text : String} :
    (place, text) ∈ (Json.obj (withSource uri content)).refs ↔
      (place, text) ∈ (Json.obj content).refs := by
  obtain ⟨hnodup, -⟩ := Json.wellFormed_obj.mp hwf
  have hne : commentKey ≠ refKey := by decide
  have hown : (Json.obj (withSource uri content)).ref? = (Json.obj content).ref? := by
    rw [Json.ref?, Json.ref?, Json.get?, Json.get?, find?_withSource hnodup, Assoc.find?,
      if_neg hne, Assoc.find?, Option.or_none]
  rw [Json.mem_refs_obj, Json.mem_refs_obj, hown]
  refine or_congr_right ⟨?_, ?_⟩
  · rintro ⟨key, value, below, hmem, rfl, hbelow⟩
    rcases mem_withSource hnodup hmem with hcontent | ⟨-, rfl⟩
    · exact ⟨key, value, below, hcontent, rfl, hbelow⟩
    · cases hbelow
  · rintro ⟨key, value, below, hmem, rfl, hbelow⟩
    exact ⟨key, value, below, mem_withSource_of_mem hnodup hmem, rfl, hbelow⟩

/-- What could be found in the content can still be found. -/
theorem isSome_descend?_withSource {content : Entries} (hwf : (Json.obj content).wellFormed)
    (uri : String) {place : List String} (h : ((Json.obj content).descend? place).isSome) :
    ((Json.obj (withSource uri content)).descend? place).isSome := by
  obtain ⟨hnodup, -⟩ := Json.wellFormed_obj.mp hwf
  cases place with
  | nil => rfl
  | cons key rest =>
    rw [Json.descend?, Json.step?] at h ⊢
    cases hfind : Assoc.find? content key with
    | none => rw [hfind] at h; cases h
    | some value =>
      rw [hfind] at h
      rw [find?_withSource hnodup, hfind]
      exact h

/-! ### The remote documents -/

/-- Documents with different numbers have different names. -/
theorem remoteName_injective : Function.Injective remoteName := by
  intro m n h
  have htext := congrArg String.toList h
  rw [remoteName, remoteName, String.toList_append, String.toList_append] at htext
  exact Text.decimal_injective (String.toList_injective (List.append_cancel_left htext))

variable {corpus : Corpus}

/-- The entries under the reserved key are the remote documents, each under its name. -/
theorem mem_remoteEntries {key : String} {value : Json} :
    (key, value) ∈ remoteEntries corpus.spaces corpus.contents ↔
      ∃ number uri content, corpus.document? (.remote number) = some (uri, .obj content) ∧
        key = remoteName number ∧ value = .obj (withSource uri.toText content) := by
  unfold remoteEntries
  rw [List.mem_filterMap]
  constructor
  · rintro ⟨⟨text, space⟩, hmem, hentry⟩
    obtain ⟨uri, content, hdocument, rfl⟩ := Corpus.mem_spaces.mp hmem
    simp only [Corpus.find?_contents, hdocument, Option.map_some] at hentry
    split at hentry
    · rename_i number entries hcontent
      obtain rfl := Option.some.inj hcontent
      obtain ⟨rfl, rfl⟩ := Prod.mk.inj (Option.some.inj hentry)
      exact ⟨number, uri, entries, hdocument, rfl, rfl⟩
    · cases hentry
  · rintro ⟨number, uri, content, hdocument, rfl, rfl⟩
    refine ⟨(uri.toText, .remote number), Corpus.mem_spaces.mpr ⟨uri, _, hdocument, rfl⟩, ?_⟩
    simp only [Corpus.find?_contents, hdocument, Option.map_some]

/-- The spaces of a corpus are those that it has contents for. -/
theorem values_spaces : Assoc.values corpus.spaces = Assoc.keys corpus.contents := by
  unfold Assoc.values Assoc.keys Corpus.spaces Corpus.contents
  rw [List.map_cons, List.map_cons]
  refine congrArg (List.cons Space.base) (List.ext_getElem? fun number => ?_)
  rw [List.getElem?_map, List.getElem?_mapIdx, List.getElem?_map, List.getElem?_mapIdx,
    Option.map_map, Option.map_map]
  rfl

/-- The names of the remote documents are different. -/
theorem nodup_keys_remoteEntries :
    (Assoc.keys (remoteEntries corpus.spaces corpus.contents)).Nodup := by
  have hspaces : corpus.spaces.Pairwise fun a b => a.2 ≠ b.2 := by
    refine List.pairwise_map.mp ?_
    change (Assoc.values corpus.spaces).Nodup
    rw [values_spaces]
    exact Corpus.nodup_keys_contents
  refine List.pairwise_map.mpr (hspaces.filterMap _ ?_)
  rintro ⟨_, first⟩ ⟨_, second⟩ hne entry hentry other hother heq
  dsimp only at hentry hother
  split at hentry
  · split at hother
    · rename_i m _ _ n _ _
      obtain rfl := Option.some.inj hentry
      obtain rfl := Option.some.inj hother
      exact hne (congrArg Space.remote (remoteName_injective heq))
    · cases hother
  · cases hentry

/-- Without remote documents there is nothing to attach. -/
theorem attach_of_nil (base : Uri) (hremotes : corpus.remotes = []) :
    attach base corpus.spaces corpus.contents = .ok corpus.document := by
  have hnone : remoteEntries corpus.spaces corpus.contents = [] := by
    refine List.eq_nil_iff_forall_not_mem.mpr ?_
    rintro ⟨key, value⟩ hmem
    obtain ⟨number, uri, content, hdocument, -⟩ := mem_remoteEntries.mp hmem
    rw [Corpus.document?, hremotes] at hdocument
    cases hdocument
  unfold attach
  rw [hnone]
  rfl

/-- What attaching comes to: the base document alone, or with one more entry. -/
theorem attach_eq_ok {base : Uri} {out : Json}
    (hobject : ∀ remote ∈ corpus.remotes, remote.2.isObject)
    (hfree : corpus.remotes ≠ [] → corpus.document.get? remoteKey = none)
    (h : attach base corpus.spaces corpus.contents = .ok out) :
    (corpus.remotes = [] ∧ out = corpus.document) ∨
      ∃ entries, corpus.document = .obj entries ∧ remoteKey ∉ Assoc.keys entries ∧
        out = .obj (entries ++
          [(remoteKey, .obj (remoteEntries corpus.spaces corpus.contents))]) := by
  cases hremotes : corpus.remotes with
  | nil =>
    rw [attach_of_nil base hremotes] at h
    exact .inl ⟨rfl, (Except.ok.inj h).symm⟩
  | cons remote rest =>
    obtain ⟨uri, content⟩ := remote
    have hfirst : corpus.document? (.remote 0) = some (uri, content) := by
      rw [Corpus.document?, hremotes]
      rfl
    have hroot : (Assoc.find? corpus.contents .base).getD .null = corpus.document := rfl
    unfold attach at h
    simp only [hroot] at h
    have hcontent := hobject (uri, content) (by rw [hremotes]; exact List.mem_cons_self)
    have hkey := hfree (by rw [hremotes]; exact List.cons_ne_nil _ _)
    cases content with
    | obj content =>
      have hmem := mem_remoteEntries.mpr ⟨0, uri, content, hfirst, rfl, rfl⟩
      cases hremote : remoteEntries corpus.spaces corpus.contents with
      | nil => rw [hremote] at hmem; cases hmem
      | cons first others =>
        simp only [hremote] at h
        cases hdocument : corpus.document with
        | obj entries =>
          rw [hdocument, Json.get?] at hkey
          have hnew := Assoc.find?_eq_none_iff.mp hkey
          simp only [hdocument, Assoc.insert_of_not_mem hnew] at h
          exact .inr ⟨entries, rfl, hnew, (Except.ok.inj h).symm⟩
        | null => rw [hdocument] at h; cases h
        | bool => rw [hdocument] at h; cases h
        | num => rw [hdocument] at h; cases h
        | str => rw [hdocument] at h; cases h
        | arr => rw [hdocument] at h; cases h
    | null => cases hcontent
    | bool => cases hcontent
    | num => cases hcontent
    | str => cases hcontent
    | arr => cases hcontent

/-! ### Places in the result -/

/-- An entry under any other key than that of references adds the references below it. -/
theorem mem_refs_append_singleton {entries : Entries} {key : String} (hkey : key ≠ refKey)
    {value : Json} {place : List String} {text : String} :
    (place, text) ∈ (Json.obj (entries ++ [(key, value)])).refs ↔
      (place, text) ∈ (Json.obj entries).refs ∨
        ∃ below, place = key :: below ∧ (below, text) ∈ value.refs := by
  have hown : (Json.obj (entries ++ [(key, value)])).ref? = (Json.obj entries).ref? := by
    rw [Json.ref?, Json.ref?, Json.get?, Json.get?, Assoc.find?_append, Assoc.find?, if_neg hkey,
      Assoc.find?, Option.or_none]
  rw [Json.mem_refs_obj, Json.mem_refs_obj, hown, or_assoc]
  refine or_congr_right ⟨?_, ?_⟩
  · rintro ⟨k, v, below, hmem, rfl, hbelow⟩
    rcases List.mem_append.mp hmem with hold | hlast
    · exact .inl ⟨k, v, below, hold, rfl, hbelow⟩
    · obtain ⟨rfl, rfl⟩ := Prod.mk.inj (List.mem_singleton.mp hlast)
      exact .inr ⟨below, rfl, hbelow⟩
  · rintro (⟨k, v, below, hmem, rfl, hbelow⟩ | ⟨below, rfl, hbelow⟩)
    · exact ⟨k, v, below, List.mem_append_left _ hmem, rfl, hbelow⟩
    · exact ⟨key, value, below, List.mem_append_right _ List.mem_cons_self, rfl, hbelow⟩

/-- The references among the remote documents are those of the documents. -/
theorem mem_refs_remoteEntries (hwf : corpus.WellFormed)
    (hobject : ∀ remote ∈ corpus.remotes, remote.2.isObject) {place : List String}
    {text : String} :
    (place, text) ∈ (Json.obj (remoteEntries corpus.spaces corpus.contents)).refs ↔
      ∃ number uri content below, corpus.document? (.remote number) = some (uri, content) ∧
        place = remoteName number :: below ∧ (below, text) ∈ content.refs := by
  rw [Json.mem_refs_obj]
  constructor
  · rintro (⟨-, hown⟩ | ⟨key, value, below, hmem, rfl, hbelow⟩)
    · obtain ⟨value, hvalue, htext⟩ := Option.bind_eq_some_iff.mp hown
      obtain ⟨_, _, _, -, -, rfl⟩ := mem_remoteEntries.mp (Assoc.mem_of_find? hvalue)
      cases htext
    · obtain ⟨number, uri, content, hdocument, rfl, rfl⟩ := mem_remoteEntries.mp hmem
      exact ⟨number, uri, _, below, hdocument, rfl,
        (mem_refs_withSource (hwf _ _ _ hdocument)).mp hbelow⟩
  · rintro ⟨number, uri, content, below, hdocument, rfl, hbelow⟩
    cases content with
    | obj content =>
      exact .inr ⟨_, _, below, mem_remoteEntries.mpr ⟨number, uri, content, hdocument, rfl, rfl⟩,
        rfl, (mem_refs_withSource (hwf _ _ _ hdocument)).mpr hbelow⟩
    | null => cases hbelow
    | bool => cases hbelow
    | num => cases hbelow
    | str => cases hbelow
    | arr =>
      have himpossible := hobject _ (List.mem_of_getElem? hdocument)
      cases himpossible

section Places

variable {base : Uri} {out : Json} (hwf : corpus.WellFormed)
  (hobject : ∀ remote ∈ corpus.remotes, remote.2.isObject)
  (hfree : corpus.remotes ≠ [] → corpus.document.get? remoteKey = none)
  (h : attach base corpus.spaces corpus.contents = .ok out)

include hwf hobject hfree h

/-- The document with the others attached is well-formed. -/
theorem wellFormed_attach : out.wellFormed := by
  have hbase : corpus.document.wellFormed := hwf .base _ _ rfl
  rcases attach_eq_ok hobject hfree h with ⟨-, rfl⟩ | ⟨entries, hdocument, hnew, rfl⟩
  · exact hbase
  · rw [hdocument] at hbase
    obtain ⟨hnodup, hentries⟩ := Json.wellFormed_obj.mp hbase
    refine Json.wellFormed_obj.mpr ⟨?_, fun entry hentry => ?_⟩
    · rw [← Assoc.insert_of_not_mem hnew]
      exact Assoc.nodup_keys_insert hnodup _ _
    · rcases List.mem_append.mp hentry with hold | hlast
      · exact hentries entry hold
      · obtain rfl := List.mem_singleton.mp hlast
        refine Json.wellFormed_obj.mpr ⟨nodup_keys_remoteEntries, fun remote hremote => ?_⟩
        obtain ⟨number, uri, content, hfound, -, hvalue⟩ := mem_remoteEntries.mp hremote
        rw [hvalue]
        exact wellFormed_withSource (hwf _ _ _ hfound) _

/-- The references of the result are those of the documents, below their roots. -/
theorem mem_refs_attach {place : List String} {text : String} :
    (place, text) ∈ out.refs ↔ ∃ space uri content below,
      corpus.document? space = some (uri, content) ∧ place = space.root.segments ++ below ∧
        (below, text) ∈ content.refs := by
  have hkey : remoteKey ≠ refKey := by decide
  rcases attach_eq_ok hobject hfree h with ⟨hnone, rfl⟩ | ⟨entries, hdocument, -, rfl⟩
  · constructor
    · intro hmem
      exact ⟨.base, _, _, place, rfl, rfl, hmem⟩
    · rintro ⟨space, uri, content, below, hfound, rfl, hmem⟩
      cases space with
      | base =>
        obtain ⟨-, rfl⟩ := Prod.mk.inj (Option.some.inj hfound)
        exact hmem
      | remote number =>
        rw [Corpus.document?, hnone] at hfound
        cases hfound
  · rw [mem_refs_append_singleton hkey, ← hdocument]
    simp only [mem_refs_remoteEntries hwf hobject]
    constructor
    · rintro (hmem | ⟨_, rfl, number, uri, content, below, hfound, rfl, hmem⟩)
      · exact ⟨.base, _, _, place, rfl, rfl, hmem⟩
      · exact ⟨.remote number, uri, content, below, hfound, rfl, hmem⟩
    · rintro ⟨space, uri, content, below, hfound, rfl, hmem⟩
      cases space with
      | base =>
        obtain ⟨-, rfl⟩ := Prod.mk.inj (Option.some.inj hfound)
        exact .inl hmem
      | remote number =>
        exact .inr ⟨_, rfl, number, uri, content, below, hfound, rfl, hmem⟩

/-- Every place of a document leads to a value of the result, behind the root of the document. -/
theorem isSome_descend?_attach {space : Space} {uri : Uri} {content : Json}
    (hdocument : corpus.document? space = some (uri, content)) {below : List String}
    (hsome : (content.descend? below).isSome) :
    (out.descend? (space.root.segments ++ below)).isSome := by
  rcases attach_eq_ok hobject hfree h with ⟨hnone, rfl⟩ | ⟨entries, hbase, hnew, rfl⟩
  · cases space with
    | base =>
      obtain ⟨-, rfl⟩ := Prod.mk.inj (Option.some.inj hdocument)
      exact hsome
    | remote number =>
      rw [Corpus.document?, hnone] at hdocument
      cases hdocument
  · cases space with
    | base =>
      obtain ⟨-, rfl⟩ := Prod.mk.inj (Option.some.inj hdocument)
      change (Json.descend? _ below).isSome
      cases below with
      | nil => rfl
      | cons key rest =>
        rw [hbase, Json.descend?, Json.step?] at hsome
        rw [Json.descend?, Json.step?, Assoc.find?_append]
        cases hfind : Assoc.find? entries key with
        | none => rw [hfind] at hsome; cases hsome
        | some value => rw [hfind] at hsome; exact hsome
    | remote number =>
      have hcontent := hobject _ (List.mem_of_getElem? hdocument)
      cases content with
      | obj content =>
        have hentry := mem_remoteEntries.mpr ⟨number, uri, content, hdocument, rfl, rfl⟩
        have hroot : (Json.obj (entries ++
            [(remoteKey, .obj (remoteEntries corpus.spaces corpus.contents))])).descend?
              [remoteKey, remoteName number] = some (.obj (withSource uri.toText content)) := by
          rw [Json.descend?, Json.step?, Assoc.find?_append, Assoc.find?_eq_none_iff.mpr hnew,
            Option.none_or, Assoc.find?, if_pos rfl, Option.bind_some, Json.descend?, Json.step?,
            (Assoc.find?_eq_some_iff nodup_keys_remoteEntries).mpr hentry]
          rfl
        rw [Space.root, Json.descend?_append, hroot]
        exact isSome_descend?_withSource (hwf _ _ _ hdocument) _ hsome
      | null => cases hcontent
      | bool => cases hcontent
      | num => cases hcontent
      | str => cases hcontent
      | arr => cases hcontent

end Places

end SchemaClasses.Survey
