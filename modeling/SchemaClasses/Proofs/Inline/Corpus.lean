import Mathlib.Logic.Relation
import SchemaClasses.Proofs.Inline.References

/-!
# The documents of an inlining

A `Corpus` is the base document with its address and the documents that were fetched for it, in
order. It says which location a reference leads to (`Corpus.RefersTo`) without a survey: the text
is resolved against the address of its document, the document with the resulting URI is one of the
corpus, and the fragment is the place in it. A chain of references ends where there is none
(`Corpus.EndsAt`).

`Corpus.Lawful` is what a survey guarantees of the documents it has met. Under it the tables of a
survey are those of the corpus, and the address of a document finds it (`find?_spaces_iff`).
-/

namespace SchemaClasses

/-- A base document and the documents fetched for it, with their URIs. -/
structure Corpus where
  /-- The URI of the base document, without fragment. -/
  address : Uri
  /-- The base document. -/
  document : Json
  /-- The URIs and contents of the remote documents, in the order of their numbers. -/
  remotes : List (Uri × Json)

namespace Corpus

/-- The URI and the content of one of the documents. -/
def document? (corpus : Corpus) : Space → Option (Uri × Json)
  | .base => some (corpus.address, corpus.document)
  | .remote number => corpus.remotes[number]?

/-- Whether the reference at a location has some text. -/
def HasRef (corpus : Corpus) (source : Location) (text : String) : Prop :=
  ∃ uri content value, corpus.document? source.space = some (uri, content) ∧
    Json.StandsAt content source.path.segments value ∧ value.ref? = some text

/-- Where a reference with some text in the document with some URI leads. -/
def Resolves (corpus : Corpus) (scope : Uri) (text : String) (target : Location) : Prop :=
  ∃ uri address content, scope.join text = .ok uri ∧
    Pointer.decode "" (uri.fragment.getD "") = .ok target.path.segments ∧
    corpus.document? target.space = some (address, content) ∧
    address.toText = uri.withoutFragment.toText

/-- The location that the reference at a location leads to. -/
def RefersTo (corpus : Corpus) (source target : Location) : Prop :=
  ∃ scope content value text, corpus.document? source.space = some (scope, content) ∧
    Json.StandsAt content source.path.segments value ∧ value.ref? = some text ∧
    corpus.Resolves scope text target

/-- The end of the chain of references that begins at a location. -/
def EndsAt (corpus : Corpus) (first last : Location) : Prop :=
  Relation.ReflTransGen corpus.RefersTo first last ∧ ∀ text, ¬corpus.HasRef last text

/-- The documents by the texts of their URIs. -/
def spaces (corpus : Corpus) : List (String × Space) :=
  (corpus.address.toText, .base) ::
    corpus.remotes.mapIdx fun number remote => (remote.1.toText, .remote number)

/-- The contents of the documents. -/
def contents (corpus : Corpus) : List (Space × Json) :=
  (.base, corpus.document) :: corpus.remotes.mapIdx fun number remote => (.remote number, remote.2)

/-- The corpus with one more remote document. -/
def add (corpus : Corpus) (uri : Uri) (content : Json) : Corpus :=
  { corpus with remotes := corpus.remotes ++ [(uri, content)] }

/-- What a survey guarantees of the documents it has met. -/
structure Lawful (fetch : Fetch) (corpus : Corpus) : Prop where
  /-- No two documents have the same URI. -/
  distinct : (Assoc.keys corpus.spaces).Nodup
  /-- The remote documents are what is fetched from their URIs. -/
  fetched : ∀ remote ∈ corpus.remotes, fetch remote.1 = .ok remote.2
  /-- The remote documents are objects. -/
  isObject : ∀ remote ∈ corpus.remotes, remote.2.isObject
  /-- If there are remote documents, the base document does not use the reserved key. -/
  unreserved : corpus.remotes ≠ [] → corpus.document.get? remoteKey = none

/-! ### The tables of a corpus -/

variable {corpus : Corpus}

/-- Without remote documents there is only the base document. -/
theorem eq_base_of_document? (hremotes : corpus.remotes = []) {space : Space}
    {found : Uri × Json} (h : corpus.document? space = some found) :
    space = .base ∧ found = (corpus.address, corpus.document) := by
  cases space with
  | base => exact ⟨rfl, (Option.some.inj h).symm⟩
  | remote number =>
    rw [document?, hremotes] at h
    cases h

/-- A text is listed with a space if the document there has the URI that the text is written for. -/
theorem mem_spaces {text : String} {space : Space} :
    (text, space) ∈ corpus.spaces ↔
      ∃ uri content, corpus.document? space = some (uri, content) ∧ uri.toText = text := by
  unfold spaces
  rw [List.mem_cons, List.mem_mapIdx]
  constructor
  · rintro (heq | ⟨number, hnumber, heq⟩)
    · obtain ⟨rfl, rfl⟩ := Prod.mk.inj heq
      exact ⟨_, _, rfl, rfl⟩
    · obtain ⟨rfl, rfl⟩ := Prod.mk.inj heq
      exact ⟨_, _, List.getElem?_eq_getElem hnumber, rfl⟩
  · rintro ⟨uri, content, hdocument, rfl⟩
    cases space with
    | base =>
      obtain ⟨rfl, rfl⟩ := Prod.mk.inj (Option.some.inj hdocument)
      exact .inl rfl
    | remote number =>
      obtain ⟨hnumber, hget⟩ := List.getElem?_eq_some_iff.mp hdocument
      exact .inr ⟨number, hnumber, by rw [hget]⟩

/-- A document is found by its URI, and by no other. -/
theorem find?_spaces_iff (hdistinct : (Assoc.keys corpus.spaces).Nodup) {text : String}
    {space : Space} : Assoc.find? corpus.spaces text = some space ↔
      ∃ uri content, corpus.document? space = some (uri, content) ∧ uri.toText = text := by
  rw [Assoc.find?_eq_some_iff hdistinct, mem_spaces]

/-- A remote document is found under its number. -/
theorem find?_mapIdx_remote (remotes : List (Uri × Json)) (start number : Nat) :
    Assoc.find? (remotes.mapIdx fun n remote => (Space.remote (start + n), remote.2))
        (.remote (start + number)) = remotes[number]?.map Prod.snd := by
  induction remotes generalizing start number with
  | nil => rfl
  | cons remote rest ih =>
    rw [List.mapIdx_cons, Assoc.find?]
    cases number with
    | zero => simp
    | succ number =>
      have hne : Space.remote (start + 0) ≠ .remote (start + (number + 1)) := by
        intro h
        have := Space.remote.inj h
        omega
      have hshift := ih (start + 1) number
      simp only [Nat.add_assoc, Nat.add_comm 1] at hshift
      rw [if_neg hne, hshift, List.getElem?_cons_succ]

/-- The contents of a corpus are those of its documents. -/
theorem find?_contents (space : Space) :
    Assoc.find? corpus.contents space = (corpus.document? space).map Prod.snd := by
  unfold contents document?
  cases space with
  | base => rfl
  | remote number =>
    have hne : Space.base ≠ .remote number := nofun
    have := find?_mapIdx_remote corpus.remotes 0 number
    simp only [Nat.zero_add] at this
    rw [Assoc.find?, if_neg hne, this]

/-- The document that is added is listed last, under the next number. -/
theorem spaces_add (uri : Uri) (content : Json) :
    (corpus.add uri content).spaces =
      corpus.spaces ++ [(uri.toText, .remote corpus.remotes.length)] := by
  unfold spaces add
  rw [List.mapIdx_append, List.cons_append]
  simp

/-- The content of the document that is added is listed last, under the next number. -/
theorem contents_add (uri : Uri) (content : Json) :
    (corpus.add uri content).contents =
      corpus.contents ++ [(.remote corpus.remotes.length, content)] := by
  unfold contents add
  rw [List.mapIdx_append, List.cons_append]
  simp

/-- One document more is listed than there are remote ones. -/
@[simp] theorem length_spaces : corpus.spaces.length = corpus.remotes.length + 1 := by
  simp [spaces]

/-! ### More documents -/

/-- Whether one corpus continues another one with further remote documents. -/
structure Continues (before after : Corpus) : Prop where
  /-- The base document has the same URI. -/
  address : after.address = before.address
  /-- The base document is the same. -/
  document : after.document = before.document
  /-- The remote documents come first. -/
  remotes : before.remotes <+: after.remotes

/-- A corpus continues itself. -/
theorem Continues.refl (corpus : Corpus) : Continues corpus corpus :=
  ⟨rfl, rfl, List.prefix_refl _⟩

/-- What continues a continuation continues the first one. -/
theorem Continues.trans {first second third : Corpus} (h : Continues first second)
    (h' : Continues second third) : Continues first third :=
  ⟨h'.address.trans h.address, h'.document.trans h.document, h.remotes.trans h'.remotes⟩

/-- One more document continues a corpus. -/
theorem continues_add (corpus : Corpus) (uri : Uri) (content : Json) :
    Continues corpus (corpus.add uri content) :=
  ⟨rfl, rfl, List.prefix_append _ _⟩

variable {later : Corpus}

/-- Each document is the same in a corpus that continues this one. -/
theorem Continues.document? (h : Continues corpus later) {space : Space}
    {found : Uri × Json} (hfound : corpus.document? space = some found) :
    later.document? space = some found := by
  cases space with
  | base =>
    rw [Corpus.document?, h.address, h.document]
    exact hfound
  | remote number =>
    obtain ⟨rest, hrest⟩ := h.remotes
    obtain ⟨hnumber, -⟩ := List.getElem?_eq_some_iff.mp hfound
    rw [Corpus.document?, ← hrest, List.getElem?_append_left hnumber]
    exact hfound

/-- Where references lead stays the same in a corpus that continues this one. -/
theorem Continues.refersTo (h : Continues corpus later) {source target : Location}
    (href : corpus.RefersTo source target) : later.RefersTo source target := by
  obtain ⟨scope, content, value, text, hdocument, hvalue, htext, uri, address, found, hjoin,
    hdecode, htarget, haddress⟩ := href
  exact ⟨scope, content, value, text, h.document? hdocument, hvalue, htext, uri, address, found,
    hjoin, hdecode, h.document? htarget, haddress⟩

/-- A further document with a new URI, not before the reserved key is known to be free, keeps the
guarantees. -/
theorem Lawful.add {fetch : Fetch} (h : Lawful fetch corpus) {uri : Uri} {content : Json}
    (hnew : Assoc.find? corpus.spaces uri.toText = none) (hfetch : fetch uri = .ok content)
    (hobject : content.isObject) (hfree : corpus.document.get? remoteKey = none) :
    Lawful fetch (corpus.add uri content) where
  distinct := by
    have hkey : uri.toText ∉ Assoc.keys corpus.spaces := Assoc.find?_eq_none_iff.mp hnew
    have := Assoc.nodup_keys_insert h.distinct uri.toText (.remote corpus.remotes.length)
    rwa [Assoc.insert_of_not_mem hkey, ← spaces_add] at this
  fetched := by
    intro remote hremote
    rcases List.mem_append.mp hremote with hold | hlast
    · exact h.fetched remote hold
    · obtain rfl := List.mem_singleton.mp hlast
      exact hfetch
  isObject := by
    intro remote hremote
    rcases List.mem_append.mp hremote with hold | hlast
    · exact h.isObject remote hold
    · obtain rfl := List.mem_singleton.mp hlast
      exact hobject
  unreserved := fun _ => hfree

end Corpus

end SchemaClasses
