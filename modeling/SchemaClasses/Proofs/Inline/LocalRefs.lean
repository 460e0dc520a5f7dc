import SchemaClasses.Proofs.Inline.Idempotence
import SchemaClasses.Proofs.Inline.Requests
import SchemaClasses.Proofs.Uri.Fragment

/-!
# References inside one document

A document whose references all begin with a number sign refers to no other one, so inlining asks
for nothing. Main statement (`inline_local`): each of its references is redirected to the end of the
chain that comes from reading every text as a pointer, once the text has been cleaned of what no URI
keeps of it. If the texts have nothing of that kind, these are the chains of the pointers as they
are written, which the walk of a schema follows (`Flatten.findSchema`).

Otherwise they are not: a pointer to a key that ends in a space is redirected to the key without it
(`inline_local_fails`).
-/

namespace SchemaClasses

namespace Json

variable {document out : Json} {read other : String → Except PointerError SchemaPath}

/-- Where the reference at a place of a document leads if texts are read in some way. -/
def LeadsTo (document : Json) (read : String → Except PointerError SchemaPath)
    (source target : SchemaPath) : Prop :=
  ∃ text, (source.segments, text) ∈ document.refs ∧ read text = .ok target

/-- Whether a document has its references where another one has them, each of them to the end of
the chain of references that begins there in the other one. -/
structure RedirectsTo (document : Json) (read : String → Except PointerError SchemaPath)
    (out : Json) : Prop where
  /-- The references are at the same places. -/
  places : ∀ place, (∃ text, (place, text) ∈ out.refs) ↔ ∃ text, (place, text) ∈ document.refs
  /-- Each leads to the end of its chain. -/
  ends : ∀ place text, (place, text) ∈ out.refs → ∃ first last,
    document.LeadsTo read ⟨place⟩ first ∧
      Relation.ReflTransGen (document.LeadsTo read) first last ∧
      (∀ text, (last.segments, text) ∉ document.refs) ∧ SchemaPath.ofPointer text = .ok last

/-- Only the texts of the document matter. -/
theorem RedirectsTo.congr (h : document.RedirectsTo read out)
    (hsame : ∀ place text, (place, text) ∈ document.refs → read text = other text) :
    document.RedirectsTo other out where
  places := h.places
  ends := by
    have hleads : ∀ source target, document.LeadsTo read source target →
        document.LeadsTo other source target := by
      rintro source target ⟨text, hmem, htext⟩
      exact ⟨text, hmem, hsame _ _ hmem ▸ htext⟩
    intro place text hmem
    obtain ⟨first, last, hfirst, hchain, hend, hlast⟩ := h.ends place text hmem
    exact ⟨first, last, hleads _ _ hfirst, Relation.ReflTransGen.mono hleads _ _ hchain, hend,
      hlast⟩

/-- Whether all references of a document begin with a number sign. -/
def RefsAreLocal (document : Json) : Prop :=
  ∀ place text, (place, text) ∈ document.refs → text.toList.head? = some '#'

end Json

namespace Survey

variable {document : Json} {base : Uri} {survey : Survey}

/-- Recording a reference inside the document asks for nothing. -/
theorem asksNothing_record
    (hbase : ∀ fragment, ({ base with fragment } : Uri).withoutFragment = base)
    (h : IsLocal base document survey) (fetch : Fetch) (source : Location) {text : String}
    (hsign : text.toList.head? = some '#') :
    Ends (record fetch base source text) survey
      (fun found after => found = none ∧ IsLocal base document after)
      fun _ => IsLocal base document := by
  obtain ⟨rest, -, hjoin⟩ := base.join_local hsign
  refine ends_record (fun _ _ => h) (fun _ _ _ _ => h) fun uri segments huri _ => ?_
  obtain rfl := Except.ok.inj (hjoin.symm.trans huri)
  rw [hbase]
  exact local_spaceOf h fetch ⟨fun _ => h, fun _ _ =>
    ⟨fun _ => h, fun _ => ⟨fun _ => ⟨rfl, h.withEdge _ _⟩, nofun⟩⟩⟩

/-- No document is asked for while references that begin with a number sign are followed. -/
theorem asksNothing_followAll
    (hbase : ∀ fragment, ({ base with fragment } : Uri).withoutFragment = base) (fetch : Fetch)
    (search : Space → Uri → Json → SurveyM Unit) (space : Space)
    {refs : List (List String × String)} (hrefs : ∀ ref ∈ refs, ref.2.toList.head? = some '#')
    (h : IsLocal base document survey) :
    Ends (followAll fetch search space base refs) survey (fun _ => IsLocal base document)
      fun _ => IsLocal base document := by
  induction refs generalizing survey with
  | nil => exact ends_pure h
  | cons ref rest ih =>
    refine ends_bind (ends_follow ((asksNothing_record hbase h fetch _
      (hrefs ref List.mem_cons_self)).mono (fun found between hfound => ?_) fun _ _ h => h))
    obtain ⟨rfl, hbetween⟩ := hfound
    exact ih (fun other hother => hrefs other (List.mem_cons_of_mem _ hother)) hbetween

/-- The survey of a document with references inside it asks for nothing. -/
theorem requested_of_refsAreLocal
    (hbase : ∀ fragment, ({ base with fragment } : Uri).withoutFragment = base)
    (hlocal : document.RefsAreLocal) (limit : Nat) (fetch : Fetch) :
    (run limit fetch base document).2.requested = [] := by
  cases limit with
  | zero => rfl
  | succ limit =>
    have hstart : IsLocal base document (start base document) := ⟨rfl, rfl, rfl⟩
    have h := asksNothing_followAll hbase fetch (search fetch limit) .base
      (fun ref href => hlocal ref.1 ref.2 href) hstart
    exact h.at_end (fun _ _ h => h.requested) fun _ _ h => h.requested

/-! ### The chains -/

variable {fetch : Fetch} {corpus : Corpus}

/-- Without remote documents, a reference inside the document leads where its cleaned text leads as
a pointer. -/
theorem leadsTo_of_refersTo (hremotes : corpus.remotes = []) (hlocal : corpus.document.RefsAreLocal)
    {source target : Location} (h : corpus.RefersTo source target) :
    source.space = .base ∧ target.space = .base ∧
      corpus.document.LeadsTo (fun text => SchemaPath.ofPointer (Uri.cleaned text)) source.path
        target.path := by
  obtain ⟨scope, content, value, text, hdocument, hvalue, htext, uri, address, found, hjoin,
    hdecode, hfound, -⟩ := h
  obtain ⟨hsource, heq⟩ := corpus.eq_base_of_document? hremotes hdocument
  obtain ⟨rfl, rfl⟩ := Prod.mk.inj heq
  have hmem : (source.path.segments, text) ∈ corpus.document.refs :=
    Json.mem_refs.mpr ⟨value, hvalue, htext⟩
  exact ⟨hsource, (corpus.eq_base_of_document? hremotes hfound).1, text, hmem,
    SchemaPath.ofPointer_cleaned (hlocal _ _ hmem) hjoin hdecode⟩

/-- Without remote documents, references are redirected to the ends of their chains. -/
theorem redirectsTo_of_combine (h : Maps fetch corpus survey)
    (hsearched : ∀ source text, corpus.HasRef source text → source ∈ Assoc.keys survey.edges)
    (hwf : corpus.WellFormed) (hremotes : corpus.remotes = [])
    (hlocal : corpus.document.RefsAreLocal) {out : Json}
    (hcombine : combine base survey = .ok out) :
    corpus.document.RedirectsTo (fun text => SchemaPath.ofPointer (Uri.cleaned text)) out := by
  have hcombined := combined_of_combine h hsearched hwf hcombine
  have hbase : ∀ {source text}, corpus.HasRef source text →
      source.space = .base ∧ (source.path.segments, text) ∈ corpus.document.refs := by
    rintro ⟨space, ⟨place⟩⟩ text hsource
    obtain ⟨_, _, _, hdocument, -⟩ := id hsource
    obtain ⟨rfl, -⟩ := corpus.eq_base_of_document? hremotes hdocument
    exact ⟨rfl, (Corpus.hasRef_iff rfl).mp hsource⟩
  constructor
  case places =>
    intro place
    constructor
    · rintro ⟨text, hmem⟩
      obtain ⟨⟨space, path⟩, old, -, hsource, rfl, -⟩ := (hcombined.refs place text).mp hmem
      obtain ⟨rfl, hold⟩ := hbase hsource
      exact ⟨old, hold⟩
    · rintro ⟨text, hmem⟩
      have hsource : corpus.HasRef ⟨.base, ⟨place⟩⟩ text := (Corpus.hasRef_iff rfl).mpr hmem
      obtain ⟨last, hlast⟩ := hcombined.ends _ _ hsource
      exact ⟨_, (hcombined.refs place _).mpr ⟨_, text, last, hsource, rfl, hlast, rfl⟩⟩
  case ends =>
    intro place text hmem
    obtain ⟨⟨space, ⟨place⟩⟩, old, last, hsource, rfl, hlast, rfl⟩ :=
      (hcombined.refs place text).mp hmem
    obtain ⟨rfl, -⟩ := hbase hsource
    obtain ⟨first, hfirst, hchain, hend⟩ := endsAt_of_finalTarget h hsearched hlast
    obtain ⟨-, hspace, hleads⟩ := leadsTo_of_refersTo hremotes hlocal hfirst
    have hlastSpace : last.space = .base := by
      cases hchain with
      | refl => exact hspace
      | tail _ hstep => exact (leadsTo_of_refersTo hremotes hlocal hstep).2.1
    obtain ⟨space, ⟨place'⟩⟩ := last
    obtain rfl : space = .base := hlastSpace
    refine ⟨first.path, ⟨place'⟩, hleads, ?_, ?_, SchemaPath.ofPointer_toPointer ⟨place'⟩⟩
    · exact hchain.lift Location.path fun _ _ hstep =>
        (leadsTo_of_refersTo hremotes hlocal hstep).2.2
    · exact fun text hmem => hend text ((Corpus.hasRef_iff rfl).mpr hmem)

end Survey

/-! ### Inlining -/

/-- Inlining a document whose references all begin with a number sign asks for nothing and
redirects each of them to the end of its chain. The chains are those of the texts without what no
URI keeps of them, and so those of the texts as they are if there is nothing of that kind. -/
theorem inline_local {limit : Nat} {fetch : Fetch} {baseUri : String} {document out : Json}
    (hdocument : document.wellFormed) (hlocal : document.RefsAreLocal)
    (h : (inline limit fetch baseUri document).result = .ok out) :
    (inline limit fetch baseUri document).requested = [] ∧
    document.RedirectsTo (fun text => SchemaPath.ofPointer (Uri.cleaned text)) out ∧
    ((∀ place text, (place, text) ∈ document.refs → Uri.cleaned text = text) →
      document.RedirectsTo SchemaPath.ofPointer out) := by
  obtain ⟨uri, survey, hparse, hrun, hcombine⟩ := exists_survey_of_inline h
  have hrequested := Survey.requested_of_refsAreLocal uri.withoutFragment_withFragment hlocal limit
    fetch
  rw [hrun] at hrequested
  obtain ⟨corpus, -, rfl, hmaps, hsearched⟩ := Survey.maps_of_run hrun
  have hremotes : corpus.remotes = [] := by
    rw [hmaps.requested] at hrequested
    exact List.map_eq_nil_iff.mp hrequested
  have hwf := Corpus.wellFormed_of_remotes_nil hremotes hdocument
  have hcleaned := Survey.redirectsTo_of_combine hmaps hsearched hwf hremotes hlocal hcombine
  rw [inline_eq hparse hrun]
  refine ⟨hrequested, hcleaned, fun hclean => hcleaned.congr fun place text hmem => ?_⟩
  rw [hclean place text hmem]

/-- A document with references by escaped and unescaped names, one of them to another one. -/
def namesDocument : Json :=
  .obj [("a b", .obj [(refKey, .str "#/d%C3%A9f/%7e1<")]),
    ("d\u00e9f", .obj [("/<", .obj [(refKey, .str "#/d\u00e9f/a%20 b")]), ("a  b", .obj [])])]

/-- A source without documents. -/
def noFetch : Fetch := fun uri => .error (.fileNotFound uri.toText)

/-- The theorem at `namesDocument`: escaped and unescaped spellings lead to the same value. -/
theorem inline_local_names : namesDocument.wellFormed ∧ namesDocument.RefsAreLocal ∧
    (∀ place text, (place, text) ∈ namesDocument.refs → Uri.cleaned text = text) ∧
    ∃ out, (inline 1 noFetch "file:///a" namesDocument).result = .ok out ∧
      out.refs = [(["a b"], "#/d%C3%A9f/a%20%20b"), (["d\u00e9f", "/<"], "#/d%C3%A9f/a%20%20b")] ∧
      namesDocument.RedirectsTo SchemaPath.ofPointer out := by
  have hdocument : namesDocument.wellFormed := by decide
  have hlocal : namesDocument.RefsAreLocal := by
    have all : ∀ ref ∈ namesDocument.refs, ref.2.toList.head? = some '#' := by decide +kernel
    exact fun place text hmem => all (place, text) hmem
  have hclean : ∀ place text, (place, text) ∈ namesDocument.refs → Uri.cleaned text = text := by
    have all : ∀ ref ∈ namesDocument.refs, Uri.cleaned ref.2 = ref.2 := by decide +kernel
    exact fun place text hmem => all (place, text) hmem
  have hrefs : (inline 1 noFetch "file:///a" namesDocument).result.toOption.map Json.refs =
      some [(["a b"], "#/d%C3%A9f/a%20%20b"), (["d\u00e9f", "/<"], "#/d%C3%A9f/a%20%20b")] := by
    decide +kernel
  cases h : (inline 1 noFetch "file:///a" namesDocument).result with
  | error error =>
    rw [h] at hrefs
    cases hrefs
  | ok out =>
    rw [h] at hrefs
    obtain ⟨-, -, hredirects⟩ := inline_local hdocument hlocal h
    exact ⟨hdocument, hlocal, hclean, out, rfl, Option.some.inj hrefs, hredirects hclean⟩

/-- A document with a reference to a key that ends in a space, and with the key without it. -/
def blankDocument : Json :=
  .obj [("properties", .obj [("x", .obj [(refKey, .str "#/definitions/ab ")])]),
    ("definitions", .obj [("ab", .obj [(typeKey, .str "string")]),
      ("ab ", .obj [(typeKey, .str "integer")])])]

/-- Inlining redirects a pointer to a key that ends in a space to the key without it. -/
theorem inline_local_fails : blankDocument.wellFormed ∧ blankDocument.RefsAreLocal ∧
    blankDocument.refs = [(["properties", "x"], "#/definitions/ab ")] ∧
    SchemaPath.ofPointer "#/definitions/ab " = .ok ⟨["definitions", "ab "]⟩ ∧
    ∃ out, (inline 1 noFetch "file:///a" blankDocument).result = .ok out ∧
      out.refs = [(["properties", "x"], "#/definitions/ab")] ∧
      ¬blankDocument.RedirectsTo SchemaPath.ofPointer out := by
  have hbefore : blankDocument.refs = [(["properties", "x"], "#/definitions/ab ")] := by decide
  have hread : SchemaPath.ofPointer "#/definitions/ab " = .ok ⟨["definitions", "ab "]⟩ := by
    decide +kernel
  have hrefs : (inline 1 noFetch "file:///a" blankDocument).result.toOption.map Json.refs =
      some [(["properties", "x"], "#/definitions/ab")] := by decide +kernel
  cases h : (inline 1 noFetch "file:///a" blankDocument).result with
  | error error =>
    rw [h] at hrefs
    cases hrefs
  | ok out =>
    rw [h] at hrefs
    have hafter : out.refs = [(["properties", "x"], "#/definitions/ab")] := Option.some.inj hrefs
    refine ⟨by decide, ?_, hbefore, hread, out, rfl, hafter, fun hredirects => ?_⟩
    · intro place text hmem
      rw [hbefore] at hmem
      obtain ⟨-, rfl⟩ := Prod.mk.inj (List.mem_singleton.mp hmem)
      decide +kernel
    · obtain ⟨first, last, ⟨text, hmem, hfirst⟩, hchain, -, hlast⟩ :=
        hredirects.ends ["properties", "x"] "#/definitions/ab" (by rw [hafter]; decide)
      rw [hbefore] at hmem
      obtain ⟨-, rfl⟩ := Prod.mk.inj (List.mem_singleton.mp hmem)
      obtain rfl := Except.ok.inj (hread.symm.trans hfirst)
      -- there is no reference at the key, so the chain ends there
      have hend : last = ⟨["definitions", "ab "]⟩ := by
        cases hchain.cases_head with
        | inl heq => exact heq.symm
        | inr hstep =>
          obtain ⟨next, ⟨other, hother, -⟩, -⟩ := hstep
          rw [hbefore] at hother
          exact absurd (Prod.mk.inj (List.mem_singleton.mp hother)).1 (by decide)
      have hlast' : SchemaPath.ofPointer "#/definitions/ab" = .ok ⟨["definitions", "ab"]⟩ := by
        decide +kernel
      rw [hlast', hend] at hlast
      exact absurd hlast (by decide)

end SchemaClasses
