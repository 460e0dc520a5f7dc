import Mathlib.Data.Finset.Card
import Mathlib.Data.Set.Finite.Lattice
import SchemaClasses.Proofs.Inline.Circular
import SchemaClasses.Proofs.Inline.Requests

/-!
# Surveys end

Main statement (`inline_terminates`): if only finitely many documents can be fetched then inlining
comes to a result that no larger limit changes, however the documents refer to each other, and that
result is not that there are too many of them. No reference of a document is followed twice, and if
no error stops the survey then every reference of every document is followed.

`Walks` is the survey without a limit, with the locations of the references that it follows in
order. A search comes to what the walk comes to as soon as its limit exceeds the number of documents
that the walk fetches (`followAll_of_walks`). That there is a walk (`exists_walks`) is an induction
on the documents that can still be fetched, and for the same ones on the references that are left:
a walk goes down into another document only if that was fetched just before.

What a walk follows in other documents than its own it follows in documents that were not known
before it (`Walks.mem_log`), so it comes back to no reference (`Walks.nodup_log`).
-/

namespace SchemaClasses

/-- Whether a document is the base document or a remote one with one of the first numbers. -/
def Space.Below (count : Nat) : Space → Prop
  | .base => True
  | .remote number => number < count

/-- A document with one of the first numbers has one of any more first numbers. -/
theorem Space.Below.mono {count more : Nat} {space : Space} (hle : count ≤ more)
    (h : space.Below count) : space.Below more := by
  cases space with
  | base => trivial
  | remote number => exact Nat.lt_of_lt_of_le h hle

namespace Survey

/-! ### What becomes of the documents -/

/-- How many remote documents a survey knows. -/
def loaded (survey : Survey) : Nat :=
  survey.spaces.length - 1

/-- Whether the documents of a survey have the first numbers and, all but the first one, have been
fetched, each of them once. -/
structure Numbered (fetch : Fetch) (survey : Survey) : Prop where
  /-- There is the base document. -/
  pos : 0 < survey.spaces.length
  /-- No two documents have the same URI. -/
  distinct : (Assoc.keys survey.spaces).Nodup
  /-- The remote documents could be fetched. -/
  fetched : ∀ text ∈ (Assoc.keys survey.spaces).tail, ∃ uri content,
    fetch uri = .ok content ∧ uri.toText = text
  /-- There is no document but those that have been counted. -/
  below : ∀ space content, Assoc.find? survey.documents space = some content →
    space.Below survey.loaded

/-- Whether a survey still has its documents after some steps, and perhaps more. -/
structure Extends (fetch : Fetch) (survey after : Survey) : Prop where
  /-- The URIs are still known. -/
  keys : Assoc.keys survey.spaces ⊆ Assoc.keys after.spaces
  /-- There are no fewer documents. -/
  loaded_le : survey.loaded ≤ after.loaded
  /-- The documents are the same. -/
  document : ∀ space, space.Below survey.loaded →
    Assoc.find? after.documents space = Assoc.find? survey.documents space
  /-- The documents have the first numbers if they had them before. -/
  numbered : Numbered fetch survey → Numbered fetch after

/-- What a survey has after a document that was fetched for it. -/
structure Loads (fetch : Fetch) (survey : Survey) (uri : Uri) (space : Space) (content : Json)
    (after : Survey) : Prop where
  /-- The document was not known. -/
  new : uri.toText ∉ Assoc.keys survey.spaces
  /-- It could be fetched. -/
  fetched : fetch uri = .ok content
  /-- It has the next number. -/
  number : space = .remote survey.loaded
  /-- Its URI is known now. -/
  spaces : after.spaces = survey.spaces ++ [(uri.toText, space)]
  /-- Its content is there. -/
  documents : after.documents = Assoc.insert survey.documents space content

section Documents

variable {fetch : Fetch} {survey between after : Survey} {uri : Uri} {space : Space}
  {content : Json}

/-- A survey with the same documents extends the first one. -/
theorem extends_of_eq (hspaces : after.spaces = survey.spaces)
    (hdocuments : after.documents = survey.documents) : Extends fetch survey after where
  keys := fun _ h => hspaces ▸ h
  loaded_le := by rw [loaded, loaded, hspaces]
  document := fun _ _ => by rw [hdocuments]
  numbered := by
    rintro ⟨hpos, hdistinct, hfetched, hbelow⟩
    rw [loaded, ← hspaces, ← hdocuments] at *
    exact ⟨hpos, hdistinct, hfetched, hbelow⟩

/-- Extending twice is extending. -/
theorem Extends.trans (h : Extends fetch survey between) (h' : Extends fetch between after) :
    Extends fetch survey after where
  keys := List.Subset.trans h.keys h'.keys
  loaded_le := h.loaded_le.trans h'.loaded_le
  document := fun space hspace =>
    (h'.document space (hspace.mono h.loaded_le)).trans (h.document space hspace)
  numbered := h'.numbered ∘ h.numbered

/-- After a document was fetched, one more remote document is known. -/
theorem Loads.loaded_eq (h : Loads fetch survey uri space content after)
    (hnumbered : Numbered fetch survey) : after.loaded = survey.loaded + 1 := by
  have hpos := hnumbered.pos
  rw [loaded, h.spaces, List.length_append, List.length_singleton, loaded]
  omega

/-- The URI of a document that was fetched is the last one that is known. -/
theorem Loads.keys_eq (h : Loads fetch survey uri space content after) :
    Assoc.keys after.spaces = Assoc.keys survey.spaces ++ [uri.toText] := by
  rw [h.spaces, Assoc.keys, List.map_append]
  rfl

/-- What was known before a document was fetched still is. -/
theorem Loads.extends (h : Loads fetch survey uri space content after) :
    Extends fetch survey after where
  keys := h.keys_eq ▸ List.subset_append_left _ _
  loaded_le := by
    rw [loaded, loaded, h.spaces, List.length_append]
    exact Nat.sub_le_sub_right (Nat.le_add_right _ _) 1
  document := by
    intro other hother
    rw [h.documents, h.number, Assoc.find?_insert_of_ne]
    rintro rfl
    exact Nat.lt_irrefl _ hother
  numbered := by
    intro hnumbered
    constructor
    case pos =>
      rw [h.spaces, List.length_append]
      exact Nat.succ_pos _
    case distinct =>
      rw [h.keys_eq]
      exact List.nodup_append.mpr ⟨hnumbered.distinct, List.nodup_singleton _,
        fun text htext other hother heq => h.new (List.mem_singleton.mp hother ▸ heq ▸ htext)⟩
    case fetched =>
      have hne : Assoc.keys survey.spaces ≠ [] := fun hnil => by
        have hlength := congrArg List.length hnil
        rw [Assoc.keys, List.length_map] at hlength
        exact absurd hlength hnumbered.pos.ne'
      intro text htext
      rw [h.keys_eq, List.tail_append_of_ne_nil hne] at htext
      rcases List.mem_append.mp htext with hold | hlast
      · exact hnumbered.fetched text hold
      · exact ⟨uri, content, h.fetched, (List.mem_singleton.mp hlast).symm⟩
    case below =>
      intro other found hfound
      rw [h.loaded_eq hnumbered]
      by_cases heq : space = other
      · subst heq
        rw [h.number]
        exact Nat.lt_succ_self _
      · rw [h.documents, Assoc.find?_insert_of_ne _ _ heq] at hfound
        exact (hnumbered.below other found hfound).mono (Nat.le_succ _)

/-- No more documents are known than can be fetched. -/
theorem Numbered.loaded_le_card (h : Numbered fetch survey) {stock : Finset String}
    (hstock : ∀ uri content, fetch uri = .ok content → uri.toText ∈ stock) :
    survey.loaded ≤ stock.card := by
  have hnodup := h.distinct.sublist (List.tail_sublist _)
  have hloaded : survey.loaded = (Assoc.keys survey.spaces).tail.length := by
    rw [loaded, List.length_tail, Assoc.keys, List.length_map]
  rw [hloaded, ← List.toFinset_card_of_nodup hnodup]
  refine Finset.card_le_card fun text htext => ?_
  obtain ⟨uri, content, hfetch, rfl⟩ := h.fetched text (List.mem_toFinset.mp htext)
  exact hstock uri content hfetch

/-- The content that was fetched is that of the new document. -/
theorem Loads.find? (h : Loads fetch survey uri space content after) :
    Assoc.find? after.documents space = some content := by
  rw [h.documents, Assoc.find?_insert_self]

end Documents

/-! ### What becomes of a survey -/

/-- A step fails for other reasons than that there are too many documents, and what it has found so
far stays. -/
def StopsWell (fetch : Fetch) (survey : Survey) (error : InlineError) (after : Survey) : Prop :=
  error ≠ .tooManyDocuments ∧ Extends fetch survey after

section Steps

variable {fetch : Fetch} {survey : Survey}

/-- Looking for a document fetches at most that one. -/
theorem loads_spaceOf (uri : Uri) :
    Ends (spaceOf fetch uri) survey
      (fun found after => (found.2 = false ∧ after = survey) ∨
        found.2 = true ∧ ∃ content, Loads fetch survey uri found.1 content after)
      (StopsWell fetch survey) := by
  refine ends_spaceOf (fun _ _ => .inl ⟨rfl, rfl⟩) fun hnew => ?_
  refine ends_load (fun _ => ⟨nofun, extends_of_eq rfl rfl⟩) ⟨nofun, extends_of_eq rfl rfl⟩
    fun _ _ _ => ⟨fun _ _ => ⟨nofun, extends_of_eq rfl rfl⟩,
      fun content hfetch => ⟨fun _ => ⟨nofun, extends_of_eq rfl rfl⟩,
        fun _ => .inr ⟨rfl, content, ?_⟩⟩⟩
  have hkey := Assoc.find?_eq_none_iff.mp hnew
  exact ⟨hkey, hfetch, rfl, Assoc.insert_of_not_mem hkey _, rfl⟩

/-- Recording a reference fetches at most its target document. -/
theorem loads_record (scope : Uri) (source : Location) (reference : String) :
    Ends (record fetch scope source reference) survey
      (fun found after => match found with
        | none => Extends fetch survey after ∧ after.loaded = survey.loaded
        | some (space, uri, content) => Loads fetch survey uri space content after)
      (StopsWell fetch survey) := by
  refine ends_record (fun _ _ => ⟨nofun, extends_of_eq rfl rfl⟩)
    (fun _ _ _ _ => ⟨nofun, extends_of_eq rfl rfl⟩) fun uri segments _ _ =>
      (loads_spaceOf uri.withoutFragment).mono (fun found between hspace => ?_) fun _ _ h => h
  have hextends : Extends fetch survey between := by
    rcases hspace with ⟨-, rfl⟩ | ⟨-, content, hloads⟩
    · exact extends_of_eq rfl rfl
    · exact hloads.extends
  refine ⟨fun _ => ⟨nofun, hextends⟩, fun content hcontent => ⟨fun _ => ⟨nofun, hextends⟩,
    fun _ => ⟨fun hfetched => ?_, fun hfetched => ?_⟩⟩⟩
  · rcases hspace with ⟨-, rfl⟩ | ⟨hnew, -⟩
    · exact ⟨extends_of_eq rfl rfl, rfl⟩
    · cases hfetched.symm.trans hnew
  · rcases hspace with ⟨hold, -⟩ | ⟨-, loaded, hloads⟩
    · cases hfetched.symm.trans hold
    · obtain rfl := Option.some.inj (hloads.find?.symm.trans hcontent)
      exact ⟨hloads.new, hloads.fetched, hloads.number, hloads.spaces, hloads.documents⟩

end Steps

/-! ### The survey without a limit -/

/-- What becomes of a survey when references of a document are followed one after the other, with
no limit on how many documents refer to each other in a row. The locations of the references that
are followed are listed in order. -/
inductive Walks (fetch : Fetch) : Space → Uri → List (List String × String) → Survey →
    List Location → Except InlineError Unit → Survey → Prop where
  /-- No reference is left. -/
  | done {space : Space} {scope : Uri} {survey : Survey} :
      Walks fetch space scope [] survey [] (.ok ()) survey
  /-- A reference cannot be recorded. -/
  | stops {space : Space} {scope : Uri} {place : List String} {text : String}
      {rest : List (List String × String)} {survey after : Survey} {error : InlineError}
      (hrecord : (record fetch scope ⟨space, ⟨place⟩⟩ text).run.run survey =
        (.error error, after)) :
      Walks fetch space scope ((place, text) :: rest) survey [⟨space, ⟨place⟩⟩] (.error error) after
  /-- A reference leads to a document that was known. -/
  | known {space : Space} {scope : Uri} {place : List String} {text : String}
      {rest : List (List String × String)} {survey between after : Survey} {log : List Location}
      {outcome : Except InlineError Unit}
      (hrecord : (record fetch scope ⟨space, ⟨place⟩⟩ text).run.run survey = (.ok none, between))
      (hrest : Walks fetch space scope rest between log outcome after) :
      Walks fetch space scope ((place, text) :: rest) survey (⟨space, ⟨place⟩⟩ :: log) outcome after
  /-- A reference leads to a document that was fetched, which is walked first. -/
  | descends {space target : Space} {scope uri : Uri} {content : Json} {place : List String}
      {text : String} {rest : List (List String × String)} {survey between later after : Survey}
      {inner log : List Location} {outcome : Except InlineError Unit}
      (hrecord : (record fetch scope ⟨space, ⟨place⟩⟩ text).run.run survey =
        (.ok (some (target, uri, content)), between))
      (hinner : Walks fetch target uri content.refs between inner (.ok ()) later)
      (hrest : Walks fetch space scope rest later log outcome after) :
      Walks fetch space scope ((place, text) :: rest) survey
        (⟨space, ⟨place⟩⟩ :: (inner ++ log)) outcome after
  /-- The walk of a document that was fetched stops. -/
  | breaks {space target : Space} {scope uri : Uri} {content : Json} {place : List String}
      {text : String} {rest : List (List String × String)} {survey between after : Survey}
      {inner : List Location} {error : InlineError}
      (hrecord : (record fetch scope ⟨space, ⟨place⟩⟩ text).run.run survey =
        (.ok (some (target, uri, content)), between))
      (hinner : Walks fetch target uri content.refs between inner (.error error) after) :
      Walks fetch space scope ((place, text) :: rest) survey (⟨space, ⟨place⟩⟩ :: inner)
        (.error error) after

section Walks

variable {fetch : Fetch} {space : Space} {scope : Uri} {refs : List (List String × String)}
  {survey after : Survey} {log : List Location} {outcome : Except InlineError Unit}

/-- There is one walk. -/
theorem Walks.unique (h : Walks fetch space scope refs survey log outcome after)
    {log' : List Location} {outcome' : Except InlineError Unit} {after' : Survey}
    (h' : Walks fetch space scope refs survey log' outcome' after') :
    log = log' ∧ outcome = outcome' ∧ after = after' := by
  induction h generalizing log' outcome' after' with
  | done =>
    cases h'
    exact ⟨rfl, rfl, rfl⟩
  | stops hrecord =>
    cases h' with
    | stops hrecord' =>
      cases hrecord.symm.trans hrecord'
      exact ⟨rfl, rfl, rfl⟩
    | known hrecord' => cases hrecord.symm.trans hrecord'
    | descends hrecord' => cases hrecord.symm.trans hrecord'
    | breaks hrecord' => cases hrecord.symm.trans hrecord'
  | known hrecord _ ih =>
    cases h' with
    | stops hrecord' => cases hrecord.symm.trans hrecord'
    | known hrecord' hrest' =>
      cases hrecord.symm.trans hrecord'
      obtain ⟨rfl, rfl, rfl⟩ := ih hrest'
      exact ⟨rfl, rfl, rfl⟩
    | descends hrecord' => cases hrecord.symm.trans hrecord'
    | breaks hrecord' => cases hrecord.symm.trans hrecord'
  | descends hrecord _ _ ihinner ihrest =>
    cases h' with
    | stops hrecord' => cases hrecord.symm.trans hrecord'
    | known hrecord' => cases hrecord.symm.trans hrecord'
    | descends hrecord' hinner' hrest' =>
      cases hrecord.symm.trans hrecord'
      obtain ⟨rfl, -, rfl⟩ := ihinner hinner'
      obtain ⟨rfl, rfl, rfl⟩ := ihrest hrest'
      exact ⟨rfl, rfl, rfl⟩
    | breaks hrecord' hinner' =>
      cases hrecord.symm.trans hrecord'
      cases (ihinner hinner').2.1
  | breaks hrecord _ ih =>
    cases h' with
    | stops hrecord' => cases hrecord.symm.trans hrecord'
    | known hrecord' => cases hrecord.symm.trans hrecord'
    | descends hrecord' hinner' =>
      cases hrecord.symm.trans hrecord'
      cases (ih hinner').2.1
    | breaks hrecord' hinner' =>
      cases hrecord.symm.trans hrecord'
      obtain ⟨rfl, herror, rfl⟩ := ih hinner'
      exact ⟨rfl, herror, rfl⟩

/-! #### What recording a reference has done -/

section Record

variable {source : Location} {text : String} {between : Survey}

/-- Where recording a reference fails, the step stops well. -/
theorem stopsWell_of_record {error : InlineError}
    (h : (record fetch scope source text).run.run survey = (.error error, after)) :
    StopsWell fetch survey error after :=
  (loads_record scope source text).of_eq_error h

/-- Where recording a reference fetches nothing, no more documents are known. -/
theorem extends_of_record
    (h : (record fetch scope source text).run.run survey = (.ok none, between)) :
    Extends fetch survey between ∧ between.loaded = survey.loaded :=
  (loads_record scope source text).of_eq_ok h

/-- Where recording a reference fetches a document, that document has been loaded. -/
theorem loads_of_record {target : Space} {uri : Uri} {content : Json}
    (h : (record fetch scope source text).run.run survey =
      (.ok (some (target, uri, content)), between)) :
    Loads fetch survey uri target content between :=
  (loads_record scope source text).of_eq_ok h

end Record

/-- A walk loses no documents. -/
theorem Walks.extends (h : Walks fetch space scope refs survey log outcome after) :
    Extends fetch survey after := by
  induction h with
  | done => exact extends_of_eq rfl rfl
  | stops hrecord => exact (stopsWell_of_record hrecord).2
  | known hrecord _ ih => exact (extends_of_record hrecord).1.trans ih
  | descends hrecord _ _ ihinner ihrest =>
    exact ((loads_of_record hrecord).extends.trans ihinner).trans ihrest
  | breaks hrecord _ ih => exact (loads_of_record hrecord).extends.trans ih

/-- A walk does not fail for too many documents. -/
theorem Walks.ne_tooManyDocuments (h : Walks fetch space scope refs survey log outcome after) :
    outcome ≠ .error .tooManyDocuments := by
  induction h with
  | done => exact nofun
  | stops hrecord => exact fun h => (stopsWell_of_record hrecord).1 (Except.error.inj h)
  | known _ _ ih => exact ih
  | descends _ _ _ _ ih => exact ih
  | breaks _ _ ih => exact ih

/-! #### Searches with a limit -/

/-- After a computation that succeeds, the rest goes on with its result. -/
theorem run_bind_ok {α β : Type} {x : SurveyM α} {f : α → SurveyM β} {a : α}
    (h : x.run.run survey = (.ok a, after)) :
    (x >>= f).run.run survey = (f a).run.run after := by
  rw [ExceptT.run_bind, StateT.run_bind, h]
  rfl

/-- A computation that fails keeps the rest from being done. -/
theorem run_bind_error {α β : Type} {x : SurveyM α} {f : α → SurveyM β} {error : InlineError}
    (h : x.run.run survey = (.error error, after)) :
    (x >>= f).run.run survey = (.error error, after) := by
  rw [ExceptT.run_bind, StateT.run_bind, h]
  rfl

/-- A search whose limit exceeds the number of documents that a walk fetches comes to what the walk
comes to. -/
theorem followAll_of_walks (h : Walks fetch space scope refs survey log outcome after)
    (hnumbered : Numbered fetch survey) {limit : Nat}
    (hlimit : after.loaded ≤ survey.loaded + limit) :
    (followAll fetch (search fetch limit) space scope refs).run.run survey = (outcome, after) := by
  induction h generalizing limit with
  | done => rfl
  | stops hrecord =>
    rw [followAll, follow_eq, bind_assoc]
    exact run_bind_error hrecord
  | known hrecord _ ih =>
    obtain ⟨hextends, hloaded⟩ := extends_of_record hrecord
    rw [followAll, follow_eq, bind_assoc, run_bind_ok hrecord]
    exact ih (hextends.numbered hnumbered) (hloaded ▸ hlimit)
  | @descends _ _ _ _ _ _ _ _ survey between later after _ _ _ hrecord hinner hrest ihinner
      ihrest =>
    have hloads := loads_of_record hrecord
    have hloaded := hloads.loaded_eq hnumbered
    have hbetween := hloads.extends.numbered hnumbered
    have hlater := hinner.extends.loaded_le
    have hafter := hrest.extends.loaded_le
    rw [followAll, follow_eq, bind_assoc, run_bind_ok hrecord]
    cases limit with
    | zero => omega
    | succ limit =>
      have hlimit' : later.loaded ≤ between.loaded + limit := by omega
      refine (run_bind_ok (ihinner hbetween hlimit')).trans ?_
      exact ihrest (hinner.extends.numbered hbetween) (by omega)
  | @breaks _ _ _ _ _ _ _ _ survey between after _ _ hrecord hinner ih =>
    have hloads := loads_of_record hrecord
    have hloaded := hloads.loaded_eq hnumbered
    have hafter := hinner.extends.loaded_le
    rw [followAll, follow_eq, bind_assoc, run_bind_ok hrecord]
    cases limit with
    | zero => omega
    | succ limit =>
      have hlimit' : after.loaded ≤ between.loaded + limit := by omega
      exact run_bind_error (ih (hloads.extends.numbered hnumbered) hlimit')

/-! #### There is a walk -/

section Stock

variable {stock : Finset String} {between : Survey}

/-- The URIs of documents that could still be fetched. -/
def unknown (stock : Finset String) (survey : Survey) : Finset String :=
  stock.filter fun text => text ∉ Assoc.keys survey.spaces

/-- The more a survey knows, the less is unknown. -/
theorem Extends.unknown_subset (h : Extends fetch survey after) :
    unknown stock after ⊆ unknown stock survey :=
  Finset.monotone_filter_right _ fun _ _ hnew hold => hnew (h.keys hold)

/-- A document that was fetched is unknown no longer. -/
theorem Loads.unknown_ssubset {uri : Uri} {target : Space} {content : Json}
    (h : Loads fetch survey uri target content after) (hstock : uri.toText ∈ stock) :
    unknown stock after ⊂ unknown stock survey := by
  refine Finset.ssubset_iff_of_subset h.extends.unknown_subset |>.mpr
    ⟨uri.toText, Finset.mem_filter.mpr ⟨hstock, h.new⟩, fun hmem => ?_⟩
  refine (Finset.mem_filter.mp hmem).2 ?_
  rw [h.keys_eq]
  exact List.mem_append_right _ List.mem_cons_self

/-- If only finitely many documents can be fetched then a walk comes to an end. -/
theorem exists_walks (hstock : ∀ uri content, fetch uri = .ok content → uri.toText ∈ stock)
    (left : Finset String) (space : Space) (scope : Uri) (refs : List (List String × String))
    (survey : Survey) (hleft : unknown stock survey ⊆ left) :
    ∃ log outcome after, Walks fetch space scope refs survey log outcome after := by
  induction left using Finset.strongInduction generalizing space scope refs survey with
  | H left ih =>
    induction refs generalizing survey with
    | nil => exact ⟨_, _, _, .done⟩
    | cons ref rest ihrest =>
      obtain ⟨place, text⟩ := ref
      rcases hrecord : (record fetch scope ⟨space, ⟨place⟩⟩ text).run.run survey with
        ⟨error | found, between⟩
      · exact ⟨_, _, _, .stops hrecord⟩
      cases found with
      | none =>
        have hextends := (extends_of_record hrecord).1
        obtain ⟨_, _, _, hrest⟩ := ihrest between (hextends.unknown_subset.trans hleft)
        exact ⟨_, _, _, .known hrecord hrest⟩
      | some found =>
        obtain ⟨target, uri, content⟩ := found
        have hloads := loads_of_record hrecord
        have hfewer := hloads.unknown_ssubset (hstock _ _ hloads.fetched)
        obtain ⟨_, outcome, later, hinner⟩ := ih _ (hfewer.trans_subset hleft) target uri
          content.refs between (Finset.Subset.refl _)
        cases outcome with
        | error error => exact ⟨_, _, _, .breaks hrecord hinner⟩
        | ok =>
          have hlater := hinner.extends.unknown_subset.trans (hfewer.subset.trans hleft)
          obtain ⟨_, _, _, hrest⟩ := ihrest later hlater
          exact ⟨_, _, _, .descends hrecord hinner hrest⟩

end Stock

/-! #### Each reference is followed once -/

/-- Whether there is a reference at a location, in one of the documents that a survey knows. -/
def HasRef (survey : Survey) (source : Location) : Prop :=
  ∃ content text, Assoc.find? survey.documents source.space = some content ∧
    (source.path.segments, text) ∈ content.refs

variable {source : Location}

/-- A reference in a document is still there in a survey that extends the first one. -/
theorem HasRef.extends (h : HasRef survey source) (hnumbered : Numbered fetch survey)
    (hextends : Extends fetch survey after) : HasRef after source := by
  obtain ⟨content, text, hcontent, hmem⟩ := h
  have hbelow := hnumbered.below _ _ hcontent
  exact ⟨content, text, (hextends.document _ hbelow).trans hcontent, hmem⟩

/-- What is followed in a document that was fetched, or in others after it, was not known before. -/
theorem Loads.hasRef {between later : Survey} {target : Space} {uri : Uri} {content : Json}
    (h : Loads fetch survey uri target content between) (hnumbered : Numbered fetch survey)
    (hextends : Extends fetch between later)
    (hsource : (source.space = target ∧ source.path.segments ∈ content.refs.map Prod.fst) ∨
      ¬source.space.Below between.loaded ∧ HasRef later source) :
    ¬source.space.Below survey.loaded ∧ HasRef later source := by
  rcases hsource with ⟨hspace, hplace⟩ | ⟨hnew, href⟩
  · obtain ⟨⟨place, text⟩, hmem, heq⟩ := List.mem_map.mp hplace
    have hfound : Assoc.find? between.documents source.space = some content := hspace ▸ h.find?
    obtain rfl : place = source.path.segments := heq
    have href : HasRef between source := ⟨content, text, hfound, hmem⟩
    refine ⟨?_, href.extends (h.extends.numbered hnumbered) hextends⟩
    rw [hspace, h.number]
    exact Nat.lt_irrefl _
  · exact ⟨fun hbelow => hnew (hbelow.mono h.extends.loaded_le), href⟩

/-- A walk follows references of its own document and of documents that it fetches. -/
theorem Walks.mem_log (h : Walks fetch space scope refs survey log outcome after)
    (hnumbered : Numbered fetch survey) (hsource : source ∈ log) :
    (source.space = space ∧ source.path.segments ∈ refs.map Prod.fst) ∨
      ¬source.space.Below survey.loaded ∧ HasRef after source := by
  induction h with
  | done => exact absurd hsource List.not_mem_nil
  | stops =>
    obtain rfl := List.mem_singleton.mp hsource
    exact .inl ⟨rfl, List.mem_cons_self⟩
  | known hrecord _ ih =>
    obtain ⟨hextends, hloaded⟩ := extends_of_record hrecord
    rcases List.mem_cons.mp hsource with rfl | hrest
    · exact .inl ⟨rfl, List.mem_cons_self⟩
    · rw [← hloaded]
      exact (ih (hextends.numbered hnumbered) hrest).imp_left
        (And.imp_right (List.mem_cons_of_mem _))
  | descends hrecord hinner hrest ihinner ihrest =>
    have hloads := loads_of_record hrecord
    have hbetween := hloads.extends.numbered hnumbered
    have hlater := hinner.extends.numbered hbetween
    rcases List.mem_cons.mp hsource with rfl | hbehind
    · exact .inl ⟨rfl, List.mem_cons_self⟩
    rcases List.mem_append.mp hbehind with hinside | hrest'
    · obtain ⟨hnew, href⟩ := hloads.hasRef hnumbered hinner.extends (ihinner hbetween hinside)
      exact .inr ⟨hnew, href.extends hlater hrest.extends⟩
    · have hle := hloads.extends.loaded_le.trans hinner.extends.loaded_le
      exact (ihrest hlater hrest').imp (And.imp_right (List.mem_cons_of_mem _))
        (And.imp_left fun hnew hbelow => hnew (hbelow.mono hle))
  | breaks hrecord hinner ih =>
    have hloads := loads_of_record hrecord
    rcases List.mem_cons.mp hsource with rfl | hinside
    · exact .inl ⟨rfl, List.mem_cons_self⟩
    · exact .inr (hloads.hasRef hnumbered hinner.extends
        (ih (hloads.extends.numbered hnumbered) hinside))

/-- A walk follows no reference twice. -/
theorem Walks.nodup_log (h : Walks fetch space scope refs survey log outcome after)
    (hfetch : ∀ uri content, fetch uri = .ok content → (content.refs.map Prod.fst).Nodup)
    (hnumbered : Numbered fetch survey) (hspace : space.Below survey.loaded)
    (hrefs : (refs.map Prod.fst).Nodup) : log.Nodup := by
  induction h with
  | done => exact List.nodup_nil
  | stops => exact List.nodup_singleton _
  | known hrecord hrest ih =>
    obtain ⟨hextends, hloaded⟩ := extends_of_record hrecord
    obtain ⟨hplace, hrefs⟩ := List.nodup_cons.mp hrefs
    have hbetween := hextends.numbered hnumbered
    rw [← hloaded] at hspace
    refine List.nodup_cons.mpr ⟨fun hmem => ?_, ih hbetween hspace hrefs⟩
    rcases hrest.mem_log hbetween hmem with ⟨-, hagain⟩ | ⟨hnew, -⟩
    · exact hplace hagain
    · exact hnew hspace
  | @descends _ _ _ _ _ _ _ _ survey _ later _ inner _ _ hrecord hinner hrest ihinner ihrest =>
    have hloads := loads_of_record hrecord
    obtain ⟨hplace, hrefs⟩ := List.nodup_cons.mp hrefs
    have hbetween := hloads.extends.numbered hnumbered
    have hlater := hinner.extends.numbered hbetween
    have hspace' := hspace.mono (hloads.extends.loaded_le.trans hinner.extends.loaded_le)
    -- what is followed below stands in other documents than the reference that led there
    have hbelow : ∀ source ∈ inner,
        ¬source.space.Below survey.loaded ∧ HasRef later source := fun source hmem =>
      hloads.hasRef hnumbered hinner.extends (hinner.mem_log hbetween hmem)
    refine List.nodup_cons.mpr ⟨fun hmem => ?_, List.nodup_append.mpr ⟨ihinner hbetween ?_
      (hfetch _ _ hloads.fetched), ihrest hlater hspace' hrefs, fun source hmem other hother => ?_⟩⟩
    · rcases List.mem_append.mp hmem with hinside | hrest'
      · exact (hbelow _ hinside).1 hspace
      · rcases hrest.mem_log hlater hrest' with ⟨-, hagain⟩ | ⟨hnew, -⟩
        · exact hplace hagain
        · exact hnew hspace'
    · rw [hloads.loaded_eq hnumbered, hloads.number]
      exact Nat.lt_succ_self _
    · rintro rfl
      obtain ⟨hnew, content, _, hfound, -⟩ := hbelow source hmem
      rcases hrest.mem_log hlater hother with ⟨hsame, -⟩ | ⟨hnewer, -⟩
      · exact hnew (hsame ▸ hspace)
      · exact hnewer (hlater.below _ _ hfound)
  | breaks hrecord hinner ih =>
    have hloads := loads_of_record hrecord
    have hbetween := hloads.extends.numbered hnumbered
    refine List.nodup_cons.mpr ⟨fun hmem => ?_, ih hbetween ?_ (hfetch _ _ hloads.fetched)⟩
    · exact (hloads.hasRef hnumbered hinner.extends (hinner.mem_log hbetween hmem)).1 hspace
    · rw [hloads.loaded_eq hnumbered, hloads.number]
      exact Nat.lt_succ_self _

/-- A walk that succeeds follows all references of its document and of the documents that it
fetches. -/
theorem Walks.complete (h : Walks fetch space scope refs survey log (.ok ()) after)
    (hnumbered : Numbered fetch survey) :
    (∀ place ∈ refs.map Prod.fst, ⟨space, ⟨place⟩⟩ ∈ log) ∧
      ∀ source, ¬source.space.Below survey.loaded → HasRef after source → source ∈ log := by
  generalize hok : Except.ok () = outcome at h
  induction h with
  | done =>
    refine ⟨fun _ hmem => absurd hmem List.not_mem_nil, fun source hnew href => ?_⟩
    obtain ⟨_, _, hfound, -⟩ := href
    exact absurd (hnumbered.below _ _ hfound) hnew
  | stops => cases hok
  | known hrecord _ ih =>
    obtain ⟨hextends, hloaded⟩ := extends_of_record hrecord
    obtain ⟨hown, hothers⟩ := ih (hextends.numbered hnumbered) hok
    refine ⟨List.forall_mem_cons.mpr ⟨List.mem_cons_self, fun place hmem =>
      List.mem_cons_of_mem _ (hown place hmem)⟩, fun source hnew href => ?_⟩
    rw [← hloaded] at hnew
    exact List.mem_cons_of_mem _ (hothers source hnew href)
  | @descends _ target _ _ _ _ _ _ survey between later _ _ _ _ hrecord hinner hrest ihinner
      ihrest =>
    have hloads := loads_of_record hrecord
    have hbetween := hloads.extends.numbered hnumbered
    obtain ⟨hinside, hbelow⟩ := ihinner hbetween rfl
    obtain ⟨hown, hothers⟩ := ihrest (hinner.extends.numbered hbetween) hok
    refine ⟨List.forall_mem_cons.mpr ⟨List.mem_cons_self, fun place hmem =>
      List.mem_cons_of_mem _ (List.mem_append_right _ (hown place hmem))⟩, ?_⟩
    intro source hnew href
    by_cases hlater : source.space.Below later.loaded
    · obtain ⟨found, text, hfound, hmem⟩ := href
      rw [hrest.extends.document _ hlater] at hfound
      refine List.mem_cons_of_mem _ (List.mem_append_left _ ?_)
      by_cases htarget : source.space.Below between.loaded
      · -- only the document that was fetched just before is known now and was not known
        obtain ⟨other, ⟨place⟩⟩ := source
        have hspace : other = target := by
          cases other with
          | base => exact absurd trivial hnew
          | remote number =>
            have hlt : number < between.loaded := htarget
            have hge : ¬number < survey.loaded := hnew
            rw [hloads.loaded_eq hnumbered] at hlt
            rw [hloads.number]
            exact congrArg Space.remote (by omega)
        subst hspace
        rw [hinner.extends.document _ htarget, hloads.find?] at hfound
        obtain rfl := Option.some.inj hfound
        exact hinside place (List.mem_map.mpr ⟨_, hmem, rfl⟩)
      · exact hbelow source htarget ⟨found, text, hfound, hmem⟩
    · exact List.mem_cons_of_mem _ (List.mem_append_right _ (hothers source hlater href))
  | breaks => cases hok

/-- At first only the base document is known, which has not been fetched. -/
theorem numbered_start (fetch : Fetch) (base : Uri) (document : Json) :
    Numbered fetch (start base document) where
  pos := Nat.one_pos
  distinct := List.nodup_singleton _
  fetched := fun _ hmem => absurd hmem List.not_mem_nil
  below := by
    intro space content hfound
    cases space with
    | base => trivial
    | remote => cases hfound

end Walks

/-- Combining the documents does not fail for too many of them. -/
theorem combine_ne_tooManyDocuments (base : Uri) (survey : Survey) :
    survey.combine base ≠ .error .tooManyDocuments := by
  intro h
  rcases combine_eq_error h with hredirections | ⟨_, herror⟩ | herror
  · obtain ⟨_, _, herror⟩ := eq_circular_of_redirections hredirections
    cases herror
  · cases herror
  · cases herror

end Survey

/-! ### Inlining -/

/-- If only the documents of some stock can be fetched, however they refer to each other, then
inlining comes to a result, and one for which no limit matters that exceeds the number of these
documents. It follows no reference twice, and if no error stops it then it follows each reference
of the base document and of the documents that were fetched. -/
theorem inline_terminates {fetch : Fetch} {stock : Finset String}
    (hstock : ∀ uri content, fetch uri = .ok content → uri.toText ∈ stock)
    (hfetch : ∀ uri content, fetch uri = .ok content → content.wellFormed) {document : Json}
    (hdocument : document.wellFormed) (baseUri : String) :
    ∃ inlined : Inlined, inlined.result ≠ .error .tooManyDocuments ∧
      (∀ limit, stock.card < limit → inline limit fetch baseUri document = inlined) ∧
      ∀ uri, Uri.parse baseUri = .ok uri → ∃ log outcome survey,
        Survey.Walks fetch .base uri.withoutFragment document.refs
          (Survey.start uri.withoutFragment document) log outcome survey ∧
        (∀ limit, stock.card < limit →
          Survey.run limit fetch uri.withoutFragment document = (outcome, survey)) ∧
        (∀ source, log.count source ≤ 1) ∧ (∀ source ∈ log, survey.HasRef source) ∧
        (outcome = .ok () → ∀ source, survey.HasRef source → log.count source = 1) := by
  cases hparse : Uri.parse baseUri with
  | error error =>
    refine ⟨⟨.error (.invalidUri baseUri error), []⟩, nofun, fun limit _ => ?_, nofun⟩
    unfold inline
    rw [hparse]
  | ok uri =>
    have hnumbered := Survey.numbered_start fetch uri.withoutFragment document
    obtain ⟨log, outcome, survey, hwalks⟩ := Survey.exists_walks hstock _ .base
      uri.withoutFragment document.refs (Survey.start uri.withoutFragment document)
      (Finset.Subset.refl _)
    have hsurvey := hwalks.extends.numbered hnumbered
    have hrun : ∀ limit, stock.card < limit →
        Survey.run limit fetch uri.withoutFragment document = (outcome, survey) := by
      intro limit hlimit
      cases limit with
      | zero => exact absurd hlimit (Nat.not_lt_zero _)
      | succ limit =>
        exact Survey.followAll_of_walks hwalks hnumbered <| Nat.le_add_left_of_le <|
          (hsurvey.loaded_le_card hstock).trans (Nat.le_of_lt_succ hlimit)
    refine ⟨⟨outcome.bind fun _ => survey.combine uri.withoutFragment, survey.requested⟩, ?_,
      fun limit hlimit => inline_eq hparse (hrun limit hlimit), ?_⟩
    · cases outcome with
      | error error =>
        exact fun h => hwalks.ne_tooManyDocuments (congrArg Except.error (Except.error.inj h))
      | ok => exact Survey.combine_ne_tooManyDocuments _ _
    rintro _ ⟨⟩
    have hnodup := hwalks.nodup_log (fun _ _ h => Json.nodup_places_refs (hfetch _ _ h)) hnumbered
      trivial (Json.nodup_places_refs hdocument)
    have hbase : Assoc.find? survey.documents .base = some document :=
      hwalks.extends.document .base trivial
    refine ⟨log, outcome, survey, hwalks, hrun, List.nodup_iff_count_le_one.mp hnodup, ?_, ?_⟩
    · rintro ⟨space, ⟨place⟩⟩ hsource
      rcases hwalks.mem_log hnumbered hsource with ⟨hspace, hplace⟩ | ⟨-, href⟩
      · obtain rfl : space = .base := hspace
        obtain ⟨⟨_, text⟩, hmem, rfl⟩ := List.mem_map.mp hplace
        exact ⟨document, text, hbase, hmem⟩
      · exact href
    · rintro rfl ⟨space, ⟨place⟩⟩ href
      obtain ⟨hown, hothers⟩ := hwalks.complete hnumbered
      refine List.count_eq_one_of_mem hnodup ?_
      cases space with
      | base =>
        obtain ⟨content, text, hfound, hmem⟩ := href
        obtain rfl : document = content := Option.some.inj (hbase.symm.trans hfound)
        exact hown place (List.mem_map.mpr ⟨_, hmem, rfl⟩)
      | remote number => exact hothers _ (Nat.not_lt_zero _) href

/-- Two documents that refer to each other are walked once each. -/
theorem inline_terminates_diamond :
    (∀ uri content, diamondFetch uri = .ok content →
      uri.toText ∈ ({"file:///b", "file:///c"} : Finset String)) ∧
    (∀ uri content, diamondFetch uri = .ok content → content.wellFormed) ∧
    diamondBase.wellFormed ∧
    (∃ inlined : Inlined, inlined.result ≠ .error .tooManyDocuments ∧
      ∀ limit, 2 < limit → inline limit diamondFetch "file:///a" diamondBase = inlined) ∧
    ∃ uri log survey, Uri.parse "file:///a" = .ok uri ∧
      Survey.Walks diamondFetch .base uri.withoutFragment diamondBase.refs
        (Survey.start uri.withoutFragment diamondBase) log (.ok ()) survey ∧
      ∀ source, survey.HasRef source → log.count source = 1 := by
  have hstock : ∀ uri content, diamondFetch uri = .ok content →
      uri.toText ∈ ({"file:///b", "file:///c"} : Finset String) := by
    intro uri content h
    unfold diamondFetch at h
    split_ifs at h with hb hc
    · exact Finset.mem_insert.mpr (.inl hb)
    · exact Finset.mem_insert.mpr (.inr (Finset.mem_singleton.mpr hc))
  have hfetch : ∀ uri content, diamondFetch uri = .ok content → content.wellFormed := by
    intro uri content h
    unfold diamondFetch at h
    split_ifs at h
    all_goals
      obtain rfl := Except.ok.inj h
      decide
  have hbase : diamondBase.wellFormed := by decide
  have hok : ((Uri.parse "file:///a").toOption.map fun uri =>
      (Survey.run 3 diamondFetch uri.withoutFragment diamondBase).1.toOption.isSome) =
        some true := by
    decide +kernel
  have hcard : ({"file:///b", "file:///c"} : Finset String).card = 2 := by decide
  obtain ⟨inlined, hresult, hlimit, hwalk⟩ :=
    inline_terminates hstock hfetch hbase "file:///a"
  rw [hcard] at hlimit hwalk
  refine ⟨hstock, hfetch, hbase, ⟨inlined, hresult, hlimit⟩, ?_⟩
  cases hparse : Uri.parse "file:///a" with
  | error error =>
    rw [hparse] at hok
    cases hok
  | ok uri =>
    obtain ⟨log, outcome, survey, hwalks, hrun, -, -, honce⟩ := hwalk uri hparse
    simp only [hparse, Except.toOption, Option.map_some, hrun 3 (by decide)] at hok
    cases outcome with
    | error error => cases hok
    | ok => exact ⟨uri, log, survey, rfl, hwalks, honce rfl⟩

/-- A document whose first reference leads nowhere. -/
def strandedBase : Json :=
  .obj [("a", .obj [(refKey, .str "#/missing")]), ("b", .obj [(refKey, .str "other.json")])]

/-- A source of the document that its second reference leads to. -/
def strandedFetch : Fetch := fun uri =>
  if uri.toText = "file:///other.json" then .ok (.obj [])
  else .error (.fileNotFound uri.toText)

/-- An error stops the walk, and the references behind it are not followed. -/
theorem not_followed_stranded :
    (∀ uri content, strandedFetch uri = .ok content →
      uri.toText ∈ ({"file:///other.json"} : Finset String)) ∧
    strandedBase.wellFormed ∧ ∃ uri, Uri.parse "file:///base.json" = .ok uri ∧
      (∃ log outcome survey, Survey.Walks strandedFetch .base uri.withoutFragment strandedBase.refs
        (Survey.start uri.withoutFragment strandedBase) log outcome survey) ∧
      ∀ log outcome survey, Survey.Walks strandedFetch .base uri.withoutFragment strandedBase.refs
        (Survey.start uri.withoutFragment strandedBase) log outcome survey →
          survey.HasRef ⟨.base, ⟨["b"]⟩⟩ ∧ log.count ⟨.base, ⟨["b"]⟩⟩ ≠ 1 := by
  have hstock : ∀ uri content, strandedFetch uri = .ok content →
      uri.toText ∈ ({"file:///other.json"} : Finset String) := by
    intro uri content h
    unfold strandedFetch at h
    split_ifs at h with htext
    exact Finset.mem_singleton.mpr htext
  have hrefs : strandedBase.refs = [(["a"], "#/missing"), (["b"], "other.json")] := by decide
  have hstops : ((Uri.parse "file:///base.json").toOption.map fun uri =>
      ((Survey.record strandedFetch uri.withoutFragment ⟨.base, ⟨["a"]⟩⟩ "#/missing").run.run
        (Survey.start uri.withoutFragment strandedBase)).1.toOption.isNone) = some true := by
    decide +kernel
  refine ⟨hstock, by decide, ?_⟩
  cases hparse : Uri.parse "file:///base.json" with
  | error error =>
    rw [hparse] at hstops
    cases hstops
  | ok uri =>
    rcases hrecord : (Survey.record strandedFetch uri.withoutFragment ⟨.base, ⟨["a"]⟩⟩
      "#/missing").run.run (Survey.start uri.withoutFragment strandedBase) with
      ⟨error | found, after⟩
    · have hwalks : Survey.Walks strandedFetch .base uri.withoutFragment strandedBase.refs
          (Survey.start uri.withoutFragment strandedBase) [⟨.base, ⟨["a"]⟩⟩] (.error error) after :=
        hrefs ▸ .stops hrecord
      refine ⟨uri, rfl, ⟨_, _, _, hwalks⟩, fun log outcome survey hother => ?_⟩
      obtain ⟨rfl, -, rfl⟩ := hwalks.unique hother
      have hbase : Assoc.find? after.documents .base = some strandedBase :=
        (Survey.stopsWell_of_record hrecord).2.document .base trivial
      exact ⟨⟨strandedBase, "other.json", hbase, by decide⟩, by decide⟩
    · simp only [hparse, Except.toOption, Option.map_some, hrecord] at hstops
      cases hstops

end SchemaClasses
