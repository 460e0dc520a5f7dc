import SchemaClasses.Inline.Survey

/-!
# What a survey ends with

`Survey.Ends` says of a computation that starts from some survey what is true of its result and of
the survey that it leaves, and what is true of the error and of the survey if it fails. For each
step of a survey there is a rule that lists its ends (`ends_document`, `ends_load`, `ends_spaceOf`,
`ends_record`), so what the steps do is said here once, and what is known of surveys is proved from
these rules.

Following a reference is to record it and, if its target document had to be fetched, to search that
(`follow_eq`). So whatever is kept when a reference is recorded is kept by a whole search
(`ends_search`).
-/

namespace SchemaClasses.Survey

/-! ### Computations -/

/-- Whether what a computation ends with has a property, depending on whether it succeeds. -/
def Ends {α : Type} (x : SurveyM α) (survey : Survey) (fit : α → Survey → Prop)
    (fail : InlineError → Survey → Prop) : Prop :=
  match x.run.run survey with
  | (.ok a, after) => fit a after
  | (.error error, after) => fail error after

section Ends

variable {α β : Type} {survey : Survey} {fit : α → Survey → Prop}
  {fail : InlineError → Survey → Prop}

/-- A result that fits may be returned. -/
theorem ends_pure {a : α} (h : fit a survey) : Ends (pure a) survey fit fail := h

/-- An error that is allowed for may be thrown. -/
theorem ends_throw {error : InlineError} (h : fail error survey) :
    Ends (throw error) survey fit fail := h

/-- Of two computations in sequence, the second has to end well wherever the first may end. -/
theorem ends_bind {x : SurveyM α} {f : α → SurveyM β} {fit : β → Survey → Prop}
    (h : Ends x survey (fun a after => Ends (f a) after fit fail) fail) :
    Ends (x >>= f) survey fit fail := by
  unfold Ends at h ⊢
  rw [ExceptT.run_bind, StateT.run_bind]
  rcases hx : x.run.run survey with ⟨error | a, after⟩
  · rw [hx] at h
    exact h
  · rw [hx] at h
    exact h

/-- What a computation ends with has each weaker property as well. -/
theorem Ends.mono {x : SurveyM α} {fit' : α → Survey → Prop}
    {fail' : InlineError → Survey → Prop} (h : Ends x survey fit fail)
    (hfit : ∀ a after, fit a after → fit' a after)
    (hfail : ∀ error after, fail error after → fail' error after) : Ends x survey fit' fail' := by
  unfold Ends at h ⊢
  rcases hx : x.run.run survey with ⟨error | a, after⟩
  · rw [hx] at h
    exact hfail error after h
  · rw [hx] at h
    exact hfit a after h

/-- The result of a computation that succeeds fits. -/
theorem Ends.of_eq_ok {x : SurveyM α} {a : α} {after : Survey} (h : Ends x survey fit fail)
    (hrun : x.run.run survey = (.ok a, after)) : fit a after := by
  unfold Ends at h
  rwa [hrun] at h

/-- The error of a computation that fails is one that is allowed for. -/
theorem Ends.of_eq_error {x : SurveyM α} {error : InlineError} {after : Survey}
    (h : Ends x survey fit fail) (hrun : x.run.run survey = (.error error, after)) :
    fail error after := by
  unfold Ends at h
  rwa [hrun] at h

/-- What holds at either end of a computation holds of the survey that it leaves. -/
theorem Ends.at_end {x : SurveyM α} {goal : Survey → Prop} (h : Ends x survey fit fail)
    (hfit : ∀ a after, fit a after → goal after)
    (hfail : ∀ error after, fail error after → goal after) : goal (x.run.run survey).2 := by
  rcases hx : x.run.run survey with ⟨error | a, after⟩
  · exact hfail error after (h.of_eq_error hx)
  · exact hfit a after (h.of_eq_ok hx)

/-- After reading the survey, the rest goes on with it. -/
theorem ends_get_bind {f : Survey → SurveyM β} {fit : β → Survey → Prop} :
    Ends (get >>= f) survey fit fail ↔ Ends (f survey) survey fit fail :=
  Iff.rfl

/-- After changing the survey, the rest goes on with the changed one. -/
theorem ends_modify_bind {g : Survey → Survey} {f : Unit → SurveyM β} {fit : β → Survey → Prop} :
    Ends (modify g >>= f) survey fit fail ↔ Ends (f ()) (g survey) fit fail :=
  Iff.rfl

end Ends

/-! ### Documents -/

/-- The number of the document that is fetched next. -/
def next (survey : Survey) : Space :=
  .remote (survey.spaces.length - 1)

/-- The survey after a document was asked for. -/
def withRequest (survey : Survey) (uri : Uri) : Survey :=
  { survey with requested := survey.requested ++ [uri] }

/-- The survey after a document was asked for and fetched. -/
def withDocument (survey : Survey) (uri : Uri) (content : Json) : Survey :=
  { survey with
    spaces := Assoc.insert survey.spaces uri.toText survey.next
    documents := Assoc.insert survey.documents survey.next content
    requested := survey.requested ++ [uri] }

/-- The survey after the target of a reference was recorded. -/
def withEdge (survey : Survey) (source target : Location) : Survey :=
  { survey with edges := Assoc.insert survey.edges source target }

section Steps

variable {fetch : Fetch} {survey : Survey} {fail : InlineError → Survey → Prop} {uri : Uri}

/-- Reading a document gives its content, or fails for a location that is lost. -/
theorem ends_document {space : Space} {fit : Json → Survey → Prop}
    (hlost : Assoc.find? survey.documents space = none →
      fail (.lostLocation ⟨space, .root⟩) survey)
    (hfound : ∀ content, Assoc.find? survey.documents space = some content →
      fit content survey) : Ends (document space) survey fit fail := by
  unfold document
  rw [ends_get_bind]
  cases hfind : Assoc.find? survey.documents space with
  | none => exact ends_throw (hlost hfind)
  | some content => exact ends_pure (hfound content hfind)

/-- A document is asked for unless the base document is lost or uses the reserved key. -/
theorem ends_load {fit : Space → Survey → Prop}
    (hlost : Assoc.find? survey.documents .base = none →
      fail (.lostLocation ⟨.base, .root⟩) survey)
    (hreserved : fail .reservedKey survey)
    (hasked : ∀ base, Assoc.find? survey.documents .base = some base →
      base.get? remoteKey = none →
        (∀ error, fetch uri = .error error → fail (.fetch uri error) (survey.withRequest uri)) ∧
        ∀ content, fetch uri = .ok content →
          (content.isObject = false → fail (.notAnObject uri) (survey.withRequest uri)) ∧
          (content.isObject → fit survey.next (survey.withDocument uri content))) :
    Ends (load fetch uri) survey fit fail := by
  unfold load
  refine ends_bind (ends_document hlost fun base hbase => ?_)
  cases hkey : base.get? remoteKey with
  | some value => exact ends_bind (ends_throw hreserved)
  | none =>
    obtain ⟨herror, hcontent⟩ := hasked base hbase hkey
    simp only [Option.isSome_none, Bool.false_eq_true, if_false]
    apply ends_get_bind.mpr
    apply ends_modify_bind.mpr
    cases hfetch : fetch uri with
    | error error => exact ends_throw (herror error hfetch)
    | ok content =>
      obtain ⟨hother, hobject⟩ := hcontent content hfetch
      cases hshape : content.isObject with
      | false =>
        simp only [hshape, Bool.not_false, if_true]
        exact ends_bind (ends_throw (hother hshape))
      | true =>
        simp only [hshape, Bool.not_true, Bool.false_eq_true, if_false]
        apply ends_modify_bind.mpr
        exact ends_pure (hobject hshape)

/-- A document that is known by its URI is found, and any other is loaded. -/
theorem ends_spaceOf {fit : Space × Bool → Survey → Prop}
    (hknown : ∀ space, Assoc.find? survey.spaces uri.toText = some space →
      fit (space, false) survey)
    (hnew : Assoc.find? survey.spaces uri.toText = none →
      Ends (load fetch uri) survey (fun space after => fit (space, true) after) fail) :
    Ends (spaceOf fetch uri) survey fit fail := by
  unfold spaceOf
  apply ends_get_bind.mpr
  cases hfind : Assoc.find? survey.spaces uri.toText with
  | some space => exact ends_pure (hknown space hfind)
  | none => exact ends_bind ((hnew hfind).mono (fun _ _ h => ends_pure h) fun _ _ h => h)

/-! ### References -/

/-- What is done with one reference before its target document is searched. What is left is to
search that document if it had to be fetched. -/
def record (fetch : Fetch) (scope : Uri) (source : Location) (reference : String) :
    SurveyM (Option (Space × Uri × Json)) := do
  match scope.join reference with
  | .error error => throw (.invalidUri reference error)
  | .ok uri =>
    match Pointer.decode "" (uri.fragment.getD "") with
    | .error error => throw (.invalidRef uri (.malformed error))
    | .ok segments =>
      let documentUri := uri.withoutFragment
      let (space, fetched) ← spaceOf fetch documentUri
      let target : Location := ⟨space, ⟨segments⟩⟩
      let content ← document space
      if (content.at? target.path).isNone then throw (.invalidRef uri (.nothingAt target.path))
      modify fun survey => { survey with edges := Assoc.insert survey.edges source target }
      return if fetched then some (space, documentUri, content) else none

/-- Following a reference records it and searches its document if that had to be fetched. -/
theorem follow_eq {search : Space → Uri → Json → SurveyM Unit} (scope : Uri) (source : Location)
    (reference : String) :
    follow fetch search scope source reference =
      record fetch scope source reference >>= fun found =>
        match found with
        | none => pure ()
        | some (space, uri, content) => search space uri content := by
  unfold follow record
  cases scope.join reference with
  | error error => rfl
  | ok uri =>
    dsimp only
    cases Pointer.decode "" (uri.fragment.getD "") with
    | error error => rfl
    | ok segments =>
      dsimp only
      rw [bind_assoc]
      refine bind_congr fun ⟨space, fetched⟩ => ?_
      dsimp only
      rw [bind_assoc]
      refine bind_congr fun content => ?_
      split
      · rfl
      · simp only [bind_assoc, pure_bind]
        refine bind_congr fun _ => ?_
        cases fetched <;> rfl

/-- A reference is recorded if it names a place in some document and there is a value. -/
theorem ends_record {scope : Uri} {source : Location} {reference : String}
    {fit : Option (Space × Uri × Json) → Survey → Prop}
    (hjoin : ∀ error, scope.join reference = .error error →
      fail (.invalidUri reference error) survey)
    (hdecode : ∀ uri error, scope.join reference = .ok uri →
      Pointer.decode "" (uri.fragment.getD "") = .error error →
      fail (.invalidRef uri (.malformed error)) survey)
    (htarget : ∀ uri segments, scope.join reference = .ok uri →
      Pointer.decode "" (uri.fragment.getD "") = .ok segments →
      Ends (spaceOf fetch uri.withoutFragment) survey (fun found between =>
        (Assoc.find? between.documents found.1 = none →
          fail (.lostLocation ⟨found.1, .root⟩) between) ∧
        ∀ content, Assoc.find? between.documents found.1 = some content →
          (content.at? ⟨segments⟩ = none →
            fail (.invalidRef uri (.nothingAt ⟨segments⟩)) between) ∧
          ((content.at? ⟨segments⟩).isSome →
            (found.2 = false → fit none (between.withEdge source ⟨found.1, ⟨segments⟩⟩)) ∧
            (found.2 = true → fit (some (found.1, uri.withoutFragment, content))
              (between.withEdge source ⟨found.1, ⟨segments⟩⟩)))) fail) :
    Ends (record fetch scope source reference) survey fit fail := by
  unfold record
  cases hjoined : scope.join reference with
  | error error => exact ends_throw (hjoin error hjoined)
  | ok uri =>
    dsimp only
    cases hdecoded : Pointer.decode "" (uri.fragment.getD "") with
    | error error => exact ends_throw (hdecode uri error hjoined hdecoded)
    | ok segments =>
      refine ends_bind ((htarget uri segments hjoined hdecoded).mono (fun found between h => ?_)
        fun _ _ h => h)
      obtain ⟨space, fetched⟩ := found
      obtain ⟨hlost, hfound⟩ := h
      refine ends_bind (ends_document hlost fun content hcontent => ?_)
      obtain ⟨hnothing, hvalue⟩ := hfound content hcontent
      cases hat : content.at? ⟨segments⟩ with
      | none =>
        simp only [Option.isNone_none, if_true]
        exact ends_bind (ends_throw (hnothing hat))
      | some value =>
        simp only [Option.isNone_some, Bool.false_eq_true, if_false]
        apply ends_modify_bind.mpr
        obtain ⟨hold, hnew⟩ := hvalue (by rw [hat]; rfl)
        cases fetched with
        | false => exact ends_pure (hold rfl)
        | true => exact ends_pure (hnew rfl)

/-- A reference is followed by recording it and searching its target document if that was
fetched. -/
theorem ends_follow {search : Space → Uri → Json → SurveyM Unit} {scope : Uri} {source : Location}
    {reference : String} {fit : Unit → Survey → Prop}
    (h : Ends (record fetch scope source reference) survey (fun found between => match found with
      | none => fit () between
      | some (space, uri, content) => Ends (search space uri content) between fit fail) fail) :
    Ends (follow fetch search scope source reference) survey fit fail := by
  rw [follow_eq]
  refine ends_bind (h.mono (fun found between hfound => ?_) fun _ _ h => h)
  cases found with
  | none => exact ends_pure hfound
  | some found => exact hfound

end Steps

/-! ### Searches -/

section Searches

variable {fetch : Fetch} {good : Survey → Prop} {fail : InlineError → Survey → Prop}
  (hrecord : ∀ scope source reference survey, good survey →
    Ends (record fetch scope source reference) survey (fun _ => good) fail)

include hrecord

/-- What recording a reference keeps is kept by following one reference after another, if searching
their targets keeps it. -/
theorem ends_followAll {search : Space → Uri → Json → SurveyM Unit}
    (hsearch : ∀ space scope content survey, good survey →
      Ends (search space scope content) survey (fun _ => good) fail)
    (space : Space) (scope : Uri) (refs : List (List String × String)) {survey : Survey}
    (h : good survey) :
    Ends (followAll fetch search space scope refs) survey (fun _ => good) fail := by
  induction refs generalizing survey with
  | nil => exact ends_pure h
  | cons ref rest ih =>
    refine ends_bind (ends_follow ((hrecord scope _ ref.2 survey h).mono
      (fun found between hbetween => ?_) fun _ _ h => h))
    cases found with
    | none => exact ih hbetween
    | some found =>
      exact (hsearch found.1 found.2.1 found.2.2 between hbetween).mono
        (fun _ _ hafter => ih hafter) fun _ _ h => h

/-- What recording a reference keeps is kept by a whole search, down to any limit. -/
theorem ends_search (hmany : ∀ survey, good survey → fail .tooManyDocuments survey) (limit : Nat)
    (space : Space) (scope : Uri) (content : Json) {survey : Survey} (h : good survey) :
    Ends (search fetch limit space scope content) survey (fun _ => good) fail := by
  induction limit generalizing space scope content survey with
  | zero => exact ends_throw (hmany survey h)
  | succ limit ih =>
    exact ends_followAll hrecord (fun space scope content _ h => ih space scope content h) space
      scope content.refs h

end Searches

end SchemaClasses.Survey
