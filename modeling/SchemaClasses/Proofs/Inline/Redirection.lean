import SchemaClasses.Proofs.Inline.Survey

/-!
# Redirecting the references of a corpus

Once a survey maps a corpus, combining its documents succeeds as soon as all chains of references
end: `finalTarget` finds the end of the chain from a location (`reaches_of_finalTarget`), and the
rewritten documents are those of `Corpus.redirect`, in which each reference has the pointer to the
end of its chain (`redirectAll_contents`).
-/

namespace SchemaClasses

namespace Corpus

/-- The corpus with the references replaced for which a table has a text. -/
def redirect (corpus : Corpus) (table : Location → Option String) : Corpus where
  address := corpus.address
  document := corpus.document.redirect fun place => table ⟨.base, ⟨place⟩⟩
  remotes := corpus.remotes.mapIdx fun number remote =>
    (remote.1, remote.2.redirect fun place => table ⟨.remote number, ⟨place⟩⟩)

/-- Whether all documents are well formed. -/
def WellFormed (corpus : Corpus) : Prop :=
  ∀ space uri content, corpus.document? space = some (uri, content) → content.wellFormed

/-- Whether a table has texts only for locations of references. -/
def OnlyRefs (corpus : Corpus) (table : Location → Option String) : Prop :=
  ∀ source pointer, table source = some pointer → ∃ text, corpus.HasRef source text

variable {corpus : Corpus} {table : Location → Option String}

/-- Without remote documents, only the base document has to be well-formed. -/
theorem wellFormed_of_remotes_nil (hremotes : corpus.remotes = [])
    (hdocument : corpus.document.wellFormed) : corpus.WellFormed := by
  intro space uri content hfound
  obtain ⟨-, heq⟩ := corpus.eq_base_of_document? hremotes hfound
  obtain ⟨-, rfl⟩ := Prod.mk.inj heq
  exact hdocument

/-- A redirected corpus has the same documents with their references redirected. -/
theorem document?_redirect (space : Space) :
    (corpus.redirect table).document? space =
      (corpus.document? space).map fun found =>
        (found.1, found.2.redirect fun place => table ⟨space, ⟨place⟩⟩) := by
  cases space with
  | base => rfl
  | remote number => rw [document?, redirect, List.getElem?_mapIdx, document?]

/-- The documents of a redirected corpus have the same URIs. -/
theorem spaces_redirect : (corpus.redirect table).spaces = corpus.spaces := by
  unfold spaces redirect
  rw [List.mapIdx_mapIdx]
  rfl

/-- The contents of a redirected corpus are the redirected contents. -/
theorem contents_redirect :
    (corpus.redirect table).contents =
      corpus.contents.map fun entry =>
        (entry.1, entry.2.redirect fun place => table ⟨entry.1, ⟨place⟩⟩) := by
  unfold contents redirect
  rw [List.mapIdx_mapIdx, List.map_cons]
  refine congrArg (List.cons _) (List.ext_getElem? fun number => ?_)
  rw [List.getElem?_map, List.getElem?_mapIdx, List.getElem?_mapIdx, Option.map_map]
  rfl

/-- The base document comes first, and the remote ones follow by their numbers. -/
theorem keys_contents :
    Assoc.keys corpus.contents =
      Space.base :: (List.range corpus.remotes.length).map Space.remote := by
  unfold contents Assoc.keys
  rw [List.map_cons]
  refine congrArg (List.cons Space.base) (List.ext_getElem? fun number => ?_)
  rw [List.getElem?_map, List.getElem?_mapIdx, List.getElem?_map]
  by_cases h : number < corpus.remotes.length
  · rw [List.getElem?_eq_getElem h, List.getElem?_range h]
    rfl
  · rw [List.getElem?_eq_none (by omega), List.getElem?_eq_none (by simpa using h)]
    rfl

/-- Each document has a number of its own. -/
theorem nodup_keys_contents : (Assoc.keys corpus.contents).Nodup := by
  rw [keys_contents]
  refine List.nodup_cons.mpr ⟨?_, List.nodup_range.map fun _ _ => Space.remote.inj⟩
  rw [List.mem_map]
  rintro ⟨number, -, hne⟩
  cases hne

/-- A location has a reference if its place is among those of the references in its document. -/
theorem hasRef_iff {space : Space} {uri : Uri} {content : Json}
    (hdocument : corpus.document? space = some (uri, content)) {place : List String}
    {text : String} :
    corpus.HasRef ⟨space, ⟨place⟩⟩ text ↔ (place, text) ∈ content.refs := by
  rw [Json.mem_refs]
  constructor
  · rintro ⟨_, _, value, hfound, hvalue, htext⟩
    rw [hdocument] at hfound
    obtain ⟨rfl, rfl⟩ := Prod.mk.inj (Option.some.inj hfound)
    exact ⟨value, hvalue, htext⟩
  · rintro ⟨value, hvalue, htext⟩
    exact ⟨uri, content, value, hdocument, hvalue, htext⟩

/-- A table for the corpus restricts to tables for its documents. -/
theorem OnlyRefs.document? (h : corpus.OnlyRefs table) {space : Space} {uri : Uri}
    {content : Json} (hdocument : corpus.document? space = some (uri, content)) :
    Json.OnlyRefs (fun place => table ⟨space, ⟨place⟩⟩) content := by
  intro place pointer hpointer
  obtain ⟨text, hsource⟩ := h _ _ hpointer
  exact ⟨text, (hasRef_iff hdocument).mp hsource⟩

/-- The references of a redirected corpus are those of the corpus, with the texts of the table. -/
theorem hasRef_redirect (hwf : corpus.WellFormed) (hfit : corpus.OnlyRefs table)
    {source : Location} {pointer : String} :
    (corpus.redirect table).HasRef source pointer ↔
      ∃ text, corpus.HasRef source text ∧ pointer = (table source).getD text := by
  obtain ⟨space, ⟨place⟩⟩ := source
  cases hdocument : corpus.document? space with
  | none =>
    constructor
    · rintro ⟨_, _, _, hfound, -⟩
      rw [document?_redirect, hdocument] at hfound
      cases hfound
    · rintro ⟨_, ⟨_, _, _, hfound, -⟩, -⟩
      rw [hdocument] at hfound
      cases hfound
  | some found =>
    obtain ⟨uri, content⟩ := found
    have hredirect : (corpus.redirect table).document? space =
        some (uri, content.redirect fun place => table ⟨space, ⟨place⟩⟩) := by
      rw [document?_redirect, hdocument]
      rfl
    rw [hasRef_iff hredirect, Json.refs_redirect (hfit.document? hdocument) (hwf _ _ _ hdocument),
      List.mem_map]
    constructor
    · rintro ⟨⟨_, text⟩, hmem, heq⟩
      obtain ⟨rfl, rfl⟩ := Prod.mk.inj heq
      exact ⟨text, (hasRef_iff hdocument).mpr hmem, rfl⟩
    · rintro ⟨text, hsource, rfl⟩
      exact ⟨(place, text), (hasRef_iff hdocument).mp hsource, rfl⟩

/-- Redirecting keeps documents well-formed. -/
theorem wellFormed_redirect (hwf : corpus.WellFormed) : (corpus.redirect table).WellFormed := by
  intro space uri content hdocument
  rw [document?_redirect] at hdocument
  obtain ⟨found, hfound, heq⟩ := Option.map_eq_some_iff.mp hdocument
  obtain ⟨rfl, rfl⟩ := Prod.mk.inj heq
  exact Json.wellFormed_redirect (hwf space _ _ hfound)

end Corpus

namespace Survey

/-! ### The ends of chains -/

variable {edges : List (Location × Location)}

/-- The end of a chain is reached along its edges and has no edge itself. -/
theorem reaches_of_finalFrom {first current last : Location} {steps : Nat}
    {passed : List Location} (h : finalFrom edges first steps passed current = .ok last) :
    Relation.ReflTransGen (fun a b => Assoc.find? edges a = some b) current last ∧
      Assoc.find? edges last = none := by
  induction steps generalizing passed current with
  | zero =>
    unfold finalFrom at h
    split at h
    · rename_i hend
      obtain rfl := Except.ok.inj h
      exact ⟨.refl, hend⟩
    · split_ifs at h
  | succ steps ih =>
    unfold finalFrom at h
    split at h
    · rename_i hend
      obtain rfl := Except.ok.inj h
      exact ⟨.refl, hend⟩
    · rename_i next hnext
      split_ifs at h
      obtain ⟨hreach, hend⟩ := ih h
      exact ⟨.head hnext hreach, hend⟩

/-- The final target is reached along the edges and has none itself. -/
theorem reaches_of_finalTarget {source last : Location} (h : finalTarget edges source = .ok last) :
    ∃ next, Assoc.find? edges source = some next ∧
      Relation.ReflTransGen (fun a b => Assoc.find? edges a = some b) next last ∧
      Assoc.find? edges last = none := by
  unfold finalTarget at h
  split at h
  · cases h
  · rename_i next hnext
    exact ⟨next, hnext, reaches_of_finalFrom h⟩

/-- There is a redirection for each edge, and it goes to the end of the chain. -/
theorem redirections_eq_ok {found : List (Location × String)}
    (h : redirections edges = .ok found) :
    Assoc.keys found = Assoc.keys edges ∧ ∀ source pointer, (source, pointer) ∈ found →
      ∃ last, finalTarget edges source = .ok last ∧ pointer = last.toPointer := by
  unfold redirections at h
  generalize Assoc.keys edges = sources at h
  induction sources generalizing found with
  | nil =>
    rw [List.mapM_nil] at h
    obtain rfl := Except.ok.inj h
    exact ⟨rfl, fun _ _ hmem => absurd hmem List.not_mem_nil⟩
  | cons source rest ih =>
    rw [List.mapM_cons] at h
    cases hlast : finalTarget edges source with
    | error e => rw [hlast] at h; cases h
    | ok last =>
      simp only [hlast, bind, Except.bind, pure, Except.pure] at h
      split at h
      · cases h
      · rename_i others hothers
        obtain rfl := Except.ok.inj h
        obtain ⟨hkeys, hall⟩ := ih hothers
        refine ⟨congrArg (source :: ·) hkeys, fun other pointer hmem => ?_⟩
        rcases List.mem_cons.mp hmem with heq | hrest
        · obtain ⟨rfl, rfl⟩ := Prod.mk.inj heq
          exact ⟨last, hlast, rfl⟩
        · exact hall other pointer hrest

/-- The references cannot be redirected only if some chain does not end. -/
theorem exists_of_redirections_eq_error {error : InlineError}
    (h : redirections edges = .error error) :
    ∃ source ∈ Assoc.keys edges, finalTarget edges source = .error error := by
  unfold redirections at h
  generalize Assoc.keys edges = sources at h
  induction sources with
  | nil => cases h
  | cons source rest ih =>
    rw [List.mapM_cons] at h
    cases hlast : finalTarget edges source with
    | error other =>
      rw [hlast] at h
      obtain rfl : other = error := Except.error.inj h
      exact ⟨source, List.mem_cons_self, hlast⟩
    | ok last =>
      simp only [hlast, bind, Except.bind, pure, Except.pure] at h
      split at h
      · rename_i other hothers
        obtain rfl : other = error := Except.error.inj h
        obtain ⟨source, hsource, hfinal⟩ := ih hothers
        exact ⟨source, List.mem_cons_of_mem _ hsource, hfinal⟩
      · cases h

/-! ### Rewriting the documents -/

variable {corpus : Corpus} {table : Location → Option String}

/-- Redirecting one more reference of a corpus succeeds. -/
theorem redirectOne_contents (hwf : corpus.WellFormed) (hfit : corpus.OnlyRefs table)
    {source : Location} {text : String} (hsource : corpus.HasRef source text) (pointer : String) :
    redirectOne (corpus.redirect table).contents source pointer =
      .ok (corpus.redirect (Function.update table source (some pointer))).contents := by
  obtain ⟨space, ⟨place⟩⟩ := source
  obtain ⟨uri, content, value, hdocument, hvalue, htext⟩ := hsource
  change corpus.document? space = some (uri, content) at hdocument
  have hfind : Assoc.find? (corpus.redirect table).contents space =
      some (content.redirect fun place => table ⟨space, ⟨place⟩⟩) := by
    rw [Corpus.find?_contents, Corpus.document?_redirect, hdocument]
    rfl
  have hmodify := Json.modifyDescend?_redirect hvalue htext (hfit.document? hdocument)
    (hwf _ _ _ hdocument) pointer
  have hkey : space ∈ Assoc.keys (corpus.redirect table).contents := Assoc.mem_keys_of_find? hfind
  unfold redirectOne
  simp only [hfind, Option.bind_some, Json.modifyAt?, hmodify]
  rw [Assoc.insert_of_mem Corpus.nodup_keys_contents hkey, Corpus.contents_redirect,
    Corpus.contents_redirect, List.map_map]
  refine congrArg Except.ok (List.map_congr_left fun entry hentry => ?_)
  obtain ⟨other, old⟩ := entry
  rw [Function.comp_apply]
  by_cases hother : other = space
  · subst hother
    have hfind := (Assoc.find?_eq_some_iff Corpus.nodup_keys_contents).mpr hentry
    rw [Corpus.find?_contents, hdocument] at hfind
    obtain rfl := Option.some.inj hfind
    simp only [if_true]
    refine congrArg (fun target => (other, Json.redirect target content)) ?_
    funext below
    by_cases hplace : below = place
    · subst hplace; simp
    · rw [Function.update_of_ne hplace, Function.update_of_ne]
      exact fun he => hplace (congrArg (fun l : Location => l.path.segments) he)
  · simp only [if_neg hother]
    refine congrArg (fun target => (other, Json.redirect target old)) ?_
    funext below
    rw [Function.update_of_ne]
    exact fun he => hother (congrArg Location.space he)

/-- Redirecting references of a corpus one after the other redirects them all. -/
theorem redirectAll_contents (hwf : corpus.WellFormed) {found : List (Location × String)}
    (hnodup : (Assoc.keys found).Nodup)
    (hsources : ∀ source ∈ Assoc.keys found, ∃ text, corpus.HasRef source text)
    (hfit : corpus.OnlyRefs table) :
    redirectAll (corpus.redirect table).contents found =
      .ok (corpus.redirect fun source =>
        (Assoc.find? found source).or (table source)).contents := by
  induction found generalizing table with
  | nil => rfl
  | cons entry rest ih =>
    obtain ⟨source, pointer⟩ := entry
    obtain ⟨hnew, hrest⟩ := List.nodup_cons.mp hnodup
    obtain ⟨text, hsource⟩ := hsources source List.mem_cons_self
    have hfit' : corpus.OnlyRefs (Function.update table source (some pointer)) := by
      intro other p hp
      by_cases he : other = source
      · subst he; exact ⟨text, hsource⟩
      · rw [Function.update_of_ne he] at hp
        exact hfit other p hp
    rw [redirectAll, redirectOne_contents hwf hfit hsource pointer]
    refine (ih hrest (fun other h => hsources other (List.mem_cons_of_mem _ h)) hfit').trans ?_
    refine congrArg (fun table => Except.ok (corpus.redirect table).contents) ?_
    funext other
    by_cases he : source = other
    · subst he
      rw [Function.update_self, Assoc.find?_eq_none_iff.mpr hnew, Assoc.find?, if_pos rfl]
      rfl
    · rw [Function.update_of_ne fun h => he h.symm, Assoc.find?, if_neg he]

end Survey

end SchemaClasses
