import SchemaClasses.Proofs.Flatten.Alphabet
import SchemaClasses.Proofs.Flatten.Outcome

/-!
# When flattening ends

Main statement (`terminates_iff_staysWithin`): flattening a document ends if and only if there is a
length that no place exceeds to which its walk comes. So the only way not to end is to descend
through ever longer places.

If the walk ends, it has come to finitely many places, and one of them is the longest: a property
of all walks up to a depth (`Terminates.exists_staysWithin`). Conversely all places are written over
the finite alphabet of the document (`writes_walkShort`), so there are finitely many of bounded
length, and the ones that are being walked are all different.

The members of a combiner are folded into the schema around it before its properties are walked, so
a member may bring in the combiner that it comes from. Then the walk does not end, although the
document is finite and no place is met twice (`not_terminates_endless`).
-/

namespace SchemaClasses.Flatten

open FlattenM

/-- Whether flattening a document ends: from some depth on no walk goes too deep. -/
def Terminates (document : Json) : Prop :=
  ∃ bound, ∀ depth, bound ≤ depth → flattenWithin depth document ≠ .error .tooDeep

/-- The walk of a document that leaves all places longer than a limit to another walk. -/
def walkShort (document : Json) (limit : Nat) (beyond : Walker) : Nat → Walker
  | 0 => fun _ _ => throw .tooDeep
  | depth + 1 => fun schema path =>
    if path.length ≤ limit then visit document (walkShort document limit beyond depth) schema path
    else beyond schema path

/-- Whether the walk of a document comes to no place longer than a limit, so that it makes no
difference what would be done there. -/
def StaysWithin (document : Json) (limit : Nat) : Prop :=
  ∀ beyond depth, (walkShort document limit beyond depth document .root).run {} =
    (walk document depth document .root).run {}

/-- Flattening ends if and only if the walk of the document does, at some depth. -/
theorem terminates_iff_walk {document : Json} :
    Terminates document ↔
      ∃ depth, (walk document depth document .root).run {} ≠ .error .tooDeep := by
  by_cases hobject : document.isObject
  · unfold Terminates
    simp only [flattenWithin_eq hobject]
    constructor
    · rintro ⟨bound, hbound⟩
      refine ⟨bound, fun hdeep => hbound bound (Nat.le_refl _) ?_⟩
      rw [hdeep]
      rfl
    · rintro ⟨bound, hbound⟩
      refine ⟨bound, fun depth hdepth hdeep => ?_⟩
      rw [walk_of_le hdepth hbound] at hdeep
      cases hrun : (walk document bound document .root).run {} with
      | ok result => rw [hrun] at hdeep; cases hdeep
      | error e => rw [hrun] at hdeep hbound; exact hbound (congrArg _ (Except.error.inj hdeep))
  · refine ⟨fun _ => ⟨1, ?_⟩, fun _ => ⟨0, fun depth _ => ?_⟩⟩
    · have hvisit : Ensures (visit document (walk document 0) document .root) {}
          (fun _ _ => True) (· ≠ .tooDeep) := by
        refine ensures_visit (fun _ => nofun) (fun _ _ => trivial) (fun entries hentries => ?_)
          (fun _ _ _ _ => trivial) fun _ _ => nofun
        rw [hentries] at hobject
        exact absurd rfl hobject
      exact fun hdeep => hvisit.of_eq_error hdeep rfl
    · unfold flattenWithin
      rw [if_neg hobject]
      exact nofun

/-! ### From an end to a limit -/

section Limit

/-- Whether computations up to a limit do what one without limit does, if the limit is high. -/
def EventuallySame {α : Type} (family : Option (Nat × Walker) → FlattenM α) : Prop :=
  ∀ state, ∃ bound, ∀ limit, bound ≤ limit → ∀ beyond,
    (family (some (limit, beyond))).run state = (family none).run state

/-- Doing the same from some limit on is admissible. -/
theorem admissible_eventuallySame : Admissible @EventuallySame where
  const := fun _ _ => ⟨0, fun _ _ _ => rfl⟩
  bind := by
    intro α β x f hx hf state
    obtain ⟨bound, hbound⟩ := hx state
    cases hrun : (x none).run state with
    | error e =>
      refine ⟨bound, fun limit hlimit beyond => ?_⟩
      rw [StateT.run_bind, StateT.run_bind, hbound limit hlimit beyond, hrun]
      rfl
    | ok result =>
      obtain ⟨bound', hbound'⟩ := hf result.1 result.2
      refine ⟨max bound bound', fun limit hlimit beyond => ?_⟩
      rw [StateT.run_bind, StateT.run_bind, hbound limit (le_of_max_le_left hlimit) beyond, hrun]
      exact hbound' limit (le_of_max_le_right hlimit) beyond

/-- A walk down to some depth comes to finitely many places. -/
theorem eventuallySame_walk (document : Json) (depth : Nat) (schema : Json) (path : SchemaPath) :
    EventuallySame fun
      | none => walk document depth schema path
      | some (limit, beyond) => walkShort document limit beyond depth schema path := by
  induction depth generalizing schema path with
  | zero => exact fun _ => ⟨0, fun _ _ _ => rfl⟩
  | succ depth ih =>
    let walks : Option (Nat × Walker) → Walker
      | none => walk document depth
      | some (limit, beyond) => walkShort document limit beyond depth
    have hwalks : ∀ schema path, EventuallySame fun i => walks i schema path := by
      intro schema path state
      obtain ⟨bound, hbound⟩ := ih schema path state
      exact ⟨bound, hbound⟩
    intro state
    obtain ⟨bound, hbound⟩ :=
      admissible_visit admissible_eventuallySame hwalks document schema path state
    refine ⟨max bound path.length, fun limit hlimit beyond => ?_⟩
    change (if path.length ≤ limit then _ else _ : FlattenM Walked).run state = _
    rw [if_pos (le_of_max_le_right hlimit)]
    exact hbound limit (le_of_max_le_left hlimit) beyond

/-- There is one limit for all depths up to some depth. -/
theorem exists_limit (document : Json) (deepest : Nat) :
    ∃ limit, ∀ depth, depth ≤ deepest → ∀ beyond,
      (walkShort document limit beyond depth document .root).run {} =
        (walk document depth document .root).run {} := by
  choose limitOf hlimit using fun depth => eventuallySame_walk document depth document .root {}
  refine ⟨(Finset.range (deepest + 1)).sup limitOf, fun depth hdepth beyond => ?_⟩
  exact hlimit depth _ (Finset.le_sup (Finset.mem_range.mpr (Nat.lt_succ_of_le hdepth))) beyond

/-- One more schema of depth refines a walk that is cut short. -/
theorem refines_walkShort_succ (document : Json) (limit : Nat) (beyond : Walker) (depth : Nat)
    (schema : Json) (path : SchemaPath) :
    Refines (walkShort document limit beyond depth schema path)
      (walkShort document limit beyond (depth + 1) schema path) := by
  induction depth generalizing schema path with
  | zero => exact fun _ => .inl rfl
  | succ depth ih =>
    intro state
    simp only [walkShort]
    by_cases hlength : path.length ≤ limit
    · rw [if_pos hlength, if_pos hlength]
      exact refines_visit ih document schema path state
    · rw [if_neg hlength, if_neg hlength]
      exact .inr rfl

/-- If the walk ends it stays within some limit. -/
theorem Terminates.exists_staysWithin {document : Json} (h : Terminates document) :
    ∃ limit, StaysWithin document limit := by
  obtain ⟨bound, hbound⟩ := terminates_iff_walk.mp h
  obtain ⟨limit, hlimit⟩ := exists_limit document bound
  refine ⟨limit, fun beyond depth => ?_⟩
  rcases Nat.le_total depth bound with hle | hle
  · exact hlimit depth hle beyond
  · have hshort : (walkShort document limit beyond bound document .root).run {} ≠
        .error .tooDeep := by
      rw [hlimit bound (Nat.le_refl _) beyond]
      exact hbound
    rw [run_of_le (refines_walkShort_succ document limit beyond) hle hshort,
      hlimit bound (Nat.le_refl _) beyond, walk_of_le hle hbound]

end Limit

/-! ### From a limit to an end -/

/-- Whether a table lists schemas over an alphabet at places over it. -/
def Tidy (alphabet : List String) (schemas : FlatSchemas) : Prop :=
  ∀ listed ∈ schemas, PathOver alphabet listed.1 ∧ Over alphabet (.obj listed.2)

/-- What a walk over an alphabet ends with. -/
def Written (alphabet : List String) (inProgress : List SchemaPath) (walked : Walked)
    (after : FlattenState) : Prop :=
  after.inProgress = inProgress ∧ Tidy alphabet after.schemas ∧ Over alphabet walked.toJson ∧
    positions walked.toJson = []

/-- Whether a walk ends over an alphabet as long as some places are being walked. -/
def Writes (alphabet : List String) (walk : Walker) (inProgress : List SchemaPath) : Prop :=
  ∀ schema path state, state.inProgress = inProgress → Tidy alphabet state.schemas →
    Over alphabet schema → PathOver alphabet path →
    Ensures (walk schema path) state (Written alphabet inProgress) (· ≠ .tooDeep)

section Steps

variable {alphabet : List String} {document : Json} {walk : Walker}
  {inProgress : List SchemaPath} {path : SchemaPath} {node : Entries} {state : FlattenState}

/-- A place over an alphabet stays over it with more segments from the alphabet. -/
theorem PathOver.append (h : PathOver alphabet path) {segments : List String}
    (hsegments : ∀ segment ∈ segments, segment ∈ alphabet) :
    PathOver alphabet (path ++ segments) := by
  intro segment hsegment
  rcases List.mem_append.mp hsegment with hfront | hback
  · exact h segment hfront
  · exact hsegments segment hback

/-- A tidy table stays tidy with one more schema over the alphabet. -/
theorem Tidy.insert {schemas : FlatSchemas} (h : Tidy alphabet schemas) {entry : Entries}
    (hpath : PathOver alphabet path) (hentry : Over alphabet (.obj entry)) :
    Tidy alphabet (Assoc.insert schemas path entry) := by
  intro listed hlisted
  rcases Assoc.mem_insert hlisted with hold | rfl
  · exact h listed hold
  · exact ⟨hpath, hentry⟩

/-- An object that is left in place. -/
theorem written_inPlace (hprogress : state.inProgress = inProgress)
    (htidy : Tidy alphabet state.schemas) (hnode : Over alphabet (.obj node)) :
    Written alphabet inProgress (.inPlace (.obj node)) state :=
  ⟨hprogress, htidy, hnode, rfl⟩

variable (hdocument : Over alphabet document) (hwalk : Writes alphabet walk inProgress)

include hdocument hwalk in
/-- Following a reference over an alphabet ends over it. -/
theorem written_followRef (hprogress : state.inProgress = inProgress)
    (htidy : Tidy alphabet state.schemas) {text : String} (htext : Over alphabet (.str text)) :
    Ensures (followRef document walk (.unresolved text)) state (Written alphabet inProgress)
      (· ≠ .tooDeep) := by
  refine ensures_followRef (fun _ _ _ => nofun) (fun target entry hpointer hentry => ?_)
    fun target schema hpointer _ hschema => ?_
  · exact hwalk _ target state hprogress htidy (htidy _ (Assoc.mem_of_find? hentry)).2
      (over_str.mp htext target hpointer)
  · exact hwalk schema target state hprogress htidy (hdocument.of_at? hschema)
      (over_str.mp htext target hpointer)

include hwalk in
/-- Walking an array over an alphabet ends over it. -/
theorem written_flattenArray (hprogress : state.inProgress = inProgress)
    (htidy : Tidy alphabet state.schemas) (hnode : Over alphabet (.obj node))
    (hpath : PathOver alphabet path) :
    Ensures (flattenArray walk node path) state (Written alphabet inProgress) (· ≠ .tooDeep) := by
  refine ensures_flattenArray (fun _ => nofun) (fun _ _ => nofun)
    (fun _ _ => written_inPlace hprogress htidy hnode) fun _ items hitems _ => ?_
  obtain ⟨hkey, -, hvalue⟩ := hnode.of_find? hitems
  have hchild : PathOver alphabet (path.child "items") :=
    hpath.append fun segment hsegment => List.mem_singleton.mp hsegment ▸ hkey
  refine (hwalk items _ state hprogress htidy hvalue hchild).mono (fun walked after hwritten => ?_)
    fun _ h => h
  obtain ⟨hprogress', htidy', hwalked, hpositions⟩ := hwritten
  refine written_inPlace hprogress' htidy' (over_insert hnode ⟨hkey, fun _ => ?_, hwalked⟩)
  rw [hpositions]
  exact fun _ h => absurd h List.not_mem_nil

include hwalk in
/-- Flattening a table over an alphabet ends over it. -/
theorem written_flattenEntries (hprogress : state.inProgress = inProgress)
    (htidy : Tidy alphabet state.schemas) {keyword : String} (hkeyword : keyword ∈ alphabet)
    {members : Entries} (hmembers : Over alphabet (.obj members)) (hpath : PathOver alphabet path) :
    Ensures (flattenEntries walk path keyword members) state
      (fun flat after => after.inProgress = inProgress ∧ Tidy alphabet after.schemas ∧
        Over alphabet (.obj flat)) (· ≠ .tooDeep) := by
  induction members generalizing state with
  | nil => exact ensures_pure ⟨hprogress, htidy, hmembers⟩
  | cons member rest ih =>
    obtain ⟨name, value⟩ := member
    have hall := over_obj.mp hmembers
    obtain ⟨hname, -, hvalue⟩ := hall _ List.mem_cons_self
    have hplace : PathOver alphabet (path ++ [keyword, name]) := by
      refine hpath.append fun segment hsegment => ?_
      rcases List.mem_cons.mp hsegment with rfl | hlast
      · exact hkeyword
      · exact List.mem_singleton.mp hlast ▸ hname
    refine ensures_flattenEntries_cons ((hwalk value _ state hprogress htidy hvalue hplace).mono
      (fun walked between hwritten => ?_) fun _ h => h)
    obtain ⟨hprogress', htidy', hwalked, hpositions⟩ := hwritten
    have hrest := over_obj.mpr fun entry h => hall entry (List.mem_cons_of_mem _ h)
    refine (ih hprogress' htidy' hrest).mono (fun flat after hflat => ?_) fun _ h => h
    refine ⟨hflat.1, hflat.2.1, over_obj.mpr fun entry hentry => ?_⟩
    rcases List.mem_cons.mp hentry with rfl | hmem
    · refine ⟨hname, fun _ => ?_, hwalked⟩
      rw [hpositions]
      exact fun _ h => absurd h List.not_mem_nil
    · exact over_obj.mp hflat.2.2 entry hmem

/-- What becomes of a member is over the alphabet, wherever its schema comes from. -/
theorem written_contribution (hdocument : Over alphabet document)
    {memberPath : SchemaPath} {shared : Bool} {walked : Walked}
    (hwritten : Written alphabet inProgress walked state) :
    Ensures (contribution document memberPath shared walked) state
      (fun contributed after => after.inProgress = inProgress ∧ Tidy alphabet after.schemas ∧
        Over alphabet contributed) (· ≠ .tooDeep) := by
  obtain ⟨hprogress, htidy, hwalked, -⟩ := hwritten
  refine ensures_contribution (fun schema hschema => ?_) (fun target htarget _ => ?_)
    (fun _ _ _ => nofun) (fun entry _ _ hentry => ?_) (fun schema _ _ _ hschema => ?_)
    fun _ _ => ?_
  · subst hschema
    exact ⟨hprogress, htidy, hwalked⟩
  · subst htarget
    exact ⟨hprogress, htidy, hwalked⟩
  · exact ⟨hprogress, htidy, (htidy _ (Assoc.mem_of_find? hentry)).2⟩
  · exact ⟨hprogress, htidy, hdocument.of_at? hschema⟩
  · refine ⟨hprogress, fun listed hlisted => htidy listed (Assoc.mem_of_mem_erase hlisted), ?_⟩
    cases hentry : Assoc.find? state.schemas memberPath with
    | none => exact over_null
    | some entry => exact (htidy _ (Assoc.mem_of_find? hentry)).2

include hdocument hwalk in
/-- Folding a member over an alphabet ends over it. -/
theorem written_foldMember (htype : typeKey ∈ alphabet)
    (hprogress : state.inProgress = inProgress) (htidy : Tidy alphabet state.schemas)
    (hnode : Over alphabet (.obj node)) (hpath : PathOver alphabet path) {combiner : String}
    (hcombiner : combiner ∈ alphabet) {index : Nat} (hindex : SchemaPath.ofIndex index ∈ alphabet)
    {member : Json} (hmember : Over alphabet member) :
    Ensures (foldMember document walk path combiner node index member) state
      (fun folded after => after.inProgress = inProgress ∧ Tidy alphabet after.schemas ∧
        Over alphabet (.obj folded)) (· ≠ .tooDeep) := by
  have hplace : PathOver alphabet (path ++ [combiner, SchemaPath.ofIndex index]) := by
    refine hpath.append fun segment hsegment => ?_
    rcases List.mem_cons.mp hsegment with rfl | hlast
    · exact hcombiner
    · exact List.mem_singleton.mp hlast ▸ hindex
  refine ensures_foldMember ((hwalk member _ state hprogress htidy hmember hplace).mono
    (fun walked between hwritten => ?_) fun _ h => h)
  refine (written_contribution hdocument hwritten).mono (fun contributed after h => ?_)
    fun _ h => h
  obtain ⟨hprogress', htidy', hcontributed⟩ := h
  refine ⟨fun source hsource => ⟨fun hagree => ?_, fun _ _ => nofun⟩, fun _ => ?_⟩
  · subst hsource
    exact ⟨hprogress', htidy', over_merge htype hagree hnode hcontributed⟩
  · exact ⟨hprogress', htidy', hnode⟩

include hdocument hwalk in
/-- Walking an object over an alphabet ends over it. -/
theorem written_flattenObject (href : refKey ∈ alphabet) (htype : typeKey ∈ alphabet)
    (hprogress : state.inProgress = inProgress) (htidy : Tidy alphabet state.schemas)
    (hnode : Over alphabet (.obj node)) (hpath : PathOver alphabet path) :
    Ensures (flattenObject document walk node path) state (Written alphabet inProgress)
      (· ≠ .tooDeep) := by
  have hfold : Ensures (combiners.foldlM (foldCombiner document walk path) node) state
      (fun folded after => after.inProgress = inProgress ∧ Tidy alphabet after.schemas ∧
        Over alphabet (.obj folded)) (· ≠ .tooDeep) := by
    refine ensures_foldCombiners (fun combiner hcombiner schema state hschema => ?_)
      ⟨hprogress, htidy, hnode⟩
    obtain ⟨hprogress, htidy, hover⟩ := hschema
    refine ensures_foldCombiner (fun _ => ⟨hprogress, htidy, hover⟩) (fun members hmembers => ?_)
      fun _ _ _ => nofun
    obtain ⟨hkey, hpositions, hvalue⟩ := hover.of_find? hmembers
    refine ensures_foldMembers (fun index member hmember folded between hfolded => ?_)
      ⟨hprogress, htidy, over_obj.mpr fun entry hentry =>
        over_obj.mp hover entry (Assoc.mem_of_mem_swapErase hentry)⟩
    obtain ⟨hprogress', htidy', hover'⟩ := hfolded
    rw [Nat.zero_add]
    obtain ⟨hlength, -⟩ := List.getElem?_eq_some_iff.mp hmember
    have hindex : SchemaPath.ofIndex index ∈ positions (.arr members) :=
      List.mem_map_of_mem (List.mem_range.mpr hlength)
    exact written_foldMember hdocument hwalk htype hprogress' htidy' hover' hpath hkey
      (hpositions hcombiner _ hindex) (over_arr.mp hvalue member (List.mem_of_getElem? hmember))
  refine ensures_flattenObject (hfold.mono (fun folded between h => ?_) fun _ h => h)
  obtain ⟨hprogress', htidy', hfolded⟩ := h
  -- the members of either keyword, put back under it
  have hmembers : ∀ keyword members, Assoc.find? folded keyword = some members →
      Ensures (flattenMembers walk path keyword members) between
        (fun flat after => after.inProgress = inProgress ∧ Tidy alphabet after.schemas ∧
          Over alphabet (.obj (Assoc.insert folded keyword flat))) (· ≠ .tooDeep) := by
    intro keyword members hfind
    obtain ⟨hkey, -, hvalue⟩ := hfolded.of_find? hfind
    refine ensures_flattenMembers (fun _ => nofun) fun entries hentries => ?_
    subst hentries
    refine (written_flattenEntries hwalk hprogress' htidy' hkey hvalue hpath).mono
      (fun flat after hflat => ?_) fun _ h => h
    exact ⟨hflat.1, hflat.2.1, over_insert hfolded
      ⟨hkey, fun _ _ h => absurd h List.not_mem_nil, hflat.2.2⟩⟩
  refine ⟨fun _ => nofun, fun _ _ _ _ => nofun, fun _ => ⟨fun members hproperties _ => ?_,
    fun members _ hpatterns => ?_, fun _ _ => ?_⟩⟩
  · refine (hmembers "properties" members hproperties).mono (fun flat after h => ?_) fun _ h => h
    exact ⟨h.1, h.2.1.insert hpath h.2.2, over_toSchema href hpath, rfl⟩
  · refine (hmembers "patternProperties" members hpatterns).mono (fun flat after h => ?_)
      fun _ h => h
    exact written_inPlace h.1 h.2.1 h.2.2
  · exact written_inPlace hprogress' htidy' hfolded

include hdocument hwalk in
/-- Walking a schema over an alphabet ends over it. -/
theorem written_flattenSchema (href : refKey ∈ alphabet) (htype : typeKey ∈ alphabet)
    (hprogress : state.inProgress = inProgress) (htidy : Tidy alphabet state.schemas)
    (hnode : Over alphabet (.obj node)) (hpath : PathOver alphabet path) :
    Ensures (flattenSchema document walk node path) state (Written alphabet inProgress)
      (· ≠ .tooDeep) := by
  refine ensures_flattenSchema (fun reference hreference => ?_) (fun _ _ => ?_) (fun _ _ => ?_)
    fun _ _ => ?_
  · obtain ⟨text, htext, rfl⟩ := Option.map_eq_some_iff.mp hreference
    obtain ⟨value, hvalue, hstr⟩ := Option.bind_eq_some_iff.mp htext
    cases value with
    | str other =>
      obtain rfl := Option.some.inj hstr
      exact written_followRef hdocument hwalk hprogress htidy (hnode.of_find? hvalue).2.2
    | _ => cases hstr
  · exact written_flattenObject hdocument hwalk href htype hprogress htidy hnode hpath
  · exact written_flattenArray hwalk hprogress htidy hnode hpath
  · exact written_inPlace hprogress htidy hnode

end Steps

/-- A walk that does nothing beyond a limit ends over the alphabet of the document, if it may go
deeper than there are places left. -/
theorem writes_walkShort {alphabet : List String} {document : Json}
    (hdocument : Over alphabet document) (href : refKey ∈ alphabet) (htype : typeKey ∈ alphabet)
    {limit : Nat} {places : Finset SchemaPath}
    (hplaces : ∀ path, path ∈ places ↔ PathOver alphabet path ∧ path.length ≤ limit) {depth : Nat}
    {inProgress : List SchemaPath} (hnodup : inProgress.Nodup)
    (hsubset : ∀ path ∈ inProgress, path ∈ places)
    (hdepth : places.card < depth + inProgress.length) :
    Writes alphabet (walkShort document limit (fun _ _ => pure (.inPlace .null)) depth)
      inProgress := by
  induction depth generalizing inProgress with
  | zero =>
    have hle := Finset.card_le_card fun path hpath => hsubset path (List.mem_toFinset.mp hpath)
    rw [List.toFinset_card_of_nodup hnodup] at hle
    omega
  | succ depth ih =>
    intro schema path state hprogress htidy hschema hpath
    unfold walkShort
    split_ifs with hlength
    · refine ensures_visit (fun _ => nofun) (fun _ _ => ?_) (fun node hobj hnew _ => ?_)
        (fun value hbool _ _ => ?_) fun _ _ => nofun
      · exact ⟨hprogress, htidy, over_toSchema href hpath, rfl⟩
      · subst hobj
        rw [hprogress] at hnew ⊢
        have hwalk := ih (nodup_append_last hnodup hnew) (fun other hother => by
          rcases List.mem_append.mp hother with hold | hlast
          · exact hsubset other hold
          · exact List.mem_singleton.mp hlast ▸ (hplaces path).mpr ⟨hpath, hlength⟩)
          (by rw [List.length_append, List.length_singleton]; omega)
        have hinside := written_flattenSchema hdocument hwalk href htype
          (show ({ state with inProgress := inProgress ++ [path] } : FlattenState).inProgress =
            inProgress ++ [path] from rfl) htidy hschema hpath
        refine hinside.mono (fun walked after hwritten => ?_) fun _ h => h
        obtain ⟨hprogress', htidy', hwalked⟩ := hwritten
        refine ⟨?_, htidy', hwalked⟩
        rw [hprogress', erase_last hnew]
      · subst hbool
        exact ⟨hprogress, htidy, over_bool value, rfl⟩
    · exact ensures_pure ⟨hprogress, htidy, over_null, rfl⟩

/-- Flattening ends if and only if the walk of the document comes to no place longer than some
limit. -/
theorem terminates_iff_staysWithin (document : Json) :
    Terminates document ↔ ∃ limit, StaysWithin document limit := by
  refine ⟨Terminates.exists_staysWithin, ?_⟩
  rintro ⟨limit, hlimit⟩
  obtain ⟨alphabet, hmore, hdocument⟩ := exists_alphabet document [refKey, typeKey]
  have href : refKey ∈ alphabet := hmore List.mem_cons_self
  have htype : typeKey ∈ alphabet := hmore (List.mem_cons_of_mem _ List.mem_cons_self)
  let places := (finite_places alphabet limit).toFinset
  have hplaces : ∀ path, path ∈ places ↔ PathOver alphabet path ∧ path.length ≤ limit :=
    fun path => Set.Finite.mem_toFinset _
  have hwalk : Writes alphabet
      (walkShort document limit (fun _ _ => pure (.inPlace .null)) (places.card + 1)) [] :=
    writes_walkShort hdocument href htype hplaces List.nodup_nil
      (fun _ h => absurd h List.not_mem_nil) (Nat.lt_succ_self _)
  have hroot := hwalk document .root {} rfl (fun _ h => absurd h List.not_mem_nil) hdocument
    fun _ h => absurd h List.not_mem_nil
  refine terminates_iff_walk.mpr ⟨places.card + 1, fun hdeep => ?_⟩
  exact hroot.of_eq_error ((hlimit _ _).trans hdeep) rfl

/-! ### A walk that does not end -/

/-- The place of the definition that the following documents refer to. -/
def bigPlace : SchemaPath := ⟨["definitions", "big"]⟩

/-- A schema that is made of that definition. -/
def recurrent : Entries :=
  [("allOf", .arr [.obj [(refKey, .str "#/definitions/big")]])]

/-- The definition: it has a property that is made of it again. Since it is a text, it is not walked
under its own place. -/
def big : Entries :=
  [(typeKey, .str "string"), ("properties", .obj [("x", .obj recurrent)])]

/-- The definitions of the following documents. -/
def definitions : Entries :=
  [("definitions", .obj [("big", .obj big)])]

/-- A document that is made of the definition. -/
def endless : Json :=
  .obj (recurrent ++ definitions)

/-- The same document with a property that keeps the definition from being walked once more. -/
def halted : Json :=
  .obj (("properties", .obj [("x", .obj [("properties", .obj [
    ("x", .obj [(typeKey, .str "string")])])])]) :: recurrent ++ definitions)

section Endless

variable {depth : Nat} {path : SchemaPath} {state : FlattenState}

/-- The definition stays where it is, unless that is too deep. -/
theorem endless_reference (hschemas : state.schemas = []) (hpath : path ∉ state.inProgress)
    (hbig : bigPlace ∉ state.inProgress) (hne : path ≠ bigPlace) :
    Ensures (walk endless depth (.obj [(refKey, .str "#/definitions/big")]) path) state
      (fun walked after => walked = .inPlace (.obj big) ∧ after = state) (· = .tooDeep) := by
  have hkeys : ∀ place, place ∉ Assoc.keys state.schemas := by
    rw [hschemas]
    exact fun _ => List.not_mem_nil
  cases depth with
  | zero => exact ensures_throw rfl
  | succ depth =>
    refine ensures_visit (fun h => absurd h hpath) (fun _ h => absurd h (hkeys path))
      (fun node hnode _ _ => ?_) (fun _ h => nomatch h) fun h => absurd rfl (h _)
    obtain rfl := Json.obj.inj hnode
    refine ensures_flattenSchema (fun reference hreference => ?_) nofun nofun nofun
    obtain rfl := Option.some.inj hreference
    have hpointer : SchemaPath.ofPointer "#/definitions/big" = .ok bigPlace := rfl
    refine ensures_followRef (fun pointer reason h => ?_) (fun target entry _ hentry => ?_)
      fun target schema htarget _ hschema => ?_
    · have hnames : Names (.unresolved "#/definitions/big") bigPlace := hpointer
      rw [findSchema_of_names _ _ hnames, hschemas] at h
      cases h
    · exact absurd (Assoc.mem_keys_of_find? hentry) (hkeys target)
    · obtain rfl := Except.ok.inj (hpointer.symm.trans htarget)
      obtain rfl := Option.some.inj (hschema.symm.trans (show _ = some (.obj big) from rfl))
      cases depth with
      | zero => exact ensures_throw rfl
      | succ depth =>
        have hnew : bigPlace ∉ state.inProgress ++ [path] := by
          rw [List.mem_append, List.mem_singleton]
          exact fun h => h.elim hbig fun heq => hne heq.symm
        refine ensures_visit (fun h => absurd h hnew) (fun _ h => absurd h (hkeys _))
          (fun node hnode _ _ => ?_) (fun _ h => nomatch h) fun h => absurd rfl (h _)
        obtain rfl := Json.obj.inj hnode
        refine ensures_flattenSchema nofun nofun nofun fun _ _ => ⟨rfl, ?_⟩
        simp only [erase_last hnew, erase_last hpath]

/-- A place that does not lead into the definitions is not that of the definition. -/
theorem ne_bigPlace (h : path.segments.head? ≠ some "definitions") : path ≠ bigPlace := by
  rintro rfl
  exact h rfl

/-- Nor does a place below it that begins elsewhere. -/
theorem head?_below (h : path.segments.head? ≠ some "definitions") {front back : String}
    (hfront : front ≠ "definitions") :
    (path ++ [front, back]).segments.head? ≠ some "definitions" := by
  rw [SchemaPath.segments_append]
  cases hsegments : path.segments with
  | nil => simpa using hfront
  | cons segment rest => simpa [hsegments] using h

/-- Two segments make a place longer by two. -/
theorem length_below (path : SchemaPath) (front back : String) :
    SchemaPath.length (path ++ [front, back]) = path.length + 2 :=
  List.length_append

/-- What is folded into a schema that is made of the definition is the definition. -/
theorem endless_folds {more : Entries} (hmore : more = [] ∨ more = definitions)
    (hschemas : state.schemas = [])
    (hshorter : ∀ p ∈ state.inProgress, p.length < path.length + 2 ∧ p ≠ bigPlace)
    (hhead : path.segments.head? ≠ some "definitions") :
    Ensures (combiners.foldlM (foldCombiner endless (walk endless depth) path) (recurrent ++ more))
      state (fun folded after => folded = more ++ big ∧ after = state) (· = .tooDeep) := by
  have habsent : ∀ keyword, keyword = "oneOf" ∨ keyword = "anyOf" →
      Assoc.find? (recurrent ++ more) keyword = none := by
    rintro keyword (rfl | rfl) <;> rcases hmore with rfl | rfl <;> rfl
  have hall : Assoc.find? (recurrent ++ more) "allOf" =
      some (.arr [.obj [(refKey, .str "#/definitions/big")]]) := rfl
  have hrest : Assoc.swapErase (recurrent ++ more) "allOf" = more := by
    rcases hmore with rfl | rfl <;> rfl
  have hmerge : merge more big path = ⟨more ++ big, none⟩ := by
    rcases hmore with rfl | rfl <;> rfl
  have hwalk : Ensures (walk endless depth (.obj [(refKey, .str "#/definitions/big")])
      (path ++ ["allOf", SchemaPath.ofIndex 0])) state
      (fun walked after => walked = .inPlace (.obj big) ∧ after = state) (· = .tooDeep) := by
    refine endless_reference hschemas (fun h => ?_) (fun h => (hshorter _ h).2 rfl)
      (ne_bigPlace (head?_below hhead (by decide)))
    have hless := (hshorter _ h).1
    rw [length_below] at hless
    exact Nat.lt_irrefl _ hless
  simp only [combiners, List.foldlM_cons, List.foldlM_nil]
  rw [foldCombiner_absent _ _ _ (habsent "oneOf" (.inl rfl)), pure_bind,
    foldCombiner_absent _ _ _ (habsent "anyOf" (.inr rfl)), pure_bind]
  refine ensures_bind (ensures_foldCombiner (fun h => nomatch hall.symm.trans h)
    (fun members hmembers => ?_) fun value hvalue harr => ?_)
  · obtain rfl := Json.arr.inj (Option.some.inj (hall.symm.trans hmembers))
    rw [hrest]
    refine ensures_foldMembers_cons (ensures_foldMember (hwalk.mono
      (fun walked after hend => ?_) fun _ h => h))
    obtain ⟨rfl, rfl⟩ := hend
    refine ensures_contribution (fun schema hschema => ?_) nofun nofun nofun nofun nofun
    obtain rfl := Walked.inPlace.inj hschema
    refine ⟨fun source hsource => ?_, fun h => absurd rfl (h _)⟩
    obtain rfl := Json.obj.inj hsource
    rw [hmerge]
    exact ⟨fun _ => ensures_pure (ensures_pure ⟨rfl, rfl⟩), nofun⟩
  · obtain rfl := Option.some.inj (hall.symm.trans hvalue)
    exact absurd rfl (harr _)

/-- The walk of a schema that is made of the definition goes on below it. -/
theorem endless_descends {more : Entries} (hmore : more = [] ∨ more = definitions)
    (hschemas : state.schemas = [])
    (hshorter : ∀ p ∈ state.inProgress, p.length < path.length ∧ p ≠ bigPlace)
    (hhead : path.segments.head? ≠ some "definitions") :
    Ensures (walk endless depth (.obj (recurrent ++ more)) path) state (fun _ _ => False)
      (· = .tooDeep) := by
  induction depth generalizing more path state with
  | zero => exact ensures_throw rfl
  | succ depth ih =>
    have hpath : path ∉ state.inProgress := fun h => Nat.lt_irrefl _ (hshorter path h).1
    have hkeys : path ∉ Assoc.keys state.schemas := by
      rw [hschemas]
      exact List.not_mem_nil
    have hwalked : ∀ p ∈ state.inProgress ++ [path],
        p.length < path.length + 2 ∧ p ≠ bigPlace := by
      intro p hp
      rcases List.mem_append.mp hp with hold | hlast
      · exact ⟨Nat.lt_add_right 2 (hshorter p hold).1, (hshorter p hold).2⟩
      · obtain rfl := List.mem_singleton.mp hlast
        exact ⟨Nat.lt_add_of_pos_right Nat.two_pos, ne_bigPlace hhead⟩
    refine ensures_visit (fun h => absurd h hpath) (fun _ h => absurd h hkeys)
      (fun node hnode _ _ => ?_) (fun _ h => nomatch h) fun h => absurd rfl (h _)
    obtain rfl := Json.obj.inj hnode
    have hreference : Reference.ofSchema? (recurrent ++ more) = none := by
      rcases hmore with rfl | rfl <;> rfl
    have hshape : Shape.ofSchema (recurrent ++ more) = .object := by
      rcases hmore with rfl | rfl <;> rfl
    refine ensures_flattenSchema (fun _ h => nomatch hreference.symm.trans h) (fun _ _ => ?_)
      (fun _ h => nomatch hshape.symm.trans h) fun _ h => nomatch hshape.symm.trans h
    have hfold : Ensures (combiners.foldlM (foldCombiner endless (walk endless depth) path)
        (recurrent ++ more)) { state with inProgress := state.inProgress ++ [path] }
        (fun folded after => folded = more ++ big ∧
          after = { state with inProgress := state.inProgress ++ [path] }) (· = .tooDeep) :=
      endless_folds hmore hschemas hwalked hhead
    refine ensures_flattenObject (hfold.mono (fun folded after h => ?_) fun _ h => h)
    obtain ⟨rfl, rfl⟩ := h
    have hproperties : Assoc.find? (more ++ big) "properties" =
        some (.obj [("x", .obj recurrent)]) := by
      rcases hmore with rfl | rfl <;> rfl
    have hnone : Assoc.find? (more ++ big) "patternProperties" = none := by
      rcases hmore with rfl | rfl <;> rfl
    have hoff : isOn (more ++ big) "additionalProperties" = false := by
      rcases hmore with rfl | rfl <;> rfl
    refine ⟨fun h => (nomatch hoff.symm.trans h), fun _ _ _ h => (nomatch hnone.symm.trans h),
      fun _ => ⟨fun members hmembers _ => ?_, fun _ h _ => (nomatch hproperties.symm.trans h),
      fun h _ => (nomatch hproperties.symm.trans h)⟩⟩
    obtain rfl := Option.some.inj (hproperties.symm.trans hmembers)
    refine ensures_flattenMembers (fun h => absurd rfl (h _)) fun entries hentries => ?_
    obtain rfl := Json.obj.inj hentries
    -- the property is made of the definition again
    have hagain : Ensures (walk endless depth (.obj recurrent) (path ++ ["properties", "x"]))
        { state with inProgress := state.inProgress ++ [path] } (fun _ _ => False)
        (· = .tooDeep) := by
      refine ih (.inl rfl) hschemas (fun p hp => ?_) (head?_below hhead (by decide))
      rw [length_below]
      exact hwalked p hp
    exact ensures_flattenEntries_cons (hagain.mono (fun _ _ h => h.elim) fun _ h => h)

/-- A finite document may be walked without end. And where the walk ends, it may have gone round a
cycle without noticing: the definition contains itself, and what is listed contains it twice. -/
theorem not_terminates_endless :
    ¬Terminates endless ∧ (flatten halted).toOption.map Assoc.keys =
      some [⟨["properties", "x"]⟩, .root] := by
  refine ⟨fun h => ?_, by decide +kernel⟩
  obtain ⟨depth, hdepth⟩ := terminates_iff_walk.mp h
  have hwalk : Ensures (walk endless depth endless .root) {} (fun _ _ => False) (· = .tooDeep) :=
    endless_descends (.inr rfl) rfl (fun _ h => absurd h List.not_mem_nil) nofun
  cases hrun : (walk endless depth endless .root).run {} with
  | ok result => exact hwalk.of_eq_ok hrun
  | error e => exact hdepth (hrun.trans (congrArg _ (hwalk.of_eq_error hrun)))

end Endless

end SchemaClasses.Flatten
