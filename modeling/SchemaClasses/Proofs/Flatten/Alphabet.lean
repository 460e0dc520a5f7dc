import Mathlib.Data.Set.Finite.List
import SchemaClasses.Flatten.Walk
import SchemaClasses.Proofs.Json.Places
import SchemaClasses.Proofs.Merge

/-!
# Values over an alphabet

Every place that flattening comes to is made of keys of the document, of keywords, of the positions
of combiner members and of the segments of pointers in the document. These are finitely many
segments (`exists_alphabet`), and nothing that is done to a value on the way brings in another one:
merging does not (`over_merge`), and neither does a reference to a place over the same alphabet
(`over_toSchema`). Places of bounded length over an alphabet are finitely many (`finite_places`).
-/

namespace SchemaClasses.Flatten

/-- The segments of the positions of an array. -/
def positions : Json → List String
  | .arr items => (List.range items.length).map SchemaPath.ofIndex
  | _ => []

/-- The segments of the place that a text points to, if it is a pointer. -/
def pointedSegments (text : String) : List String :=
  match SchemaPath.ofPointer text with
  | .ok path => path.segments
  | .error _ => []

/-- The segments that a value adds to places: its keys, the positions under its combiners, and what
it names if it is a pointer. -/
def letters : Json → List String
  | .str text => pointedSegments text
  | .obj entries =>
    Assoc.keys entries ++ entries.flatMap fun entry =>
      if entry.1 ∈ combiners then positions entry.2 else []
  | _ => []

/-- Whether all segments that a value and the values in it add to places belong to an alphabet. -/
def Over (alphabet : List String) (value : Json) : Prop :=
  value.everywhere fun v => (letters v).all fun segment => decide (segment ∈ alphabet)

/-- Whether all segments of a place belong to an alphabet. -/
def PathOver (alphabet : List String) (path : SchemaPath) : Prop :=
  ∀ segment ∈ path.segments, segment ∈ alphabet

/-- Whether an entry belongs to an object over an alphabet. -/
def EntryOver (alphabet : List String) (key : String) (value : Json) : Prop :=
  key ∈ alphabet ∧ (key ∈ combiners → ∀ segment ∈ positions value, segment ∈ alphabet) ∧
    Over alphabet value

variable {alphabet : List String}

/-- A value is over an alphabet if and only if the letters of all values inside it belong to
that. -/
theorem over_iff {value : Json} :
    Over alphabet value ↔
      ∀ place v, Json.StandsAt value place v → ∀ segment ∈ letters v, segment ∈ alphabet := by
  unfold Over
  simp only [Json.everywhere_iff, List.all_eq_true, decide_eq_true_eq]

/-- A value over an alphabet is over any larger one. -/
theorem Over.mono {larger : List String} (hsubset : alphabet ⊆ larger) {value : Json}
    (h : Over alphabet value) : Over larger value :=
  over_iff.mpr fun place v hv segment hsegment =>
    hsubset (over_iff.mp h place v hv segment hsegment)

/-- An array is over an alphabet if and only if its items are. -/
theorem over_arr {items : List Json} :
    Over alphabet (.arr items) ↔ ∀ item ∈ items, Over alphabet item := by
  unfold Over
  rw [Json.everywhere_arr]
  exact and_iff_right rfl

/-- An object is over an alphabet if and only if its entries belong to one that is. -/
theorem over_obj {entries : Entries} :
    Over alphabet (.obj entries) ↔ ∀ entry ∈ entries, EntryOver alphabet entry.1 entry.2 := by
  have hletters : letters (.obj entries) = Assoc.keys entries ++ entries.flatMap fun entry =>
      if entry.1 ∈ combiners then positions entry.2 else [] := rfl
  unfold Over EntryOver
  simp only [Json.everywhere_obj, hletters, List.all_append, Bool.and_eq_true, List.all_eq_true,
    decide_eq_true_eq]
  constructor
  · rintro ⟨⟨hkeys, hpositions⟩, hvalues⟩ entry hentry
    refine ⟨hkeys _ (Assoc.mem_keys_of_mem hentry), fun hcombiner segment hsegment => ?_,
      hvalues entry hentry⟩
    refine hpositions segment (List.mem_flatMap.mpr ⟨entry, hentry, ?_⟩)
    rwa [if_pos hcombiner]
  · intro h
    refine ⟨⟨fun key hkey => ?_, fun segment hsegment => ?_⟩,
      fun entry hentry => (h entry hentry).2.2⟩
    · obtain ⟨entry, hentry, rfl⟩ := List.mem_map.mp hkey
      exact (h entry hentry).1
    · obtain ⟨entry, hentry, hmem⟩ := List.mem_flatMap.mp hsegment
      split_ifs at hmem with hcombiner
      · exact (h entry hentry).2.1 hcombiner segment hmem
      · cases hmem

/-- A text is over an alphabet if and only if the place that it points to is. -/
theorem over_str {text : String} :
    Over alphabet (.str text) ↔
      ∀ path, SchemaPath.ofPointer text = .ok path → PathOver alphabet path := by
  have hletters : Over alphabet (.str text) ↔
      ∀ segment ∈ pointedSegments text, segment ∈ alphabet := by
    simp [Over, Json.everywhere, letters]
  rw [hletters]
  unfold pointedSegments
  cases SchemaPath.ofPointer text with
  | ok path => exact ⟨fun h other hother => Except.ok.inj hother ▸ h, fun h => h path rfl⟩
  | error =>
    constructor
    · intro _ path hpath
      cases hpath
    · exact fun _ _ hsegment => absurd hsegment List.not_mem_nil

/-- Null adds nothing to places. -/
theorem over_null : Over alphabet .null := rfl

/-- A truth value adds nothing to places. -/
theorem over_bool (value : Bool) : Over alphabet (.bool value) := rfl

/-- What is found in an object over an alphabet belongs to it. -/
theorem Over.of_find? {entries : Entries} (h : Over alphabet (.obj entries)) {key : String}
    {value : Json} (hfind : Assoc.find? entries key = some value) : EntryOver alphabet key value :=
  over_obj.mp h _ (Assoc.mem_of_find? hfind)

/-- What stands at a place of a document over an alphabet is over it. -/
theorem Over.of_at? {document value : Json} {path : SchemaPath} (h : Over alphabet document)
    (hat : document.at? path = some value) : Over alphabet value :=
  Json.everywhere_of_descend? hat h

/-- A new value under a keyword that is no combiner. -/
theorem over_insert {entries : Entries} (h : Over alphabet (.obj entries)) {key : String}
    {value : Json} (hentry : EntryOver alphabet key value) :
    Over alphabet (.obj (Assoc.insert entries key value)) := by
  refine over_obj.mpr fun entry hmem => ?_
  rcases Assoc.mem_insert hmem with hold | rfl
  · exact over_obj.mp h entry hold
  · exact hentry

/-- A reference adds the segments of the place that it names. -/
theorem over_toSchema (href : refKey ∈ alphabet) {path : SchemaPath} (h : PathOver alphabet path) :
    Over alphabet (Reference.canonical path).toSchema := by
  refine over_obj.mpr fun entry hentry => ?_
  obtain rfl := List.mem_singleton.mp hentry
  have hcombiner : refKey ∉ combiners := by decide
  refine ⟨href, fun h => absurd h hcombiner, over_str.mpr fun other hother => ?_⟩
  rw [Reference.toPointer, SchemaPath.ofPointer_toPointer] at hother
  exact Except.ok.inj hother ▸ h

/-! ### Merging -/

/-- The alternatives of a type over an alphabet are over it. -/
theorem over_alternatives {value alternative : Json} (h : Over alphabet value)
    (hmem : alternative ∈ Merge.alternatives value) : Over alphabet alternative := by
  cases value with
  | arr items => exact over_arr.mp h _ hmem
  | _ => exact List.mem_singleton.mp hmem ▸ h

/-- Alternatives over an alphabet make a type over it. -/
theorem over_typeOfAlternatives {types : List Json} (h : ∀ type ∈ types, Over alphabet type) :
    Over alphabet (Merge.typeOfAlternatives types) := by
  unfold Merge.typeOfAlternatives
  split
  · exact h _ List.mem_cons_self
  · exact over_arr.mpr h

/-- Inserting a name adds no other one. -/
theorem mem_insertName {name other : String} {names : List String}
    (h : name ∈ Merge.insertName other names) : name = other ∨ name ∈ names := by
  induction names with
  | nil => exact .inl (List.mem_singleton.mp h)
  | cons first rest ih =>
    rw [Merge.insertName] at h
    split_ifs at h
    · exact List.mem_cons.mp h
    · exact .inr h
    · rcases List.mem_cons.mp h with rfl | hmem
      · exact .inr List.mem_cons_self
      · exact (ih hmem).imp id (List.mem_cons_of_mem _)

/-- Each required name stands in the value that lists it. -/
theorem over_requiredNames {value : Json} (h : Over alphabet value) {name : String}
    (hname : name ∈ Merge.requiredNames value) : Over alphabet (.str name) := by
  cases value with
  | str text => exact List.mem_singleton.mp hname ▸ h
  | arr items =>
    obtain ⟨item, hitem, htext⟩ := List.mem_filterMap.mp hname
    cases item with
    | str text => exact Option.some.inj htext ▸ over_arr.mp h _ hitem
    | _ => cases htext
  | _ => cases hname

/-- Uniting required names adds no letters. -/
theorem over_unionRequired {old new : Json} (hold : Over alphabet old) (hnew : Over alphabet new) :
    Over alphabet (Merge.unionRequired old new) := by
  have hnames : ∀ names : List String, (∀ name ∈ names, Over alphabet (.str name)) →
      ∀ name ∈ names.foldr Merge.insertName [], Over alphabet (.str name) := by
    intro names h
    induction names with
    | nil => exact fun name hname => absurd hname List.not_mem_nil
    | cons first rest ih =>
      intro name hname
      rcases mem_insertName hname with rfl | hmem
      · exact h name List.mem_cons_self
      · exact ih (fun other hother => h other (List.mem_cons_of_mem _ hother)) name hmem
  refine over_arr.mpr fun item hitem => ?_
  obtain ⟨name, hname, rfl⟩ := List.mem_map.mp hitem
  refine hnames _ (fun other hother => ?_) name hname
  rcases List.mem_append.mp hother with h | h
  · exact over_requiredNames hold h
  · exact over_requiredNames hnew h

/-- Merging adds no segments but `type`. -/
theorem over_mergeEntries (htype : typeKey ∈ alphabet) (source : Json) :
    ∀ {new : Entries}, source = .obj new → ∀ {keys : Merge.Keys} {path : SchemaPath}
      {target : Entries}, (Merge.mergeEntries keys path target new).conflict = none →
      Over alphabet (.obj target) → Over alphabet source →
      Over alphabet (.obj (Merge.mergeEntries keys path target new).value) := by
  induction source using Json.induction with
  | obj entries ih =>
    rintro new hnew keys path target hagree htarget hsource
    obtain rfl := Json.obj.inj hnew
    refine over_obj.mpr (Merge.forall_mergeEntries (fun key old new hmem _ hagree hold => ?_)
      (fun _ old new hold hnew => ?_) (fun _ values _ hvalues => ?_) hagree (over_obj.mp htarget)
      (over_obj.mp hsource))
    · obtain ⟨hkey, -, hvalue⟩ := hold
      refine ⟨hkey, fun _ segment hsegment => absurd hsegment List.not_mem_nil, ?_⟩
      exact ih _ hmem rfl hagree hvalue (over_obj.mp hsource _ hmem).2.2
    · exact ⟨hold.1, fun hcombiner => absurd hcombiner (by decide),
        over_unionRequired hold.2.2 hnew.2.2⟩
    · refine ⟨htype, fun hcombiner => absurd hcombiner (by decide),
        over_typeOfAlternatives fun type hmem => ?_⟩
      obtain ⟨value, hvalue, halternative⟩ := Merge.mem_collect hmem
      exact over_alternatives ((hvalues value hvalue).elim (·.2.2) (·.2.2)) halternative
  | _ => exact nofun

/-- A merge adds no segments but `type` to those of its sides. -/
theorem over_merge (htype : typeKey ∈ alphabet) {target source : Entries} {path : SchemaPath}
    (hagree : (merge target source path).conflict = none)
    (htarget : Over alphabet (.obj target)) (hsource : Over alphabet (.obj source)) :
    Over alphabet (.obj (merge target source path).value) :=
  over_mergeEntries htype _ rfl hagree htarget hsource

/-! ### Finitely many places -/

/-- Every value has an alphabet, and it may have more letters. -/
theorem exists_alphabet (value : Json) (more : List String) :
    ∃ alphabet, more ⊆ alphabet ∧ Over alphabet value := by
  suffices h : ∃ alphabet, Over alphabet value by
    obtain ⟨alphabet, h⟩ := h
    exact ⟨more ++ alphabet, List.subset_append_left _ _, h.mono (List.subset_append_right _ _)⟩
  induction value using Json.induction with
  | str text => exact ⟨letters (.str text), by simp [Over, Json.everywhere]⟩
  | arr items ih =>
    choose! alphabetOf halphabet using ih
    refine ⟨items.flatMap alphabetOf, over_arr.mpr fun item hitem => ?_⟩
    exact (halphabet item hitem).mono fun segment h => List.mem_flatMap.mpr ⟨item, hitem, h⟩
  | obj entries ih =>
    choose! alphabetOf halphabet using ih
    refine ⟨entries.flatMap fun entry => entry.1 :: positions entry.2 ++ alphabetOf entry,
      over_obj.mpr fun entry hentry => ?_⟩
    have hmem : ∀ segment ∈ entry.1 :: positions entry.2 ++ alphabetOf entry,
        segment ∈ entries.flatMap fun entry => entry.1 :: positions entry.2 ++ alphabetOf entry :=
      fun segment h => List.mem_flatMap.mpr ⟨entry, hentry, h⟩
    refine ⟨hmem _ (by simp), fun _ segment h => hmem _ (by simp [h]), ?_⟩
    exact (halphabet entry hentry).mono fun segment h => hmem _ (by simp [h])
  | _ => exact ⟨[], by simp [Over, Json.everywhere, letters]⟩

/-- There are finitely many places of bounded length over an alphabet. -/
theorem finite_places (alphabet : List String) (limit : Nat) :
    {path : SchemaPath | PathOver alphabet path ∧ path.length ≤ limit}.Finite := by
  have hwords : {word : List {segment // segment ∈ alphabet} | word.length ≤ limit}.Finite :=
    List.finite_length_le _ limit
  refine (hwords.image fun word => (⟨word.map Subtype.val⟩ : SchemaPath)).subset ?_
  rintro ⟨segments⟩ ⟨hover, hlength⟩
  refine ⟨segments.attach.map fun segment => ⟨segment.1, hover _ segment.2⟩, ?_, ?_⟩
  · simpa [SchemaPath.length] using hlength
  · simp

end SchemaClasses.Flatten
