import SchemaClasses.Proofs.Coupling.Basic

/-!
# Documents that differ in one schema

Two documents are made of one by changing a schema of it in two ways. If the two versions of the
schema are coupled, then the same path leads to coupled schemas in both documents, or to nothing
that can be walked in either (`coupledDocuments_of_modify`). The changed schema has to stand where
schemas do: `isSchemaPlace` leaves out names in tables, and what stands in types and in keywords
whose values are compared.
-/

namespace SchemaClasses

open Merge (Keys)
open Json

/-! ### Values that are coupled with themselves -/

/-- Whether the heads of all objects in a value are related to themselves, and nothing but `type`
and `$ref` is set apart in them. -/
def SelfCoupled (coupling : Coupling) (value : Json) : Prop :=
  ∀ place entries, StandsAt value place (.obj entries) → (Assoc.keys entries).Nodup ∧
    coupling.heads entries entries ∧
    ∀ key ∈ Assoc.keys entries, key ∈ coupling.apart → key = typeKey ∨ key = refKey

section SelfCoupled

variable {coupling : Coupling} {keys : Keys} {value v : Json} {entries : Entries}

/-- What stands inside a self-coupled value is self-coupled. -/
theorem SelfCoupled.of_standsAt (h : SelfCoupled coupling value) {place : List String}
    (hv : StandsAt value place v) : SelfCoupled coupling v :=
  fun _ entries hentries => h _ entries (hv.trans hentries)

/-- What a path leads to in a self-coupled value is self-coupled. -/
theorem SelfCoupled.of_descend? (h : SelfCoupled coupling value) {path : List String}
    (hv : value.descend? path = some v) : SelfCoupled coupling v := by
  obtain ⟨place, hplace⟩ := exists_standsAt_of_descend? hv
  exact h.of_standsAt hplace

/-- What is found under a key of a self-coupled object is self-coupled. -/
theorem SelfCoupled.of_find? (h : SelfCoupled coupling (.obj entries)) {key : String}
    (hv : Assoc.find? entries key = some v) : SelfCoupled coupling v :=
  h.of_standsAt (.entry (Assoc.mem_of_find? hv) (.here v))

/-- A self-coupled value is coupled with itself, whether it is read as a schema or as a table. -/
theorem SelfCoupled.coupled (h : SelfCoupled coupling value) :
    Coupled coupling keys value value := by
  induction value using Json.induction generalizing keys with
  | arr items ih =>
    refine .arr rfl fun index item other hitem hother => ?_
    obtain rfl := Option.some.inj (hitem.symm.trans hother)
    exact ih item (List.mem_of_getElem? hitem) (h.of_standsAt (.item hitem (.here item)))
  | obj entries ih =>
    obtain ⟨hnodup, hheads, -⟩ := h [] entries (.here _)
    have hentries : ∀ {keys : Keys} {key : String} {v w : Json}, Assoc.find? entries key = some v →
        Assoc.find? entries key = some w → Coupled coupling keys v w := by
      intro keys key v w hv hw
      obtain rfl := Option.some.inj (hv.symm.trans hw)
      exact ih _ (Assoc.mem_of_find? hv) (h.of_find? hv)
    cases keys with
    | names => exact .table hnodup rfl fun _ _ _ hv hw => hentries hv hw
    | keywords =>
      exact .schema hnodup hnodup hheads (fun _ _ => rfl) (fun _ _ => rfl) (fun _ _ => Iff.rfl)
        fun _ _ _ _ hv hw => hentries hv hw
  | null => exact .atom rfl
  | bool => exact .atom rfl
  | num => exact .atom rfl
  | str => exact .atom rfl

end SelfCoupled

/-! ### Following a path -/

namespace Json

/-- Whether a value is a schema that can be walked. -/
def isWalkable : Json → Bool
  | obj _ => true
  | bool _ => true
  | _ => false

/-- Whether no path leads to a schema that can be walked. -/
def Barren (value : Json) : Prop :=
  ∀ path v, value.descend? path = some v → v.isWalkable = false

/-- A value without members or items is barren unless it is a schema itself. -/
theorem barren_of_isAtom {value : Json} (hatom : value.isAtom) (hother : value.isWalkable = false) :
    Barren value := by
  intro path v hv
  cases path with
  | nil => exact Option.some.inj hv ▸ hother
  | cons segment rest =>
    obtain ⟨next, hstep, -⟩ := Option.bind_eq_some_iff.mp hv
    cases value with
    | arr => cases hatom
    | obj => cases hatom
    | _ => cases hstep

/-- A list of texts is barren. -/
theorem barren_texts (texts : List String) : Barren (.arr (texts.map .str)) := by
  intro path v hv
  cases path with
  | nil => exact Option.some.inj hv ▸ rfl
  | cons segment rest =>
    obtain ⟨next, hstep, hrest⟩ := Option.bind_eq_some_iff.mp hv
    obtain ⟨index, -, hitem⟩ := Option.bind_eq_some_iff.mp hstep
    obtain ⟨text, -, rfl⟩ := List.mem_map.mp (List.mem_of_getElem? hitem)
    exact barren_of_isAtom rfl rfl rest v hrest

end Json

/-- Whether a path leads to coupled schemas in two values, as far as it leads to schemas, or to
nothing that can be walked in either. -/
def CoupledAlong (coupling : Coupling) (keys : Keys) (path : List String) (value other : Json) :
    Prop :=
  (∃ v w, value.descend? path = some v ∧ other.descend? path = some w ∧
    (path.foldl Keys.below keys = .keywords → Coupled coupling .keywords v w)) ∨
  (∀ v, value.descend? path = some v → v.isWalkable = false) ∧
    ∀ w, other.descend? path = some w → w.isWalkable = false

/-- Whether coupled schemas stand at the same places of two documents. -/
def CoupledDocuments (coupling : Coupling) (document document' : Json) : Prop :=
  ∀ path : SchemaPath, CoupledAlong coupling .keywords path.segments document document'

section Along

variable {coupling : Coupling} {keys : Keys} {path rest : List String} {segment : String}
  {value other next next' : Json}

/-- Every path leads to the same in a value and itself. -/
theorem SelfCoupled.along (h : SelfCoupled coupling value) :
    CoupledAlong coupling keys path value value := by
  cases hv : value.descend? path with
  | none =>
    refine .inr ⟨fun v hv' => ?_, fun v hv' => ?_⟩ <;> cases hv.symm.trans hv'
  | some v => exact .inl ⟨v, v, hv, hv, fun _ => (h.of_descend? hv).coupled⟩

/-- A path leads to coupled values if its rest does so one segment below. -/
theorem coupledAlong_cons (hstep : value.step? segment = some next)
    (hstep' : other.step? segment = some next')
    (h : CoupledAlong coupling (keys.below segment) rest next next') :
    CoupledAlong coupling keys (segment :: rest) value other := by
  unfold CoupledAlong at h ⊢
  rw [descend?, descend?, hstep, hstep', Option.bind_some, Option.bind_some]
  exact h

/-- Where nothing lies one segment below, no path leads on. -/
theorem coupledAlong_of_step? (hnone : value.step? segment = none)
    (hnone' : other.step? segment = none) :
    CoupledAlong coupling keys (segment :: rest) value other := by
  unfold CoupledAlong
  rw [descend?, descend?, hnone, hnone', Option.bind_none]
  refine .inr ⟨fun v hv => ?_, fun v hv => ?_⟩ <;> cases hv

/-- Nothing can be walked below what is barren. -/
theorem coupledAlong_of_barren (h : ∀ v, value.step? segment = some v → Barren v)
    (h' : ∀ v, other.step? segment = some v → Barren v) :
    CoupledAlong coupling keys (segment :: rest) value other := by
  refine .inr ⟨fun v hv => ?_, fun v hv => ?_⟩
  · obtain ⟨next, hstep, hrest⟩ := Option.bind_eq_some_iff.mp hv
    exact h next hstep rest v hrest
  · obtain ⟨next, hstep, hrest⟩ := Option.bind_eq_some_iff.mp hv
    exact h' next hstep rest v hrest

/-- Where both values have the same below, it is coupled with itself. -/
theorem coupledAlong_of_same (hsame : value.step? segment = other.step? segment)
    (hself : ∀ v, value.step? segment = some v → SelfCoupled coupling v) :
    CoupledAlong coupling keys (segment :: rest) value other := by
  cases hstep : value.step? segment with
  | none => exact coupledAlong_of_step? hstep (hsame ▸ hstep)
  | some v => exact coupledAlong_cons hstep (hsame ▸ hstep) (hself v hstep).along

end Along

/-! ### Changing a schema -/

/-- Whether a place in a value is one of a schema and does not lead through types or through
keywords whose values are compared. -/
def isSchemaPlace : Keys → List String → Bool
  | keys, [] => keys = .keywords
  | .names, _ :: rest => isSchemaPlace .keywords rest
  | .keywords, segment :: rest =>
    segment ∉ typeKey :: refKey :: comparedKeywords && isSchemaPlace (.under segment) rest

/-- Below a schema place is another one, and of a schema its first segment is none of the keywords
left out. -/
theorem isSchemaPlace_cons {keys : Keys} {segment : String} {rest : List String}
    (h : isSchemaPlace keys (segment :: rest)) :
    isSchemaPlace (keys.below segment) rest ∧
      (keys = .keywords → segment ∉ typeKey :: refKey :: comparedKeywords) := by
  cases keys with
  | names => exact ⟨h, fun hkeys => by cases hkeys⟩
  | keywords =>
    rw [isSchemaPlace, Bool.and_eq_true, decide_eq_true_iff] at h
    exact ⟨h.2, fun _ => h.1⟩

/-- Whether two versions of a value are coupled along every path. -/
structure CoupledVersions (coupling : Coupling) (keys : Keys) (value other : Json) : Prop where
  /-- The versions themselves are coupled. -/
  coupled : Coupled coupling keys value other
  /-- Every path leads to coupled schemas. -/
  along : ∀ path, CoupledAlong coupling keys path value other

section Versions

variable {coupling : Coupling} {keys : Keys} {left right : Json}

/-- Two versions of an entry make two versions of an object. -/
theorem CoupledVersions.insert {entries : Entries} {segment : String}
    (hlawful : coupling.Lawful) (hself : SelfCoupled coupling (.obj entries))
    (hmem : segment ∈ Assoc.keys entries)
    (hplace : keys = .keywords → segment ∉ typeKey :: refKey :: comparedKeywords)
    (hswitch : segment ∈ switches → left.isTruthy = right.isTruthy)
    (h : CoupledVersions coupling (keys.below segment) left right) :
    CoupledVersions coupling keys (.obj (Assoc.insert entries segment left))
      (.obj (Assoc.insert entries segment right)) := by
  obtain ⟨hnodup, -, hplain⟩ := hself [] entries (.here _)
  have hcoupled : Coupled coupling keys (.obj (Assoc.insert entries segment left))
      (.obj (Assoc.insert entries segment right)) := by
    cases keys with
    | names =>
      refine .table (Assoc.nodup_keys_insert hnodup _ _) ?_ fun name v w hv hw => ?_
      · rw [Assoc.keys_insert, Assoc.keys_insert]
      · by_cases hname : segment = name
        · subst hname
          rw [Assoc.find?_insert_self] at hv hw
          exact Option.some.inj hv ▸ Option.some.inj hw ▸ h.coupled
        · rw [Assoc.find?_insert_of_ne _ _ hname] at hv hw
          obtain rfl := Option.some.inj (hv.symm.trans hw)
          exact (hself.of_find? hv).coupled
    | keywords =>
      have hother := hplace rfl
      simp only [List.mem_cons, not_or] at hother
      refine coupled_schema_iff.mpr (CoupledSchemas.insert hlawful
        (coupled_schema_iff.mp hself.coupled) (fun hapart => ?_) h.coupled hswitch hother.2.2)
      exact (hplain segment hmem hapart).elim hother.1 hother.2.1
  refine ⟨hcoupled, fun path => ?_⟩
  cases path with
  | nil =>
    refine .inl ⟨_, _, rfl, rfl, fun hkeys => ?_⟩
    obtain rfl : keys = .keywords := hkeys
    exact hcoupled
  | cons other rest =>
    by_cases hsegment : segment = other
    · subst hsegment
      exact coupledAlong_cons (Assoc.find?_insert_self _ _ _) (Assoc.find?_insert_self _ _ _)
        (h.along rest)
    · have hfind : ∀ value,
          Assoc.find? (Assoc.insert entries segment value) other = Assoc.find? entries other :=
        fun value => Assoc.find?_insert_of_ne _ _ hsegment
      refine coupledAlong_of_same ((hfind left).trans (hfind right).symm) fun v hv => ?_
      exact hself.of_find? ((hfind left).symm.trans hv)

/-- Two versions of an item make two versions of an array. -/
theorem CoupledVersions.set {items : List Json} {index : Nat} (hindex : index < items.length)
    (hself : SelfCoupled coupling (.arr items))
    (h : CoupledVersions coupling .keywords left right) :
    CoupledVersions coupling keys (.arr (items.set index left)) (.arr (items.set index right)) := by
  have hitem : ∀ {i : Nat} {v : Json}, items[i]? = some v → SelfCoupled coupling v :=
    fun hi => hself.of_standsAt (.item hi (.here _))
  have hcoupled : ∀ {keys}, Coupled coupling keys (.arr (items.set index left))
      (.arr (items.set index right)) := by
    intro keys
    refine .arr (by simp) fun i v w hv hw => ?_
    by_cases hi : index = i
    · subst hi
      rw [List.getElem?_set_self hindex] at hv hw
      exact Option.some.inj hv ▸ Option.some.inj hw ▸ h.coupled
    · rw [List.getElem?_set_ne hi] at hv hw
      obtain rfl := Option.some.inj (hv.symm.trans hw)
      exact (hitem hv).coupled
  refine ⟨hcoupled, fun path => ?_⟩
  cases path with
  | nil => exact .inl ⟨_, _, rfl, rfl, fun _ => hcoupled⟩
  | cons segment rest =>
    have hstep : ∀ value, (Json.arr (items.set index value)).step? segment =
        (arrayIndex? segment).bind fun i => (items.set index value)[i]? := fun _ => rfl
    cases hindex? : arrayIndex? segment with
    | none =>
      refine coupledAlong_of_step? ?_ ?_ <;> rw [hstep, hindex?] <;> rfl
    | some i =>
      by_cases hi : index = i
      · subst hi
        have hput : ∀ value,
            (Json.arr (items.set index value)).step? segment = some value := by
          intro value
          rw [hstep, hindex?, Option.bind_some, List.getElem?_set_self hindex]
        refine coupledAlong_cons (hput left) (hput right) ?_
        rw [below_of_arrayIndex? hindex?]
        exact h.along rest
      · have hsame : ∀ value,
            (Json.arr (items.set index value)).step? segment = items[i]? := by
          intro value
          rw [hstep, hindex?, Option.bind_some, List.getElem?_set_ne hi]
        refine coupledAlong_of_same ((hsame left).trans (hsame right).symm) fun v hv => ?_
        exact hitem ((hsame left).symm.trans hv)

/-- Only members of an object and items of an array are replaced. -/
theorem putStep?_cases {value new result : Json} {segment : String}
    (h : value.putStep? segment new = some result) :
    (∃ entries, value = .obj entries ∧ segment ∈ Assoc.keys entries ∧
      result = .obj (Assoc.insert entries segment new)) ∨
    ∃ items index, value = .arr items ∧ arrayIndex? segment = some index ∧ index < items.length ∧
      result = .arr (items.set index new) := by
  cases value with
  | obj entries =>
    rw [putStep?] at h
    split_ifs at h with hmem
    exact .inl ⟨entries, rfl, (Assoc.mem_keys_iff_contains _ _).mpr hmem, (Option.some.inj h).symm⟩
  | arr items =>
    cases hindex? : arrayIndex? segment with
    | none =>
      rw [putStep?, hindex?] at h
      cases h
    | some index =>
      rw [putStep?, hindex?] at h
      dsimp only at h
      split_ifs at h with hindex
      exact .inr ⟨items, index, rfl, rfl, hindex, (Option.some.inj h).symm⟩
  | _ => cases h

/-- What has been changed inside is not empty. -/
theorem isTruthy_of_modify {change : Json → Option Json} {value new : Json} {place : List String}
    (hplace : place ≠ []) (h : value.modifyDescend? change place = some new) : new.isTruthy := by
  cases place with
  | nil => exact absurd rfl hplace
  | cons segment rest =>
    obtain ⟨_, -, h⟩ := Option.bind_eq_some_iff.mp h
    obtain ⟨_, -, h⟩ := Option.bind_eq_some_iff.mp h
    rcases putStep?_cases h with ⟨entries, -, -, rfl⟩ | ⟨items, index, -, -, hindex, rfl⟩
    · rw [isTruthy, Bool.not_eq_true', List.isEmpty_eq_false_iff]
      exact Assoc.insert_ne_nil _ _ _
    · rw [isTruthy, Bool.not_eq_true', List.isEmpty_eq_false_iff]
      exact List.ne_nil_of_length_pos (by rw [List.length_set]; omega)

/-- Two versions of what lies one segment below make two versions of the value. -/
theorem CoupledVersions.putStep? {value new new' : Json} {segment : String}
    (hlawful : coupling.Lawful) (hself : SelfCoupled coupling value)
    (hplace : keys = .keywords → segment ∉ typeKey :: refKey :: comparedKeywords)
    (hswitch : segment ∈ switches → new.isTruthy = new'.isTruthy)
    (h : CoupledVersions coupling (keys.below segment) new new')
    (hleft : value.putStep? segment new = some left)
    (hright : value.putStep? segment new' = some right) :
    CoupledVersions coupling keys left right := by
  rcases putStep?_cases hleft with
    ⟨entries, rfl, hmem, rfl⟩ | ⟨items, index, rfl, hindex?, hindex, rfl⟩
  · rcases putStep?_cases hright with ⟨_, heq, -, rfl⟩ | ⟨_, _, heq, -⟩
    · obtain rfl := Json.obj.inj heq
      exact h.insert hlawful hself hmem hplace hswitch
    · cases heq
  · rcases putStep?_cases hright with ⟨_, heq, -⟩ | ⟨_, _, heq, hindex?', -, rfl⟩
    · cases heq
    · obtain rfl := Json.arr.inj heq
      obtain rfl := Option.some.inj (hindex?.symm.trans hindex?')
      rw [below_of_arrayIndex? hindex?] at h
      exact h.set hindex hself

/-- Two versions of a value inside make two versions of the whole. -/
theorem coupledVersions_of_modify {change change' : Json → Option Json} (hlawful : coupling.Lawful)
    {value : Json} {place : List String} (hself : SelfCoupled coupling value)
    (hplace : isSchemaPlace keys place)
    (hleft : value.modifyDescend? change place = some left)
    (hright : value.modifyDescend? change' place = some right)
    (hend : ∀ v x y, value.descend? place = some v → change v = some x → change' v = some y →
      CoupledVersions coupling .keywords x y ∧
        ((∃ keyword ∈ switches, place.getLast? = some keyword) → x.isTruthy = y.isTruthy)) :
    CoupledVersions coupling keys left right := by
  induction place generalizing keys value left right with
  | nil =>
    rw [isSchemaPlace, decide_eq_true_iff] at hplace
    subst hplace
    exact (hend value left right rfl hleft hright).1
  | cons segment rest ih =>
    obtain ⟨hrest, hsegment⟩ := isSchemaPlace_cons hplace
    rw [modifyDescend?] at hleft hright
    obtain ⟨next, hstep, hleft⟩ := Option.bind_eq_some_iff.mp hleft
    obtain ⟨new, hnew, hleft⟩ := Option.bind_eq_some_iff.mp hleft
    obtain ⟨next', hstep', hright⟩ := Option.bind_eq_some_iff.mp hright
    obtain rfl := Option.some.inj (hstep.symm.trans hstep')
    obtain ⟨new', hnew', hright⟩ := Option.bind_eq_some_iff.mp hright
    have hbelow : ∀ {v}, next.descend? rest = some v →
        value.descend? (segment :: rest) = some v := by
      intro v hv
      rw [descend?, hstep]
      exact hv
    have hversions : CoupledVersions coupling (keys.below segment) new new' := by
      refine ih ?_ hrest hnew hnew' fun v x y hv hx hy => ?_
      · have hnext : value.descend? [segment] = some next := by
          rw [descend?, hstep]
          rfl
        exact hself.of_descend? hnext
      · obtain ⟨hversions, htruthy⟩ := hend v x y (hbelow hv) hx hy
        refine ⟨hversions, ?_⟩
        rintro ⟨keyword, hkeyword, hlast⟩
        refine htruthy ⟨keyword, hkeyword, ?_⟩
        rw [List.getLast?_cons, hlast]
        rfl
    refine hversions.putStep? hlawful hself hsegment (fun hswitch => ?_) hleft hright
    cases rest with
    | nil => exact (hend next new new' (hbelow rfl) hnew hnew').2 ⟨segment, hswitch, rfl⟩
    | cons =>
      rw [isTruthy_of_modify (List.cons_ne_nil _ _) hnew,
        isTruthy_of_modify (List.cons_ne_nil _ _) hnew']

/-- Two versions of a schema are coupled along every path if they are coupled themselves, and have
what the schema has or nothing that can be walked under each keyword. -/
theorem coupledVersions_of_schema {schema version version' : Entries}
    (hself : SelfCoupled coupling (.obj schema)) (h : CoupledSchemas coupling version version')
    (hkeys : ∀ key, (Assoc.find? version key = Assoc.find? schema key ∧
        Assoc.find? version' key = Assoc.find? schema key) ∨
      (∀ v, Assoc.find? version key = some v → Barren v) ∧
        ∀ v, Assoc.find? version' key = some v → Barren v) :
    CoupledVersions coupling .keywords (.obj version) (.obj version') := by
  refine ⟨coupled_schema_iff.mpr h, fun path => ?_⟩
  cases path with
  | nil => exact .inl ⟨_, _, rfl, rfl, fun _ => coupled_schema_iff.mpr h⟩
  | cons segment rest =>
    rcases hkeys segment with ⟨hleft, hright⟩ | ⟨hleft, hright⟩
    · refine coupledAlong_of_same (hleft.trans hright.symm) fun v hv => ?_
      exact hself.of_find? (hleft.symm.trans hv)
    · exact coupledAlong_of_barren hleft hright

end Versions

/-- Two documents that are made of one by changing a schema in it are coupled if the two versions of
the schema are, and none of them is empty where it counts. -/
theorem coupledDocuments_of_modify {coupling : Coupling} (hlawful : coupling.Lawful)
    {document left right : Json} {place : SchemaPath} {schema version version' : Entries}
    {change change' : Json → Option Json} (hself : SelfCoupled coupling document)
    (hplace : isSchemaPlace .keywords place.segments)
    (hschema : document.at? place = some (.obj schema))
    (hleft : document.modifyAt? place change = some left)
    (hright : document.modifyAt? place change' = some right)
    (hversion : change (.obj schema) = some (.obj version))
    (hversion' : change' (.obj schema) = some (.obj version'))
    (hcoupled : CoupledSchemas coupling version version')
    (hempty : version.isEmpty = version'.isEmpty ∨
      ∀ keyword ∈ switches, place.segments.getLast? ≠ some keyword)
    (hkeys : ∀ key, (Assoc.find? version key = Assoc.find? schema key ∧
        Assoc.find? version' key = Assoc.find? schema key) ∨
      (∀ v, Assoc.find? version key = some v → Barren v) ∧
        ∀ v, Assoc.find? version' key = some v → Barren v) :
    CoupledDocuments coupling left right := by
  have hversions : CoupledVersions coupling .keywords left right := by
    refine coupledVersions_of_modify hlawful hself hplace hleft hright fun v x y hv hx hy => ?_
    obtain rfl := Option.some.inj (hschema.symm.trans hv)
    obtain rfl := Option.some.inj (hversion.symm.trans hx)
    obtain rfl := Option.some.inj (hversion'.symm.trans hy)
    refine ⟨coupledVersions_of_schema (hself.of_descend? hv) hcoupled hkeys, ?_⟩
    rintro ⟨keyword, hkeyword, hlast⟩
    exact congrArg not (hempty.resolve_right fun hother => hother keyword hkeyword hlast)
  exact fun path => hversions.along path.segments

/-! ### Adding an entry to a schema -/

namespace Json

/-- The document with an entry put into the schema at a place. -/
def withEntry? (document : Json) (place : SchemaPath) (key : String) (value : Json) :
    Option Json :=
  document.modifyAt? place fun schema =>
    schema.entries?.map fun entries => .obj (Assoc.insert entries key value)

/-- Putting in what stands there changes nothing. -/
theorem putStep?_self {value next : Json} {segment : String}
    (h : value.step? segment = some next) : value.putStep? segment next = some value := by
  cases value with
  | obj entries =>
    have hfind : Assoc.find? entries segment = some next := h
    have hmem := (Assoc.mem_keys_iff_contains _ _).mp (Assoc.mem_keys_of_find? hfind)
    rw [putStep?, if_pos hmem, Assoc.insert_of_find? hfind]
  | arr items =>
    obtain ⟨index, hindex, hitem⟩ := Option.bind_eq_some_iff.mp h
    obtain ⟨hlt, rfl⟩ := List.getElem?_eq_some_iff.mp hitem
    rw [putStep?, hindex]
    dsimp only
    rw [if_pos hlt, List.set_getElem_self]
  | _ => cases h

/-- Changing nothing at a place that exists gives the value back. -/
theorem modifyDescend?_self {value v : Json} {place : List String}
    (h : value.descend? place = some v) : value.modifyDescend? some place = some value := by
  induction place generalizing value with
  | nil => rfl
  | cons segment rest ih =>
    obtain ⟨next, hstep, hrest⟩ := Option.bind_eq_some_iff.mp h
    rw [modifyDescend?, hstep]
    change ((next.modifyDescend? some rest).bind fun new => value.putStep? segment new) = _
    rw [ih hrest, Option.bind_some, putStep?_self hstep]

/-- Changing nothing at a place changes nothing. -/
theorem modifyAt?_self {document v : Json} {place : SchemaPath} (h : document.at? place = some v) :
    document.modifyAt? place some = some document :=
  modifyDescend?_self h

end Json

end SchemaClasses
