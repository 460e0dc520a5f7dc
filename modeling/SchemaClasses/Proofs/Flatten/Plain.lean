import SchemaClasses.Model.Resolve
import SchemaClasses.Proofs.Flatten.Reachability
import SchemaClasses.Proofs.Json.References
import SchemaClasses.Proofs.Merge

/-!
# Plain schemas

In a plain schema the type can be read in one way only: a list of types offers a choice
(`isTypeValue`), a reference is a text, and a schema with items declares what it is, if that is
asked for. The same holds for the schemas that a schema consists of; how its values are read is a
`Reading`.

`Plain` adds that no object repeats a key and that all references are good, whatever that means of
their texts. What is plain stays plain when schemas are merged (`Plain.mergeEntries`).
-/

namespace SchemaClasses.Flatten

/-- How a value of a document is read. -/
inductive Reading where
  /-- As a schema. -/
  | schema
  /-- As a table of schemas by their names. -/
  | table
  /-- As a list of schemas. -/
  | list
  /-- As a type. -/
  | type
  /-- As a reference. -/
  | reference
  /-- In some other way. -/
  | other
  deriving DecidableEq, Repr

/-- How the value of a keyword of a schema is read. -/
def Reading.under (keyword : String) : Reading :=
  if keyword = typeKey then .type
  else if keyword = refKey then .reference
  else if keyword = "items" then .schema
  else if keyword = "properties" ∨ keyword = "patternProperties" then .table
  else if keyword ∈ combiners then .list
  else .other

/-- Whether a type is read further: the name of an array or object, or a pointer. -/
def isStructural (name : String) : Bool :=
  name = "array" || name = "object" || name.toList.head? = some '#'

/-- Whether a list of types says no more than an object, an array or a pointer alone would. -/
def namesOne : List Json → Bool
  | [] => true
  | .str name :: rest => isStructural name && rest.all fun type => (Json.str name).same type
  | _ => false

/-- Whether a value is an array. -/
def isArray : Json → Bool
  | .arr _ => true
  | _ => false

/-- Whether a value under `type` is read as what it is: it is no list, or a list without lists in
it which offers a choice. -/
def isTypeValue : Json → Bool
  | .arr types => (types.all fun type => !isArray type) && !namesOne types
  | _ => true

/-- Whether a schema with items has a type or a reference. -/
def hasTypedItems (schema : Entries) : Bool :=
  !Assoc.contains schema "items" || Assoc.contains schema typeKey || Assoc.contains schema refKey

mutual

/-- Whether a value that is read in some way is plain. It is up to `typed` whether schemas with
items have to be typed. -/
def isPlain (typed : Bool) : Reading → Json → Bool
  | .schema, .obj schema => (!typed || hasTypedItems schema) && arePlainKeywords typed schema
  | .table, .obj members => arePlainMembers typed members
  | .list, .arr items => arePlainItems typed items
  | .type, .arr types => isTypeValue (.arr types)
  | .reference, .str _ => true
  | .reference, _ => false
  | _, _ => true

/-- Whether the values of the keywords of a schema are plain. -/
def arePlainKeywords (typed : Bool) : Entries → Bool
  | [] => true
  | (keyword, value) :: rest => isPlain typed (.under keyword) value && arePlainKeywords typed rest

/-- Whether the schemas of a table are plain. -/
def arePlainMembers (typed : Bool) : Entries → Bool
  | [] => true
  | (_, schema) :: rest => isPlain typed .schema schema && arePlainMembers typed rest

/-- Whether the schemas of a list are plain. -/
def arePlainItems (typed : Bool) : List Json → Bool
  | [] => true
  | schema :: rest => isPlain typed .schema schema && arePlainItems typed rest

end

/-- Whether a value that is read in some way is plain, repeats no key where it is read, and refers
to what is good. -/
inductive Plain (typed : Bool) (good : String → Prop) : Reading → Json → Prop where
  /-- A schema with keywords. -/
  | schema {entries : Entries} (hnodup : (Assoc.keys entries).Nodup)
      (hitems : typed → "items" ∈ Assoc.keys entries → Merge.declared entries ≠ [])
      (hentries : ∀ entry ∈ entries, Plain typed good (.under entry.1) entry.2) :
      Plain typed good .schema (.obj entries)
  /-- A table of schemas. -/
  | table {entries : Entries} (hnodup : (Assoc.keys entries).Nodup)
      (hentries : ∀ entry ∈ entries, Plain typed good .schema entry.2) :
      Plain typed good .table (.obj entries)
  /-- A list of schemas. -/
  | list {items : List Json} (hitems : ∀ item ∈ items, Plain typed good .schema item) :
      Plain typed good .list (.arr items)
  /-- A type. -/
  | type {value : Json} (htype : isTypeValue value) : Plain typed good .type value
  /-- A reference. -/
  | reference {text : String} (hgood : good text) : Plain typed good .reference (.str text)
  /-- Anything where no object is expected. -/
  | noObject {reading : Reading} {value : Json} (hreading : reading = .schema ∨ reading = .table)
      (hvalue : ∀ entries, value ≠ .obj entries) : Plain typed good reading value
  /-- Anything where no list is expected. -/
  | noArray {value : Json} (hvalue : ∀ items, value ≠ .arr items) : Plain typed good .list value
  /-- Anything else. -/
  | other {value : Json} : Plain typed good .other value

variable {typed : Bool} {good : String → Prop}

/-- A list that repeats one text says no more than that, if it is read further. -/
theorem namesOne_of_forall {name : String} (hname : isStructural name) {types : List Json}
    (h : ∀ type ∈ types, type = .str name) : namesOne types := by
  cases types with
  | nil => rfl
  | cons first rest =>
    obtain rfl := h first List.mem_cons_self
    have hrest : rest.all fun type => (Json.str name).same type := by
      rw [List.all_eq_true]
      intro type hmem
      rw [h type (List.mem_cons_of_mem _ hmem), Json.same, decide_eq_true_eq]
    rw [namesOne, hname, hrest]
    rfl

/-- A schema is plain if its items are typed, in case they have to be, and its keywords are
plain. -/
theorem isPlain_schema {entries : Entries} :
    isPlain typed .schema (.obj entries) ↔ (typed → hasTypedItems entries) ∧
      ∀ entry ∈ entries, isPlain typed (.under entry.1) entry.2 := by
  have all : arePlainKeywords typed entries ↔
      ∀ entry ∈ entries, isPlain typed (.under entry.1) entry.2 := by
    induction entries with
    | nil => simp [arePlainKeywords]
    | cons entry rest ih => simp [arePlainKeywords, ih]
  rw [isPlain, Bool.and_eq_true, all]
  cases typed <;> simp

/-- A table is plain if its schemas are. -/
theorem isPlain_table {entries : Entries} :
    isPlain typed .table (.obj entries) ↔ ∀ entry ∈ entries, isPlain typed .schema entry.2 := by
  rw [isPlain]
  induction entries with
  | nil => simp [arePlainMembers]
  | cons entry rest ih => simp [arePlainMembers, ih]

/-- A list of schemas is plain if its schemas are. -/
theorem isPlain_list {items : List Json} :
    isPlain typed .list (.arr items) ↔ ∀ item ∈ items, isPlain typed .schema item := by
  rw [isPlain]
  induction items with
  | nil => simp [arePlainItems]
  | cons item rest ih => simp [arePlainItems, ih]

/-- A schema declares a type if it has a `type` or a `$ref`. -/
theorem declared_ne_nil_iff {entries : Entries} :
    Merge.declared entries ≠ [] ↔ typeKey ∈ Assoc.keys entries ∨ refKey ∈ Assoc.keys entries := by
  unfold Merge.declared
  rw [Assoc.mem_keys_iff_contains, Assoc.mem_keys_iff_contains, Assoc.contains, Assoc.contains]
  cases Assoc.find? entries typeKey <;> cases Assoc.find? entries refKey <;> simp

/-- A schema has typed items if it declares a type wherever it has items. -/
theorem hasTypedItems_iff {entries : Entries} :
    hasTypedItems entries ↔ ("items" ∈ Assoc.keys entries → Merge.declared entries ≠ []) := by
  rw [declared_ne_nil_iff, Assoc.mem_keys_iff_contains, Assoc.mem_keys_iff_contains,
    Assoc.mem_keys_iff_contains, hasTypedItems]
  cases Assoc.contains entries "items" <;> simp

/-- Only a `$ref` is read as a reference. -/
theorem under_eq_reference {keyword : String} (h : Reading.under keyword = .reference) :
    keyword = refKey := by
  unfold Reading.under at h
  split_ifs at h with _ hkey
  exact hkey

/-- A combiner is read as a list. -/
theorem under_combiner {combiner : String} (h : combiner ∈ combiners) :
    Reading.under combiner = .list := by
  simp only [combiners, List.mem_cons, List.not_mem_nil, or_false] at h
  rcases h with rfl | rfl | rfl <;> decide

/-- A plain value is plain in this sense if all references in it are good. -/
theorem plain_of_isPlain {value : Json} {reading : Reading} (hreading : reading ≠ .reference)
    (hwf : value.wellFormed)
    (hgood : ∀ place v text, Json.StandsAt value place v → v.ref? = some text → good text)
    (h : isPlain typed reading value) : Plain typed good reading value := by
  induction value using Json.induction generalizing reading with
  | obj entries ih =>
    obtain ⟨hnodup, hentries⟩ := Json.wellFormed_obj.mp hwf
    have hbelow : ∀ entry ∈ entries, ∀ {reading : Reading}, reading ≠ .reference →
        isPlain typed reading entry.2 → Plain typed good reading entry.2 := by
      intro entry hentry reading hreading h
      exact ih entry hentry hreading (hentries entry hentry)
        (fun place v text hv href => hgood _ v text (.entry hentry hv) href) h
    cases reading with
    | schema =>
      obtain ⟨hitems, hplain⟩ := isPlain_schema.mp h
      refine .schema hnodup (fun h => hasTypedItems_iff.mp (hitems h)) fun entry hentry => ?_
      -- a reference is good because the schema has it, not because of what its text is
      by_cases hreference : Reading.under entry.1 = .reference
      · have hvalue := hplain entry hentry
        rw [hreference] at hvalue ⊢
        obtain ⟨key, value⟩ := entry
        obtain rfl : key = refKey := under_eq_reference hreference
        have hfind := (Assoc.find?_eq_some_iff hnodup).mpr hentry
        cases value with
        | str text =>
          have href : (Json.obj entries).ref? = some text :=
            congrArg (fun value => value.bind Json.text?) hfind
          exact .reference (hgood [] _ text (.here _) href)
        | _ => cases hvalue
      · exact hbelow entry hentry hreference (hplain entry hentry)
    | table =>
      exact .table hnodup fun entry hentry =>
        hbelow entry hentry nofun (isPlain_table.mp h entry hentry)
    | list => exact .noArray nofun
    | type => exact .type rfl
    | reference => exact absurd rfl hreading
    | other => exact .other
  | arr items ih =>
    cases reading with
    | list =>
      refine .list fun item hitem => ih item hitem nofun ((Json.wellFormed_arr.mp hwf).2 item hitem)
        (fun place v text hv href => ?_) (isPlain_list.mp h item hitem)
      obtain ⟨index, hindex⟩ := List.mem_iff_getElem?.mp hitem
      exact hgood _ v text (.item hindex hv) href
    | type => exact .type h
    | schema => exact .noObject (.inl rfl) nofun
    | table => exact .noObject (.inr rfl) nofun
    | reference => exact absurd rfl hreading
    | other => exact .other
  | _ =>
    cases reading with
    | list => exact .noArray nofun
    | type => exact .type rfl
    | schema => exact .noObject (.inl rfl) nofun
    | table => exact .noObject (.inr rfl) nofun
    | reference => exact absurd rfl hreading
    | other => exact .other

/-- More may be good. -/
theorem Plain.mono {good' : String → Prop} (hgood : ∀ text, good text → good' text)
    {reading : Reading} {value : Json} (h : Plain typed good reading value) :
    Plain typed good' reading value := by
  induction h with
  | schema hnodup hitems _ ih => exact .schema hnodup hitems ih
  | table hnodup _ ih => exact .table hnodup ih
  | list _ ih => exact .list ih
  | type htype => exact .type htype
  | reference h => exact .reference (hgood _ h)
  | noObject hreading hvalue => exact .noObject hreading hvalue
  | noArray hvalue => exact .noArray hvalue
  | other => exact .other

/-! ### What a plain schema says -/

section Schema

variable {entries : Entries} (h : Plain typed good .schema (.obj entries))

include h

/-- A plain schema repeats no key. -/
theorem Plain.nodup : (Assoc.keys entries).Nodup := by
  cases h with
  | schema hnodup => exact hnodup
  | noObject _ hvalue => exact absurd rfl (hvalue entries)

/-- A plain schema with items declares a type, if it has to. -/
theorem Plain.declared_ne_nil (htyped : typed) (hitems : "items" ∈ Assoc.keys entries) :
    Merge.declared entries ≠ [] := by
  cases h with
  | schema _ hsays => exact hsays htyped hitems
  | noObject _ hvalue => exact absurd rfl (hvalue entries)

/-- The entries of a plain schema are plain. -/
theorem Plain.entry {entry : String × Json} (hentry : entry ∈ entries) :
    Plain typed good (.under entry.1) entry.2 := by
  cases h with
  | schema _ _ hentries => exact hentries entry hentry
  | noObject _ hvalue => exact absurd rfl (hvalue entries)

/-- What is found under a keyword of a plain schema is plain. -/
theorem Plain.of_find? {keyword : String} {value : Json}
    (hfind : Assoc.find? entries keyword = some value) : Plain typed good (.under keyword) value :=
  h.entry (Assoc.mem_of_find? hfind)

end Schema

/-- A plain table repeats no name. -/
theorem Plain.nodup_members {entries : Entries} (h : Plain typed good .table (.obj entries)) :
    (Assoc.keys entries).Nodup := by
  cases h with
  | table hnodup => exact hnodup
  | noObject _ hvalue => exact absurd rfl (hvalue entries)

/-- The schemas of a plain table are plain. -/
theorem Plain.member {entries : Entries} (h : Plain typed good .table (.obj entries))
    {entry : String × Json} (hentry : entry ∈ entries) : Plain typed good .schema entry.2 := by
  cases h with
  | table _ hentries => exact hentries entry hentry
  | noObject _ hvalue => exact absurd rfl (hvalue entries)

/-- A reference to a place whose pointer is good is plain. -/
theorem plain_reference {path : SchemaPath} (h : good path.toPointer) :
    Plain typed good .schema (Reference.canonical path).toSchema := by
  refine .schema (List.nodup_singleton _) (fun _ hmem => ?_) fun entry hentry => ?_
  · have hkey : "items" = refKey := List.mem_singleton.mp hmem
    exact absurd hkey (by decide)
  · obtain rfl := List.mem_singleton.mp hentry
    exact .reference h

/-- The schemas of a plain list are plain. -/
theorem Plain.item {items : List Json} (h : Plain typed good .list (.arr items)) {item : Json}
    (hitem : item ∈ items) : Plain typed good .schema item := by
  cases h with
  | list hitems => exact hitems item hitem
  | noObject hreading => exact absurd hreading (by decide)
  | noArray hvalue => exact absurd rfl (hvalue items)

/-- What is plain as a type is the value of a type. -/
theorem Plain.isTypeValue {value : Json} (h : Plain typed good .type value) :
    isTypeValue value := by
  cases h with
  | type htype => exact htype
  | noObject hreading => exact absurd hreading (by decide)

/-- What is plain as a reference is a good text. -/
theorem Plain.exists_text {value : Json} (h : Plain typed good .reference value) :
    ∃ text, value = .str text ∧ good text := by
  cases h with
  | reference hgood => exact ⟨_, rfl, hgood⟩
  | noObject hreading => exact absurd hreading (by decide)

section Schema

variable {entries : Entries} (h : Plain typed good .schema (.obj entries))

include h

/-- Without a text as reference there is no reference. -/
theorem Plain.find?_refKey (href : textRef? entries = none) :
    Assoc.find? entries refKey = none := by
  cases hfind : Assoc.find? entries refKey with
  | none => rfl
  | some value =>
    obtain ⟨text, rfl, -⟩ := Plain.exists_text (h.of_find? hfind)
    rw [textRef?, hfind] at href
    cases href

/-- The `$ref` of a plain schema is good. -/
theorem Plain.good_of_textRef {text : String} (href : textRef? entries = some text) :
    good text := by
  obtain ⟨value, hfind, htext⟩ := Option.bind_eq_some_iff.mp href
  obtain ⟨other, rfl, hgood⟩ := Plain.exists_text (h.of_find? hfind)
  obtain rfl := Option.some.inj htext
  exact hgood

/-- A keyword may change its value, if the schema declares what it is. -/
theorem Plain.insert {keyword : String} {value : Json} (htype : keyword ≠ typeKey)
    (href : keyword ≠ refKey) (hitems : keyword = "items" → Merge.declared entries ≠ [])
    (hvalue : Plain typed good (.under keyword) value) :
    Plain typed good .schema (.obj (Assoc.insert entries keyword value)) := by
  refine .schema (Assoc.nodup_keys_insert h.nodup _ _) (fun htyped hmem => ?_)
    fun entry hentry => ?_
  · rw [Merge.declared, Assoc.find?_insert_of_ne _ _ htype, Assoc.find?_insert_of_ne _ _ href]
    rcases Assoc.mem_keys_insert.mp hmem with hold | hnew
    · exact h.declared_ne_nil htyped hold
    · exact hitems hnew.symm
  · rcases Assoc.mem_insert hentry with hold | rfl
    · exact h.entry hold
    · exact hvalue

/-- A keyword may be dropped, if it does not declare what the schema is. -/
theorem Plain.swapErase {keyword : String} (htype : keyword ≠ typeKey) (href : keyword ≠ refKey) :
    Plain typed good .schema (.obj (Assoc.swapErase entries keyword)) := by
  refine .schema (Assoc.nodup_keys_swapErase h.nodup _) (fun htyped hmem => ?_)
    fun entry hentry => h.entry (Assoc.mem_of_mem_swapErase hentry)
  rw [Merge.declared, Assoc.find?_swapErase_of_ne h.nodup htype,
    Assoc.find?_swapErase_of_ne h.nodup href]
  obtain ⟨entry, hentry, hkey⟩ := List.mem_map.mp hmem
  exact h.declared_ne_nil htyped (hkey ▸ Assoc.mem_keys_of_mem (Assoc.mem_of_mem_swapErase hentry))

end Schema

/-! ### Merging -/

/-- How an object is read whose keys are read in some way. -/
def readingOf : Merge.Keys → Reading
  | .keywords => .schema
  | .names => .table

/-- How the value of an entry is read in an object whose keys are read in some way. -/
def entryReading : Merge.Keys → String → Reading
  | .keywords, key => .under key
  | .names, _ => .schema

/-- An object is plain, whatever its keys are read as, if it repeats none and its entries are
plain. -/
theorem plain_obj_iff {keys : Merge.Keys} {entries : Entries} :
    Plain typed good (readingOf keys) (.obj entries) ↔
      (Assoc.keys entries).Nodup ∧
        (keys = .keywords → typed → "items" ∈ Assoc.keys entries → Merge.declared entries ≠ []) ∧
        ∀ entry ∈ entries, Plain typed good (entryReading keys entry.1) entry.2 := by
  cases keys with
  | keywords =>
    exact ⟨fun h => ⟨h.nodup, fun _ => h.declared_ne_nil, fun _ => h.entry⟩,
      fun h => .schema h.1 (h.2.1 rfl) h.2.2⟩
  | names =>
    exact ⟨fun h => ⟨h.nodup_members, nofun, fun _ => h.member⟩, fun h => .table h.1 h.2.2⟩

/-- An object is merged in the way that it is read, if it makes a difference. -/
theorem entryReading_cases {keys : Merge.Keys} {key : String}
    (htype : ¬Merge.NamesType keys key) :
    entryReading keys key = readingOf (keys.below key) ∨ entryReading keys key = .list ∨
      entryReading keys key = .other := by
  cases keys with
  | names => exact .inl rfl
  | keywords =>
    have hne : key ≠ typeKey ∧ key ≠ refKey :=
      ⟨fun h => htype ⟨rfl, .inl h⟩, fun h => htype ⟨rfl, .inr h⟩⟩
    rw [entryReading, Reading.under, if_neg hne.1, if_neg hne.2, Merge.Keys.below,
      Merge.Keys.under]
    split_ifs with hitems htable htable hlist
    · rw [hitems] at htable
      exact absurd htable (by decide)
    · exact .inl rfl
    · exact .inl rfl
    · exact .inr (.inl rfl)
    · exact .inr (.inr rfl)

/-- The alternatives of a type are no lists themselves. -/
theorem isFlat_of_isTypeValue {value : Json} (h : Flatten.isTypeValue value) :
    Merge.IsFlat value := by
  cases value with
  | arr types =>
    rw [Flatten.isTypeValue, Bool.and_eq_true, List.all_eq_true] at h
    rintro alternative hmem items rfl
    have hnot := h.1 _ hmem
    rw [isArray] at hnot
    cases hnot
  | _ =>
    rintro alternative hmem items rfl
    cases List.mem_singleton.mp hmem

/-- A type has at least one alternative. -/
theorem alternatives_ne_nil {value : Json} (h : Flatten.isTypeValue value) :
    Merge.alternatives value ≠ [] := by
  cases value with
  | arr types =>
    rintro (rfl : types = [])
    cases h
  | _ => exact List.cons_ne_nil _ _

/-- What is collected from types is a type. -/
theorem isTypeValue_typeOfAlternatives {values : List Json} (hne : values ≠ [])
    (h : ∀ value ∈ values, Flatten.isTypeValue value) :
    Flatten.isTypeValue (Merge.typeOfAlternatives (Merge.collect values)) := by
  have hflat : ∀ type ∈ Merge.collect values, isArray type = false := by
    intro type htype
    obtain ⟨value, hvalue, halternative⟩ := Merge.mem_collect htype
    have hnot := isFlat_of_isTypeValue (h value hvalue) type halternative
    cases type with
    | arr items => exact absurd rfl (hnot items)
    | _ => rfl
  have hsome : Merge.collect values ≠ [] := by
    obtain ⟨value, hvalue⟩ := List.exists_mem_of_ne_nil values hne
    obtain ⟨a, ha⟩ := List.exists_mem_of_ne_nil _ (alternatives_ne_nil (h value hvalue))
    have hmem : a ∈ values.flatMap Merge.alternatives := List.mem_flatMap.mpr ⟨value, hvalue, ha⟩
    exact Merge.appendNew_ne_nil (.inr (List.ne_nil_of_mem hmem))
  have hdiffer : (Merge.collect values).Pairwise fun u v => u.same v = false :=
    Merge.pairwise_appendNew List.Pairwise.nil
  generalize Merge.collect values = types at hflat hsome hdiffer
  match types with
  | [] => exact absurd rfl hsome
  | [single] =>
    have hnot := hflat single List.mem_cons_self
    cases single with
    | arr => cases hnot
    | _ => rfl
  | first :: second :: rest =>
    have hall : (first :: second :: rest).all fun type => !isArray type := by
      rw [List.all_eq_true]
      intro type htype
      rw [hflat type htype]
      rfl
    have hchoice : namesOne (first :: second :: rest) = false := by
      have hne := (List.pairwise_cons.mp hdiffer).1 second List.mem_cons_self
      cases first with
      | str name => simp [namesOne, hne]
      | _ => rfl
    rw [Merge.typeOfAlternatives, Flatten.isTypeValue, hall, hchoice]
    · rfl
    · exact nofun

/-- What is plain stays plain. -/
theorem Plain.mergeEntries (source : Json) :
    ∀ {new : Entries}, source = .obj new → ∀ (keys : Merge.Keys) {path : SchemaPath}
      {target : Entries}, (Merge.mergeEntries keys path target new).conflict = none →
      Plain typed good (readingOf keys) (.obj target) → Plain typed good (readingOf keys) source →
      Plain typed good (readingOf keys) (.obj (Merge.mergeEntries keys path target new).value) := by
  induction source using Json.induction with
  | obj entries ih =>
    rintro new hnew keys path target hagree htarget hsource
    obtain rfl := Json.obj.inj hnew
    obtain ⟨hnodup, hitems, hentries⟩ := plain_obj_iff.mp htarget
    obtain ⟨-, hitems', hentries'⟩ := plain_obj_iff.mp hsource
    refine plain_obj_iff.mpr ⟨Merge.nodup_keys_mergeEntries hagree hnodup, ?_, ?_⟩
    · rintro rfl htyped hmem
      refine Merge.declared_mergeEntries_ne_nil hagree ?_
      rcases Merge.mem_keys_of_mergeEntries hagree hmem with heq | hold | hnew
      · exact absurd heq (by decide)
      · exact .inl (hitems rfl htyped hold)
      · refine .inr ((declared_ne_nil_iff.mp (hitems' rfl htyped hnew)).elim ?_ ?_)
        · intro hkey
          obtain ⟨value, hvalue⟩ := Assoc.exists_find?_of_mem_keys hkey
          exact ⟨_, Assoc.mem_of_find? hvalue, .inl rfl⟩
        · intro hkey
          obtain ⟨value, hvalue⟩ := Assoc.exists_find?_of_mem_keys hkey
          exact ⟨_, Assoc.mem_of_find? hvalue, .inr rfl⟩
    · refine Merge.forall_mergeEntries
        (E := fun key value => Plain typed good (entryReading keys key) value)
        (fun key old new hmem htype hagree hold => ?_)
        (fun hkeys _ _ _ _ => ?_) (fun hkeys values hne hvalues => ?_) hagree hentries hentries'
      · rcases entryReading_cases htype with heq | heq | heq
        · rw [heq] at hold ⊢
          exact ih _ hmem rfl _ hagree hold (heq ▸ hentries' _ hmem)
        · rw [heq]
          exact .noArray nofun
        · rw [heq]
          exact .other
      · subst hkeys
        exact .other
      · subst hkeys
        refine .type (isTypeValue_typeOfAlternatives hne fun value hvalue => ?_)
        rcases hvalues value hvalue with h | h
        · exact Plain.isTypeValue h
        · obtain ⟨text, rfl, -⟩ := Plain.exists_text h
          rfl
  | _ => exact nofun

end SchemaClasses.Flatten
