import SchemaClasses.Proofs.Flatten.CombinerFree
import SchemaClasses.Proofs.Json.Throughout

/-!
# Flattening a flattened document again

Main statement (`flatten_root_entry`): if references lead to definitions only, and nothing but the
root and definitions is listed, then the entry of the root is a document that is flattened to the
same table, in the same order.

The second walk meets schemas of two kinds. The definitions are those of the first document, and
they are walked in the same way (`echoes_walk`), whichever places outside of them are being walked.
The properties of the root have been flattened before. The walk of what has become of a schema
leaves it as it is and lists what the first walk has listed (`recurs_walk`): a schema that was left
in place is walked in the same steps, and a reference that was put in the place of a schema leads to
the place where the first walk has listed that, so it is the echo of that walk which lists it now.
-/

namespace SchemaClasses.Flatten

open FlattenM

/-! ### Definitions -/

/-- Whether a place lies in the definitions of a document. -/
def IsDefinition (path : SchemaPath) : Prop :=
  path.segments.head? = some "definitions"

/-- What lies below a definition lies in the definitions as well. -/
theorem IsDefinition.append {path : SchemaPath} (h : IsDefinition path) (segments : List String) :
    IsDefinition (path ++ segments) := by
  obtain ⟨rest, hpath⟩ := List.head?_eq_some_iff.mp h
  unfold IsDefinition
  rw [SchemaPath.segments_append, hpath]
  rfl

/-- Below a place outside of the definitions, only the keyword `definitions` leads into them. -/
theorem not_isDefinition_append {path : SchemaPath} (h : ¬IsDefinition path) {segment : String}
    (hsegment : segment ≠ "definitions") (rest : List String) :
    ¬IsDefinition (path ++ segment :: rest) := by
  unfold IsDefinition at h ⊢
  rw [SchemaPath.segments_append]
  cases hpath : path.segments with
  | nil => exact fun heq => hsegment (Option.some.inj heq)
  | cons first others =>
    rw [hpath] at h
    exact h

/-! ### Beside a walk -/

/-- What becomes of a state while a schema is walked: the same places are being walked, and what was
listed still is. -/
structure Widens (state after : FlattenState) : Prop where
  /-- The same places are being walked. -/
  inProgress : after.inProgress = state.inProgress
  /-- What was listed still is. -/
  keys : Assoc.keys state.schemas ⊆ Assoc.keys after.schemas

/-- A state widens itself. -/
theorem Widens.refl (state : FlattenState) : Widens state state :=
  ⟨rfl, fun _ h => h⟩

/-- Widening twice is widening. -/
theorem Widens.trans {state between after : FlattenState} (h : Widens state between)
    (h' : Widens between after) : Widens state after :=
  ⟨h'.inProgress.trans h.inProgress, fun _ hkey => h'.keys (h.keys hkey)⟩

/-- One more schema is listed. -/
theorem Widens.insert {state after : FlattenState} (h : Widens state after) (path : SchemaPath)
    (entry : Entries) :
    Widens state { after with schemas := Assoc.insert after.schemas path entry } :=
  ⟨h.inProgress, fun _ hkey => Assoc.mem_keys_insert.mpr (.inl (h.keys hkey))⟩

/-- A place does not count as being walked any more. -/
theorem Widens.leave {state after : FlattenState} {path : SchemaPath}
    (h : Widens { state with inProgress := state.inProgress ++ [path] } after)
    (hnew : path ∉ state.inProgress) :
    Widens state { after with inProgress := after.inProgress.erase path } :=
  ⟨(congrArg (·.erase path) h.inProgress).trans (erase_last hnew), h.keys⟩

/-- Whether a state of a second walk goes with one of the first: the same is listed, and no
definition is being walked that is not being walked by the first. -/
structure Beside (state other : FlattenState) : Prop where
  /-- The same is listed. -/
  schemas : other.schemas = state.schemas
  /-- Definitions that are being walked are being walked by the first walk. -/
  inProgress : ∀ place ∈ other.inProgress, IsDefinition place → place ∈ state.inProgress

/-- The first walk goes one schema deeper. -/
theorem Beside.inside {state other : FlattenState} (h : Beside state other) (path : SchemaPath) :
    Beside { state with inProgress := state.inProgress ++ [path] } other :=
  ⟨h.schemas, fun place hplace hdefinition =>
    List.mem_append_left _ (h.inProgress place hplace hdefinition)⟩

/-- The second walk goes one schema deeper. -/
theorem Beside.enter {state other : FlattenState} {place : SchemaPath} (h : Beside state other)
    (hplace : IsDefinition place → place ∈ state.inProgress) :
    Beside state { other with inProgress := other.inProgress ++ [place] } where
  schemas := h.schemas
  inProgress := by
    intro found hfound hdefinition
    rcases List.mem_append.mp hfound with hold | hlast
    · exact h.inProgress found hold hdefinition
    · obtain rfl := List.mem_singleton.mp hlast
      exact hplace hdefinition

/-- The second walk goes on beside the first. -/
theorem Beside.after {state other after : FlattenState} (h : Beside state other)
    (hwidens : Widens state after) :
    Beside after { schemas := after.schemas, inProgress := other.inProgress } :=
  ⟨rfl, fun place hplace hdefinition =>
    hwidens.inProgress ▸ h.inProgress place hplace hdefinition⟩

/-- Whether a computation succeeds with such a result and with a table, and the same places are
being walked. -/
def Ends {α : Type} (x : FlattenM α) (state : FlattenState) (result : α → Prop)
    (schemas : FlatSchemas) : Prop :=
  Ensures x state
    (fun a after => result a ∧ after = { schemas := schemas, inProgress := state.inProgress })
    fun _ => False

/-- A computation that succeeds with such a result does so with any that follows from it. -/
theorem Ends.imp {α : Type} {x : FlattenM α} {state : FlattenState} {result result' : α → Prop}
    {schemas : FlatSchemas} (h : Ends x state result schemas)
    (hresult : ∀ a, result a → result' a) : Ends x state result' schemas :=
  Ensures.mono h (fun a _ hend => ⟨hresult a hend.1, hend.2⟩) fun _ h => h

/-! ### Steps that succeed -/

section Steps

variable {document : Json} {walk : Walker} {state : FlattenState} {path : SchemaPath}
  {node : Entries} {schemas : FlatSchemas} {result : Walked → Prop}

/-- A schema with a `$ref` becomes what the target of the `$ref` becomes. -/
theorem flattenSchema_of_textRef {text : String} (h : textRef? node = some text) :
    flattenSchema document walk node path = followRef document walk (.unresolved text) := by
  have href : Reference.ofSchema? node = some (.unresolved text) :=
    congrArg (Option.map Reference.unresolved) h
  unfold flattenSchema
  rw [href]

/-- A schema of an object type without a `$ref` is walked as an object. -/
theorem flattenSchema_of_object (hplain : textRef? node = none) (h : HasObjectType node) :
    flattenSchema document walk node path = flattenObject document walk node path := by
  have href : Reference.ofSchema? node = none := congrArg (Option.map Reference.unresolved) hplain
  unfold flattenSchema
  rw [href, ofSchema_eq_object.mpr h]

/-- A schema of an array type without a `$ref` is walked as an array. -/
theorem flattenSchema_of_array (hplain : textRef? node = none) (h : HasArrayType node) :
    flattenSchema document walk node path = flattenArray walk node path := by
  have href : Reference.ofSchema? node = none := congrArg (Option.map Reference.unresolved) hplain
  unfold flattenSchema
  rw [href, ofSchema_eq_array.mpr h]

/-- A schema that is neither an object nor an array stays as it is. -/
theorem flattenSchema_of_other (hplain : textRef? node = none)
    (h : Shape.ofSchema node = .other) :
    flattenSchema document walk node path = pure (.inPlace (.obj node)) := by
  have href : Reference.ofSchema? node = none := congrArg (Option.map Reference.unresolved) hplain
  unfold flattenSchema
  rw [href, h]

/-- Where nothing is being walked or listed yet, a visit ends as the walk of the schema does. -/
theorem ends_visit (hnew : path ∉ state.inProgress) (hkey : path ∉ Assoc.keys state.schemas)
    (h : Ends (flattenSchema document walk node path)
      { state with inProgress := state.inProgress ++ [path] } result schemas) :
    Ends (visit document walk (.obj node) path) state result schemas := by
  refine ensures_visit (fun hmet => hnew hmet) (fun _ hlisted => absurd hlisted hkey)
    (fun entries heq _ _ => ?_) (fun _ => nofun) fun hother _ => hother node rfl
  obtain rfl := Json.obj.inj heq
  refine h.mono (fun walked after hend => ?_) fun _ h => h
  obtain ⟨hresult, rfl⟩ := hend
  exact ⟨hresult, congrArg (FlattenState.mk schemas) (erase_last hnew)⟩

/-- A truth value stays as it is, and so does the table. -/
theorem ends_visit_bool {value : Bool} (hnew : path ∉ state.inProgress)
    (hkey : path ∉ Assoc.keys state.schemas) :
    Ends (visit document walk (.bool value) path) state (· = .inPlace (.bool value))
      state.schemas :=
  ensures_visit (fun hmet => hnew hmet) (fun _ hlisted => absurd hlisted hkey)
    (fun _ => nofun) (fun other heq _ _ => ⟨by rw [Json.bool.inj heq], rfl⟩)
    fun _ hother => hother value rfl

/-- A reference to a listed place ends as the walk of the entry does. -/
theorem ends_followRef_listed {text : String} {target : SchemaPath} {entry : Entries}
    (hpointer : SchemaPath.ofPointer text = .ok target)
    (hentry : Assoc.find? state.schemas target = some entry)
    (h : Ends (walk (.obj entry) target) state result schemas) :
    Ends (followRef document walk (.unresolved text)) state result schemas := by
  have hkey := Assoc.mem_keys_of_find? hentry
  refine ensures_followRef (fun pointer reason hlost => ?_) (fun other found hother hfound => ?_)
    fun other _ hother hnew _ => ?_
  · have hnames : Names (.unresolved text) target := hpointer
    rw [findSchema_of_names _ _ hnames, hentry] at hlost
    cases hlost
  · obtain rfl := Except.ok.inj (hpointer.symm.trans hother)
    obtain rfl := Option.some.inj (hentry.symm.trans hfound)
    exact h
  · obtain rfl := Except.ok.inj (hpointer.symm.trans hother)
    exact absurd hkey hnew

/-- A reference to a place that is not listed ends as the walk of the schema there does. -/
theorem ends_followRef_stands {text : String} {target : SchemaPath} {schema : Json}
    (hpointer : SchemaPath.ofPointer text = .ok target)
    (hnew : target ∉ Assoc.keys state.schemas) (hschema : document.at? target = some schema)
    (h : Ends (walk schema target) state result schemas) :
    Ends (followRef document walk (.unresolved text)) state result schemas := by
  refine ensures_followRef (fun pointer reason hlost => ?_) (fun other found hother hfound => ?_)
    fun other found hother _ hfound => ?_
  · have hnames : Names (.unresolved text) target := hpointer
    rw [findSchema_of_names _ _ hnames, Assoc.find?_eq_none_iff.mpr hnew, hschema] at hlost
    cases hlost
  · obtain rfl := Except.ok.inj (hpointer.symm.trans hother)
    exact absurd (Assoc.mem_keys_of_find? hfound) hnew
  · obtain rfl := Except.ok.inj (hpointer.symm.trans hother)
    obtain rfl := Option.some.inj (hschema.symm.trans hfound)
    exact h

/-- An array with a single schema for its items ends with that schema walked in place. -/
theorem ends_flattenArray (hon : isOn node "additionalItems" = false) {items value : Json}
    (hitems : Assoc.find? node "items" = some items) (hsingle : ∀ list, items ≠ .arr list)
    (h : Ends (walk items (path.child "items")) state (fun walked => walked.toJson = value)
      schemas) :
    Ends (flattenArray walk node path) state
      (· = .inPlace (.obj (Assoc.insert node "items" value))) schemas := by
  refine ensures_flattenArray (fun htrue => ?_) (fun list hlist => ?_) (fun _ hnone => ?_)
    fun _ other hother _ => ?_
  · cases hon.symm.trans htrue
  · exact hsingle list (Option.some.inj (hitems.symm.trans hlist))
  · cases hitems.symm.trans hnone
  · obtain rfl := Option.some.inj (hitems.symm.trans hother)
    refine h.mono (fun walked after hend => ?_) fun _ h => h
    obtain ⟨rfl, hafter⟩ := hend
    exact ⟨rfl, hafter⟩

/-- An array without items stays as it is. -/
theorem ends_flattenArray_none (hon : isOn node "additionalItems" = false)
    (hnone : Assoc.find? node "items" = none) :
    Ends (flattenArray walk node path) state (· = .inPlace (.obj node)) state.schemas := by
  refine ensures_flattenArray (fun htrue => ?_) (fun list hlist => ?_) (fun _ _ => ⟨rfl, rfl⟩)
    fun _ other hother _ => ?_
  · cases hon.symm.trans htrue
  · cases hnone.symm.trans hlist
  · cases hnone.symm.trans hother

/-- A table is flattened schema by schema. -/
theorem ends_flattenEntries_cons {keyword name : String} {member value : Json}
    {rest flat : Entries} {between : FlatSchemas}
    (h : Ends (walk member (path ++ [keyword, name])) state (fun walked => walked.toJson = value)
      between)
    (hrest : Ends (flattenEntries walk path keyword rest)
      { schemas := between, inProgress := state.inProgress } (· = flat) schemas) :
    Ends (flattenEntries walk path keyword ((name, member) :: rest)) state
      (· = (name, value) :: flat) schemas := by
  refine ensures_flattenEntries_cons (h.mono (fun walked _ hend => ?_) fun _ h => h)
  obtain ⟨rfl, rfl⟩ := hend
  refine hrest.mono (fun others _ hend => ?_) fun _ h => h
  obtain ⟨rfl, rfl⟩ := hend
  exact ⟨rfl, rfl⟩

/-- An object whose combiners are folded is listed with its properties. -/
theorem ends_flattenObject_folded {folded members flat : Entries} {between : FlatSchemas}
    (hfold : Ends (combiners.foldlM (foldCombiner document walk path) node) state (· = folded)
      between)
    (hon : isOn folded "additionalProperties" = false)
    (hmembers : Assoc.find? folded "properties" = some (.obj members))
    (hnone : Assoc.find? folded "patternProperties" = none)
    (h : Ends (flattenEntries walk path "properties" members)
      { schemas := between, inProgress := state.inProgress } (· = flat) schemas) :
    Ends (flattenObject document walk node path) state (· = .canonical path)
      (Assoc.insert schemas path (Assoc.insert folded "properties" (.obj flat))) := by
  refine ensures_flattenObject (hfold.mono (fun found after hend => ?_) fun _ h => h)
  obtain ⟨rfl, rfl⟩ := hend
  refine ⟨fun htrue => ?_, fun _ patterns _ hpatterns => ?_, fun _ => ⟨fun other hother _ => ?_,
    fun other hother _ => ?_, fun hother _ => ?_⟩⟩
  · cases hon.symm.trans htrue
  · cases hnone.symm.trans hpatterns
  · obtain rfl := Option.some.inj (hmembers.symm.trans hother)
    refine ensures_flattenMembers (fun hother => absurd rfl (hother members)) fun entries heq => ?_
    obtain rfl := Json.obj.inj heq
    refine h.mono (fun found after hend => ?_) fun _ h => h
    obtain ⟨rfl, rfl⟩ := hend
    exact ⟨rfl, rfl⟩
  · cases hmembers.symm.trans hother
  · cases hmembers.symm.trans hother

variable (hfree : lacksCombiners (.obj node)) (hon : isOn node "additionalProperties" = false)

include hfree hon

/-- An object with properties is listed with its properties flattened, and becomes a reference. -/
theorem ends_flattenObject {members flat : Entries}
    (hmembers : Assoc.find? node "properties" = some (.obj members))
    (hnone : Assoc.find? node "patternProperties" = none)
    (h : Ends (flattenEntries walk path "properties" members) state (· = flat) schemas) :
    Ends (flattenObject document walk node path) state (· = .canonical path)
      (Assoc.insert schemas path (Assoc.insert node "properties" (.obj flat))) :=
  ends_flattenObject_folded (ensures_foldCombiners_absent
    (fun _ hcombiner => find?_combiner hfree hcombiner) ⟨rfl, rfl⟩) hon hmembers hnone h

/-- An object with patterns stays in place with its patterns flattened. -/
theorem ends_flattenObject_patterns {members flat : Entries}
    (hnone : Assoc.find? node "properties" = none)
    (hmembers : Assoc.find? node "patternProperties" = some (.obj members))
    (h : Ends (flattenEntries walk path "patternProperties" members) state (· = flat) schemas) :
    Ends (flattenObject document walk node path) state
      (· = .inPlace (.obj (Assoc.insert node "patternProperties" (.obj flat)))) schemas := by
  refine ensures_flattenObject (ensures_foldCombiners_absent (fun _ h => find?_combiner hfree h)
    ⟨fun htrue => ?_, fun _ patterns hproperties _ => ?_, fun _ => ⟨fun other hother _ => ?_,
      fun other _ hother => ?_, fun _ hother => ?_⟩⟩)
  · cases hon.symm.trans htrue
  · cases hnone.symm.trans hproperties
  · cases hnone.symm.trans hother
  · obtain rfl := Option.some.inj (hmembers.symm.trans hother)
    refine ensures_flattenMembers (fun hother => absurd rfl (hother members)) fun entries heq => ?_
    obtain rfl := Json.obj.inj heq
    refine h.mono (fun found after hend => ?_) fun _ h => h
    obtain ⟨rfl, rfl⟩ := hend
    exact ⟨rfl, rfl⟩
  · cases hmembers.symm.trans hother

/-- An object with neither properties nor patterns stays as it is. -/
theorem ends_flattenObject_bare (hproperties : Assoc.find? node "properties" = none)
    (hpatterns : Assoc.find? node "patternProperties" = none) :
    Ends (flattenObject document walk node path) state (· = .inPlace (.obj node))
      state.schemas := by
  refine ensures_flattenObject (ensures_foldCombiners_absent (fun _ h => find?_combiner hfree h)
    ⟨fun htrue => ?_, fun _ _ hother _ => ?_, fun _ => ⟨fun other hother _ => ?_,
      fun other _ hother => ?_, fun _ _ => ⟨rfl, rfl⟩⟩⟩)
  · cases hon.symm.trans htrue
  · cases hproperties.symm.trans hother
  · cases hproperties.symm.trans hother
  · cases hpatterns.symm.trans hother

end Steps

section Flattened

variable {document : Json} {walk : Walker} {state : FlattenState} {path : SchemaPath}
  {node : Entries} {schemas : FlatSchemas}

/-- Putting a value under another key does not change the `$ref` of a schema. -/
theorem textRef?_insert {key : String} (hkey : key ≠ refKey) (value : Json) :
    textRef? (Assoc.insert node key value) = textRef? node := by
  rw [textRef?, Assoc.find?_insert_of_ne _ _ hkey, textRef?]

/-- Putting a value under a key other than `type` does not change whether a schema is an array. -/
theorem hasArrayType_insert {key : String} (hkey : key ≠ typeKey) (value : Json) :
    HasArrayType (Assoc.insert node key value) ↔ HasArrayType node := by
  rw [HasArrayType, Assoc.find?_insert_of_ne _ _ hkey, HasArrayType]

/-- Putting a value under a key other than `type` does not change whether a schema is an object. -/
theorem hasObjectType_insert {key : String} (hkey : key ≠ typeKey) (value : Json) :
    HasObjectType (Assoc.insert node key value) ↔ HasObjectType node := by
  rw [HasObjectType, Assoc.find?_insert_of_ne _ _ hkey, HasObjectType]

variable (hplain : textRef? node = none)

include hplain

/-- An array that has been flattened stays the same if its items do. -/
theorem ends_flattened_items (harray : HasArrayType node)
    (hon : isOn node "additionalItems" = false) {items : Json} (hsingle : ∀ list, items ≠ .arr list)
    (h : Ends (walk items (path.child "items")) state (fun walked => walked.toJson = items)
      schemas) :
    Ends (flattenSchema document walk (Assoc.insert node "items" items) path) state
      (· = .inPlace (.obj (Assoc.insert node "items" items))) schemas := by
  have hplain' : textRef? (Assoc.insert node "items" items) = none := by
    rwa [textRef?_insert (by decide)]
  have harray' : HasArrayType (Assoc.insert node "items" items) := by
    rwa [hasArrayType_insert (by decide)]
  have hon' : isOn (Assoc.insert node "items" items) "additionalItems" = false := by
    rwa [isOn_insert_of_ne _ (by decide)]
  have hleft := Assoc.find?_insert_self node "items" items
  rw [flattenSchema_of_array hplain' harray']
  exact (ends_flattenArray hon' hleft hsingle h).imp fun _ hend => by
    rwa [Assoc.insert_of_find? hleft] at hend

variable (hobject : HasObjectType node)

include hobject

/-- A schema that is walked as an object is so with another value under some other key. -/
theorem flattenSchema_insert {key : String} (hkey : key ≠ refKey) (hkey' : key ≠ typeKey)
    (value : Json) : flattenSchema document walk (Assoc.insert node key value) path =
      flattenObject document walk (Assoc.insert node key value) path :=
  flattenSchema_of_object ((textRef?_insert hkey value).trans hplain)
    ((hasObjectType_insert hkey' value).mpr hobject)

variable (hfree : lacksCombiners (.obj node)) (hon : isOn node "additionalProperties" = false)
  {flat : Entries}

include hfree hon

/-- A class that has been flattened gets the same entry if its properties stay the same. -/
theorem ends_flattened_properties (hnone : Assoc.find? node "patternProperties" = none)
    (h : Ends (flattenEntries walk path "properties" flat) state (· = flat) schemas) :
    Ends (flattenSchema document walk (Assoc.insert node "properties" (.obj flat)) path) state
      (· = .canonical path)
      (Assoc.insert schemas path (Assoc.insert node "properties" (.obj flat))) := by
  have hon' : isOn (Assoc.insert node "properties" (.obj flat)) "additionalProperties" =
      false := by
    rwa [isOn_insert_of_ne _ (by decide)]
  have hnone' : Assoc.find? (Assoc.insert node "properties" (.obj flat)) "patternProperties" =
      none := by
    rwa [Assoc.find?_insert_of_ne _ _ (by decide)]
  have hleft := Assoc.find?_insert_self node "properties" (.obj flat)
  have hend : Ends (flattenObject document walk _ path) state _ _ :=
    ends_flattenObject (lacksCombiners_insert hfree (by decide)) hon' hleft hnone' h
  rw [flattenSchema_insert hplain hobject (by decide) (by decide)]
  rwa [Assoc.insert_of_find? hleft] at hend

/-- A table of patterns that has been flattened stays the same if its members do. -/
theorem ends_flattened_patterns (hnone : Assoc.find? node "properties" = none)
    (h : Ends (flattenEntries walk path "patternProperties" flat) state (· = flat) schemas) :
    Ends (flattenSchema document walk (Assoc.insert node "patternProperties" (.obj flat)) path)
      state (· = .inPlace (.obj (Assoc.insert node "patternProperties" (.obj flat)))) schemas := by
  have hon' : isOn (Assoc.insert node "patternProperties" (.obj flat)) "additionalProperties" =
      false := by
    rwa [isOn_insert_of_ne _ (by decide)]
  have hnone' : Assoc.find? (Assoc.insert node "patternProperties" (.obj flat)) "properties" =
      none := by
    rwa [Assoc.find?_insert_of_ne _ _ (by decide)]
  have hleft := Assoc.find?_insert_self node "patternProperties" (.obj flat)
  have hend : Ends (flattenObject document walk _ path) state _ _ :=
    ends_flattenObject_patterns (lacksCombiners_insert hfree (by decide)) hon' hnone' hleft h
  rw [flattenSchema_insert hplain hobject (by decide) (by decide)]
  rwa [Assoc.insert_of_find? hleft] at hend

end Flattened

/-! ### Definitions are walked in the same way -/

/-- What the walk of a schema ends with if the same computation in the second document ends with
the same, as far as definitions are concerned. -/
structure Echo {α : Type} (path : SchemaPath) (x : FlattenM α) (state : FlattenState) (a : α)
    (after : FlattenState) : Prop where
  /-- What was listed still is. -/
  widens : Widens state after
  /-- Of a definition the computation ends with the same. -/
  ends : IsDefinition path → ∀ other, Beside state other → Ends x other (· = a) after.schemas

/-- Whether a walk through a document is echoed by another walk. -/
def Echoes (document : Json) (first second : Walker) : Prop :=
  ∀ schema path state, (document.at? path = some schema ∨ path ∈ Assoc.keys state.schemas) →
    Ensures (first schema path) state (Echo path (second schema path) state) fun _ => True

/-- Whether the definitions of a document are those of another one, and references lead to
definitions. -/
structure SharesDefinitions (document again : Json) : Prop where
  /-- Definitions are the same. -/
  at? : ∀ path, IsDefinition path → again.at? path = document.at? path
  /-- References lead to definitions. -/
  target : ∀ path node text target, document.at? path = some (.obj node) →
    textRef? node = some text → SchemaPath.ofPointer text = .ok target → IsDefinition target

section Echoes

variable {document again : Json} (hshared : SharesDefinitions document again)
  {first second : Walker} (hwalk : Echoes document first second) {path : SchemaPath}
  {node : Entries} (hnode : document.at? path = some (.obj node)) {state : FlattenState}

include hwalk

/-- Flattening the table of a definition ends with the same beside the walk, if its schemas do. -/
theorem echo_flattenEntries {keyword : String} {members : Entries}
    (hmembers : ∀ entry ∈ members, document.at? (path ++ [keyword, entry.1]) = some entry.2) :
    Ensures (flattenEntries first path keyword members) state
      (Echo path (flattenEntries second path keyword members) state) fun _ => True := by
  induction members generalizing state with
  | nil => exact ensures_pure ⟨.refl state, fun _ other h => ensures_pure ⟨rfl, h.schemas ▸ rfl⟩⟩
  | cons entry rest ih =>
    obtain ⟨name, member⟩ := entry
    refine ensures_flattenEntries_cons ((hwalk member _ state
      (.inl (hmembers _ List.mem_cons_self))).mono (fun walked between h => ?_) fun _ h => h)
    obtain ⟨hwidens, hecho⟩ := h
    refine (ih fun entry hentry => hmembers entry (List.mem_cons_of_mem _ hentry)).mono
      (fun flat after h => ?_) fun _ h => h
    obtain ⟨hwidens', hecho'⟩ := h
    refine ⟨hwidens.trans hwidens', fun hdefinition other hbeside => ?_⟩
    refine ends_flattenEntries_cons ?_ (hecho' hdefinition _ (hbeside.after hwidens))
    exact (hecho (hdefinition.append _) other hbeside).imp fun _ => congrArg Walked.toJson

include hshared hnode

/-- The walk of a definition ends with the same beside the walk, if those below it do. -/
theorem echo_flattenSchema (hwf : document.wellFormed) (hfree : combinerFree document) :
    Ensures (flattenSchema document first node path) state
      (Echo path (flattenSchema again second node path) state) fun _ => True := by
  have hlacks := lacksCombiners_of_at? hnode hfree
  refine ensures_flattenSchema (fun reference href => ?_) (fun href hshape => ?_)
    (fun href hshape => ?_) fun href hshape => ?_
  · obtain ⟨text, htext, rfl⟩ := Option.map_eq_some_iff.mp href
    rw [flattenSchema_of_textRef htext]
    refine ensures_followRef (fun _ _ _ => trivial) (fun target entry hpointer hentry => ?_)
      fun target schema hpointer hnew hschema => ?_
    · refine (hwalk (.obj entry) target state (.inr (Assoc.mem_keys_of_find? hentry))).mono
        (fun walked after h => ⟨h.widens, fun _ other hbeside => ?_⟩) fun _ h => h
      exact ends_followRef_listed hpointer (hbeside.schemas ▸ hentry)
        (h.ends (hshared.target path node text target hnode htext hpointer) other hbeside)
    -- the target is a definition, which both documents share
    · have hdefinition := hshared.target path node text target hnode htext hpointer
      refine (hwalk schema target state (.inl hschema)).mono
        (fun walked after h => ⟨h.widens, fun _ other hbeside => ?_⟩) fun _ h => h
      exact ends_followRef_stands hpointer (hbeside.schemas ▸ hnew)
        ((hshared.at? target hdefinition).trans hschema) (h.ends hdefinition other hbeside)
  · have hplain : textRef? node = none := Option.map_eq_none_iff.mp href
    rw [flattenSchema_of_object hplain (ofSchema_eq_object.mp hshape)]
    refine ensures_flattenObject_of_lacksCombiners hlacks (fun _ => trivial)
      (fun hon members hproperties hnone => ?_) (fun hon members hnone hpatterns => ?_)
      fun hon hnone hnone' => ?_
    · refine (echo_flattenEntries hwalk (fun _ => at?_of_mem_entry hwf hnode hproperties)).mono
        (fun flat after h => ⟨h.widens.insert _ _, fun hdefinition other hbeside => ?_⟩)
        fun _ h => h
      exact ends_flattenObject hlacks hon hproperties hnone (h.ends hdefinition other hbeside)
    · refine (echo_flattenEntries hwalk (fun _ => at?_of_mem_entry hwf hnode hpatterns)).mono
        (fun flat after h => ⟨h.widens, fun hdefinition other hbeside => ?_⟩) fun _ h => h
      exact ends_flattenObject_patterns hlacks hon hnone hpatterns
        (h.ends hdefinition other hbeside)
    · refine ⟨.refl state, fun _ other hbeside => ?_⟩
      exact hbeside.schemas ▸ ends_flattenObject_bare hlacks hon hnone hnone'
  · have hplain : textRef? node = none := Option.map_eq_none_iff.mp href
    rw [flattenSchema_of_array hplain (ofSchema_eq_array.mp hshape)]
    refine ensures_flattenArray (fun _ => trivial) (fun _ _ => trivial) (fun hon hnone => ?_)
      fun hon items hitems hsingle => ?_
    · exact ⟨.refl state, fun _ other hbeside =>
        hbeside.schemas ▸ ends_flattenArray_none hon hnone⟩
    · refine (hwalk items _ state (.inl ((at?_child hnode "items").trans hitems))).mono
        (fun walked after h => ⟨h.widens, fun hdefinition other hbeside => ?_⟩) fun _ h => h
      refine ends_flattenArray hon hitems hsingle ?_
      exact (h.ends (hdefinition.append ["items"]) other hbeside).imp fun _ =>
        congrArg Walked.toJson
  · have hplain : textRef? node = none := Option.map_eq_none_iff.mp href
    rw [flattenSchema_of_other hplain hshape]
    exact ⟨.refl state, fun _ other hbeside => ensures_pure ⟨rfl, hbeside.schemas ▸ rfl⟩⟩

omit hnode in
/-- If the walks below are echoed, so are the visits. -/
theorem echoes_visit (hwf : document.wellFormed) (hfree : combinerFree document) :
    Echoes document (visit document first) (visit again second) := by
  intro schema path state hschema
  -- a definition that is not being walked by the first walk is not by the second one
  have hmissed : path ∉ state.inProgress → IsDefinition path → ∀ other, Beside state other →
      path ∉ other.inProgress :=
    fun hnew hdefinition other hbeside hmet => hnew (hbeside.inProgress path hmet hdefinition)
  refine ensures_visit (fun _ => trivial) (fun hnew hkey => ?_) (fun node hobj hnew hkey => ?_)
    (fun value hbool hnew hkey => ?_) fun _ _ => trivial
  · refine ⟨.refl state, fun hdefinition other hbeside => ?_⟩
    exact ensures_visit_listed (hmissed hnew hdefinition other hbeside) (hbeside.schemas ▸ hkey)
      ⟨rfl, by rw [← hbeside.schemas]⟩
  · subst hobj
    refine (echo_flattenSchema hshared hwalk (hschema.resolve_right hkey) hwf hfree).mono
      (fun walked after h => ⟨h.widens.leave hnew, fun hdefinition other hbeside => ?_⟩)
      fun _ h => h
    exact ends_visit (hmissed hnew hdefinition other hbeside) (hbeside.schemas ▸ hkey)
      (h.ends hdefinition _ ((hbeside.inside path).enter fun _ =>
        List.mem_append_right _ List.mem_cons_self))
  · subst hbool
    refine ⟨.refl state, fun hdefinition other hbeside => ?_⟩
    have hend : Ends (visit again second (.bool value) path) other (· = .inPlace (.bool value))
        other.schemas :=
      ends_visit_bool (hmissed hnew hdefinition other hbeside) (hbeside.schemas ▸ hkey)
    rwa [hbeside.schemas] at hend

end Echoes

/-- The walk of a document is echoed by that of any other with the same definitions. -/
theorem echoes_walk {document again : Json} (hshared : SharesDefinitions document again)
    (hwf : document.wellFormed) (hfree : combinerFree document) {depth deeper : Nat}
    (hle : depth ≤ deeper) :
    Echoes document (walk document depth) (walk again deeper) := by
  induction depth generalizing deeper with
  | zero => exact fun _ _ _ _ => ensures_throw trivial
  | succ depth ih =>
    obtain ⟨deeper, rfl⟩ := Nat.exists_eq_add_of_le' (Nat.lt_of_lt_of_le (Nat.succ_pos _) hle)
    exact echoes_visit hshared (ih (Nat.le_of_succ_le_succ hle)) hwf hfree

/-! ### What has been flattened stays the same -/

/-- Whether nothing but the root and definitions is listed. -/
def ListsDefinitions (schemas : FlatSchemas) : Prop :=
  ∀ path ∈ Assoc.keys schemas, path ≠ .root → IsDefinition path

/-- Whether a place outside of the definitions lies deeper than all others that are being walked. -/
structure Fresh (inProgress : List SchemaPath) (place : SchemaPath) : Prop where
  /-- It is not the root. -/
  below : place ≠ .root
  /-- It lies outside of the definitions. -/
  outside : ¬IsDefinition place
  /-- It lies deeper than all others. -/
  deeper : ∀ other ∈ inProgress, IsDefinition other ∨ other.length < place.length

section Fresh

variable {inProgress : List SchemaPath} {place : SchemaPath}

/-- A place that is deeper than all others is not being walked. -/
theorem Fresh.not_mem (h : Fresh inProgress place) : place ∉ inProgress :=
  fun hmem => (h.deeper place hmem).elim h.outside (Nat.lt_irrefl _)

/-- A place that is deeper than all others is not listed, if only the root and definitions are. -/
theorem Fresh.not_mem_keys (h : Fresh inProgress place) {schemas : FlatSchemas}
    (hlists : ListsDefinitions schemas) : place ∉ Assoc.keys schemas :=
  fun hkey => h.outside (hlists place hkey h.below)

/-- A place below it is so in turn, once the place itself is being walked. -/
theorem Fresh.append (h : Fresh inProgress place) {segment : String}
    (hsegment : segment ≠ "definitions") (rest : List String) :
    Fresh (inProgress ++ [place]) (place ++ segment :: rest) where
  below := fun heq => by
    have hnil := congrArg SchemaPath.segments heq
    rw [SchemaPath.segments_append] at hnil
    exact List.append_ne_nil_of_right_ne_nil _ (List.cons_ne_nil _ _) hnil
  outside := not_isDefinition_append h.outside hsegment rest
  deeper := by
    have hlength : (place ++ segment :: rest).length = place.length + (rest.length + 1) :=
      List.length_append
    intro other hother
    rcases List.mem_append.mp hother with hold | hlast
    · refine (h.deeper other hold).imp id fun hless => ?_
      omega
    · obtain rfl := List.mem_singleton.mp hlast
      refine .inr ?_
      omega

/-- The properties of the root are so. -/
theorem fresh_property (name : String) :
    Fresh [.root] (SchemaPath.root ++ ["properties", name]) where
  below := nofun
  outside := by
    have hroot : ¬IsDefinition .root := nofun
    exact not_isDefinition_append hroot (by decide) [name]
  deeper := by
    intro other hother
    rw [List.mem_singleton.mp hother]
    exact .inr Nat.zero_lt_two

end Fresh

/-- What the walk of a schema ends with if walking what has become of it ends with the same. -/
structure Recur (second : Walker) (state : FlattenState) (walked : Walked)
    (after : FlattenState) : Prop where
  /-- What was listed still is. -/
  widens : Widens state after
  /-- What has become of the schema is not several ones. -/
  single : ∀ list, walked.toJson ≠ .arr list
  /-- Wherever that stands outside of the definitions, it stays the same. -/
  ends : ListsDefinitions after.schemas → ∀ other place, Beside state other →
    Fresh other.inProgress place → Ends (second walked.toJson place) other
      (fun found => found.toJson = walked.toJson) after.schemas

/-- Whether another walk leaves what has become of a schema as it is. -/
def Recurs (document : Json) (first second : Walker) : Prop :=
  ∀ schema path state, .root ∈ state.inProgress →
    (document.at? path = some schema ∨ path ∈ Assoc.keys state.schemas) →
    Ensures (first schema path) state (Recur second state) fun _ => True

section Recurs

variable {document again : Json} {first second : Walker} {path : SchemaPath} {node : Entries}
  {state : FlattenState}

/-- If what has become of schemas stays as it is, so does the flattened table of such schemas. -/
theorem recur_flattenEntries (hwalk : Recurs document first second) {keyword : String}
    {members : Entries}
    (hmembers : ∀ entry ∈ members, document.at? (path ++ [keyword, entry.1]) = some entry.2)
    (hroot : .root ∈ state.inProgress) :
    Ensures (flattenEntries first path keyword members) state
      (fun flat after => Widens state after ∧
        (ListsDefinitions after.schemas → ∀ other place, Beside state other →
          (∀ name, Fresh other.inProgress (place ++ [keyword, name])) →
          Ends (flattenEntries second place keyword flat) other (· = flat) after.schemas))
      fun _ => True := by
  induction members generalizing state with
  | nil =>
    exact ensures_pure ⟨.refl state, fun _ other _ h _ => ensures_pure ⟨rfl, h.schemas ▸ rfl⟩⟩
  | cons entry rest ih =>
    obtain ⟨name, member⟩ := entry
    refine ensures_flattenEntries_cons ((hwalk member _ state hroot
      (.inl (hmembers _ List.mem_cons_self))).mono (fun walked between h => ?_) fun _ h => h)
    obtain ⟨hwidens, -, hrecur⟩ := h
    refine (ih (fun entry hentry => hmembers entry (List.mem_cons_of_mem _ hentry))
      (hwidens.inProgress ▸ hroot)).mono (fun flat after h => ?_) fun _ h => h
    obtain ⟨hwidens', hrecur'⟩ := h
    refine ⟨hwidens.trans hwidens', fun hlists other place hbeside hfresh => ?_⟩
    have hbetween : ListsDefinitions between.schemas :=
      fun path hpath => hlists path (hwidens'.keys hpath)
    exact ends_flattenEntries_cons (hrecur hbetween other _ hbeside (hfresh name))
      (hrecur' hlists _ place (hbeside.after hwidens) hfresh)

/-- The second walk comes to a place at which nothing is listed. -/
theorem ends_visit_fresh {after other : FlattenState} (hwidens : Widens state after)
    (hlists : ListsDefinitions after.schemas) (hbeside : Beside state other) {place : SchemaPath}
    (hfresh : Fresh other.inProgress place) {left : Entries} {result : Walked → Prop}
    (h : ∀ inner, Beside state inner →
      (∀ segment rest, segment ≠ "definitions" →
        Fresh inner.inProgress (place ++ segment :: rest)) →
      Ends (flattenSchema again second left place) inner result after.schemas) :
    Ends (visit again second (.obj left) place) other result after.schemas := by
  have hlists' : ListsDefinitions other.schemas :=
    fun path hpath => hlists path (hwidens.keys (hbeside.schemas ▸ hpath))
  refine ends_visit hfresh.not_mem (hfresh.not_mem_keys hlists') (h _ (hbeside.enter ?_) ?_)
  · exact fun hdefinition => absurd hdefinition hfresh.outside
  · exact fun segment rest hsegment => hfresh.append hsegment rest

/-- A schema that was left in place stays the same if it is walked in the same steps again. -/
theorem recur_inPlace {after : FlattenState} (hwidens : Widens state after) {left : Entries}
    (h : ListsDefinitions after.schemas → ∀ place inner, Beside state inner →
      (∀ segment rest, segment ≠ "definitions" →
        Fresh inner.inProgress (place ++ segment :: rest)) →
      Ends (flattenSchema again second left place) inner (· = .inPlace (.obj left))
        after.schemas) :
    Recur (visit again second) state (.inPlace (.obj left)) after :=
  ⟨hwidens, fun _ => nofun, fun hlists _ place hbeside hfresh =>
    (ends_visit_fresh hwidens hlists hbeside hfresh (h hlists place)).imp fun _ =>
      congrArg Walked.toJson⟩

/-- A reference that was put in the place of a schema stays the same if what it leads to is listed
there. -/
theorem recur_canonical {after : FlattenState} (hwidens : Widens state after)
    (hkey : path ∈ Assoc.keys after.schemas) (hne : path ≠ .root)
    (h : IsDefinition path → ∀ inner, Beside state inner →
      Ends (followRef again second (.unresolved path.toPointer)) inner (· = .canonical path)
        after.schemas) :
    Recur (visit again second) state (.canonical path) after := by
  refine ⟨hwidens, fun _ => nofun, fun hlists other place hbeside hfresh => ?_⟩
  have htext : textRef? [(refKey, .str (Reference.canonical path).toPointer)] =
      some path.toPointer := rfl
  refine (ends_visit_fresh hwidens hlists hbeside hfresh fun inner hinner _ => ?_).imp
    fun _ => congrArg Walked.toJson
  rw [flattenSchema_of_textRef htext]
  exact h (hlists path hkey hne) inner hinner

/-- What is left in place of a schema stays the same; a class is listed. -/
theorem recur_flattenSchema (hwf : document.wellFormed) (hfree : combinerFree document)
    (hwalk : Recurs document first second) (halias : Recurs document first (visit again second))
    (hnode : document.at? path = some (.obj node)) (hroot : .root ∈ state.inProgress) :
    Ensures (flattenSchema document first node path) state
      (fun walked after => walked = .canonical path ∧ path ∈ Assoc.keys after.schemas ∨
        Recur (visit again second) state walked after) fun _ => True := by
  have hlacks := lacksCombiners_of_at? hnode hfree
  refine ensures_flattenSchema (fun reference href => ?_) (fun href hshape => ?_)
    (fun href hshape => ?_) fun href hshape => ?_
  · refine ensures_followRef (fun _ _ _ => trivial) (fun target entry hpointer hentry => ?_)
      fun target schema hpointer hnew hschema => ?_
    · exact (halias (.obj entry) target state hroot
        (.inr (Assoc.mem_keys_of_find? hentry))).mono (fun _ _ => .inr) fun _ h => h
    · exact (halias schema target state hroot (.inl hschema)).mono (fun _ _ => .inr) fun _ h => h
  · have hplain : textRef? node = none := Option.map_eq_none_iff.mp href
    have hobject := ofSchema_eq_object.mp hshape
    refine ensures_flattenObject_of_lacksCombiners hlacks (fun _ => trivial)
      (fun _ members hproperties _ => ?_) (fun hon members hnone hpatterns => ?_)
      fun hon hnone hnone' => .inr ?_
    · refine (recur_flattenEntries hwalk (fun _ => at?_of_mem_entry hwf hnode hproperties)
        hroot).mono (fun flat after h => .inl ⟨rfl, ?_⟩) fun _ h => h
      exact Assoc.mem_keys_insert.mpr (.inr rfl)
    · refine (recur_flattenEntries hwalk (fun _ => at?_of_mem_entry hwf hnode hpatterns) hroot).mono
        (fun flat after h => .inr ?_) fun _ h => h
      obtain ⟨hwidens, hrecur⟩ := h
      refine recur_inPlace hwidens fun hlists place inner hbeside hfresh => ?_
      exact ends_flattened_patterns hplain hobject hlacks hon hnone (hrecur hlists inner place
        hbeside fun name => hfresh "patternProperties" [name] (by decide))
    · refine recur_inPlace (.refl state) fun _ place inner hbeside _ => ?_
      rw [flattenSchema_of_object hplain hobject]
      exact hbeside.schemas ▸ ends_flattenObject_bare hlacks hon hnone hnone'
  · have hplain : textRef? node = none := Option.map_eq_none_iff.mp href
    have harray := ofSchema_eq_array.mp hshape
    refine ensures_flattenArray (fun _ => trivial) (fun _ _ => trivial)
      (fun hon hnone => .inr ?_) fun hon items hitems _ => ?_
    · refine recur_inPlace (.refl state) fun _ place inner hbeside _ => ?_
      rw [flattenSchema_of_array hplain harray]
      exact hbeside.schemas ▸ ends_flattenArray_none hon hnone
    · refine (hwalk items _ state hroot (.inl ((at?_child hnode "items").trans hitems))).mono
        (fun walked after h => .inr ?_) fun _ h => h
      obtain ⟨hwidens, hsingle, hrecur⟩ := h
      refine recur_inPlace hwidens fun hlists place inner hbeside hfresh => ?_
      exact ends_flattened_items hplain harray hon hsingle
        (hrecur hlists inner (place.child "items") hbeside (hfresh "items" [] (by decide)))
  · have hplain : textRef? node = none := Option.map_eq_none_iff.mp href
    refine .inr (recur_inPlace (.refl state) fun _ place inner hbeside _ => ?_)
    rw [flattenSchema_of_other hplain hshape]
    exact ensures_pure ⟨rfl, hbeside.schemas ▸ rfl⟩

/-- Whether a walk takes over what is listed. -/
def Stays (walk : Walker) : Prop :=
  ∀ schema path state, path ∉ state.inProgress → path ∈ Assoc.keys state.schemas →
    Ends (walk schema path) state (· = .canonical path) state.schemas

/-- A visit takes over what is listed, whatever the walks below do. -/
theorem stays_visit (document : Json) (walk : Walker) : Stays (visit document walk) :=
  fun _ _ _ hnew hkey => ensures_visit_listed hnew hkey ⟨rfl, rfl⟩

/-- The walk of a class that is listed then is echoed by the walk of its place. -/
theorem recurs_visit (hshared : SharesDefinitions document again) (hwf : document.wellFormed)
    (hfree : combinerFree document) (hwalk : Recurs document first second)
    (halias : Recurs document first (visit again second))
    (hecho : Echoes document (visit document first) second) (hstays : Stays second) :
    Recurs document (visit document first) (visit again second) := by
  intro schema path state hroot hschema
  have hinner : path ∉ state.inProgress → path ≠ .root := fun hnew heq => hnew (heq ▸ hroot)
  have hcases : Ensures (visit document first schema path) state (fun walked after =>
      (walked = .canonical path ∧ path ∈ Assoc.keys after.schemas ∧ path ≠ .root ∧
        path ∉ Assoc.keys state.schemas) ∨ Recur (visit again second) state walked after)
      fun _ => True := by
    refine ensures_visit (fun _ => trivial) (fun hnew hkey => .inr ?_)
      (fun node hobj hnew hkey => ?_) (fun value hbool hnew hkey => .inr ?_) fun _ _ => trivial
    · refine recur_canonical (.refl state) hkey (hinner hnew) fun hdefinition other hbeside => ?_
      obtain ⟨entry, hentry⟩ := Assoc.exists_find?_of_mem_keys hkey
      have hmissed : path ∉ other.inProgress :=
        fun hmet => hnew (hbeside.inProgress path hmet hdefinition)
      refine ends_followRef_listed path.ofPointer_toPointer (hbeside.schemas ▸ hentry) ?_
      exact hbeside.schemas ▸ hstays (.obj entry) path other hmissed (hbeside.schemas ▸ hkey)
    · subst hobj
      refine (recur_flattenSchema hwf hfree hwalk halias (hschema.resolve_right hkey)
        (List.mem_append_left _ hroot)).mono (fun walked after h => ?_) fun _ h => h
      rcases h with ⟨rfl, hlisted⟩ | ⟨hwidens, hsingle, hrecur⟩
      · exact .inl ⟨rfl, hlisted, hinner hnew, hkey⟩
      · exact .inr ⟨hwidens.leave hnew, hsingle, fun hlists other place hbeside =>
          hrecur hlists other place (hbeside.inside path)⟩
    · refine ⟨.refl state, fun _ => nofun, fun hlists other place hbeside hfresh => ?_⟩
      have hplace : place ∉ Assoc.keys other.schemas :=
        hbeside.schemas ▸ hfresh.not_mem_keys hlists
      exact hbeside.schemas ▸ (ends_visit_bool hfresh.not_mem hplace).imp fun _ =>
        congrArg Walked.toJson
  refine ((hecho schema path state hschema).and hcases).mono (fun walked after h => ?_)
    fun _ h => h
  obtain ⟨⟨hwidens, hechoed⟩, ⟨rfl, hkey, hne, hnew⟩ | hrecur⟩ := h
  · -- what the reference leads to is walked as it was by the first walk
    refine recur_canonical hwidens hkey hne fun hdefinition other hbeside => ?_
    exact ends_followRef_stands path.ofPointer_toPointer (hbeside.schemas ▸ hnew)
      ((hshared.at? path hdefinition).trans (hschema.resolve_right hnew))
      (hechoed hdefinition other hbeside)
  · exact hrecur

end Recurs

/-- A walk leaves what has become of a schema of the first document as it is. -/
theorem recurs_walk {document again : Json} (hshared : SharesDefinitions document again)
    (hwf : document.wellFormed) (hfree : combinerFree document) {depth deeper : Nat}
    (hlt : depth < deeper) :
    Recurs document (walk document depth) (walk again deeper) := by
  induction depth generalizing deeper with
  | zero => exact fun _ _ _ _ _ => ensures_throw trivial
  | succ depth ih =>
    -- the second walk goes one reference deeper, and from there as deep as the first
    obtain ⟨deeper, rfl⟩ : ∃ n, deeper = n + 2 := ⟨deeper - 2, by omega⟩
    have hwalk : Recurs document (walk document depth) (walk again (deeper + 1)) := ih (by omega)
    have halias : Recurs document (walk document depth) (walk again (deeper + 2)) := ih (by omega)
    have hecho : Echoes document (walk document (depth + 1)) (walk again (deeper + 1)) :=
      echoes_walk hshared hwf hfree (by omega)
    exact recurs_visit hshared hwf hfree hwalk halias hecho (stays_visit again (walk again deeper))

/-! ### The root -/

section Normal

variable {test : Json → Bool}
  (hkeys : ∀ {entries entries' : Entries}, Assoc.keys entries' = Assoc.keys entries →
    test (.obj entries) → test (.obj entries'))

include hkeys

/-- A new value under a key of an object. -/
theorem everywhere_insert {node : Entries} (hnode : (Json.obj node).everywhere test) {key : String}
    (hkey : key ∈ Assoc.keys node) {value : Json} (hvalue : value.everywhere test) :
    (Json.obj (Assoc.insert node key value)).everywhere test := by
  refine Json.everywhere_obj.mpr ⟨hkeys ?_ (Json.test_of_everywhere hnode), fun entry hentry => ?_⟩
  · rw [Assoc.keys_insert, if_pos ((Assoc.mem_keys_iff_contains _ _).mp hkey)]
  · rcases Assoc.mem_insert hentry with hold | rfl
    · exact (Json.everywhere_obj.mp hnode).2 entry hold
    · exact hvalue

/-- New values under all keys of an object that stands under a key of another one. -/
theorem everywhere_insert_flat {node members flat : Entries}
    (hnode : (Json.obj node).everywhere test) {key : String}
    (hmembers : Assoc.find? node key = some (.obj members))
    (hflat : Assoc.keys flat = Assoc.keys members)
    (hvalues : ∀ name value, (name, value) ∈ flat → value.everywhere test) :
    (Json.obj (Assoc.insert node key (.obj flat))).everywhere test := by
  have htable := (Json.everywhere_obj.mp hnode).2 _ (Assoc.mem_of_find? hmembers)
  refine everywhere_insert hkeys hnode (Assoc.mem_keys_of_find? hmembers)
    (Json.everywhere_obj.mpr ⟨hkeys hflat (Json.test_of_everywhere htable), ?_⟩)
  exact fun entry hentry => hvalues entry.1 entry.2 hentry

/-- What asks for the keys of objects only holds of normal forms. -/
theorem Normal.everywhere {document value : Json} {listed : SchemaPath → Prop} {path : SchemaPath}
    (h : Normal document listed path value) (hdocument : document.everywhere test)
    (hreference : ∀ path : SchemaPath, (Reference.canonical path).toSchema.everywhere test) :
    value.everywhere test := by
  induction h with
  | ref _ _ _ _ ih => exact ih
  | canonical => exact hreference _
  | items hnode _ _ _ hitems _ ih =>
    exact everywhere_insert hkeys (Json.everywhere_of_descend? hnode hdocument)
      (Assoc.mem_keys_of_find? hitems) ih
  | patterns hnode _ _ _ hmembers hflat _ ih =>
    exact everywhere_insert_flat hkeys (Json.everywhere_of_descend? hnode hdocument) hmembers hflat
      ih
  | same hnode => exact Json.everywhere_of_descend? hnode hdocument
  | bool hvalue => exact Json.everywhere_of_descend? hvalue hdocument

/-- And of entries. -/
theorem IsEntry.everywhere {document : Json} {listed : SchemaPath → Prop} {path : SchemaPath}
    {entry : Entries} (h : IsEntry document listed path entry)
    (hdocument : document.everywhere test)
    (hreference : ∀ path : SchemaPath, (Reference.canonical path).toSchema.everywhere test) :
    (Json.obj entry).everywhere test := by
  obtain ⟨node, members, flat, hnode, hmembers, rfl, hflat, hvalues⟩ := h
  exact everywhere_insert_flat hkeys (Json.everywhere_of_descend? hnode hdocument) hmembers hflat
    fun name value hmem => (hvalues name value hmem).everywhere hkeys hdocument hreference

end Normal

variable {document : Json} {path : SchemaPath} {entry : Entries} {listed : SchemaPath → Prop}

/-- The entry of a well-formed document is well-formed. -/
theorem wellFormed_of_isEntry (h : IsEntry document listed path entry)
    (hwf : document.wellFormed) : (Json.obj entry).wellFormed := by
  refine h.everywhere (fun hkeys hclear => ?_) hwf fun path => ?_
  · have hnodup := of_decide_eq_true hclear
    exact decide_eq_true (hkeys ▸ hnodup)
  · exact Json.wellFormed_obj.mpr ⟨List.nodup_singleton _, fun entry hentry => by
      rw [List.mem_singleton.mp hentry]; rfl⟩

/-- The entry of a document without combiners has none. -/
theorem combinerFree_of_isEntry (h : IsEntry document listed path entry)
    (hfree : combinerFree document) : combinerFree (.obj entry) := by
  refine h.everywhere (fun hkeys hlacks => ?_) hfree fun path => ?_
  · rw [lacksCombiners_obj] at hlacks ⊢
    intro combiner hcombiner
    rw [Assoc.find?_eq_none_iff, hkeys, ← Assoc.find?_eq_none_iff]
    exact hlacks combiner hcombiner
  · have hlacks : lacksCombiners (Reference.canonical path).toSchema := by
      refine lacksCombiners_obj.mpr fun combiner hcombiner => ?_
      have hne : refKey ≠ combiner := fun heq => absurd (heq ▸ hcombiner) (by decide)
      rw [Assoc.find?, if_neg hne, Assoc.find?]
    refine Json.everywhere_obj.mpr ⟨hlacks, fun entry hentry => ?_⟩
    rw [List.mem_singleton.mp hentry]
    rfl

/-- What stands outside of the definitions of a document does not matter for them. -/
theorem sharesDefinitions_insert {node : Entries}
    (hrefs : ∀ place text, (place, text) ∈ (Json.obj node).refs →
      ∃ target, SchemaPath.ofPointer text = .ok target ∧ IsDefinition target) {key : String}
    (hkey : key ≠ "definitions") (value : Json) :
    SharesDefinitions (.obj node) (.obj (Assoc.insert node key value)) where
  at? := by
    intro path hdefinition
    obtain ⟨rest, hpath⟩ := List.head?_eq_some_iff.mp hdefinition
    rw [Json.at?, Json.at?, hpath, Json.descend?, Json.descend?, Json.step?, Json.step?,
      Assoc.find?_insert_of_ne _ _ hkey]
  target := by
    intro path source text target hsource htext htarget
    obtain ⟨place, hplace⟩ := Json.exists_standsAt_of_descend? hsource
    obtain ⟨other, hother, hdefinition⟩ := hrefs place text (Json.mem_refs.mpr ⟨_, hplace, htext⟩)
    obtain rfl := Except.ok.inj (htarget.symm.trans hother)
    exact hdefinition

/-- The walk of the root leaves an entry, and the walk of this lists the same. -/
theorem recur_root {node : Entries} {again : Json} {first second : Walker}
    (hwf : (Json.obj node).wellFormed) (hclass : IsClass (.obj node) .root)
    (hfree : lacksCombiners (.obj node)) (hwalk : Recurs (.obj node) first second) :
    Ensures (visit (.obj node) first (.obj node) .root) {}
      (fun _ after => ListsDefinitions after.schemas →
        ∀ entry, Assoc.find? after.schemas .root = some entry →
          Ends (visit again second (.obj entry) .root) {} (· = .canonical .root) after.schemas)
      fun _ => True := by
  obtain ⟨_, hself, hplain, hobject, hproperties⟩ := hclass
  obtain rfl := Json.obj.inj (Option.some.inj hself)
  refine ensures_visit (fun _ => trivial) (fun _ hkey => absurd hkey List.not_mem_nil)
    (fun _ hobj _ _ => ?_) (fun _ => nofun) fun hother _ => absurd rfl (hother node)
  obtain rfl := Json.obj.inj hobj
  rw [flattenSchema_of_object hplain hobject]
  refine ensures_flattenObject_of_lacksCombiners hfree (fun _ => trivial)
    (fun hon members hmembers hnone => ?_) (fun _ _ hnone _ => ?_) fun _ hnone _ => ?_
  · refine (recur_flattenEntries hwalk (fun _ => at?_of_mem_entry hwf hself hmembers)
      List.mem_cons_self).mono (fun flat after h hlists entry hentry => ?_) fun _ h => h
    rw [Assoc.find?_insert_self] at hentry
    obtain rfl := Option.some.inj hentry
    obtain ⟨-, hrecur⟩ := h
    have hflat := hrecur (fun path hpath => hlists path (Assoc.mem_keys_insert.mpr (.inl hpath)))
      { inProgress := [.root] } .root ⟨rfl, fun _ hplace _ => hplace⟩ fresh_property
    exact ends_visit List.not_mem_nil List.not_mem_nil
      (ends_flattened_properties hplain hobject hfree hon hnone hflat)
  · rw [hnone] at hproperties
    cases hproperties
  · rw [hnone] at hproperties
    cases hproperties

/-- If references lead to definitions only, and nothing but the root and definitions is listed, the
entry of the root is flattened to the same table. -/
theorem flatten_root_entry (hwf : document.wellFormed) (hfree : combinerFree document)
    (hrefs : ∀ place text, (place, text) ∈ document.refs →
      ∃ target, SchemaPath.ofPointer text = .ok target ∧ IsDefinition target)
    {schemas : FlatSchemas} (hflatten : flatten document = .ok schemas)
    (hroot : Assoc.find? schemas .root = some entry) (hlists : ListsDefinitions schemas) :
    flatten (.obj entry) = .ok schemas := by
  obtain ⟨walked, after, hrun, rfl⟩ := exists_run_of_flattenWithin hflatten
  obtain ⟨⟨-, hsound, -⟩, -⟩ := (found_root hwf hfree (Nat.le_refl _)).of_eq_ok hrun
  have hclass := hsound.isClass .root (Assoc.mem_keys_of_find? hroot)
  have hentry := hsound.isEntry .root entry hroot
  obtain ⟨node, members, flat, hnode, -, heq, -⟩ := id hentry
  obtain rfl : document = .obj node := Option.some.inj hnode
  have hshared : SharesDefinitions (.obj node) (.obj entry) :=
    heq ▸ sharesDefinitions_insert hrefs (by decide) (.obj flat)
  -- the second walk needs one more step down for the references that the first has left
  obtain ⟨depth, hdepth⟩ : ∃ depth, depthBound (.obj node) = depth + 1 :=
    Nat.exists_eq_add_one.mpr (Nat.mul_pos (Nat.succ_pos _) (Nat.succ_pos _))
  rw [hdepth] at hrun
  have hwalk := recurs_walk hshared hwf hfree (Nat.lt_succ_self depth)
  have hend : Ends (walk (.obj entry) (depth + 2) (.obj entry) .root) {} (· = .canonical .root)
      after.schemas :=
    (recur_root hwf hclass (lacksCombiners_of_at? hnode hfree) hwalk).of_eq_ok hrun hlists entry
      hroot
  obtain ⟨_, _, hagain, -, rfl⟩ := hend.exists_ok
  have hwithin : flattenWithin (depth + 2) (.obj entry) = .ok after.schemas := by
    rw [flattenWithin_eq rfl]
    exact congrArg (Except.map fun result => result.2.schemas) hagain
  -- neither depth is too small
  have hdeep := flatten_ne_tooDeep (wellFormed_of_isEntry hentry hwf)
    (combinerFree_of_isEntry hentry hfree)
  have hdeep' : flattenWithin (depth + 2) (.obj entry) ≠ .error .tooDeep := hwithin ▸ nofun
  calc flatten (.obj entry)
      = flattenWithin (max (depthBound (.obj entry)) (depth + 2)) (.obj entry) :=
        (flattenWithin_of_le (Nat.le_max_left _ _) hdeep).symm
    _ = flattenWithin (depth + 2) (.obj entry) :=
        flattenWithin_of_le (Nat.le_max_right _ _) hdeep'
    _ = .ok after.schemas := hwithin

/-- A document that refers to a definition, and to the same by way of another one. -/
def journey : Json :=
  .obj [
    ("properties", .obj [
      ("start", .obj [(refKey, .str "#/definitions/place")]),
      ("stops", .obj [
        (typeKey, .str "array"), ("items", .obj [(refKey, .str "#/definitions/stop")])]),
      ("title", .obj [(typeKey, .str "string")])]),
    ("definitions", .obj [
      ("place", .obj [("properties", .obj [("owner", .obj [("properties", .obj [])])])]),
      ("stop", .obj [(refKey, .str "#/definitions/place")])])]

/-- The entry of the journey refers to the place directly, and it is flattened to the same table. -/
theorem flatten_root_entry_journey : journey.wellFormed ∧ combinerFree journey ∧
    (∀ place text, (place, text) ∈ journey.refs →
      ∃ target, SchemaPath.ofPointer text = .ok target ∧ IsDefinition target) ∧
    ∃ schemas entry, flatten journey = .ok schemas ∧
      Assoc.keys schemas = [⟨["definitions", "place", "properties", "owner"]⟩,
        ⟨["definitions", "place"]⟩, .root] ∧
      Assoc.find? schemas .root = some entry ∧ ListsDefinitions schemas ∧
      flatten (.obj entry) = .ok schemas := by
  have hwf : journey.wellFormed := by decide
  have hfree : combinerFree journey := by decide
  have hrefs : ∀ place text, (place, text) ∈ journey.refs →
      ∃ target, SchemaPath.ofPointer text = .ok target ∧ IsDefinition target := by
    have htexts : ∀ ref ∈ journey.refs, ((SchemaPath.ofPointer ref.2).toOption.bind
        fun target => target.segments.head?) = some "definitions" := by decide +kernel
    intro place text hmem
    have htext := htexts _ hmem
    cases htarget : SchemaPath.ofPointer text with
    | error error => rw [htarget] at htext; cases htext
    | ok target => rw [htarget] at htext; exact ⟨target, rfl, htext⟩
  obtain ⟨schemas, hflatten, hkeys⟩ := exists_of_keys (by decide +kernel :
    (flatten journey).toOption.map Assoc.keys =
      some [⟨["definitions", "place", "properties", "owner"]⟩, ⟨["definitions", "place"]⟩, .root])
  have hlists : ListsDefinitions schemas := by
    have hall : ∀ path ∈ ([⟨["definitions", "place", "properties", "owner"]⟩,
        ⟨["definitions", "place"]⟩, .root] : List SchemaPath),
        path ≠ .root → path.segments.head? = some "definitions" := by decide
    exact fun path hpath => hall path (hkeys ▸ hpath)
  have hroot : SchemaPath.root ∈ Assoc.keys schemas := by rw [hkeys]; decide
  obtain ⟨entry, hentry⟩ := Assoc.exists_find?_of_mem_keys hroot
  exact ⟨hwf, hfree, hrefs, schemas, entry, hflatten, hkeys, hentry, hlists,
    flatten_root_entry hwf hfree hrefs hflatten hentry hlists⟩

end SchemaClasses.Flatten
