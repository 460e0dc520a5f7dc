import Mathlib.Tactic.SplitIfs
import SchemaClasses.Flatten.Walk
import SchemaClasses.Proofs.Tables

/-!
# What a step of the walk ends with

`FlattenM.Ensures x state good fail` says that a computation which is run from a state ends either
with a result and a state that are `good`, or with an error that may `fail`. Each step of the walk
has one rule here (`ensures_visit`, `ensures_flattenObject`, …), which says what is to be shown of
the schemas below and of the errors, so that no other proof has to open a step.

The steps are defined over the walk of the schemas below. `admissible_visit` says what they make of
it: a property of families of computations that has the constant families and is closed under
sequencing carries over from the walk below to the walk of a schema. With the family of two depths
it says that more depth does not change what has been found (`walk_of_le`).
-/

namespace SchemaClasses

namespace FlattenM

variable {α β : Type} {state : FlattenState} {good : α → FlattenState → Prop}
  {fail : FlattenError → Prop}

/-- Whether a computation ends with a good result or an error that is allowed for. -/
def Ensures (x : FlattenM α) (state : FlattenState) (good : α → FlattenState → Prop)
    (fail : FlattenError → Prop) : Prop :=
  match x.run state with
  | .ok (a, after) => good a after
  | .error error => fail error

/-- A result that is good may be returned. -/
theorem ensures_pure {a : α} (h : good a state) : Ensures (pure a) state good fail := h

/-- An error that is allowed for may be thrown. -/
theorem ensures_throw {error : FlattenError} (h : fail error) :
    Ensures (throw error) state good fail := h

/-- Of two computations in sequence, the second has to end well wherever the first may end. -/
theorem ensures_bind {x : FlattenM α} {f : α → FlattenM β} {good : β → FlattenState → Prop}
    (h : Ensures x state (fun a after => Ensures (f a) after good fail) fail) :
    Ensures (x >>= f) state good fail := by
  unfold Ensures at h ⊢
  rw [StateT.run_bind]
  cases hx : x.run state with
  | error e => rw [hx] at h; exact h
  | ok result => rw [hx] at h; exact h

/-- The state may be read if it is good as it is. -/
theorem ensures_get {good : FlattenState → FlattenState → Prop} (h : good state state) :
    Ensures get state good fail := h

/-- A state that is good may be put in place of the present one. -/
theorem ensures_set {after : FlattenState} {good : PUnit → FlattenState → Prop}
    (h : good ⟨⟩ after) : Ensures (set after) state good fail := h

/-- The state may be changed into one that is good. -/
theorem ensures_modify {f : FlattenState → FlattenState} {good : PUnit → FlattenState → Prop}
    (h : good ⟨⟩ (f state)) : Ensures (modify f) state good fail := h

/-- What is ensured may be weakened. -/
theorem Ensures.mono {x : FlattenM α} {good' : α → FlattenState → Prop}
    {fail' : FlattenError → Prop} (h : Ensures x state good fail)
    (hgood : ∀ a after, good a after → good' a after) (hfail : ∀ error, fail error → fail' error) :
    Ensures x state good' fail' := by
  unfold Ensures at h ⊢
  cases hx : x.run state with
  | error e => rw [hx] at h; exact hfail e h
  | ok result => rw [hx] at h; exact hgood _ _ h

/-- What is ensured holds for the result that a computation ends with. -/
theorem Ensures.of_eq_ok {x : FlattenM α} (h : Ensures x state good fail) {a : α}
    {after : FlattenState} (hx : x.run state = .ok (a, after)) : good a after := by
  unfold Ensures at h
  rwa [hx] at h

/-- A result that is good is ensured. -/
theorem ensures_of_eq_ok {x : FlattenM α} {a : α} {after : FlattenState}
    (hx : x.run state = .ok (a, after)) (h : good a after) : Ensures x state good fail := by
  unfold Ensures
  rw [hx]
  exact h

/-- What is ensured depends on the run only. -/
theorem Ensures.congr {x y : FlattenM α} (h : Ensures x state good fail)
    (hrun : x.run state = y.run state) : Ensures y state good fail := by
  unfold Ensures at h ⊢
  rwa [← hrun]

/-- An error that a computation ends with is one that is allowed for. -/
theorem Ensures.of_eq_error {x : FlattenM α} (h : Ensures x state good fail) {error : FlattenError}
    (hx : x.run state = .error error) : fail error := by
  unfold Ensures at h
  rwa [hx] at h

/-- What is ensured twice is ensured together, and only an error that is allowed for both times may
come about. -/
theorem Ensures.both {x : FlattenM α} {good' : α → FlattenState → Prop}
    {fail' : FlattenError → Prop} (h : Ensures x state good fail)
    (h' : Ensures x state good' fail') :
    Ensures x state (fun a after => good a after ∧ good' a after)
      (fun error => fail error ∧ fail' error) := by
  unfold Ensures at h h' ⊢
  cases hx : x.run state with
  | error e => rw [hx] at h h'; exact ⟨h, h'⟩
  | ok result => rw [hx] at h h'; exact ⟨h, h'⟩

/-- What is ensured twice is ensured together. -/
theorem Ensures.and {x : FlattenM α} {good' : α → FlattenState → Prop}
    (h : Ensures x state good fail) (h' : Ensures x state good' fail) :
    Ensures x state (fun a after => good a after ∧ good' a after) fail :=
  (h.both h').mono (fun _ _ h => h) fun _ h => h.1

/-- A computation that must not fail has a result. -/
theorem Ensures.exists_ok {x : FlattenM α} (h : Ensures x state good fun _ => False) :
    ∃ a after, x.run state = .ok (a, after) ∧ good a after := by
  unfold Ensures at h
  cases hx : x.run state with
  | error e => rw [hx] at h; exact h.elim
  | ok result => rw [hx] at h; exact ⟨result.1, result.2, rfl, h⟩

end FlattenM

namespace Flatten

open FlattenM

/-! ### Keywords that are switched on -/

/-- A value under another key does not turn a keyword on or off. -/
theorem isOn_insert_of_ne {schema : Entries} {key other : String} (value : Json)
    (hne : key ≠ other) : isOn (Assoc.insert schema key value) other = isOn schema other := by
  unfold isOn
  rw [Assoc.find?_insert_of_ne _ _ hne]

/-- A keyword is on after an insertion if the value inserted is truthy. -/
theorem isOn_insert_self (schema : Entries) (key : String) (value : Json) :
    isOn (Assoc.insert schema key value) key = value.isTruthy := by
  unfold isOn
  rw [Assoc.find?_insert_self]

/-! ### Finding the target of a reference -/

/-- Whether a reference names a place. -/
def Names : Reference → SchemaPath → Prop
  | .unresolved pointer, path => SchemaPath.ofPointer pointer = .ok path
  | .canonical target, path => target = path

/-- A reference is looked up in the table first and in the document next. -/
theorem findSchema_of_names (document : Json) (schemas : FlatSchemas) {reference : Reference}
    {path : SchemaPath} (h : Names reference path) :
    findSchema document schemas reference =
      match Assoc.find? schemas path with
      | some entry => .ok (.obj entry, path)
      | none => match document.at? path with
        | some schema => .ok (schema, path)
        | none => .error (.invalidRef reference.toPointer .noSchema) := by
  unfold findSchema
  cases reference with
  | unresolved pointer =>
    have hpointer : SchemaPath.ofPointer pointer = .ok path := h
    simp only [hpointer]
    rfl
  | canonical target =>
    obtain rfl : target = path := h
    rfl

/-- A reference whose text is no pointer leads nowhere. -/
theorem findSchema_of_error (document : Json) (schemas : FlatSchemas) {pointer : String}
    {error : PointerError} (h : SchemaPath.ofPointer pointer = .error error) :
    findSchema document schemas (.unresolved pointer) =
      .error (.invalidRef pointer (.malformed error)) := by
  unfold findSchema
  simp only [h]
  rfl

/-- The target of a reference is listed, or it stands in the document, or it is lost. -/
theorem findSchema_cases (document : Json) (schemas : FlatSchemas) (reference : Reference) :
    (∃ pointer reason,
      findSchema document schemas reference = .error (.invalidRef pointer reason)) ∨
    (∃ path entry, Names reference path ∧ Assoc.find? schemas path = some entry ∧
      findSchema document schemas reference = .ok (.obj entry, path)) ∨
    ∃ path schema, Names reference path ∧ path ∉ Assoc.keys schemas ∧
      document.at? path = some schema ∧
      findSchema document schemas reference = .ok (schema, path) := by
  have lost : (∃ path, Names reference path) ∨ ∃ pointer reason,
      findSchema document schemas reference = .error (.invalidRef pointer reason) := by
    cases reference with
    | canonical target => exact .inl ⟨target, rfl⟩
    | unresolved pointer =>
      cases h : SchemaPath.ofPointer pointer with
      | ok path => exact .inl ⟨path, h⟩
      | error error => exact .inr ⟨pointer, .malformed error, findSchema_of_error _ _ h⟩
  rcases lost with ⟨path, hnames⟩ | hlost
  · have hfind := findSchema_of_names document schemas hnames
    cases hentry : Assoc.find? schemas path with
    | some entry =>
      rw [hentry] at hfind
      exact .inr (.inl ⟨path, entry, hnames, hentry, hfind⟩)
    | none =>
      cases hat : document.at? path with
      | some schema =>
        rw [hentry, hat] at hfind
        exact .inr (.inr ⟨path, schema, hnames, Assoc.find?_eq_none_iff.mp hentry, hat, hfind⟩)
      | none =>
        rw [hentry, hat] at hfind
        exact .inl ⟨_, _, hfind⟩
  · exact .inl hlost

/-! ### The steps of a walk -/

/-- The place that came last does not count as being walked any more. -/
theorem erase_last {inProgress : List SchemaPath} {path : SchemaPath} (h : path ∉ inProgress) :
    (inProgress ++ [path]).erase path = inProgress := by
  rw [List.erase_append_right _ h, List.erase_cons_head, List.append_nil]

/-- A list of places without repetitions stays so with one more place that it does not have. -/
theorem nodup_append_last {inProgress : List SchemaPath} {path : SchemaPath}
    (hnodup : inProgress.Nodup) (h : path ∉ inProgress) : (inProgress ++ [path]).Nodup := by
  refine List.nodup_append.mpr ⟨hnodup, List.nodup_singleton _, ?_⟩
  rintro other hother _ hsame rfl
  exact h (List.mem_singleton.mp hsame ▸ hother)

section Rules

variable {document : Json} {walk : Walker} {state : FlattenState} {fail : FlattenError → Prop}
  {good : Walked → FlattenState → Prop}

/-- Following a reference ends as the walk of what it leads to does, or with its being dangling. -/
theorem ensures_followRef {reference : Reference}
    (hlost : ∀ pointer reason, findSchema document state.schemas reference =
      .error (.invalidRef pointer reason) → fail (.invalidRef pointer reason))
    (hlisted : ∀ path entry, Names reference path →
      Assoc.find? state.schemas path = some entry →
      Ensures (walk (.obj entry) path) state good fail)
    (hstands : ∀ path schema, Names reference path → path ∉ Assoc.keys state.schemas →
      document.at? path = some schema → Ensures (walk schema path) state good fail) :
    Ensures (followRef document walk reference) state good fail := by
  unfold followRef
  refine ensures_bind (ensures_get (ensures_bind ?_))
  rcases findSchema_cases document state.schemas reference with
    ⟨pointer, reason, h⟩ | ⟨path, entry, hnames, hentry, h⟩ | ⟨path, schema, hnames, hkey, hat, h⟩
  · have := hlost pointer reason h
    rw [h]
    exact this
  · rw [h]
    exact hlisted path entry hnames hentry
  · rw [h]
    exact hstands path schema hnames hkey hat

/-- Walking an array ends with its single schema for items walked, or with a violation. -/
theorem ensures_flattenArray {schema : Entries} {path : SchemaPath}
    (hadditional : isOn schema "additionalItems" → fail (.violation path .additionalItems))
    (htuple : ∀ items, Assoc.find? schema "items" = some (.arr items) →
      fail (.violation path .tupleItems))
    (hnone : isOn schema "additionalItems" = false → Assoc.find? schema "items" = none →
      good (.inPlace (.obj schema)) state)
    (hitems : isOn schema "additionalItems" = false → ∀ items,
      Assoc.find? schema "items" = some items → (∀ list, items ≠ .arr list) →
      Ensures (walk items (path.child "items")) state
        (fun walked after =>
          good (.inPlace (.obj (Assoc.insert schema "items" walked.toJson))) after) fail) :
    Ensures (flattenArray walk schema path) state good fail := by
  unfold flattenArray
  split_ifs with hon
  · exact ensures_bind (ensures_throw (hadditional hon))
  · have hoff := Bool.eq_false_iff.mpr hon
    split
    · rename_i h
      exact hnone hoff h
    · rename_i items h
      exact htuple items h
    · rename_i items hsingle h
      exact ensures_bind (hitems hoff items h hsingle)

/-- Flattening a table walks its first schema and flattens the rest after it. -/
theorem ensures_flattenEntries_cons {path : SchemaPath} {keyword name : String} {member : Json}
    {rest : Entries} {good : Entries → FlattenState → Prop}
    (h : Ensures (walk member (path ++ [keyword, name])) state
      (fun walked after => Ensures (flattenEntries walk path keyword rest) after
        (fun flat last => good ((name, walked.toJson) :: flat) last) fail) fail) :
    Ensures (flattenEntries walk path keyword ((name, member) :: rest)) state good fail := by
  unfold flattenEntries
  exact ensures_bind (h.mono (fun walked after hrest => ensures_bind hrest) fun _ h => h)

/-- Flattening the members of a keyword flattens a table, and anything else is a violation. -/
theorem ensures_flattenMembers {path : SchemaPath} {keyword : String} {members : Json}
    {good : Json → FlattenState → Prop}
    (hother : (∀ entries, members ≠ .obj entries) →
      fail (.violation path (.nonObjectMembers keyword)))
    (hentries : ∀ entries, members = .obj entries →
      Ensures (flattenEntries walk path keyword entries) state
        (fun flat after => good (.obj flat) after) fail) :
    Ensures (flattenMembers walk path keyword members) state good fail := by
  unfold flattenMembers
  split
  · exact ensures_bind (hentries _ rfl)
  · rename_i h
    exact hother h

/-- Walking an object folds its combiners and flattens the one table that is left, if any. -/
theorem ensures_flattenObject {schema : Entries} {path : SchemaPath}
    (hfold : Ensures (combiners.foldlM (foldCombiner document walk path) schema) state
      (fun folded between =>
        (isOn folded "additionalProperties" → fail (.violation path .additionalProperties)) ∧
        (∀ members patterns, Assoc.find? folded "properties" = some members →
          Assoc.find? folded "patternProperties" = some patterns →
          fail (.violation path .exclusiveMembers)) ∧
        (isOn folded "additionalProperties" = false →
          (∀ members, Assoc.find? folded "properties" = some members →
            Assoc.find? folded "patternProperties" = none →
            Ensures (flattenMembers walk path "properties" members) between
              (fun flat after => good (.canonical path)
                { after with schemas :=
                    Assoc.insert after.schemas path (Assoc.insert folded "properties" flat) })
              fail) ∧
          (∀ members, Assoc.find? folded "properties" = none →
            Assoc.find? folded "patternProperties" = some members →
            Ensures (flattenMembers walk path "patternProperties" members) between
              (fun flat after =>
                good (.inPlace (.obj (Assoc.insert folded "patternProperties" flat))) after)
              fail) ∧
          (Assoc.find? folded "properties" = none →
            Assoc.find? folded "patternProperties" = none →
            good (.inPlace (.obj folded)) between))) fail) :
    Ensures (flattenObject document walk schema path) state good fail := by
  unfold flattenObject
  refine ensures_bind (hfold.mono (fun folded between h => ?_) fun _ h => h)
  obtain ⟨hadditional, hexclusive, hgood⟩ := h
  split_ifs with hon
  · exact ensures_bind (ensures_throw (hadditional hon))
  · obtain ⟨hproperties, hpatterns, hplain⟩ := hgood (Bool.eq_false_iff.mpr hon)
    split
    · rename_i members patterns h h'
      exact ensures_throw (hexclusive members patterns h h')
    · rename_i members h hnone
      exact ensures_bind ((hproperties members h hnone).mono
        (fun flat after hgood => ensures_bind (ensures_modify hgood)) fun _ h => h)
    · rename_i members hnone h
      exact ensures_bind (hpatterns members hnone h)
    · rename_i hnone hnone'
      exact hplain hnone hnone'

/-- Walking a schema follows its `$ref`, or does as the shape of the schema asks for. -/
theorem ensures_flattenSchema {schema : Entries} {path : SchemaPath}
    (href : ∀ reference, Reference.ofSchema? schema = some reference →
      Ensures (followRef document walk reference) state good fail)
    (hobject : Reference.ofSchema? schema = none → Shape.ofSchema schema = .object →
      Ensures (flattenObject document walk schema path) state good fail)
    (harray : Reference.ofSchema? schema = none → Shape.ofSchema schema = .array →
      Ensures (flattenArray walk schema path) state good fail)
    (hother : Reference.ofSchema? schema = none → Shape.ofSchema schema = .other →
      good (.inPlace (.obj schema)) state) :
    Ensures (flattenSchema document walk schema path) state good fail := by
  unfold flattenSchema
  cases h : Reference.ofSchema? schema with
  | some reference => exact href reference h
  | none =>
    cases hshape : Shape.ofSchema schema with
    | object => exact hobject h hshape
    | array => exact harray h hshape
    | other => exact hother h hshape

/-- A visit ends with a circle, with what is listed already, or with the schema walked. -/
theorem ensures_visit {schema : Json} {path : SchemaPath}
    (hcycle : path ∈ state.inProgress → fail (circular state.inProgress path))
    (hlisted : path ∉ state.inProgress → path ∈ Assoc.keys state.schemas →
      good (.canonical path) state)
    (hobject : ∀ entries, schema = .obj entries → path ∉ state.inProgress →
      path ∉ Assoc.keys state.schemas →
      Ensures (flattenSchema document walk entries path)
        { state with inProgress := state.inProgress ++ [path] }
        (fun walked after =>
          good walked { after with inProgress := after.inProgress.erase path }) fail)
    (hbool : ∀ value, schema = .bool value → path ∉ state.inProgress →
      path ∉ Assoc.keys state.schemas → good (.inPlace (.bool value)) state)
    (hother : (∀ entries, schema ≠ .obj entries) → (∀ value, schema ≠ .bool value) →
      fail (.violation path (.notSchema schema.kindName))) :
    Ensures (visit document walk schema path) state good fail := by
  unfold visit
  refine ensures_bind (ensures_get ?_)
  by_cases hprogress : path ∈ state.inProgress
  · rw [if_pos hprogress]
    exact hcycle hprogress
  rw [if_neg hprogress]
  by_cases hkey : path ∈ Assoc.keys state.schemas
  · rw [if_pos ((Assoc.mem_keys_iff_contains _ _).mp hkey)]
    exact hlisted hprogress hkey
  rw [if_neg fun h => hkey ((Assoc.mem_keys_iff_contains _ _).mpr h)]
  cases schema with
  | obj entries =>
    exact ensures_bind (ensures_set (ensures_bind ((hobject entries rfl hprogress hkey).mono
      (fun walked after hgood => ensures_bind (ensures_modify hgood)) fun _ h => h)))
  | bool value => exact hbool value rfl hprogress hkey
  | null => exact hother nofun nofun
  | num => exact hother nofun nofun
  | str => exact hother nofun nofun
  | arr => exact hother nofun nofun

/-- A place that is listed is not walked, whatever is said to stand there. -/
theorem ensures_visit_listed {schema : Json} {path : SchemaPath} (hnew : path ∉ state.inProgress)
    (hkey : path ∈ Assoc.keys state.schemas) (h : good (.canonical path) state) :
    Ensures (visit document walk schema path) state good fail := by
  unfold visit
  refine ensures_bind (ensures_get ?_)
  rw [if_neg hnew, if_pos ((Assoc.mem_keys_iff_contains _ _).mp hkey)]
  exact h

/-! ### Folding combiners -/

variable {schema : Entries} {path memberPath : SchemaPath} {combiner : String}

/-- What a member contributes is what is left in its place, a reference to where it is listed, or
the schema itself, which is taken from the table unless it is shared. -/
theorem ensures_contribution {shared : Bool} {walked : Walked} {good : Json → FlattenState → Prop}
    (hinPlace : ∀ schema, walked = .inPlace schema → good schema state)
    (helsewhere : ∀ target, walked = .canonical target → target ≠ memberPath →
      good (Reference.canonical target).toSchema state)
    (hlost : walked = .canonical memberPath → shared = true →
      memberPath ∉ Assoc.keys state.schemas → fail (.invalidRef memberPath.toPointer .noSchema))
    (hshared : ∀ entry, walked = .canonical memberPath → shared = true →
      Assoc.find? state.schemas memberPath = some entry → good (.obj entry) state)
    (hstands : ∀ schema, walked = .canonical memberPath → shared = true →
      memberPath ∉ Assoc.keys state.schemas → document.at? memberPath = some schema →
      good schema state)
    (hown : walked = .canonical memberPath → shared = false →
      good (((Assoc.find? state.schemas memberPath).map Json.obj).getD .null)
        { state with schemas := Assoc.erase state.schemas memberPath }) :
    Ensures (contribution document memberPath shared walked) state good fail := by
  unfold contribution
  cases walked with
  | inPlace schema => exact hinPlace schema rfl
  | canonical target =>
    by_cases htarget : target = memberPath
    · subst htarget
      simp only [ne_eq, not_true_eq_false, if_false]
      cases shared with
      | true =>
        simp only [if_true]
        refine ensures_bind (ensures_get (ensures_bind ?_))
        have hnames : Names (.canonical target) target := rfl
        rw [findSchema_of_names document state.schemas hnames]
        cases hentry : Assoc.find? state.schemas target with
        | some entry => exact hshared entry rfl rfl hentry
        | none =>
          have hkey := Assoc.find?_eq_none_iff.mp hentry
          cases hat : document.at? target with
          | some schema => exact hstands schema rfl rfl hkey hat
          | none => exact hlost rfl rfl hkey
      | false =>
        simp only [Bool.false_eq_true, if_false]
        exact ensures_bind (ensures_get (ensures_bind (ensures_set (hown rfl rfl))))
    · simp only [ne_eq, htarget, not_false_eq_true, if_true]
      exact helsewhere target rfl htarget

/-- Folding a member walks it and merges what it contributes, if that is an object. -/
theorem ensures_foldMember {index : Nat} {member : Json} {good : Entries → FlattenState → Prop}
    (h : Ensures (walk member (path ++ [combiner, SchemaPath.ofIndex index])) state
      (fun walked between => Ensures
        (contribution document (path ++ [combiner, SchemaPath.ofIndex index])
          (Assoc.contains state.schemas (path ++ [combiner, SchemaPath.ofIndex index])) walked)
        between
        (fun contributed after =>
          (∀ source, contributed = .obj source →
            ((merge schema source path).conflict = none →
              good (merge schema source path).value after) ∧
            ∀ conflict, (merge schema source path).conflict = some conflict →
              fail (.conflict conflict)) ∧
          ((∀ source, contributed ≠ .obj source) → good schema after)) fail) fail) :
    Ensures (foldMember document walk path combiner schema index member) state good fail := by
  unfold foldMember
  refine ensures_bind (ensures_get (ensures_bind (h.mono (fun walked between hcontribution => ?_)
    fun _ h => h)))
  refine ensures_bind (hcontribution.mono (fun contributed after hmerge => ?_) fun _ h => h)
  obtain ⟨hobject, hother⟩ := hmerge
  cases contributed with
  | obj source =>
    obtain ⟨hmerged, hconflict⟩ := hobject source rfl
    dsimp only
    cases h : (merge schema source path).conflict with
    | none => exact hmerged h
    | some conflict => exact hconflict conflict h
  | null => exact hother nofun
  | bool => exact hother nofun
  | num => exact hother nofun
  | str => exact hother nofun
  | arr => exact hother nofun

/-- Folding members folds the first one and the rest after it. -/
theorem ensures_foldMembers_cons {index : Nat} {member : Json} {rest : List Json}
    {good : Entries → FlattenState → Prop}
    (h : Ensures (foldMember document walk path combiner schema index member) state
      (fun folded after =>
        Ensures (foldMembers document walk path combiner folded (index + 1) rest) after good fail)
      fail) :
    Ensures (foldMembers document walk path combiner schema index (member :: rest)) state good
      fail := by
  unfold foldMembers
  exact ensures_bind h

/-- A combiner that a schema has is taken from it and its members are folded, if they are a list. -/
theorem ensures_foldCombiner {good : Entries → FlattenState → Prop}
    (hnone : Assoc.find? schema combiner = none → good schema state)
    (hmembers : ∀ members, Assoc.find? schema combiner = some (.arr members) →
      Ensures (foldMembers document walk path combiner (Assoc.swapErase schema combiner) 0 members)
        state good fail)
    (hother : ∀ value, Assoc.find? schema combiner = some value →
      (∀ members, value ≠ .arr members) → fail (.violation path (.nonArrayCombiner combiner))) :
    Ensures (foldCombiner document walk path schema combiner) state good fail := by
  unfold foldCombiner
  split
  · rename_i h
    exact hnone h
  · rename_i members h
    exact hmembers members h
  · rename_i value hvalue h
    exact hother value h hvalue

/-- A combiner that a schema does not have leaves it as it is. -/
theorem foldCombiner_absent (document : Json) (walk : Walker) (path : SchemaPath)
    (h : Assoc.find? schema combiner = none) :
    foldCombiner document walk path schema combiner = pure schema := by
  unfold foldCombiner
  rw [h]

/-- What each member leaves in place holds once all members are folded. -/
theorem ensures_foldMembers {members : List Json} {start : Nat}
    {inv : Entries → FlattenState → Prop}
    (hmember : ∀ index member, members[index]? = some member → ∀ schema state, inv schema state →
      Ensures (foldMember document walk path combiner schema (start + index) member) state inv fail)
    (hinv : inv schema state) :
    Ensures (foldMembers document walk path combiner schema start members) state inv fail := by
  induction members generalizing start schema state with
  | nil => exact hinv
  | cons member rest ih =>
    refine ensures_foldMembers_cons ((hmember 0 member rfl schema state hinv).mono
      (fun folded after hfolded => ih (fun index other hother => ?_) hfolded) fun _ h => h)
    have := hmember (index + 1) other hother
    rwa [Nat.add_comm index 1, ← Nat.add_assoc] at this

/-- What each combiner leaves in place holds once all combiners are folded. -/
theorem ensures_foldCombiners {inv : Entries → FlattenState → Prop}
    (hcombiner : ∀ combiner ∈ combiners, ∀ schema state, inv schema state →
      Ensures (foldCombiner document walk path schema combiner) state inv fail)
    (hinv : inv schema state) :
    Ensures (combiners.foldlM (foldCombiner document walk path) schema) state inv fail := by
  have each : ∀ keywords : List String, (∀ keyword ∈ keywords, keyword ∈ combiners) →
      ∀ schema state, inv schema state →
      Ensures (keywords.foldlM (foldCombiner document walk path) schema) state inv fail := by
    intro keywords hkeywords
    induction keywords with
    | nil => exact fun schema state hinv => hinv
    | cons keyword rest ih =>
      intro schema state hinv
      rw [List.foldlM_cons]
      refine ensures_bind ((hcombiner keyword (hkeywords keyword List.mem_cons_self) schema state
        hinv).mono (fun folded after hfolded => ?_) fun _ h => h)
      exact ih (fun other hother => hkeywords other (List.mem_cons_of_mem _ hother)) folded after
        hfolded
  exact each combiners (fun _ h => h) schema state hinv

/-- A schema without combiners stays as it is. -/
theorem ensures_foldCombiners_absent {good : Entries → FlattenState → Prop}
    (h : ∀ keyword ∈ combiners, Assoc.find? schema keyword = none) (hgood : good schema state) :
    Ensures (combiners.foldlM (foldCombiner document walk path) schema) state good fail := by
  have hfold : Ensures (combiners.foldlM (foldCombiner document walk path) schema) state
      (fun folded after => folded = schema ∧ after = state) fail := by
    refine ensures_foldCombiners (fun keyword hkeyword folded after hsame => ?_) ⟨rfl, rfl⟩
    obtain ⟨rfl, rfl⟩ := hsame
    rw [foldCombiner_absent _ _ _ (h keyword hkeyword)]
    exact ensures_pure ⟨rfl, rfl⟩
  refine hfold.mono (fun folded after hsame => ?_) fun _ h => h
  obtain ⟨rfl, rfl⟩ := hsame
  exact hgood

end Rules

-- from here on only the rules open it: the unifier would run the computation
attribute [irreducible] FlattenM.Ensures

/-! ### Families of walks -/

/-- A property of families of computations that has the constant families and is closed under
sequencing. -/
structure Admissible {ι : Type} (adm : ∀ {α : Type}, (ι → FlattenM α) → Prop) : Prop where
  /-- A family that does not depend on its index. -/
  const : ∀ {α : Type} (x : FlattenM α), adm fun _ => x
  /-- One computation after the other. -/
  bind : ∀ {α β : Type} (x : ι → FlattenM α) (f : ι → α → FlattenM β), adm x →
    (∀ a, adm fun i => f i a) → adm fun i => x i >>= f i

section Families

variable {ι : Type} {adm : ∀ {α : Type}, (ι → FlattenM α) → Prop} (h : Admissible @adm)
  {documents : ι → Json} {walks : ι → Walker}
  (hwalks : ∀ schema path, adm fun i => walks i schema path)

include h hwalks

/-- Flattening the entries of a table is admissible if the walks are. -/
theorem admissible_flattenEntries (path : SchemaPath) (keyword : String) (entries : Entries) :
    adm fun i => flattenEntries (walks i) path keyword entries := by
  induction entries with
  | nil => exact h.const _
  | cons entry rest ih =>
    exact h.bind _ _ (hwalks _ _) fun walked => h.bind _ _ ih fun flat => h.const _

/-- Flattening the members of a keyword is admissible if the walks are. -/
theorem admissible_flattenMembers (path : SchemaPath) (keyword : String) (members : Json) :
    adm fun i => flattenMembers (walks i) path keyword members := by
  cases members with
  | obj entries =>
    exact h.bind _ _ (admissible_flattenEntries h hwalks path keyword entries) fun _ => h.const _
  | null => exact h.const _
  | bool => exact h.const _
  | num => exact h.const _
  | str => exact h.const _
  | arr => exact h.const _

/-- Walking an array is admissible if the walks of its items are. -/
theorem admissible_flattenArray (schema : Entries) (path : SchemaPath) :
    adm fun i => flattenArray (walks i) schema path := by
  unfold flattenArray
  split_ifs
  on_goal 1 => refine h.bind _ _ (h.const _) fun _ => ?_
  all_goals
    split
    · exact h.const _
    · exact h.const _
    · exact h.bind _ _ (hwalks _ _) fun _ => h.const _

variable (hmembers : ∀ (path : SchemaPath) combiner index shared walked, adm fun i =>
  contribution (documents i) (path ++ [combiner, SchemaPath.ofIndex index]) shared walked)

include hmembers

/-- Folding the members of a combiner is admissible if their walks are. -/
theorem admissible_foldMembers (path : SchemaPath) (combiner : String) (schema : Entries)
    (index : Nat) (members : List Json) :
    adm fun i => foldMembers (documents i) (walks i) path combiner schema index members := by
  induction members generalizing schema index with
  | nil => exact h.const _
  | cons member rest ih =>
    refine h.bind _ _ ?_ fun folded => ih folded (index + 1)
    refine h.bind _ _ (h.const _) fun state => ?_
    refine h.bind _ _ (hwalks _ _) fun walked => ?_
    exact h.bind _ _ (hmembers path combiner index _ walked) fun contributed => h.const _

/-- Folding several combiners is admissible if the walks of their members are. -/
theorem admissible_foldCombiners (path : SchemaPath) (schema : Entries)
    (keywords : List String) :
    adm fun i => keywords.foldlM (foldCombiner (documents i) (walks i) path) schema := by
  induction keywords generalizing schema with
  | nil => exact h.const _
  | cons keyword rest ih =>
    simp only [List.foldlM_cons]
    refine h.bind _ _ ?_ fun folded => ih folded
    unfold foldCombiner
    split
    · exact h.const _
    · exact admissible_foldMembers h hwalks hmembers path keyword _ 0 _
    · exact h.const _

/-- Walking an object is admissible if the walks below it are. -/
theorem admissible_flattenObject (schema : Entries) (path : SchemaPath) :
    adm fun i => flattenObject (documents i) (walks i) schema path := by
  refine h.bind _ _ (admissible_foldCombiners h hwalks hmembers path schema combiners)
    fun folded => ?_
  split_ifs
  -- the members follow behind the check, whether it fails or not
  on_goal 1 => refine h.bind _ _ (h.const _) fun _ => ?_
  all_goals
    split
    · exact h.const _
    · exact h.bind _ _ (admissible_flattenMembers h hwalks path _ _) fun _ => h.const _
    · exact h.bind _ _ (admissible_flattenMembers h hwalks path _ _) fun _ => h.const _
    · exact h.const _

variable (hrefs : ∀ reference, adm fun i => followRef (documents i) (walks i) reference)

include hrefs

/-- Walking a schema is admissible if the walks below it are. -/
theorem admissible_flattenSchema (schema : Entries) (path : SchemaPath) :
    adm fun i => flattenSchema (documents i) (walks i) schema path := by
  unfold flattenSchema
  split
  · exact hrefs _
  · split
    · exact admissible_flattenObject h hwalks hmembers schema path
    · exact admissible_flattenArray h hwalks schema path
    · exact h.const _

/-- What holds of the walks of the schemas below, and of looking up places in the documents, holds
of the walk of a schema. -/
theorem admissible_visit_documents (schema : Json) (path : SchemaPath) :
    adm fun i => visit (documents i) (walks i) schema path := by
  refine h.bind _ _ (h.const _) fun state => ?_
  split_ifs
  · exact h.const _
  · exact h.const _
  · cases schema with
    | obj entries =>
      refine h.bind _ _ (h.const _) fun _ => ?_
      exact h.bind _ _ (admissible_flattenSchema h hwalks hmembers hrefs entries path)
        fun _ => h.const _
    | null => exact h.const _
    | bool => exact h.const _
    | num => exact h.const _
    | str => exact h.const _
    | arr => exact h.const _

omit hmembers hrefs in
/-- In one document the walks of the schemas below are all that matters. -/
theorem admissible_visit (document : Json) (schema : Json) (path : SchemaPath) :
    adm fun i => visit document (walks i) schema path := by
  refine admissible_visit_documents h hwalks (fun _ _ _ _ _ => h.const _) (fun reference => ?_)
    schema path
  refine h.bind _ _ (h.const _) fun state => ?_
  exact h.bind _ _ (h.const _) fun found => hwalks _ _

end Families

/-! ### More depth -/

/-- Whether one computation does what another one does, unless it goes too deep. -/
def Refines {α : Type} (x y : FlattenM α) : Prop :=
  ∀ state, x.run state = .error .tooDeep ∨ x.run state = y.run state

/-- Refinement is admissible: it holds of a computation and itself, and of sequences of
refinements. -/
theorem admissible_refines : Admissible fun {α : Type} (family : Bool → FlattenM α) =>
    Refines (family false) (family true) where
  const := fun _ _ => .inr rfl
  bind := by
    intro α β x f hx hf state
    simp only [StateT.run_bind]
    rcases hx state with hdeep | hsame
    · exact .inl (by rw [hdeep]; rfl)
    · rw [hsame]
      cases (x true).run state with
      | error e => exact .inr rfl
      | ok result => exact hf result.1 result.2

/-- If the walks below refine each other, so do the visits. -/
theorem refines_visit {walk walk' : Walker}
    (hwalk : ∀ schema path, Refines (walk schema path) (walk' schema path)) (document schema : Json)
    (path : SchemaPath) :
    Refines (visit document walk schema path) (visit document walk' schema path) := by
  let walks : Bool → Walker := fun deeper => cond deeper walk' walk
  have hwalks : ∀ schema path, Refines (walks false schema path) (walks true schema path) := hwalk
  have hvisit : Refines (visit document (walks false) schema path)
      (visit document (walks true) schema path) :=
    admissible_visit admissible_refines hwalks document schema path
  exact hvisit

/-- One more schema of depth refines a walk. -/
theorem refines_walk_succ (document : Json) (depth : Nat) (schema : Json) (path : SchemaPath) :
    Refines (walk document depth schema path) (walk document (depth + 1) schema path) := by
  induction depth generalizing schema path with
  | zero => exact fun _ => .inl rfl
  | succ depth ih => exact refines_visit ih document schema path

/-- Where more depth only refines, a walk that has not gone too deep does the same with it. -/
theorem run_of_le {walks : Nat → Walker} (hrefines : ∀ depth schema path,
      Refines (walks depth schema path) (walks (depth + 1) schema path))
    {depth deeper : Nat} (hle : depth ≤ deeper) {schema : Json} {path : SchemaPath}
    {state : FlattenState} (h : (walks depth schema path).run state ≠ .error .tooDeep) :
    (walks deeper schema path).run state = (walks depth schema path).run state := by
  induction hle with
  | refl => rfl
  | step _ ih =>
    rw [← ih]
    rcases hrefines _ schema path state with hdeep | hsame
    · exact absurd (ih.symm.trans hdeep) h
    · exact hsame.symm

/-- A walk that has not gone too deep does the same with more depth. -/
theorem walk_of_le {document : Json} {depth deeper : Nat} (hle : depth ≤ deeper) {schema : Json}
    {path : SchemaPath} {state : FlattenState}
    (h : (walk document depth schema path).run state ≠ .error .tooDeep) :
    (walk document deeper schema path).run state = (walk document depth schema path).run state :=
  run_of_le (refines_walk_succ document) hle h

/-- Flattening an object is walking it from the root with an empty table. -/
theorem flattenWithin_eq {document : Json} (h : document.isObject) (depth : Nat) :
    flattenWithin depth document =
      ((walk document depth document .root).run {}).map fun result => result.2.schemas := by
  unfold flattenWithin
  rw [if_pos h]
  change (do
    let result ← (walk document depth document .root).run {}
    pure result.2.schemas : Except FlattenError FlatSchemas) = _
  cases (walk document depth document .root).run {} with
  | error e => rfl
  | ok result => rfl

/-- A document that has been flattened is an object, and the walk of it has ended with the table. -/
theorem exists_run_of_flattenWithin {document : Json} {depth : Nat} {schemas : FlatSchemas}
    (h : flattenWithin depth document = .ok schemas) :
    ∃ walked after, (walk document depth document .root).run {} = .ok (walked, after) ∧
      after.schemas = schemas := by
  have hobject : document.isObject := by
    by_contra hother
    unfold flattenWithin at h
    rw [if_neg hother] at h
    cases h
  rw [flattenWithin_eq hobject] at h
  cases hrun : (walk document depth document .root).run {} with
  | error e => rw [hrun] at h; cases h
  | ok result =>
    rw [hrun] at h
    exact ⟨result.1, result.2, rfl, Except.ok.inj h⟩

/-- Flattening that has not gone too deep gives the same with more depth. -/
theorem flattenWithin_of_le {document : Json} {depth deeper : Nat} (hle : depth ≤ deeper)
    (h : flattenWithin depth document ≠ .error .tooDeep) :
    flattenWithin deeper document = flattenWithin depth document := by
  by_cases hobject : document.isObject
  · rw [flattenWithin_eq hobject] at h
    rw [flattenWithin_eq hobject, flattenWithin_eq hobject, walk_of_le hle]
    intro hdeep
    rw [hdeep] at h
    exact h rfl
  · unfold flattenWithin
    rw [if_neg hobject, if_neg hobject]

/-- A document is flattened if the places that it lists can be computed. -/
theorem exists_of_keys {document : Json} {keys : List SchemaPath}
    (h : (flatten document).toOption.map Assoc.keys = some keys) :
    ∃ schemas, flatten document = .ok schemas ∧ Assoc.keys schemas = keys := by
  cases hflatten : flatten document with
  | error error =>
    rw [hflatten] at h
    cases h
  | ok schemas =>
    rw [hflatten] at h
    exact ⟨schemas, rfl, Option.some.inj h⟩

end Flatten

end SchemaClasses
