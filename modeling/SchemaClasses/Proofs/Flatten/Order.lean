import Mathlib.Data.List.Basic
import SchemaClasses.Proofs.Flatten.Growth
import SchemaClasses.Proofs.Json.Throughout

/-!
# The order of the flattened schemas

Main statement (`ordered_of_flattenWithin`): what a flattened schema refers to, by its own `$ref` or
by that of one of its properties, is listed, and it is listed before the schema. So no reference is
left to a schema that was taken from the table again when its combiner was folded, and no schema
refers to itself, by whatever detour.

A reference comes into a schema in two ways. Either a schema below has been walked and is listed, or
a combiner member is merged which has become a reference or refers to something already. Both name
places that are listed at that time (`order_kept`), and what is listed later comes behind.
-/

namespace SchemaClasses.Flatten

/-! ### References to listed places -/

/-- Whether a text is the pointer of one of some places. -/
def PointsInto (places : List SchemaPath) (text : String) : Prop :=
  ∃ place ∈ places, SchemaPath.ofPointer text = .ok place

/-- Whether a text is the `$ref` of a flattened schema or of one of its properties. -/
def Mentions (schema : Entries) (text : String) : Prop :=
  textRef? schema = some text ∨ ∃ members name property,
    Assoc.find? schema "properties" = some (.obj members) ∧ (name, .obj property) ∈ members ∧
      textRef? property = some text

/-- Whether the schema that is listed at a place refers to another place. -/
def RefersTo (schemas : FlatSchemas) (path target : SchemaPath) : Prop :=
  ∃ entry text, Assoc.find? schemas path = some entry ∧ Mentions entry text ∧
    SchemaPath.ofPointer text = .ok target

/-- A pointer of one of some places is one of any more places. -/
theorem PointsInto.mono {places more : List SchemaPath} (hsubset : places ⊆ more) {text : String}
    (h : PointsInto places text) : PointsInto more text := by
  obtain ⟨place, hplace, htext⟩ := h
  exact ⟨place, hsubset hplace, htext⟩

/-- The pointer that is written for a place is a pointer of it. -/
theorem pointsInto_toPointer {places : List SchemaPath} {path : SchemaPath} (h : path ∈ places) :
    PointsInto places path.toPointer :=
  ⟨path, h, path.ofPointer_toPointer⟩

/-! ### References that come in by merging -/

/-- Whether no object in a value repeats a key. -/
abbrev Distinct (value : Json) : Prop :=
  value.Throughout fun _ _ => True

/-- Whether the `$ref` of a schema is the pointer of one of some places, if it is a text. -/
def RefPointsInto (places : List SchemaPath) (schema : Entries) : Prop :=
  ∀ text, textRef? schema = some text → PointsInto places text

/-- A `$ref` that points to one of some places points to one of any more places. -/
theorem RefPointsInto.mono {places more : List SchemaPath} (hsubset : places ⊆ more)
    {schema : Entries} (h : RefPointsInto places schema) : RefPointsInto more schema :=
  fun text htext => (h text htext).mono hsubset

/-- Nothing is asked of a schema without a `$ref`. -/
theorem refPointsInto_of_none {places : List SchemaPath} {schema : Entries}
    (h : textRef? schema = none) : RefPointsInto places schema := by
  intro text htext
  cases h.symm.trans htext

/-- Only the value of `$ref` counts. -/
theorem RefPointsInto.congr {places : List SchemaPath} {schema other : Entries}
    (h : RefPointsInto places schema)
    (href : Assoc.find? other refKey = Assoc.find? schema refKey) : RefPointsInto places other := by
  intro text htext
  apply h text
  rwa [textRef?, ← href]

/-- The reference of a merged schema comes from one of both sides. -/
theorem refPointsInto_merge {places : List SchemaPath} {target source : Entries}
    {path : SchemaPath} (hagree : (merge target source path).conflict = none)
    (htarget : Distinct (.obj target)) (hsource : Distinct (.obj source))
    (href : RefPointsInto places target) (href' : RefPointsInto places source) :
    RefPointsInto places (merge target source path).value := by
  have hside : ∀ {schema : Entries}, Distinct (.obj schema) → RefPointsInto places schema →
      ∀ entry ∈ schema, entry.1 = refKey → ∀ text, entry.2 = .str text →
        PointsInto places text := by
    rintro schema hdistinct hschema ⟨key, value⟩ hentry rfl text rfl
    apply hschema text
    rw [textRef?, (Assoc.find?_eq_some_iff hdistinct.nodup).mpr hentry]
    rfl
  intro text htext
  obtain ⟨value, hvalue, hname⟩ := Option.bind_eq_some_iff.mp htext
  obtain rfl : value = .str text := by
    cases value with
    | str other => exact congrArg _ (Option.some.inj hname)
    | _ => cases hname
  refine Merge.forall_mergeEntries
    (E := fun key value => key = refKey → ∀ text, value = .str text → PointsInto places text)
    (fun _ _ _ _ htype _ _ hkey => absurd ⟨rfl, .inr hkey⟩ htype) (fun _ _ _ _ _ hkey => ?_)
    (fun _ _ _ _ hkey => ?_) hagree (hside htarget href) (hside hsource href') _
    (Assoc.mem_of_find? hvalue) rfl text rfl
  · exact absurd hkey (by decide)
  · exact absurd hkey (by decide)

/-! ### The walk -/

/-- What is known at the stages of the walk: what is left behind refers to a listed place if it
refers to anything, and what is listed mentions listed places only. -/
def order : Invariant where
  raw _ _ schema := Distinct schema
  folding keys _ _ pending schema := Distinct (.obj schema) ∧ RefPointsInto keys schema ∧
    ∀ entry ∈ pending.members, Distinct entry.2
  left keys _ _ walked := Distinct walked.toJson ∧
    ∀ entries, walked.toJson = .obj entries → RefPointsInto keys entries
  listed keys _ schema := Distinct (.obj schema) ∧
    ∀ text, Mentions schema text → PointsInto keys text

/-- A reference to a listed place may be left behind anywhere. -/
theorem order_reference {keys : List SchemaPath} {path target : SchemaPath} {origin : Json}
    (h : target ∈ keys) : order.left keys path origin (.canonical target) := by
  refine ⟨Json.throughout_toSchema trivial, fun entries heq text htext => ?_⟩
  obtain rfl := Json.obj.inj heq
  obtain rfl : target.toPointer = text := Option.some.inj htext
  exact pointsInto_toPointer h

/-- A table of members repeats no name after the walk. -/
theorem distinct_of_flat {keys : List SchemaPath} {path : SchemaPath} {keyword : String}
    {members flat : Entries} (hflat : order.Flat keys path keyword members flat)
    (hmembers : Distinct (.obj members)) : Distinct (.obj flat) := by
  apply Json.throughout_obj.mpr
  constructor
  · exact hflat.keys_eq ▸ hmembers.nodup
  · intro entry hentry
    obtain ⟨_, _, walked, hleft, hvalue⟩ := hflat.exists_of_mem hentry
    exact ⟨trivial, hvalue ▸ hleft.1⟩

/-- The walk keeps what is known at its stages. -/
theorem order_kept {document : Json} (hdocument : Distinct document) : order.Kept document where
  raw_mono _ h := h
  folding_mono hsubset h := ⟨h.1, h.2.1.mono hsubset, h.2.2⟩
  left_mono hsubset h := ⟨h.1, fun entries heq => (h.2 entries heq).mono hsubset⟩
  listed_mono hsubset h := ⟨h.1, fun text htext => (h.2 text htext).mono hsubset⟩
  target _ _ _ _ hschema := hdocument.of_at? hschema
  follow _ _ _ _ _ _ hwalked := hwalked
  refer _ _ _ hlisted _ := order_reference hlisted
  reference hlisted _ := order_reference hlisted
  bool _ := ⟨Json.throughout_bool _, nofun⟩
  other h hplain _ := ⟨h, fun _ heq => Json.obj.inj heq ▸ refPointsInto_of_none hplain⟩
  array h hplain _ _ := ⟨h, fun _ heq => Json.obj.inj heq ▸ refPointsInto_of_none hplain⟩
  items h _ _ hitems := by
    have hdistinct : Distinct (.obj _) := h
    exact hdistinct.of_find? hitems
  array_items h hplain _ _ hwalked := by
    have hdistinct : Distinct (.obj _) := h
    refine ⟨hdistinct.insert trivial hwalked.1, fun entries heq => ?_⟩
    obtain rfl := Json.obj.inj heq
    apply (refPointsInto_of_none hplain).congr
    exact Assoc.find?_insert_of_ne _ _ (by decide)
  start h hplain _ :=
    ⟨h, refPointsInto_of_none hplain, fun _ hentry => absurd hentry List.not_mem_nil⟩
  skip _ h _ := h
  drop hcombiner h hmembers := by
    refine ⟨h.1.swapErase _, h.2.1.congr (Assoc.find?_swapErase_of_ne h.1.nodup ?_),
      fun entry hentry => ?_⟩
    · rintro rfl
      exact absurd hcombiner (by decide)
    · exact Json.throughout_arr.mp (h.1.of_find? hmembers) _ (mem_of_mem_memberPlaces hentry)
  member h := h.2.2 _ List.mem_cons_self
  merge {keys path origin place member others rest node source} h hsource hagree := by
    have hboth : Distinct (.obj source) ∧ RefPointsInto keys source := by
      rcases hsource with ⟨walked, -, hleft, hwalked⟩ | ⟨hdistinct, hmentions⟩
      · exact ⟨hwalked ▸ hleft.1, hleft.2 source hwalked⟩
      · exact ⟨hdistinct, fun text htext => hmentions text (.inl htext)⟩
    exact ⟨throughout_merge (fun _ _ => trivial) (fun _ => trivial) (fun _ => trivial) hagree h.1
        hboth.1, refPointsInto_merge hagree h.1 hboth.1 h.2.1 hboth.2,
      fun entry hentry => h.2.2 entry (List.mem_cons_of_mem _ hentry)⟩
  pass h _ _ := ⟨h.1, h.2.1, fun entry hentry => h.2.2 entry (List.mem_cons_of_mem _ hentry)⟩
  property h _ hmembers hentry := ((h.1.of_find? hmembers).of_mem hentry).2
  list {keys path origin node members flat} h _ hmembers hflat := by
    refine ⟨h.1.insert trivial (distinct_of_flat hflat (h.1.of_find? hmembers)),
      fun text hmentions => ?_⟩
    -- its own reference came in by merging; those of its properties were left by their walks
    rcases hmentions with hown | ⟨others, name, property, hothers, hproperty, htext⟩
    · apply (h.2.1.congr (Assoc.find?_insert_of_ne node _ (by decide))) text hown
    · rw [Assoc.find?_insert_self] at hothers
      obtain rfl := Json.obj.inj (Option.some.inj hothers)
      obtain ⟨_, _, walked, hleft, hvalue⟩ := hflat.exists_of_mem hproperty
      exact hleft.2 property hvalue.symm text htext
  patterns {keys path origin node members flat} h _ hmembers hflat := by
    refine ⟨h.1.insert trivial (distinct_of_flat hflat (h.1.of_find? hmembers)),
      fun entries heq => ?_⟩
    obtain rfl := Json.obj.inj heq
    exact h.2.1.congr (Assoc.find?_insert_of_ne node _ (by decide))
  bare h _ _ := ⟨h.1, fun _ heq => Json.obj.inj heq ▸ h.2.1⟩

/-! ### The table -/

/-- What a listed schema refers to is listed before it. -/
theorem idxOf_lt_of_refersTo {schemas : FlatSchemas} (hgrounded : Grounded order schemas)
    {path target : SchemaPath} (h : RefersTo schemas path target) :
    (Assoc.keys schemas).idxOf target < (Assoc.keys schemas).idxOf path := by
  obtain ⟨entry, text, hentry, hmentions, htext⟩ := h
  obtain ⟨front, back, rfl⟩ := List.append_of_mem (Assoc.mem_of_find? hentry)
  obtain ⟨hnew, -, hlisted⟩ := hgrounded.of_split
  obtain ⟨place, hplace, hpointer⟩ := hlisted text hmentions
  obtain rfl : target = place := Except.ok.inj (htext.symm.trans hpointer)
  have hkeys : Assoc.keys (front ++ (path, entry) :: back) =
      Assoc.keys front ++ path :: Assoc.keys back := keys_append _ _
  rw [hkeys, List.idxOf_append_of_mem hplace, List.idxOf_append_of_notMem hnew,
    List.idxOf_cons_self, Nat.add_zero]
  exact List.idxOf_lt_length_of_mem hplace

/-- Flattened schemas are closed under references and in the order of their references: no place is
listed twice, what a schema or one of its properties refers to is listed before the schema, and
references never lead back to where they started. -/
theorem ordered_of_flattenWithin {document : Json} (hwf : document.wellFormed) {depth : Nat}
    {schemas : FlatSchemas} (hflatten : flattenWithin depth document = .ok schemas) :
    (Assoc.keys schemas).Nodup ∧
    (∀ front path entry back, schemas = front ++ (path, entry) :: back →
      ∀ text, Mentions entry text → PointsInto (Assoc.keys front) text) ∧
    ∀ path, ¬Relation.TransGen (RefersTo schemas) path path := by
  have hdistinct : Distinct document :=
    Json.throughout_of_wellFormed hwf fun _ _ _ _ _ => trivial
  have hgrounded := grounded_of_flattenWithin (order_kept hdistinct) hdistinct hflatten
  refine ⟨hgrounded.nodup_keys, ?_, fun path hcycle => ?_⟩
  · rintro front path entry back rfl text htext
    exact hgrounded.of_split.2.2 text htext
  · have hbefore : ∀ {start target}, Relation.TransGen (RefersTo schemas) start target →
        (Assoc.keys schemas).idxOf target < (Assoc.keys schemas).idxOf start := by
      intro start target h
      induction h with
      | single h => exact idxOf_lt_of_refersTo hgrounded h
      | tail _ h ih => exact Nat.lt_trans (idxOf_lt_of_refersTo hgrounded h) ih
    exact absurd (hbefore hcycle) (Nat.lt_irrefl _)

/-- A property whose combiner members are referred to by the properties around it: the first one
while it is still to be walked, the last one when it has been taken from the table again. -/
def neighbours : Json :=
  .obj [("properties", .obj [
    ("first", .obj [(refKey, .str "#/properties/middle/allOf/0")]),
    ("middle", .obj [("allOf", .arr [
      .obj [("properties", .obj [("a", .obj [(typeKey, .str "integer")])])],
      .obj [("properties", .obj [("a", .obj [(typeKey, .str "integer")])])]])]),
    ("last", .obj [(refKey, .str "#/properties/middle/allOf/1")])])]

/-- Both members that are referred to are listed, and each stands before what refers to it. -/
theorem ordered_neighbours : neighbours.wellFormed ∧
    ∃ schemas, flattenWithin 6 neighbours = .ok schemas ∧
      Assoc.keys schemas = [⟨["properties", "middle", "allOf", "0"]⟩, ⟨["properties", "middle"]⟩,
        ⟨["properties", "middle", "allOf", "1"]⟩, .root] ∧
      (Assoc.keys schemas).Nodup ∧
      (∀ front path entry back, schemas = front ++ (path, entry) :: back →
        ∀ text, Mentions entry text → PointsInto (Assoc.keys front) text) ∧
      ∀ path, ¬Relation.TransGen (RefersTo schemas) path path := by
  have hwf : neighbours.wellFormed := by decide
  have hkeys : (flattenWithin 6 neighbours).toOption.map Assoc.keys =
      some [⟨["properties", "middle", "allOf", "0"]⟩, ⟨["properties", "middle"]⟩,
        ⟨["properties", "middle", "allOf", "1"]⟩, .root] := by decide +kernel
  cases hflatten : flattenWithin 6 neighbours with
  | error error =>
    rw [hflatten] at hkeys
    cases hkeys
  | ok schemas =>
    rw [hflatten] at hkeys
    exact ⟨hwf, schemas, rfl, Option.some.inj hkeys, ordered_of_flattenWithin hwf hflatten⟩

end SchemaClasses.Flatten
