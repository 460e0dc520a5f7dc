import SchemaClasses.Proofs.Flatten.CombinerFree
import SchemaClasses.Proofs.Flatten.Growth
import SchemaClasses.Proofs.Json.Throughout

/-!
# One entry for each node

Main statement (`eq_of_sameNode`): no node of a document is listed twice, as long as positions are
spelled plainly.

The route to a node is made of keys and positions, a place of strings. Which segments of a place are
positions is up to the document, and a position may be spelled in many ways (`00` or `+0`), so two
places can have the same route. The walk compares places. It does not make up another spelling
itself, so what counts is that the pointers of the document spell positions plainly, and that
properties that come in by merging are not taken for items of an array that stands in their place in
the document (`spelling_kept`). Without either of these a node is listed twice
(`not_eq_of_sameNode`).
-/

namespace SchemaClasses

/-! ### Routes -/

/-- One link of the route to a value. -/
inductive Link where
  /-- The key of an object. -/
  | key (name : String)
  /-- The position in an array. -/
  | position (index : Nat)
  deriving DecidableEq, Repr

/-- The plain spelling of a link. -/
def Link.segment : Link → String
  | key name => name
  | position index => SchemaPath.ofIndex index

namespace Json

/-- The link that a segment stands for. -/
def link? : Json → String → Option Link
  | obj _, segment => some (.key segment)
  | arr _, segment => (arrayIndex? segment).map .position
  | _, _ => none

/-- The keys and positions that a list of segments leads along. -/
def route? (value : Json) : List String → Option (List Link)
  | [] => some []
  | segment :: rest =>
    (value.step? segment).bind fun next => (value.link? segment).bind fun link =>
      (next.route? rest).map fun route => link :: route

/-- A segment that leads to a value stands for a link. -/
theorem isSome_link? {value next : Json} {segment : String} (h : value.step? segment = some next) :
    (value.link? segment).isSome := by
  cases value with
  | obj entries => rfl
  | arr items =>
    obtain ⟨index, hindex, -⟩ := Option.bind_eq_some_iff.mp h
    rw [link?, hindex]
    rfl
  | _ => cases h

/-- A route leads to each value that is found. -/
theorem isSome_route? (value : Json) (segments : List String) :
    (value.route? segments).isSome = (value.descend? segments).isSome := by
  induction segments generalizing value with
  | nil => rfl
  | cons segment rest ih =>
    rw [route?, descend?]
    cases hstep : value.step? segment with
    | none => rfl
    | some next =>
      obtain ⟨link, hlink⟩ := Option.isSome_iff_exists.mp (isSome_link? hstep)
      rw [Option.bind_some, Option.bind_some, hlink, Option.bind_some, Option.isSome_map, ih]

/-- The route along two lists of segments consists of the routes along each. -/
theorem route?_append {value : Json} {front back : List String} {route : List Link}
    (h : value.route? (front ++ back) = some route) :
    ∃ first next last, value.route? front = some first ∧ value.descend? front = some next ∧
      next.route? back = some last ∧ route = first ++ last := by
  induction front generalizing value route with
  | nil => exact ⟨[], value, route, rfl, rfl, h, rfl⟩
  | cons segment rest ih =>
    obtain ⟨below, hstep, h⟩ := Option.bind_eq_some_iff.mp h
    obtain ⟨link, hlink, h⟩ := Option.bind_eq_some_iff.mp h
    obtain ⟨others, hothers, rfl⟩ := Option.map_eq_some_iff.mp h
    obtain ⟨first, next, last, hfirst, hnext, hlast, rfl⟩ := ih hothers
    refine ⟨link :: first, next, last, ?_, ?_, hlast, rfl⟩
    · rw [route?, hstep, Option.bind_some, hlink, Option.bind_some, hfirst, Option.map_some]
    · rw [descend?, hstep, Option.bind_some, hnext]

end Json

/-- Whether two places lead to a value along the same keys and positions. -/
def SameNode (document : Json) (path other : SchemaPath) : Prop :=
  (document.at? path).isSome ∧ document.route? path.segments = document.route? other.segments

/-! ### Plain spellings -/

/-- Whether the segments of a place that are positions in a document are spelled plainly. -/
def SpelledPlainly (document : Json) (path : SchemaPath) : Prop :=
  ∀ route, document.route? path.segments = some route → route.map Link.segment = path.segments

section Spelled

variable {document : Json} {path other : SchemaPath}

/-- The root is spelled plainly, for want of segments. -/
theorem spelledPlainly_root (document : Json) : SpelledPlainly document .root := by
  intro route hroute
  rw [← Option.some.inj hroute]
  rfl

/-- There is only one plain spelling. -/
theorem SpelledPlainly.unique (h : SpelledPlainly document path)
    (h' : SpelledPlainly document other) (hsame : SameNode document path other) :
    path = other := by
  obtain ⟨hfound, heq⟩ := hsame
  rw [Json.at?, ← Json.isSome_route?] at hfound
  obtain ⟨route, hroute⟩ := Option.isSome_iff_exists.mp hfound
  have hsegments : path.segments = other.segments := by
    rw [← h route hroute, h' route (heq ▸ hroute)]
  cases path
  cases other
  exact congrArg SchemaPath.mk hsegments

/-- A segment below a plain place is plain but for positions. -/
theorem SpelledPlainly.child (h : SpelledPlainly document path) {segment : String}
    (hposition : ∀ items, document.at? path = some (.arr items) →
      ∀ index, arrayIndex? segment = some index → SchemaPath.ofIndex index = segment) :
    SpelledPlainly document (path.child segment) := by
  intro route hroute
  obtain ⟨first, next, last, hfirst, hnext, hlast, rfl⟩ := Json.route?_append hroute
  obtain ⟨below, -, hlast⟩ := Option.bind_eq_some_iff.mp hlast
  obtain ⟨link, hlink, hlast⟩ := Option.bind_eq_some_iff.mp hlast
  obtain rfl : last = [link] := (Option.some.inj hlast).symm
  have hsegment : link.segment = segment := by
    cases next with
    | obj entries => rw [← Option.some.inj hlink]; rfl
    | arr items =>
      obtain ⟨index, hindex, rfl⟩ := Option.map_eq_some_iff.mp hlink
      exact hposition items hnext index hindex
    | _ => cases hlink
  rw [List.map_append, h first hfirst, SchemaPath.segments_child, List.map_singleton, hsegment]

/-- A place below a plainly spelled one is so as well, if the segment between is no position. -/
theorem SpelledPlainly.child_word (h : SpelledPlainly document path) {word : String}
    (hword : arrayIndex? word = none) : SpelledPlainly document (path.child word) :=
  h.child fun _ _ _ hindex => by cases hword.symm.trans hindex

/-- The place of a member of a combiner is plain. -/
theorem SpelledPlainly.member (h : SpelledPlainly document path) {combiner : String}
    (hcombiner : combiner ∈ Flatten.combiners) (index : Nat) :
    SpelledPlainly document (path ++ [combiner, SchemaPath.ofIndex index]) := by
  have hword : ∀ combiner ∈ Flatten.combiners, arrayIndex? combiner = none := by decide
  rw [SchemaPath.append_pair]
  refine (h.child_word (hword combiner hcombiner)).child fun _ _ found hfound => ?_
  rw [arrayIndex?_ofIndex_eq] at hfound
  split_ifs at hfound
  rw [Option.some.inj hfound]

/-- The place of a property that stands in no array is spelled plainly if that of the schema is. -/
theorem SpelledPlainly.property (h : SpelledPlainly document path) {keyword : String}
    (hkeyword : keyword = "properties" ∨ keyword = "patternProperties")
    (hmembers : ∀ items, document.at? (path.child keyword) ≠ some (.arr items)) (name : String) :
    SpelledPlainly document (path ++ [keyword, name]) := by
  have hword : arrayIndex? keyword = none := by
    rcases hkeyword with rfl | rfl
    · decide
    · decide
  rw [SchemaPath.append_pair]
  exact (h.child_word hword).child fun items hitems => absurd hitems (hmembers items)

end Spelled

namespace Flatten

/-! ### Plain documents -/

/-- Whether a value is an object whose tables of members are no arrays, or no object at all. -/
def tabulatesMembers : Json → Bool
  | .obj entries => ["properties", "patternProperties"].all fun keyword =>
    match Assoc.find? entries keyword with
    | some (.arr _) => false
    | _ => true
  | _ => true

/-- What a key and its value in an object say of the spelling of its reference. -/
def RefSpelledPlainly (document : Json) (key : String) (value : Json) : Prop :=
  key = refKey → ∀ text, value = .str text → ∀ target, SchemaPath.ofPointer text = .ok target →
    SpelledPlainly document target

/-- Whether no object in a value repeats a key, and all references in it spell positions of the
document plainly. -/
abbrev RefsSpelledPlainly (document value : Json) : Prop :=
  value.Throughout (RefSpelledPlainly document)

variable {document : Json} {path : SchemaPath}

/-- There is no array in the place of a table of members. -/
theorem not_arr_of_tabulatesMembers (hmembers : document.everywhere tabulatesMembers)
    {keyword : String} (hkeyword : keyword = "properties" ∨ keyword = "patternProperties")
    (items : List Json) : document.at? (path.child keyword) ≠ some (.arr items) := by
  intro hitems
  rw [Json.at?, SchemaPath.segments_child, Json.descend?_append] at hitems
  obtain ⟨value, hvalue, hstep⟩ := Option.bind_eq_some_iff.mp hitems
  obtain ⟨next, hnext, hlast⟩ := Option.bind_eq_some_iff.mp hstep
  obtain rfl : next = .arr items := Option.some.inj hlast
  cases value with
  | obj node =>
    have hall := List.all_eq_true.mp
      (Json.test_of_everywhere (Json.everywhere_of_descend? hvalue hmembers)) keyword
      (by rcases hkeyword with rfl | rfl <;> decide)
    have hfind : Assoc.find? node keyword = some (.arr items) := hnext
    rw [hfind] at hall
    cases hall
  | arr others =>
    have hword : arrayIndex? keyword = none := by
      rcases hkeyword with rfl | rfl
      · decide
      · decide
    rw [Json.step?, hword] at hnext
    cases hnext
  | _ => cases hnext

/-! ### The walk -/

/-- What is known at the stages of the walk: each place is spelled plainly, and so is each
reference. Without combiners a schema is what stands in the document. -/
def spelling (document : Json) : Invariant where
  raw _ path schema := SpelledPlainly document path ∧ RefsSpelledPlainly document schema ∧
    (combinerFree document → document.at? path = some schema)
  folding _ path _ pending node := SpelledPlainly document path ∧
    RefsSpelledPlainly document (.obj node) ∧
    (∀ entry ∈ pending.members,
      SpelledPlainly document entry.1 ∧ RefsSpelledPlainly document entry.2) ∧
    (combinerFree document → pending.members = [] ∧ document.at? path = some (.obj node))
  left _ _ _ walked := RefsSpelledPlainly document walked.toJson ∧
    ∀ text, walked.toJson ≠ .str text
  listed _ path node := SpelledPlainly document path ∧ RefsSpelledPlainly document (.obj node)

/-- A reference to a plainly spelled place may be left behind anywhere. -/
theorem spelling_reference {keys : List SchemaPath} {place : SchemaPath} {origin : Json}
    (h : SpelledPlainly document path) :
    (spelling document).left keys place origin (.canonical path) := by
  refine ⟨Json.throughout_toSchema fun _ text htext target htarget => ?_, fun _ => nofun⟩
  obtain rfl := Json.str.inj htext
  rw [SchemaPath.ofPointer_toPointer] at htarget
  exact Except.ok.inj htarget ▸ h

/-- The references of a flattened table are spelled plainly. -/
theorem refsSpelledPlainly_of_flat {keys : List SchemaPath} {keyword : String}
    {members flat : Entries} (hflat : (spelling document).Flat keys path keyword members flat)
    (hmembers : RefsSpelledPlainly document (.obj members)) :
    RefsSpelledPlainly document (.obj flat) := by
  refine Json.throughout_obj.mpr ⟨hflat.keys_eq ▸ hmembers.nodup, fun entry hentry => ?_⟩
  obtain ⟨_, _, walked, ⟨hrefs, htext⟩, hvalue⟩ := hflat.exists_of_mem hentry
  exact ⟨fun _ text heq => absurd (hvalue.symm.trans heq) (htext text), hvalue ▸ hrefs⟩

/-- The walk keeps what is known at its stages. -/
theorem spelling_kept (hdocument : RefsSpelledPlainly document document)
    (hmembers : combinerFree document ∨ document.everywhere tabulatesMembers) :
    (spelling document).Kept document where
  raw_mono _ h := h
  folding_mono _ h := h
  left_mono _ h := h
  listed_mono _ h := h
  target h htext htarget _ hschema :=
    ⟨(h.2.1.of_mem (Assoc.mem_of_find? (textRef?_eq_some_iff.mp htext))).1 rfl _ rfl _ htarget,
      hdocument.of_at? hschema, fun _ => hschema⟩
  follow _ _ _ _ _ _ hwalked := hwalked
  refer _ _ _ _ hentry := spelling_reference hentry.1
  reference _ hentry := spelling_reference hentry.1
  bool _ := ⟨Json.throughout_bool _, fun _ => nofun⟩
  other h _ _ := ⟨h.2.1, fun _ => nofun⟩
  array h _ _ _ := ⟨h.2.1, fun _ => nofun⟩
  items h _ _ hitems :=
    ⟨h.1.child_word (by decide), h.2.1.of_find? hitems,
      fun hfree => (at?_child (h.2.2 hfree) "items").trans hitems⟩
  array_items h _ _ _ hwalked :=
    ⟨h.2.1.insert (fun hkey => absurd hkey (by decide)) hwalked.1, fun _ => nofun⟩
  start h _ _ := ⟨h.1, h.2.1, fun _ hentry => absurd hentry List.not_mem_nil,
    fun hfree => ⟨rfl, h.2.2 hfree⟩⟩
  skip _ h _ := h
  drop {keys path origin combiner rest node members} hcombiner h hfind := by
    refine ⟨h.1, h.2.1.swapErase _, fun entry hentry => ?_, fun hfree => ?_⟩
    · obtain ⟨index, -, hplace⟩ := mem_memberPlaces.mp hentry
      refine ⟨hplace ▸ h.1.member hcombiner _, ?_⟩
      exact Json.throughout_arr.mp (h.2.1.of_find? hfind) _ (mem_of_mem_memberPlaces hentry)
    · have hnode := (h.2.2.2 hfree).2
      cases (find?_combiner (lacksCombiners_of_at? hnode hfree) hcombiner).symm.trans hfind
  member h := ⟨(h.2.2.1 _ List.mem_cons_self).1, (h.2.2.1 _ List.mem_cons_self).2,
    fun hfree => absurd (h.2.2.2 hfree).1 (List.cons_ne_nil _ _)⟩
  merge {keys path origin place member others rest node source} h hsource hagree := by
    have hrefs : RefsSpelledPlainly document (.obj source) := by
      rcases hsource with ⟨walked, -, hleft, hwalked⟩ | hlisted
      · exact hwalked ▸ hleft.1
      · exact hlisted.2
    refine ⟨h.1, ?_, fun entry hentry => h.2.2.1 entry (List.mem_cons_of_mem _ hentry),
      fun hfree => absurd (h.2.2.2 hfree).1 (List.cons_ne_nil _ _)⟩
    exact throughout_merge (fun _ _ _ _ => nofun) (fun _ hkey => absurd hkey (by decide))
      (fun _ hkey => absurd hkey (by decide)) hagree h.2.1 hrefs
  pass h _ _ := ⟨h.1, h.2.1, fun entry hentry => h.2.2.1 entry (List.mem_cons_of_mem _ hentry),
    fun hfree => absurd (h.2.2.2 hfree).1 (List.cons_ne_nil _ _)⟩
  property {keys path origin node keyword members entry} h hkeyword hfind hentry := by
    have htable := h.2.1.of_find? hfind
    refine ⟨h.1.property hkeyword (fun items hitems => ?_) _, (htable.of_mem hentry).2,
      fun hfree => ?_⟩
    -- the name would be read as a position if there were an array in the document instead
    · rcases hmembers with hfree | htabulates
      · have hat := (at?_child (h.2.2.2 hfree).2 keyword).trans hfind
        cases hat.symm.trans hitems
      · exact not_arr_of_tabulatesMembers htabulates hkeyword items hitems
    · rw [at?_entry (h.2.2.2 hfree).2 hfind]
      exact (Assoc.find?_eq_some_iff htable.nodup).mpr hentry
  list h _ hfind hflat := ⟨h.1, h.2.1.insert (fun hkey => absurd hkey (by decide))
    (refsSpelledPlainly_of_flat hflat (h.2.1.of_find? hfind))⟩
  patterns h _ hfind hflat := ⟨h.2.1.insert (fun hkey => absurd hkey (by decide))
    (refsSpelledPlainly_of_flat hflat (h.2.1.of_find? hfind)), fun _ => nofun⟩
  bare h _ _ := ⟨h.2.1, fun _ => nofun⟩

/-! ### The table -/

/-- No node of a document is listed twice if the pointers of the document spell positions plainly,
and the document has no combiners or no table of members that is an array. -/
theorem eq_of_sameNode (hwf : document.wellFormed)
    (hrefs : ∀ place text target, (place, text) ∈ document.refs →
      SchemaPath.ofPointer text = .ok target → SpelledPlainly document target)
    (hmembers : combinerFree document ∨ document.everywhere tabulatesMembers) {depth : Nat}
    {schemas : FlatSchemas} (hflatten : flattenWithin depth document = .ok schemas) :
    (Assoc.keys schemas).Nodup ∧ ∀ path ∈ Assoc.keys schemas, ∀ other ∈ Assoc.keys schemas,
      SameNode document path other → path = other := by
  have hdocument : RefsSpelledPlainly document document := by
    refine Json.throughout_of_wellFormed hwf fun place entries hstands entry hentry => ?_
    rintro hkey text htext target htarget
    obtain ⟨key, value⟩ := entry
    obtain rfl : key = refKey := hkey
    obtain rfl : value = .str text := htext
    exact hrefs place text target (Json.mem_refs_of_mem hwf hstands hentry) htarget
  have hkept := spelling_kept hdocument hmembers
  have hgrounded := grounded_of_flattenWithin hkept
    ⟨spelledPlainly_root document, hdocument, fun _ => rfl⟩ hflatten
  have hplain : ∀ path ∈ Assoc.keys schemas, SpelledPlainly document path := by
    intro path hpath
    obtain ⟨entry, hentry⟩ := Assoc.exists_find?_of_mem_keys hpath
    exact (hgrounded.listed hkept hentry).1
  exact ⟨hgrounded.nodup_keys, fun path hpath other hother hsame =>
    (hplain path hpath).unique (hplain other hother) hsame⟩

/-- A document that refers to the first alternative of a definition twice, the second time by some
spelling of its position. -/
def alternativeTwice (position : String) : Json :=
  .obj [
    ("properties", .obj [
      ("home", .obj [(refKey, .str "#/definitions/place/oneOf/0")]),
      ("work", .obj [(refKey, .str ("#/definitions/place/oneOf/" ++ position))])]),
    ("definitions", .obj [("place", .obj [
      ("oneOf", .arr [.obj [("properties", .obj [("street", .bool true)])]])])])]

/-- Plainly spelled, the alternative is listed once. -/
theorem eq_of_sameNode_alternativeTwice : (alternativeTwice "0").wellFormed ∧
    (∀ place text target, (place, text) ∈ (alternativeTwice "0").refs →
      SchemaPath.ofPointer text = .ok target → SpelledPlainly (alternativeTwice "0") target) ∧
    (alternativeTwice "0").everywhere tabulatesMembers ∧
    ∃ schemas, flatten (alternativeTwice "0") = .ok schemas ∧
      Assoc.keys schemas = [⟨["definitions", "place", "oneOf", "0"]⟩, .root] ∧
      (Assoc.keys schemas).Nodup ∧ ∀ path ∈ Assoc.keys schemas, ∀ other ∈ Assoc.keys schemas,
        SameNode (alternativeTwice "0") path other → path = other := by
  have hwf : (alternativeTwice "0").wellFormed := by decide
  have hmembers : (alternativeTwice "0").everywhere tabulatesMembers := by decide
  have hrefs : ∀ place text target, (place, text) ∈ (alternativeTwice "0").refs →
      SchemaPath.ofPointer text = .ok target → SpelledPlainly (alternativeTwice "0") target := by
    intro place text target hmem htarget
    have htexts : ∀ ref ∈ (alternativeTwice "0").refs,
        ref.2 = "#/definitions/place/oneOf/0" := by decide
    have hplace : (SchemaPath.ofPointer "#/definitions/place/oneOf/0").toOption =
        some ⟨["definitions", "place", "oneOf", "0"]⟩ := by decide +kernel
    have hroute : (alternativeTwice "0").route? ["definitions", "place", "oneOf", "0"] =
        some [.key "definitions", .key "place", .key "oneOf", .position 0] := by decide
    obtain rfl : text = "#/definitions/place/oneOf/0" := htexts _ hmem
    rw [htarget] at hplace
    obtain rfl := Option.some.inj hplace
    intro route hother
    obtain rfl := Option.some.inj (hroute.symm.trans hother)
    decide
  obtain ⟨schemas, hflatten, hkeys⟩ := exists_of_keys (by decide +kernel :
    (flatten (alternativeTwice "0")).toOption.map Assoc.keys =
      some [⟨["definitions", "place", "oneOf", "0"]⟩, .root])
  exact ⟨hwf, hrefs, hmembers, schemas, hflatten, hkeys,
    eq_of_sameNode hwf hrefs (.inr hmembers) hflatten⟩

/-- A document with an array in the place of its properties, and with properties that are merged
into it. -/
def arrayedOver : Json :=
  .obj [
    ("properties", .arr [.obj []]),
    ("allOf", .arr [.obj [(typeKey, .arr [.str "object"]), ("properties", .obj [
      ("0", .obj [("properties", .obj [])]), ("00", .obj [("properties", .obj [])])])]])]

/-- A node is listed twice if a pointer spells its position in another way, or if two properties are
taken for spellings of a position. -/
theorem not_eq_of_sameNode :
    ((alternativeTwice "00").wellFormed ∧ (alternativeTwice "00").everywhere tabulatesMembers ∧
      ∃ schemas, flatten (alternativeTwice "00") = .ok schemas ∧
        ∃ path ∈ Assoc.keys schemas, ∃ other ∈ Assoc.keys schemas,
          SameNode (alternativeTwice "00") path other ∧ path ≠ other) ∧
    (arrayedOver.wellFormed ∧ arrayedOver.refs = [] ∧
      ∃ schemas, flatten arrayedOver = .ok schemas ∧
        ∃ path ∈ Assoc.keys schemas, ∃ other ∈ Assoc.keys schemas,
          SameNode arrayedOver path other ∧ path ≠ other) := by
  refine ⟨⟨by decide, by decide, ?_⟩, by decide, by decide, ?_⟩
  · obtain ⟨schemas, hflatten, hkeys⟩ := exists_of_keys (by decide +kernel :
      (flatten (alternativeTwice "00")).toOption.map Assoc.keys =
        some [⟨["definitions", "place", "oneOf", "0"]⟩, ⟨["definitions", "place", "oneOf", "00"]⟩,
          .root])
    have hsame : SameNode (alternativeTwice "00") ⟨["definitions", "place", "oneOf", "0"]⟩
        ⟨["definitions", "place", "oneOf", "00"]⟩ := ⟨by decide, by decide⟩
    exact ⟨schemas, hflatten, _, by simp [hkeys], _, by simp [hkeys], hsame, by decide⟩
  · obtain ⟨schemas, hflatten, hkeys⟩ := exists_of_keys (by decide +kernel :
      (flatten arrayedOver).toOption.map Assoc.keys =
        some [⟨["properties", "0"]⟩, ⟨["properties", "00"]⟩, .root])
    have hsame : SameNode arrayedOver ⟨["properties", "0"]⟩ ⟨["properties", "00"]⟩ :=
      ⟨by decide, by decide⟩
    exact ⟨schemas, hflatten, _, by simp [hkeys], _, by simp [hkeys], hsame, by decide⟩

end Flatten

end SchemaClasses
