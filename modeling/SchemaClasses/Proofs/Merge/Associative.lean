import Mathlib.Data.List.Sort
import SchemaClasses.Proofs.Json.Same
import SchemaClasses.Proofs.Merge.Separate
import SchemaClasses.Proofs.Merge.Union

/-!
# The grouping of merges

Main statement (`merge_assoc`): of three schemas it does not matter whether the second one is merged
into the first one before the third one comes, or the third one into the second one before both are
merged into the first. Either both ways stop, or both lead to the same schema. This asks that the
types and references in them are texts or lists of texts, no two of them in one schema
(`PlainlyTyped`), and that values which meet are objects or are not (`Kindred`).

Types and references depend on their order and on how many there are, so they are grouped as a whole
(`Unified.expand`). Under any other key a merge is the operation `unite` on the values there, and
`unite` may be grouped as soon as merges of the objects below may be (`unite_assoc`): the sorted
union of required names, the value that has to agree and the value that comes last are each
associative. The induction is on the first schema.
-/

namespace SchemaClasses.Merge

open Json

/-! ### What is asked of the schemas -/

/-- Whether the types and references in a value, wherever they are read as such, are texts or lists
of texts, and no object has both a type and a reference. -/
inductive PlainlyTyped : Keys → Json → Prop where
  /-- An object, whose other entries are read in turn. -/
  | object {keys : Keys} {entries : Entries}
      (htexts : ∀ key value, (key, value) ∈ entries → NamesType keys key → ListsTexts value)
      (hone : keys = .keywords → typeKey ∉ Assoc.keys entries ∨ refKey ∉ Assoc.keys entries)
      (hbelow : ∀ key value, (key, value) ∈ entries → ¬NamesType keys key →
        PlainlyTyped (keys.below key) value) : PlainlyTyped keys (.obj entries)
  /-- Any other value. -/
  | other {keys : Keys} {value : Json} (hvalue : value.isObject = false) : PlainlyTyped keys value

/-- Whether two values, and the values that meet in them at any chain of keys that are not read as
`type` or `$ref`, are both objects or both none. -/
inductive Kindred : Keys → Json → Json → Prop where
  /-- Two objects, whose values under the same keys meet in turn. -/
  | objects {keys : Keys} {entries others : Entries}
      (hbelow : ∀ key value other, (key, value) ∈ entries → (key, other) ∈ others →
        ¬NamesType keys key → Kindred (keys.below key) value other) :
      Kindred keys (.obj entries) (.obj others)
  /-- Two other values. -/
  | others {keys : Keys} {value other : Json} (hvalue : value.isObject = false)
      (hother : other.isObject = false) : Kindred keys value other

/-- Of kindred values both are objects or none is. -/
theorem Kindred.isObject_eq {keys : Keys} {value other : Json} (h : Kindred keys value other) :
    value.isObject = other.isObject := by
  cases h with
  | objects => rfl
  | others hvalue hother => rw [hvalue, hother]

/-! ### Required names -/

/-- Inserting a name adds that name and no other. -/
theorem mem_insertName_iff {name other : String} {names : List String} :
    name ∈ insertName other names ↔ name = other ∨ name ∈ names := by
  induction names with
  | nil => exact List.mem_singleton.trans (or_iff_left List.not_mem_nil).symm
  | cons first rest ih =>
    rw [insertName]
    split_ifs with hbefore hsame
    · exact List.mem_cons
    · rw [hsame]
      exact (or_iff_right_of_imp fun heq => heq ▸ List.mem_cons_self).symm
    · rw [List.mem_cons, ih, List.mem_cons, or_left_comm]

/-- A sorted list of different names stays so when a name is inserted. -/
theorem pairwise_insertName {name : String} {names : List String}
    (h : names.Pairwise (· < ·)) : (insertName name names).Pairwise (· < ·) := by
  induction names with
  | nil => exact List.pairwise_singleton _ _
  | cons first rest ih =>
    obtain ⟨hfirst, hrest⟩ := List.pairwise_cons.mp h
    rw [insertName]
    split_ifs with hbefore hsame
    · refine List.pairwise_cons.mpr ⟨fun other hother => ?_, h⟩
      rcases List.mem_cons.mp hother with rfl | hmem
      · exact hbefore
      · exact String.lt_trans hbefore (hfirst other hmem)
    · exact h
    · refine List.pairwise_cons.mpr ⟨fun other hother => ?_, ih hrest⟩
      rcases mem_insertName_iff.mp hother with rfl | hmem
      · exact ((Std.lt_trichotomy other first).resolve_left hbefore).resolve_left hsame
      · exact hfirst other hmem

/-- Names in order, each of them once. -/
theorem mem_sorted_iff {name : String} {names : List String} :
    name ∈ names.foldr insertName [] ↔ name ∈ names := by
  induction names with
  | nil => rfl
  | cons first rest ih => rw [List.foldr_cons, mem_insertName_iff, ih, List.mem_cons]

/-- Inserting names one after the other sorts them. -/
theorem pairwise_sorted (names : List String) :
    (names.foldr insertName []).Pairwise (· < ·) := by
  induction names with
  | nil => exact .nil
  | cons first rest ih => exact pairwise_insertName ih

/-- Sorting depends only on which names there are. -/
theorem sorted_congr {names others : List String} (h : ∀ name, name ∈ names ↔ name ∈ others) :
    names.foldr insertName [] = others.foldr insertName [] :=
  (pairwise_sorted names).eq_of_mem_iff (pairwise_sorted others) fun name => by
    rw [mem_sorted_iff, mem_sorted_iff, h]

/-- A name is required by a union if it is by either side. -/
theorem mem_requiredNames_unionRequired {name : String} {old new : Json} :
    name ∈ requiredNames (unionRequired old new) ↔
      name ∈ requiredNames old ∨ name ∈ requiredNames new := by
  have hnames : requiredNames (unionRequired old new) =
      (requiredNames old ++ requiredNames new).foldr insertName [] := by
    rw [unionRequired, requiredNames, List.filterMap_map]
    exact List.filterMap_some
  rw [hnames, mem_sorted_iff, List.mem_append]

/-- The union depends on which names there are alone. -/
theorem unionRequired_congr {old new old' new' : Json}
    (h : ∀ name, name ∈ requiredNames old ∨ name ∈ requiredNames new ↔
      name ∈ requiredNames old' ∨ name ∈ requiredNames new') :
    unionRequired old new = unionRequired old' new' := by
  unfold unionRequired
  refine congrArg (fun names : List String => Json.arr (names.map .str))
    (sorted_congr fun name => ?_)
  rw [List.mem_append, List.mem_append, h]

/-- Unions of required names may be grouped either way. -/
theorem unionRequired_assoc (first second third : Json) :
    unionRequired (unionRequired first second) third =
      unionRequired first (unionRequired second third) := by
  refine unionRequired_congr fun name => ?_
  rw [mem_requiredNames_unionRequired, mem_requiredNames_unionRequired, or_assoc]

/-! ### Types and references -/

section Types

/-- Repetitions may be left out before or after a list is filtered. -/
theorem eraseDups_filter (p : String → Bool) (texts : List String) :
    (texts.filter p).eraseDups = texts.eraseDups.filter p := by
  induction texts using List.reverseRecOn with
  | nil => rfl
  | append_singleton texts text ih =>
    rw [List.filter_append, eraseDups_append_singleton]
    by_cases hp : p text
    · rw [List.filter_cons_of_pos hp, List.filter_nil, eraseDups_append_singleton, ih]
      by_cases hmem : text ∈ texts
      · rw [if_pos hmem, if_pos (List.mem_filter.mpr ⟨hmem, hp⟩)]
      · rw [if_neg hmem, if_neg fun h => hmem (List.mem_filter.mp h).1, List.filter_append,
          List.filter_cons_of_pos hp, List.filter_nil]
    · rw [List.filter_cons_of_neg hp, List.filter_nil, List.append_nil, ih]
      by_cases hmem : text ∈ texts
      · rw [if_pos hmem]
      · rw [if_neg hmem, List.filter_append, List.filter_cons_of_neg hp, List.filter_nil,
          List.append_nil]

/-- What is dropped behind a list depends on what is left of the lists alone. -/
theorem eraseDups_append_congr_right {front texts others : List String}
    (h : texts.eraseDups = others.eraseDups) :
    (front ++ texts).eraseDups = (front ++ others).eraseDups := by
  rw [List.eraseDups_append, List.eraseDups_append, List.removeAll, List.removeAll,
    eraseDups_filter, eraseDups_filter, h]

/-- A union depends on what is left of the texts behind a list of values. -/
theorem union_congr_right {front values others : List Json}
    (h : (values.flatMap texts).eraseDups = (others.flatMap texts).eraseDups) :
    union (front ++ values) = union (front ++ others) := by
  unfold union
  rw [List.flatMap_append, List.flatMap_append, eraseDups_append_congr_right h]

/-- The key of a type is not that of a reference. -/
theorem typeKey_ne_refKey : typeKey ≠ refKey := by decide

variable {front given between target other : Entries} {key : String}

/-- Contributions determine the type and the reference. -/
theorem Unified.unique (h : Unified given target) (h' : Unified given other)
    (hkey : key = typeKey ∨ key = refKey) : Assoc.find? target key = Assoc.find? other key := by
  have hsingle : ∀ {value ref}, AreReference [(typeKey, value)] ref → False := fun h =>
    typeKey_ne_refKey (congrArg Prod.fst (h _ List.mem_cons_self))
  have hboth : Assoc.find? target typeKey = Assoc.find? other typeKey ∧
      Assoc.find? target refKey = Assoc.find? other refKey := by
    cases h with
    | nothing htype href =>
      cases h' with
      | nothing htype' href' => exact ⟨htype.trans htype'.symm, href.trans href'.symm⟩
      | reference hne => exact absurd rfl hne
      | several hmany => exact absurd hmany (by decide)
    | type htype href =>
      cases h' with
      | type htype' href' => exact ⟨htype.trans htype'.symm, href.trans href'.symm⟩
      | reference _ hsame => exact (hsingle hsame).elim
      | several hmany => exact absurd hmany (Nat.not_succ_le_self 1)
    | reference hne hsame htype href =>
      cases h' with
      | nothing => exact absurd rfl hne
      | type => exact (hsingle hsame).elim
      | reference _ hsame' htype' href' =>
        obtain ⟨entry, hentry⟩ := List.exists_mem_of_ne_nil given hne
        have hrefs := congrArg Prod.snd ((hsame entry hentry).symm.trans (hsame' entry hentry))
        exact ⟨htype.trans htype'.symm, href.trans ((congrArg some hrefs).trans href'.symm)⟩
      | several _ hdiffer => exact absurd hsame (hdiffer _)
    | several hmany hdiffer htype href =>
      cases h' with
      | nothing => exact absurd hmany (by decide)
      | type => exact absurd hmany (Nat.not_succ_le_self 1)
      | reference _ hsame => exact absurd hsame (hdiffer _)
      | several _ _ htype' href' => exact ⟨htype.trans htype'.symm, href.trans href'.symm⟩
  rcases hkey with rfl | rfl
  · exact hboth.1
  · exact hboth.2

/-- What has been unified contributes texts. -/
theorem Unified.listsTexts (h : Unified given between) (hnodup : (Assoc.keys between).Nodup)
    (hlists : ∀ entry ∈ given, ListsTexts entry.2) :
    ∀ entry ∈ contributions between, ListsTexts entry.2 := by
  cases h with
  | nothing htype href =>
    rw [contributions_eq_nil htype href]
    exact fun _ hmem => absurd hmem List.not_mem_nil
  | type htype href =>
    rw [contributions_of_type hnodup htype href]
    exact hlists
  | reference hne hsame htype href =>
    rw [contributions_of_ref hnodup htype href]
    obtain ⟨entry, hentry⟩ := List.exists_mem_of_ne_nil given hne
    exact List.forall_mem_singleton.mpr (hsame entry hentry ▸ hlists entry hentry)
  | several _ _ htype href =>
    rw [contributions_of_type hnodup htype href]
    exact List.forall_mem_singleton.mpr (listsTexts_union _)

/-- What has been unified contributes to a target just what it was unified from. -/
theorem Unified.expand (h : Unified given between) (hnodup : (Assoc.keys between).Nodup)
    (htarget : Unified (front ++ contributions between) target) :
    Unified (front ++ given) target := by
  cases h with
  | nothing htype href =>
    rwa [contributions_eq_nil htype href] at htarget
  | type htype href =>
    rwa [contributions_of_type hnodup htype href] at htarget
  | @reference _ _ ref hne hsame htype href =>
    rw [contributions_of_ref hnodup htype href] at htarget
    have hfront : ∀ {other}, AreReference (front ++ [(refKey, ref)]) other ↔
        AreReference (front ++ given) other := by
      intro other
      obtain ⟨entry, hentry⟩ := List.exists_mem_of_ne_nil given hne
      unfold AreReference
      rw [List.forall_mem_append, List.forall_mem_append, List.forall_mem_singleton]
      refine and_congr_right fun _ => ⟨fun heq entry hentry => (hsame entry hentry).trans heq,
        fun hall => (hsame entry hentry).symm.trans (hall entry hentry)⟩
    -- however often the reference was given, it is contributed once
    generalize hcontributed : front ++ [(refKey, ref)] = contributed at htarget hfront
    cases htarget with
    | nothing => exact absurd hcontributed (List.append_ne_nil_of_right_ne_nil _ nofun)
    | type =>
      have hkey := (List.append_inj' (hcontributed.trans (List.nil_append _).symm) rfl).2
      exact (typeKey_ne_refKey (congrArg Prod.fst (List.singleton_inj.mp hkey)).symm).elim
    | reference _ hsame' htype' href' =>
      exact .reference (List.append_ne_nil_of_right_ne_nil _ hne) (hfront.mp hsame') htype' href'
    | several hmany hdiffer htype' href' =>
      have hpos := List.length_pos_iff.mpr hne
      refine .several ?_ (fun other hall => hdiffer other (hfront.mpr hall)) ?_ href'
      · rw [← hcontributed, List.length_append, List.length_singleton] at hmany
        rw [List.length_append]
        omega
      · rw [htype', ← hcontributed, List.map_append, List.map_append]
        refine congrArg some (union_congr_right ?_)
        rw [hsame.eraseDups_eq hne, List.map_singleton, List.flatMap_singleton]
  | several hmany hdiffer htype href =>
    rw [contributions_of_type hnodup htype href] at htarget
    -- what differs among those given differs with more in front, so it comes to a union again
    have hfront : ∀ other, ¬AreReference (front ++ given) other := fun other hall =>
      hdiffer other fun entry hentry => hall entry (List.mem_append_right _ hentry)
    have hlength : 2 ≤ (front ++ given).length := by
      rw [List.length_append]
      exact Nat.le_add_left_of_le hmany
    generalize hcontributed :
      front ++ [(typeKey, union (given.map Prod.snd))] = contributed at htarget
    cases htarget with
    | nothing => exact absurd hcontributed (List.append_ne_nil_of_right_ne_nil _ nofun)
    | type htype' href' =>
      obtain ⟨hnil, hkey⟩ := List.append_inj' (hcontributed.trans (List.nil_append _).symm) rfl
      obtain rfl := congrArg Prod.snd (List.singleton_inj.mp hkey)
      rw [hnil] at hfront hlength ⊢
      exact .several hlength hfront htype' href'
    | reference _ hsame =>
      have hlast := hsame _ (hcontributed ▸ List.mem_append_right _ List.mem_cons_self)
      exact (typeKey_ne_refKey (congrArg Prod.fst hlast)).elim
    | several _ _ htype' href' =>
      refine .several hlength hfront ?_ href'
      rw [htype', ← hcontributed, List.map_append, List.map_append]
      refine congrArg some (union_congr_right ?_)
      rw [List.map_singleton, List.flatMap_singleton, texts_union, eraseDups_eraseDups]

end Types

/-! ### The values under one key -/

/-- Whether it does not matter how the merges of three objects are grouped. -/
def Associates (keys : Keys) (first second third : Entries) : Prop :=
  ∀ path, Option.Rel (fun left right => (Json.obj left).same (.obj right))
    ((mergeEntries keys path first second).result?.bind fun between =>
      (mergeEntries keys path between third).result?)
    ((mergeEntries keys path second third).result?.bind fun between =>
      (mergeEntries keys path first between).result?)

section Unite

variable {keys : Keys} {path : SchemaPath} {key : String} {first second third : Option Json}

/-- Whether no object in a value repeats a key. -/
abbrev Distinct (value : Json) : Prop :=
  value.Throughout fun _ _ => True

/-- A union of required names has no objects that could repeat a key. -/
theorem distinct_unionRequired (old new : Json) : Distinct (unionRequired old new) := by
  refine throughout_arr.mpr fun item hitem => ?_
  obtain ⟨name, -, rfl⟩ := List.mem_map.mp hitem
  exact throughout_str name

/-- A merge of objects that repeat no key repeats none. -/
theorem distinct_mergeEntries {target source : Entries} {result : Entries}
    (h : (mergeEntries keys path target source).result? = some result)
    (htarget : Distinct (.obj target)) (hsource : Distinct (.obj source)) :
    Distinct (.obj result) := by
  obtain ⟨hagree, rfl⟩ := result?_eq_some.mp h
  exact throughout_mergeEntries (fun _ _ => trivial) (fun _ => trivial) (fun _ => trivial)
    (.obj source) rfl hagree htarget hsource

/-- Uniting values repeats no keys. -/
theorem distinct_unite (hfirst : ∀ value ∈ first, Distinct value)
    (hsecond : ∀ value ∈ second, Distinct value) {result : Option Json}
    (h : unite keys path key first second = some result) : ∀ value ∈ result, Distinct value := by
  unfold unite at h
  split at h
  · exact Option.some.inj h ▸ hfirst
  · exact Option.some.inj h ▸ hsecond
  · obtain ⟨entries, hentries, rfl⟩ := Option.map_eq_some_iff.mp h
    rintro _ ⟨⟩
    exact distinct_mergeEntries hentries (hfirst _ rfl) (hsecond _ rfl)
  · split_ifs at h
    · exact Option.some.inj h ▸ hsecond
    · obtain rfl := Option.some.inj h
      rintro _ ⟨⟩
      exact distinct_unionRequired _ _
    · exact Option.some.inj h ▸ hsecond

/-- Results that are related stay so when related functions are applied to them. -/
theorem rel_map {α β γ δ : Type} {R : α → β → Prop} {S : γ → δ → Prop} {f : α → γ} {g : β → δ}
    (h : ∀ a b, R a b → S (f a) (g b)) {left : Option α} {right : Option β}
    (hrel : Option.Rel R left right) : Option.Rel S (left.map f) (right.map g) := by
  cases hrel with
  | none => exact .none
  | some hab => exact .some (h _ _ hab)

/-- Of related results there are both or none. -/
theorem exists_some_iff_of_rel {α β : Type} {R : α → β → Prop} {left : Option α}
    {right : Option β} (hrel : Option.Rel R left right) :
    (∃ a, left = some a) ↔ ∃ b, right = some b := by
  cases hrel with
  | none => exact iff_of_false nofun nofun
  | some => exact iff_of_true ⟨_, rfl⟩ ⟨_, rfl⟩

/-- Two values found under a key, or none, are the same. -/
abbrev SameFound (value other : Option Json) : Prop :=
  Option.Rel (fun v w => Json.same v w) value other

/-- What repeats no key, or is missing, is the same as itself. -/
theorem sameFound_refl {found : Option Json} (h : ∀ value ∈ found, Distinct value) :
    SameFound found found := by
  cases found with
  | none => exact .none
  | some value => exact .some (same_refl (h value rfl))

/-- A result in which no key is repeated is the same as itself. -/
theorem rel_sameFound_refl {result : Option (Option Json)}
    (h : ∀ found, result = some found → ∀ value ∈ found, Distinct value) :
    Option.Rel SameFound result result := by
  cases result with
  | none => exact .none
  | some found => exact .some (sameFound_refl (h found rfl))

/-- Three values of which the first two are no objects are united in either way to the same. -/
theorem unite_assoc_values {old mid new : Json} (hold : old.isObject = false)
    (hmid : mid.isObject = false) (hdistinct : Distinct mid) (hdistinct' : Distinct new) :
    Option.Rel SameFound
      ((unite keys path key (some old) (some mid)).bind fun found =>
        unite keys path key found (some new))
      ((unite keys path key (some mid) (some new)).bind fun found =>
        unite keys path key (some old) found) := by
  have hother : ∀ {value other : Json}, value.isObject = false →
      ∀ entries schema, value = .obj entries → other ≠ .obj schema := by
    rintro _ _ hvalue entries _ rfl
    cases hvalue
  have hunion : ∀ old new, (unionRequired old new).isObject = false := fun _ _ => rfl
  by_cases hnames : keys = .names
  · simp only [unite_of_not_objects (hother hold), unite_of_not_objects (hother hmid),
      if_pos hnames, Option.bind_some]
    exact .some (.some (same_refl hdistinct'))
  by_cases hrequired : key = "required"
  · simp only [unite_of_not_objects (hother hold), unite_of_not_objects (hother hmid),
      unite_of_not_objects (hother (hunion old mid)), if_neg hnames, if_pos hrequired,
      Option.bind_some, unionRequired_assoc]
    exact .some (.some (same_refl (distinct_unionRequired _ _)))
  have hplain : ∀ {value other : Json}, value.isObject = false →
      unite keys path key (some value) (some other) =
        if mustAgree key && !value.same other then none else some (some other) := by
    intro value other hvalue
    rw [unite_of_not_objects (hother hvalue), if_neg hnames, if_neg hrequired]
  rw [hplain hold, hplain hmid]
  by_cases hdiffer : (mustAgree key && !mid.same new) = true
  · -- the last two values disagree, and the one in the middle is what is left of the first two
    rw [if_pos hdiffer, Option.bind_none]
    split_ifs with hearlier
    · exact .none
    · rw [Option.bind_some, hplain hmid, if_pos hdiffer]
      exact .none
  · rw [if_neg hdiffer, Option.bind_some, hplain hold]
    -- what is the same as one of them is the same as the other
    have hsame : (mustAgree key && !old.same mid) = (mustAgree key && !old.same new) := by
      cases hkey : mustAgree key with
      | false => rfl
      | true =>
        simp only [hkey, Bool.true_and, Bool.not_eq_true', Bool.not_eq_false] at hdiffer
        rw [Bool.eq_iff_iff.mpr (same_congr_right hdistinct hdiffer)]
    rw [hsame]
    split_ifs
    · exact .none
    · rw [Option.bind_some, hplain hmid, if_neg hdiffer]
      exact .some (.some (same_refl hdistinct'))

/-- The values under one key may be united in either way if the objects among them may be. -/
theorem unite_assoc (hfirst : ∀ value ∈ first, Distinct value)
    (hsecond : ∀ value ∈ second, Distinct value) (hthird : ∀ value ∈ third, Distinct value)
    (hkindred : ∀ value ∈ first, ∀ other ∈ second, Kindred (keys.below key) value other)
    (hkindred' : ∀ value ∈ second, ∀ other ∈ third, Kindred (keys.below key) value other)
    (hobjects : ∀ a b c, Json.obj a ∈ first → Json.obj b ∈ second → Json.obj c ∈ third →
      Associates (keys.below key) a b c) :
    Option.Rel SameFound
      ((unite keys path key first second).bind fun found => unite keys path key found third)
      ((unite keys path key second third).bind fun found => unite keys path key first found) := by
  rcases first with - | old
  · simp only [none_unite, Option.bind_some, Option.bind_fun_some]
    exact rel_sameFound_refl fun _ => distinct_unite hsecond hthird
  rcases second with - | mid
  · simp only [unite_none, none_unite, Option.bind_some]
    exact rel_sameFound_refl fun _ => distinct_unite hfirst hthird
  rcases third with - | new
  · simp only [unite_none, Option.bind_some, Option.bind_fun_some]
    exact rel_sameFound_refl fun _ => distinct_unite hfirst hsecond
  have hkind := hkindred old rfl mid rfl
  have hkind' := hkindred' mid rfl new rfl
  cases hmid : mid.isObject with
  | false =>
    exact unite_assoc_values (hkind.isObject_eq.trans hmid) hmid (hsecond mid rfl) (hthird new rfl)
  | true =>
    obtain ⟨a, rfl⟩ := exists_of_isObject (hkind.isObject_eq.trans hmid)
    obtain ⟨b, rfl⟩ := exists_of_isObject hmid
    obtain ⟨c, rfl⟩ := exists_of_isObject (hkind'.isObject_eq.symm.trans hmid)
    have hunite : ∀ x y, unite keys path key (some (.obj x)) (some (.obj y)) =
        (mergeEntries (keys.below key) (path.child key) x y).result?.map fun entries =>
          some (.obj entries) := fun _ _ => rfl
    have hrel := rel_map (S := SameFound) (f := fun entries => some (Json.obj entries))
      (g := fun entries => some (Json.obj entries)) (fun _ _ => Option.Rel.some)
      (hobjects a b c rfl rfl rfl (path.child key))
    rw [Option.map_bind, Option.map_bind] at hrel
    simpa only [hunite, Option.bind_map, Option.map_map, Function.comp_def] using hrel

end Unite

/-! ### Two merges, one after the other -/

section Grouped

variable {keys : Keys} {path : SchemaPath} {key : String}
  {first second third between left right : Entries}

/-- If a merge into a merge succeeds, so does uniting what stands under each key, in that order. -/
theorem unite_of_results_left (hfirst : Distinct (.obj first)) (hsecond : Distinct (.obj second))
    (hthird : Distinct (.obj third)) (htype : ¬NamesType keys key)
    (hbetween : (mergeEntries keys path first second).result? = some between)
    (hleft : (mergeEntries keys path between third).result? = some left) :
    ((unite keys path key (Assoc.find? first key) (Assoc.find? second key)).bind fun found =>
      unite keys path key found (Assoc.find? third key)) = some (Assoc.find? left key) := by
  have hdistinct := distinct_mergeEntries hbetween hfirst hsecond
  rw [unite_of_result hfirst.nodup hsecond.nodup hbetween htype, Option.bind_some,
    unite_of_result hdistinct.nodup hthird.nodup hleft htype]

/-- If merging a merge succeeds, so does uniting what stands under each key, in that order. -/
theorem unite_of_results_right (hfirst : Distinct (.obj first)) (hsecond : Distinct (.obj second))
    (hthird : Distinct (.obj third)) (htype : ¬NamesType keys key)
    (hbetween : (mergeEntries keys path second third).result? = some between)
    (hright : (mergeEntries keys path first between).result? = some right) :
    ((unite keys path key (Assoc.find? second key) (Assoc.find? third key)).bind fun found =>
      unite keys path key (Assoc.find? first key) found) = some (Assoc.find? right key) := by
  have hdistinct := distinct_mergeEntries hbetween hsecond hthird
  rw [unite_of_result hsecond.nodup hthird.nodup hbetween htype, Option.bind_some,
    unite_of_result hfirst.nodup hdistinct.nodup hright htype]

/-- If uniting succeeds under every key, so does merging into a merge. -/
theorem exists_results_left (hfirst : Distinct (.obj first)) (hsecond : Distinct (.obj second))
    (hthird : Distinct (.obj third))
    (h : ∀ key, ¬NamesType keys key → ∃ value,
      ((unite keys path key (Assoc.find? first key) (Assoc.find? second key)).bind fun found =>
        unite keys path key found (Assoc.find? third key)) = some value) :
    ∃ between left, (mergeEntries keys path first second).result? = some between ∧
      (mergeEntries keys path between third).result? = some left := by
  obtain ⟨between, hbetween⟩ := exists_result_of_unite hfirst.nodup hsecond.nodup
    fun key htype => by
      obtain ⟨_, hvalue⟩ := h key htype
      obtain ⟨found, hfound, -⟩ := Option.bind_eq_some_iff.mp hvalue
      exact ⟨found, hfound⟩
  have hdistinct := distinct_mergeEntries hbetween hfirst hsecond
  obtain ⟨left, hleft⟩ := exists_result_of_unite hdistinct.nodup hthird.nodup
    fun key htype => by
      obtain ⟨value, hvalue⟩ := h key htype
      rw [unite_of_result hfirst.nodup hsecond.nodup hbetween htype] at hvalue
      exact ⟨value, hvalue⟩
  exact ⟨between, left, hbetween, hleft⟩

/-- If uniting succeeds under every key, so does merging a merge. -/
theorem exists_results_right (hfirst : Distinct (.obj first)) (hsecond : Distinct (.obj second))
    (hthird : Distinct (.obj third))
    (h : ∀ key, ¬NamesType keys key → ∃ value,
      ((unite keys path key (Assoc.find? second key) (Assoc.find? third key)).bind fun found =>
        unite keys path key (Assoc.find? first key) found) = some value) :
    ∃ between right, (mergeEntries keys path second third).result? = some between ∧
      (mergeEntries keys path first between).result? = some right := by
  obtain ⟨between, hbetween⟩ := exists_result_of_unite hsecond.nodup hthird.nodup
    fun key htype => by
      obtain ⟨_, hvalue⟩ := h key htype
      obtain ⟨found, hfound, -⟩ := Option.bind_eq_some_iff.mp hvalue
      exact ⟨found, hfound⟩
  have hdistinct := distinct_mergeEntries hbetween hsecond hthird
  obtain ⟨right, hright⟩ := exists_result_of_unite hfirst.nodup hdistinct.nodup
    fun key htype => by
      obtain ⟨value, hvalue⟩ := h key htype
      rw [unite_of_result hsecond.nodup hthird.nodup hbetween htype] at hvalue
      exact ⟨value, hvalue⟩
  exact ⟨between, right, hbetween, hright⟩

/-- The types and references of a plainly typed schema are texts or lists of texts. -/
theorem PlainlyTyped.listsTexts (h : PlainlyTyped .keywords (.obj first)) :
    ∀ entry ∈ contributions first, ListsTexts entry.2 := by
  intro entry hentry
  obtain ⟨hmem, hkey⟩ := List.mem_filter.mp hentry
  cases h with
  | object htexts => exact htexts entry.1 entry.2 hmem ⟨rfl, by simpa using hkey⟩
  | other hvalue => cases hvalue

/-- What a plainly typed schema contributes is what has been made of its type and reference. -/
theorem PlainlyTyped.unified (h : PlainlyTyped .keywords (.obj first))
    (hfirst : Distinct (.obj first)) : Unified (contributions first) first := by
  cases h with
  | object _ hone =>
    exact unified_contributions hfirst.nodup
      ((hone rfl).imp Assoc.find?_eq_none_iff.mpr Assoc.find?_eq_none_iff.mpr)
  | other hvalue => cases hvalue

/-- Types and references come out the same either way. -/
theorem find?_type_eq {between' : Entries} (hfirst : Distinct (.obj first))
    (hsecond : Distinct (.obj second)) (hthird : Distinct (.obj third))
    (hplain : PlainlyTyped .keywords (.obj first)) (hplain' : PlainlyTyped .keywords (.obj second))
    (hplain'' : PlainlyTyped .keywords (.obj third))
    (hbetween : (mergeEntries .keywords path first second).result? = some between)
    (hleft : (mergeEntries .keywords path between third).result? = some left)
    (hbetween' : (mergeEntries .keywords path second third).result? = some between')
    (hright : (mergeEntries .keywords path first between').result? = some right)
    (hkey : key = typeKey ∨ key = refKey) :
    Assoc.find? left key = Assoc.find? right key := by
  have hdistinct := distinct_mergeEntries hbetween hfirst hsecond
  have hdistinct' := distinct_mergeEntries hbetween' hsecond hthird
  obtain ⟨hagree, rfl⟩ := result?_eq_some.mp hbetween
  obtain ⟨hagreeLeft, rfl⟩ := result?_eq_some.mp hleft
  obtain ⟨hagree', rfl⟩ := result?_eq_some.mp hbetween'
  obtain ⟨hagreeRight, rfl⟩ := result?_eq_some.mp hright
  have htexts := List.forall_mem_append.mpr ⟨hplain.listsTexts, hplain'.listsTexts⟩
  have htexts' := List.forall_mem_append.mpr ⟨hplain'.listsTexts, hplain''.listsTexts⟩
  have hleft := ((hplain.unified hfirst).mergeEntries hfirst.nodup htexts hagree).mergeEntries
    hdistinct.nodup (List.forall_mem_append.mpr ⟨htexts, hplain''.listsTexts⟩) hagreeLeft
  have hbetween' := (hplain'.unified hsecond).mergeEntries hsecond.nodup htexts' hagree'
  have hright := (hplain.unified hfirst).mergeEntries hfirst.nodup (List.forall_mem_append.mpr
    ⟨hplain.listsTexts, hbetween'.listsTexts hdistinct'.nodup htexts'⟩) hagreeRight
  rw [List.append_assoc] at hleft
  exact hleft.unique (hbetween'.expand hdistinct'.nodup hright) hkey

end Grouped

/-! ### All entries -/

/-- A value under a key of a plainly typed object is plainly typed, unless it is a type itself. -/
theorem PlainlyTyped.of_find? {keys : Keys} {entries : Entries} {key : String} {value : Json}
    (h : PlainlyTyped keys (.obj entries)) (hvalue : Assoc.find? entries key = some value)
    (htype : ¬NamesType keys key) : PlainlyTyped (keys.below key) value := by
  cases h with
  | object _ _ hbelow => exact hbelow key value (Assoc.mem_of_find? hvalue) htype
  | other hobject => cases hobject

/-- Values under a common key of kindred objects are kindred, unless they are types. -/
theorem Kindred.of_find? {keys : Keys} {entries others : Entries} {key : String}
    {value other : Json} (h : Kindred keys (.obj entries) (.obj others))
    (hvalue : Assoc.find? entries key = some value) (hother : Assoc.find? others key = some other)
    (htype : ¬NamesType keys key) : Kindred (keys.below key) value other := by
  cases h with
  | objects hbelow =>
    exact hbelow key value other (Assoc.mem_of_find? hvalue) (Assoc.mem_of_find? hother) htype
  | others hobject => cases hobject

/-- Merges of three objects may be grouped if that is so for the values under each key. -/
theorem associates_of_unite {keys : Keys} {first second third : Entries}
    (hfirst : Distinct (.obj first)) (hsecond : Distinct (.obj second))
    (hthird : Distinct (.obj third)) (hplain : PlainlyTyped keys (.obj first))
    (hplain' : PlainlyTyped keys (.obj second)) (hplain'' : PlainlyTyped keys (.obj third))
    (hunite : ∀ path key, ¬NamesType keys key → Option.Rel SameFound
      ((unite keys path key (Assoc.find? first key) (Assoc.find? second key)).bind fun found =>
        unite keys path key found (Assoc.find? third key))
      ((unite keys path key (Assoc.find? second key) (Assoc.find? third key)).bind fun found =>
        unite keys path key (Assoc.find? first key) found)) :
    Associates keys first second third := by
  intro path
  replace hunite := hunite path
  -- one grouping succeeds just if uniting does under every key, and so does the other one
  by_cases hsome : ∃ between left, (mergeEntries keys path first second).result? = some between ∧
      (mergeEntries keys path between third).result? = some left
  · obtain ⟨between, left, hbetween, hleft⟩ := hsome
    have hfound := fun key (htype : ¬NamesType keys key) =>
      unite_of_results_left hfirst hsecond hthird htype hbetween hleft
    obtain ⟨between', right, hbetween', hright⟩ := exists_results_right hfirst hsecond hthird
      fun key htype => (exists_some_iff_of_rel (hunite key htype)).mp ⟨_, hfound key htype⟩
    rw [hbetween, hbetween', Option.bind_some, Option.bind_some, hleft, hright]
    have hdistinct := distinct_mergeEntries hleft
      (distinct_mergeEntries hbetween hfirst hsecond) hthird
    have hdistinct' := distinct_mergeEntries hright hfirst
      (distinct_mergeEntries hbetween' hsecond hthird)
    refine .some (same_of_find? hdistinct.nodup hdistinct'.nodup fun key => ?_)
    by_cases htype : NamesType keys key
    · obtain ⟨rfl, hkey⟩ := htype
      rw [← find?_type_eq hfirst hsecond hthird hplain hplain' hplain'' hbetween hleft hbetween'
        hright hkey]
      exact sameFound_refl fun value hvalue => hdistinct.of_find? hvalue
    · have hrel := hunite key htype
      rw [hfound key htype,
        unite_of_results_right hfirst hsecond hthird htype hbetween' hright] at hrel
      cases hrel with
      | some hsame => exact hsame
  · have hsome' : ¬∃ between right, (mergeEntries keys path second third).result? = some between ∧
        (mergeEntries keys path first between).result? = some right := by
      rintro ⟨between, right, hbetween, hright⟩
      have hfound := fun key (htype : ¬NamesType keys key) =>
        unite_of_results_right hfirst hsecond hthird htype hbetween hright
      exact hsome (exists_results_left hfirst hsecond hthird fun key htype =>
        (exists_some_iff_of_rel (hunite key htype)).mpr ⟨_, hfound key htype⟩)
    have hnone : ∀ {start : Option Entries} {next : Entries → Option Entries},
        (¬∃ between result, start = some between ∧ next between = some result) →
          start.bind next = none := fun h =>
      Option.eq_none_iff_forall_not_mem.mpr fun result hresult => h <| by
        obtain ⟨between, hbetween, hresult⟩ := Option.bind_eq_some_iff.mp hresult
        exact ⟨between, result, hbetween, hresult⟩
    rw [hnone hsome, hnone hsome']
    exact .none

/-- Merges of three objects may be grouped. -/
theorem associates {first : Json} : ∀ {keys : Keys} {a b c : Entries}, first = .obj a →
    Distinct (.obj a) → Distinct (.obj b) → Distinct (.obj c) →
    PlainlyTyped keys (.obj a) → PlainlyTyped keys (.obj b) → PlainlyTyped keys (.obj c) →
    Kindred keys (.obj a) (.obj b) → Kindred keys (.obj b) (.obj c) → Associates keys a b c := by
  induction first using Json.induction with
  | obj entries ih =>
    rintro keys _ b c ⟨⟩ ha hb hc hplain hplain' hplain'' hkindred hkindred'
    refine associates_of_unite ha hb hc hplain hplain' hplain'' fun path key htype => ?_
    refine unite_assoc (fun _ h => ha.of_find? h) (fun _ h => hb.of_find? h)
      (fun _ h => hc.of_find? h) (fun _ h _ h' => hkindred.of_find? h h' htype)
      (fun _ h _ h' => hkindred'.of_find? h h' htype) fun x y z hx hy hz => ?_
    exact ih (key, .obj x) (Assoc.mem_of_find? hx) rfl (ha.of_find? hx) (hb.of_find? hy)
      (hc.of_find? hz) (hplain.of_find? hx htype) (hplain'.of_find? hy htype)
      (hplain''.of_find? hz htype) (hkindred.of_find? hx hy htype) (hkindred'.of_find? hy hz htype)
  | _ => exact nofun

/-- It does not matter whether the second of three schemas is merged into the first one before the
third one comes, or after it has taken up the third one: both ways succeed or neither does, and they
lead to the same schema. -/
theorem merge_assoc {a b c : Entries} (ha : (Json.obj a).wellFormed)
    (hb : (Json.obj b).wellFormed) (hc : (Json.obj c).wellFormed)
    (hplain : PlainlyTyped .keywords (.obj a)) (hplain' : PlainlyTyped .keywords (.obj b))
    (hplain'' : PlainlyTyped .keywords (.obj c)) (hkindred : Kindred .keywords (.obj a) (.obj b))
    (hkindred' : Kindred .keywords (.obj b) (.obj c)) (path : SchemaPath) :
    (((merge a b path).conflict = none ∧
        (merge (merge a b path).value c path).conflict = none) ↔
      (merge b c path).conflict = none ∧
        (merge a (merge b c path).value path).conflict = none) ∧
    ((merge a b path).conflict = none → (merge (merge a b path).value c path).conflict = none →
      (Json.obj (merge (merge a b path).value c path).value).same
        (.obj (merge a (merge b c path).value path).value)) := by
  have hdistinct : ∀ {value : Json}, value.wellFormed → Distinct value := fun h =>
    throughout_of_wellFormed h fun _ _ _ _ _ => trivial
  have hrel : Option.Rel (fun left right => (Json.obj left).same (.obj right))
      ((merge a b path).result?.bind fun between => (merge between c path).result?)
      ((merge b c path).result?.bind fun between => (merge a between path).result?) :=
    associates rfl (hdistinct ha) (hdistinct hb) (hdistinct hc) hplain hplain' hplain''
      hkindred hkindred' path
  -- two merges one after the other succeed if none of them meets a disagreement
  have hsome : ∀ (first : Merged Entries) (next : Entries → Merged Entries) (result : Entries),
      (first.result?.bind fun between => (next between).result?) = some result ↔
        (first.conflict = none ∧ (next first.value).conflict = none) ∧
          (next first.value).value = result := by
    intro first next result
    rw [Option.bind_eq_some_iff, and_assoc]
    constructor
    · rintro ⟨between, hbetween, hresult⟩
      obtain ⟨hfirst, rfl⟩ := result?_eq_some.mp hbetween
      exact ⟨hfirst, result?_eq_some.mp hresult⟩
    · rintro ⟨hfirst, hnext⟩
      exact ⟨_, result?_eq_some.mpr ⟨hfirst, rfl⟩, result?_eq_some.mpr hnext⟩
  have hiff := exists_some_iff_of_rel hrel
  simp only [hsome, exists_and_left, exists_eq', and_true] at hiff
  refine ⟨hiff, fun hab hleft => ?_⟩
  rw [(hsome _ (merge · c path) _).mpr ⟨⟨hab, hleft⟩, rfl⟩,
    (hsome _ (merge a · path) _).mpr ⟨hiff.mp ⟨hab, hleft⟩, rfl⟩] at hrel
  cases hrel with
  | some hsame => exact hsame

/-- A schema with one property. -/
def labelled (label : Entries) (required : List Json) : Entries :=
  [("properties", .obj [("label", .obj label)]), ("required", .arr required)]

/-- A labelled schema is plainly typed if its label is. -/
theorem plainlyTyped_labelled {label : Entries} (required : List Json)
    (h : PlainlyTyped .keywords (.obj label)) :
    PlainlyTyped .keywords (.obj (labelled label required)) := by
  have hkeys : Assoc.keys (labelled label required) = ["properties", "required"] := rfl
  have hlabel : PlainlyTyped .names (.obj [("label", .obj label)]) := by
    refine .object (fun _ _ _ htype => absurd htype.1 nofun) nofun fun key value hentry _ => ?_
    obtain ⟨rfl, rfl⟩ := Prod.mk.inj (List.mem_singleton.mp hentry)
    exact h
  refine .object ?_ (fun _ => .inl (by rw [hkeys]; decide)) ?_
  · intro key value hentry htype
    have hkey : key ∈ Assoc.keys (labelled label required) := Assoc.mem_keys_of_mem hentry
    rw [hkeys] at hkey
    rcases htype.2 with rfl | rfl <;> exact absurd hkey (by decide)
  · rintro key value hentry -
    rcases List.mem_pair.mp hentry with heq | heq <;> obtain ⟨rfl, rfl⟩ := Prod.mk.inj heq
    · exact hlabel
    · exact .other rfl

/-- Labelled schemas are kindred if their labels are. -/
theorem kindred_labelled {label label' : Entries} (required required' : List Json)
    (h : Kindred .keywords (.obj label) (.obj label')) :
    Kindred .keywords (.obj (labelled label required)) (.obj (labelled label' required')) := by
  refine .objects fun key value other hentry hother _ => ?_
  rcases List.mem_pair.mp hentry with heq | heq <;> obtain ⟨rfl, rfl⟩ := Prod.mk.inj heq <;>
    rcases List.mem_pair.mp hother with heq' | heq' <;> obtain ⟨hkey, rfl⟩ := Prod.mk.inj heq'
  · refine .objects fun key value other hentry hother _ => ?_
    obtain ⟨rfl, rfl⟩ := Prod.mk.inj (List.mem_singleton.mp hentry)
    obtain ⟨-, rfl⟩ := Prod.mk.inj (List.mem_singleton.mp hother)
    exact h
  · exact absurd hkey (by decide)
  · exact absurd hkey (by decide)
  · exact .others rfl rfl

/-- A label that is a line, one that is a line again, and one that is a line or nothing. -/
theorem merge_assoc_labelled :
    (merge (labelled line [.str "a"]) (labelled line []) .root).conflict = none ∧
    (Json.obj (merge (merge (labelled line [.str "a"]) (labelled line []) .root).value
      (labelled optional [.str "b"]) .root).value).same (.obj (merge (labelled line [.str "a"])
        (merge (labelled line []) (labelled optional [.str "b"]) .root).value .root).value) := by
  have hline : PlainlyTyped .keywords (.obj line) := by
    refine .object (fun key value hentry _ => ?_) (fun _ => .inl (by decide)) ?_
    · obtain ⟨-, rfl⟩ := Prod.mk.inj (List.mem_singleton.mp hentry)
      exact fun _ h => ⟨_, List.mem_singleton.mp h⟩
    · intro key value hentry _
      obtain ⟨-, rfl⟩ := Prod.mk.inj (List.mem_singleton.mp hentry)
      exact .other rfl
  have hoptional : PlainlyTyped .keywords (.obj optional) := by
    refine .object ?_ (fun _ => .inr (by decide)) ?_
    · rintro key value hentry - alternative halternative
      rcases List.mem_pair.mp hentry with heq | heq <;> obtain ⟨-, rfl⟩ := Prod.mk.inj heq
      · exact ⟨_, List.mem_singleton.mp halternative⟩
      · exact (List.mem_pair.mp halternative).elim (fun h => ⟨_, h⟩) fun h => ⟨_, h⟩
    · rintro key value hentry -
      rcases List.mem_pair.mp hentry with heq | heq <;> obtain ⟨-, rfl⟩ := Prod.mk.inj heq <;>
        exact .other rfl
  have hkindred : ∀ label, Kindred .keywords (.obj line) (.obj label) := fun label => by
    refine .objects fun key value other hentry _ htype => ?_
    obtain ⟨rfl, -⟩ := Prod.mk.inj (List.mem_singleton.mp hentry)
    exact absurd ⟨rfl, .inr rfl⟩ htype
  have hassoc := merge_assoc (a := labelled line [.str "a"]) (b := labelled line [])
    (c := labelled optional [.str "b"]) (by decide) (by decide) (by decide)
    (plainlyTyped_labelled _ hline) (plainlyTyped_labelled _ hline)
    (plainlyTyped_labelled _ hoptional) (kindred_labelled _ _ (hkindred _))
    (kindred_labelled _ _ (hkindred _)) .root
  exact ⟨rfl, hassoc.2 rfl rfl⟩

end SchemaClasses.Merge
