import SchemaClasses.Proofs.Flatten.Idempotence
import SchemaClasses.Proofs.Flatten.Resumed
import SchemaClasses.Proofs.Merge.Separate

/-!
# References that are stated once more

Main statement (`Restates.exists_flatten`): if a property of a root without combiners is a
reference, and a combiner is added whose only member states that reference once more, then the
document is flattened to the same schemas, in another order perhaps, as long as what the reference
has become leaves the reference what it is (`KeepsReference`).

* The member is walked first, and with it the target of the reference. What the walk finds there is
  what it finds at the end of the walk of the document without the combiner, because the target can
  be walked from any table (`Restates.exists_target_walk`).
* The member has become a table with one property. It is merged into the root, where that property
  is still the reference, and leaves the table again (`Restates.exists_fold`). Merging what a
  reference has become into the reference does no harm only under a condition (`merge_restated`): a
  type would become an alternative to the reference.
* The properties are walked as before, from a table that is not empty any more. What stands for the
  reference is walked like the reference (`Restates.followsIn_reference`). All that the root needs
  is listed in the end, and nothing else is (`ListsOwn.listsAlike`).
-/

namespace SchemaClasses.Flatten

open FlattenM

/-! ### Merging into a reference -/

/-- Whether a reference stays what it is if what it has become is merged into it: that is the same
reference, or names neither a type nor a reference. A truth value takes its place. -/
def KeepsReference (pointer : String) : Json → Prop
  | .obj source => (Assoc.keys source = [refKey] ∧ textRef? source = some pointer) ∨
      Assoc.contains source typeKey = false ∧ Assoc.contains source refKey = false
  | .bool _ => True
  | _ => False

instance (pointer : String) : (value : Json) → Decidable (KeepsReference pointer value)
  | .obj source => inferInstanceAs (Decidable ((Assoc.keys source = [refKey] ∧
      textRef? source = some pointer) ∨
        Assoc.contains source typeKey = false ∧ Assoc.contains source refKey = false))
  | .bool _ => isTrue trivial
  | .null | .num _ | .str _ | .arr _ => isFalse id

/-- Whether a schema is walked like a reference that becomes a value: it has that reference, or is
that value itself. -/
def StandsFor (pointer : String) (value : Json) : Json → Prop
  | .obj merged => textRef? merged = some pointer
  | .bool new => value = .bool new
  | _ => False

section Merge

open Merge

variable {pointer name : String} {value : Json} {source members node : Entries} {path : SchemaPath}

/-- An object that leaves a reference what it is either is that reference or names no type. -/
theorem KeepsReference.cases_obj (h : KeepsReference pointer (.obj source)) :
    source = [(refKey, .str pointer)] ∨
      typeKey ∉ Assoc.keys source ∧ refKey ∉ Assoc.keys source := by
  have hnot : ∀ {key}, Assoc.contains source key = false → key ∉ Assoc.keys source :=
    fun hnone hkey => Bool.eq_false_iff.mp hnone ((Assoc.mem_keys_iff_contains _ _).mp hkey)
  rcases h with ⟨hkeys, htext⟩ | ⟨htype, href⟩
  · obtain ⟨⟨key, value⟩, rfl⟩ := List.length_eq_one_iff.mp
      ((List.length_map _).symm.trans (congrArg List.length hkeys))
    obtain rfl : key = refKey := (List.cons.inj hkeys).1
    obtain rfl : value = .str pointer :=
      Option.some.inj ((if_pos rfl).symm.trans (textRef?_eq_some_iff.mp htext))
    exact .inl rfl
  · exact .inr ⟨hnot htype, hnot href⟩

/-- Merged into the reference, such an object gives a schema with the same `$ref`. -/
theorem mergeEntries_reference (path : SchemaPath) (hsource : (Assoc.keys source).Nodup)
    (h : KeepsReference pointer (.obj source)) :
    ∃ merged, mergeEntries .keywords path [(refKey, .str pointer)] source = ⟨merged, none⟩ ∧
      textRef? merged = some pointer := by
  have htarget : Assoc.find? [(refKey, Json.str pointer)] refKey = some (.str pointer) := rfl
  rcases h.cases_obj with rfl | ⟨htype, href⟩
  · refine ⟨_, ?_, textRef?_eq_some_iff.mpr htarget⟩
    have hsame : (Json.str pointer).same (.str pointer) := Json.same_self rfl
    have hunify : unifyType [(refKey, .str pointer)] refKey (.str pointer) =
        [(refKey, .str pointer)] := by
      unfold unifyType
      simp [Assoc.find?, refKey, typeKey, hsame]
    rw [mergeEntries, mergeEntry_of_namesType ⟨rfl, .inr rfl⟩, hunify]
    rfl
  · have hplain : ∀ key value, (key, value) ∈ source → ¬NamesType .keywords key := by
      rintro key value hmem ⟨-, rfl | rfl⟩
      · exact htype (Assoc.mem_keys_of_mem hmem)
      · exact href (Assoc.mem_keys_of_mem hmem)
    have hagree :
        (mergeEntries .keywords path [(refKey, .str pointer)] source).conflict = none := by
      have hnodup : (Assoc.keys [(refKey, Json.str pointer)]).Nodup := List.nodup_singleton _
      refine (conflict_mergeEntries_iff hnodup hsource).mpr fun key value hvalue => ?_
      have hkey := hplain key value (Assoc.mem_of_find? hvalue)
      have hnone : Assoc.find? [(refKey, Json.str pointer)] key = none :=
        if_neg fun heq => hkey ⟨rfl, .inr heq.symm⟩
      rw [mergeEntry_of_none hkey hnone]
    refine ⟨_, congrArg (Merged.mk _) hagree, textRef?_eq_some_iff.mpr ?_⟩
    refine mergeEntries_keeps (I := fun target => Assoc.find? target refKey = some (.str pointer))
      (fun key value hmem target _ htarget => ?_) hagree htarget
    have hkey := hplain key value hmem
    rwa [find?_mergeEntry_of_ne hkey fun heq => hkey ⟨rfl, .inr heq⟩]

/-- What is merged into a table under the name of a reference replaces the reference. -/
theorem mergeEntries_restated (path : SchemaPath)
    (hvalue : ∀ source, value = .obj source → (Assoc.keys source).Nodup)
    (h : KeepsReference pointer value)
    (hname : Assoc.find? members name = some (.obj [(refKey, .str pointer)])) :
    ∃ merged, StandsFor pointer value merged ∧
      mergeEntries .names path members [(name, value)] =
        ⟨Assoc.insert members name merged, none⟩ := by
  have hnames : ¬NamesType .names name := nofun
  cases value with
  | obj source =>
    obtain ⟨merged, hmerged, htext⟩ :=
      mergeEntries_reference (path.child name) (hvalue source rfl) h
    refine ⟨.obj merged, htext, ?_⟩
    rw [mergeEntries, mergeEntry_objects hnames hname]
    simp only [Keys.below, hmerged, Merged.map]
    rfl
  | bool new => exact ⟨.bool new, rfl, rfl⟩
  | _ => exact h.elim

/-- A table of properties that is merged into that of a schema changes the one property. -/
theorem merge_restated (hvalue : ∀ source, value = .obj source → (Assoc.keys source).Nodup)
    (h : KeepsReference pointer value)
    (hmembers : Assoc.find? node "properties" = some (.obj members))
    (hname : Assoc.find? members name = some (.obj [(refKey, .str pointer)])) :
    ∃ merged, StandsFor pointer value merged ∧
      merge node [("properties", .obj [(name, value)])] path =
        ⟨Assoc.insert node "properties" (.obj (Assoc.insert members name merged)), none⟩ := by
  obtain ⟨merged, hstands, hinner⟩ :=
    mergeEntries_restated (path.child "properties") hvalue h hname
  refine ⟨merged, hstands, ?_⟩
  have hplain : ¬NamesType .keywords "properties" := by
    rintro ⟨-, h | h⟩ <;> exact absurd h (by decide)
  rw [merge, mergeEntries, mergeEntry_objects hplain hmembers]
  have hbelow : Keys.below .keywords "properties" = .names := by decide
  simp only [hbelow, hinner, Merged.map]
  rfl

end Merge

/-! ### One combiner more -/

/-- The schema that states a reference for one property and nothing else. -/
def restating (name pointer : String) : Json :=
  .obj [("properties", .obj [(name, .obj [(refKey, .str pointer)])])]

/-- Whether a property of a schema without combiners is a reference, and another schema is the same
but for one combiner, whose only member states that reference once more. -/
structure Restates (combiner name pointer : String) (root members again : Entries) : Prop where
  mem : combiner ∈ combiners
  /-- The schema has no combiners. -/
  absent : ∀ other ∈ combiners, Assoc.find? root other = none
  /-- It has properties. -/
  properties : Assoc.find? root "properties" = some (.obj members)
  /-- One of them is the reference. -/
  reference : Assoc.find? members name = some (.obj [(refKey, .str pointer)])
  nodup : (Assoc.keys again).Nodup
  /-- The other schema has the combiner. -/
  restated : Assoc.find? again combiner = some (.arr [restating name pointer])
  /-- Under all other keys both schemas have the same. -/
  others : ∀ key, key ≠ combiner → Assoc.find? again key = Assoc.find? root key

/-- The place of the member that restates a reference. -/
abbrev memberPlace (combiner : String) : SchemaPath :=
  SchemaPath.root ++ [combiner, SchemaPath.ofIndex 0]

/-- The place of the member is not the root. -/
theorem memberPlace_ne_root (combiner : String) : memberPlace combiner ≠ .root :=
  fun heq => absurd (congrArg SchemaPath.length heq) (by simp [SchemaPath.length, SchemaPath.root])

/-- The place of a property of the root. -/
abbrev propertyPlace (name : String) : SchemaPath :=
  SchemaPath.root ++ ["properties", name]

/-- The reference that is restated, at its place. -/
abbrev referenceSite (name pointer : String) : Site :=
  (propertyPlace name, .obj [(refKey, .str pointer)])

section Documents

variable {combiner name pointer : String} {root members again : Entries}

/-- A keyword that is no combiner differs from each combiner. -/
theorem ne_combiner {combiner keyword : String} (hcombiner : combiner ∈ combiners)
    (hkeyword : keyword ∉ combiners) : keyword ≠ combiner :=
  fun heq => hkeyword (heq ▸ hcombiner)

namespace Restates

variable (h : Restates combiner name pointer root members again)

include h

/-- What stands at any other place than the root stands there in the other document as well. -/
theorem at? (path : SchemaPath) (schema : Json) (hpath : path ≠ .root)
    (hschema : (Json.obj root).at? path = some schema) :
    (Json.obj again).at? path = some schema := by
  obtain ⟨segments⟩ := path
  cases segments with
  | nil => exact absurd rfl hpath
  | cons key rest =>
    rw [Json.at?, Json.descend?, Json.step?] at hschema ⊢
    have hne : key ≠ combiner := by
      rintro rfl
      rw [h.absent key h.mem] at hschema
      cases hschema
    rwa [h.others key hne]

/-- What is walked stands nowhere below the combiner. -/
theorem head?_ne (hfaithful : Faithful (.obj root)) {site : Site}
    (hvisited : Visited (.obj root) site) : site.1.segments.head? ≠ some combiner := by
  induction hvisited with
  | refl => nofun
  | @tail before next hbefore hcall ih =>
    obtain ⟨role, hcall⟩ := hcall
    -- below another place than the root the first segment stays the same
    have hbelow : ∀ segments : List String, next.1 = before.1 ++ segments →
        (before.1 = .root → segments.head? ≠ some combiner) →
        next.1.segments.head? ≠ some combiner := by
      intro segments hnext hroot
      rw [hnext, SchemaPath.segments_append, List.head?_append]
      cases hfirst : before.1.segments.head? with
      | some first =>
        rw [hfirst] at ih
        exact ih
      | none =>
        have hempty : before.1 = .root := congrArg SchemaPath.mk (List.head?_eq_none_iff.mp hfirst)
        exact hroot hempty
    cases hcall with
    | target _ _ _ hschema =>
      intro hhead
      obtain ⟨rest, hsegments⟩ := List.head?_eq_some_iff.mp hhead
      rw [Json.at?, hsegments, Json.descend?, Json.step?, h.absent combiner h.mem] at hschema
      cases hschema
    | items => exact hbelow ["items"] rfl fun _ heq =>
        ne_combiner h.mem (by decide) (Option.some.inj heq)
    | @member path node site hplain hshape hmember =>
      obtain ⟨other, hother, members', hmembers', hplace⟩ := mem_membersUnder.mp hmember
      obtain ⟨index, -, hpath⟩ := mem_memberPlaces.mp hplace
      refine hbelow _ hpath fun hroot => ?_
      -- the root has no combiners
      have hfirst : Visited (.obj root) (.root, .obj root) := .refl
      obtain rfl := Json.obj.inj (hfaithful.unique hfirst hbefore hroot.symm)
      cases (h.absent other hother).symm.trans hmembers'
    | schema _ _ _ hkeyword =>
      refine hbelow _ rfl fun _ heq => ?_
      exact ne_combiner h.mem (not_mem_combiners hkeyword) (Option.some.inj heq)

/-- With the member added, the root has the same `$ref`, if any. -/
theorem textRef? : textRef? again = textRef? root := by
  rw [Flatten.textRef?, Flatten.textRef?, h.others refKey (ne_combiner h.mem (by decide))]

/-- With the member added, the root is still an object schema. -/
theorem hasObjectType (hobject : HasObjectType root) : HasObjectType again := by
  unfold HasObjectType
  rwa [h.others typeKey (ne_combiner h.mem (by decide))]

end Restates

end Documents

/-! ### The walk of the root -/

/-- A schema that is listed is an object without reference. -/
theorem Becomes.of_listed {document : Json} {path : SchemaPath} {node entry : Entries}
    (h : Becomes document path (.obj node) (.listed entry)) :
    textRef? node = none ∧ Shape.ofSchema node = .object := by
  generalize hfate : Fate.listed entry = fate at h
  generalize hobj : Json.obj node = schema at h
  cases h with
  | @follow _ _ _ _ _ fate => cases fate <;> cases hfate
  | @array _ node =>
    unfold settleArray at hfate
    split at hfate <;> cases hfate
  | object hplain hshape =>
    obtain rfl := Json.obj.inj hobj
    exact ⟨hplain, hshape⟩
  | _ => cases hfate

/-- A schema without combiners is folded as it is. -/
theorem folds_of_absent {document : Json} {path : SchemaPath} {node : Entries}
    (habsent : ∀ combiner ∈ combiners, Assoc.find? node combiner = none) :
    Folds document path node node where
  members site hsite := by
    obtain ⟨combiner, hcombiner, members, hmembers, -⟩ := mem_membersUnder.mp hsite
    cases (habsent combiner hcombiner).symm.trans hmembers
  eq_some := by
    have hkeep : ∀ keywords : List String, keywords ⊆ combiners →
        keywords.foldlM (foldCombinerFate path (fateOf document) node) node = some node := by
      intro keywords hkeywords
      induction keywords with
      | nil => rfl
      | cons combiner rest ih =>
        obtain ⟨hcombiner, hrest⟩ := List.cons_subset.mp hkeywords
        have hskip : foldCombinerFate path (fateOf document) node node combiner = some node := by
          unfold foldCombinerFate
          rw [habsent combiner hcombiner]
        rw [List.foldlM_cons, hskip]
        exact ih hrest
    exact hkeep combiners (List.Subset.refl _)

/-- The properties of the root after their walks. -/
noncomputable abbrev flatProperties (root members : Entries) : Entries :=
  flatTable .root (fateOf (.obj root)) "properties" members

/-- What is known of a root that is listed: it is an object schema whose properties are flattened
each by itself. -/
structure IsClassRoot (root members : Entries) (schemas : FlatSchemas) : Prop where
  plain : textRef? root = none
  shape : Shape.ofSchema root = .object
  patterns : Assoc.find? root "patternProperties" = none
  additional : isOn root "additionalProperties" = false
  entry : Assoc.find? schemas .root =
    some (Assoc.insert root "properties" (.obj (flatProperties root members)))

section Root

variable {combiner name pointer : String} {root members again : Entries} {schemas : FlatSchemas}
  {depth : Nat} (h : Restates combiner name pointer root members again)
  (hfaithful : Faithful (.obj root)) (hwf : (Json.obj root).wellFormed)
  (hleads : AllLead (.obj root) [] (.obj root))
  (hflatten : flattenWithin depth (.obj root) = .ok schemas)

include h hfaithful hwf hleads hflatten

/-- A root that is listed is an object schema, and its entry has its properties flattened. -/
theorem Restates.isClassRoot (hroot : SchemaPath.root ∈ Assoc.keys schemas) :
    IsClassRoot root members schemas := by
  obtain ⟨entry, hentry⟩ := Assoc.exists_find?_of_mem_keys hroot
  obtain ⟨schema, howned, hfate⟩ := (find?_flattenWithin_iff hfaithful hwf hflatten).mp hentry
  have hfirst : Visited (.obj root) (.root, .obj root) := .refl
  obtain rfl := hfaithful.unique howned.visited hfirst rfl
  obtain ⟨hplain, hshape⟩ := hfate.of_listed
  have hfolds : Folds (.obj root) .root root root := folds_of_absent h.absent
  have hsettle := hfate.settles hplain hshape hfolds
  have hpatterns : Assoc.find? root "patternProperties" = none :=
    (isSome_settle hsettle).1.resolve_left fun hnone => by cases hnone.symm.trans h.properties
  have hfit := Visited.fit hfaithful hwf hleads hflatten hfirst
  refine ⟨hplain, hshape, hpatterns,
    hfit.admitted.properties root root rfl hplain hshape hfolds, ?_⟩
  rw [settle, h.properties, hpatterns] at hsettle
  rw [hentry, Fate.listed.inj (Option.some.inj hsettle)]

/-- The reference is that of the root to a schema of the document. -/
theorem Restates.exists_target (hroot : SchemaPath.root ∈ Assoc.keys schemas) :
    ∃ target schema, SchemaPath.ofPointer pointer = .ok target ∧
      (Json.obj root).at? target = some schema ∧
      Calls (.obj root) .own (.root, .obj root) (referenceSite name pointer) ∧
      Calls (.obj root) .own (referenceSite name pointer) (target, schema) := by
  have hclass := h.isClassRoot hfaithful hwf hleads hflatten hroot
  have hproperty : Calls (.obj root) .own (.root, .obj root) (referenceSite name pointer) :=
    .schema hclass.plain hclass.shape (folds_of_absent h.absent) (by decide) h.properties
      h.reference
  have htext : Flatten.textRef? [(refKey, .str pointer)] = some pointer := rfl
  have hlead : AllLead (.obj root) [] (.obj [(refKey, .str pointer)]) :=
    (hleads.of_find? h.properties).of_find? h.reference
  have hreliable : AllReliable (.obj root) [] (.obj [(refKey, .str pointer)]) :=
    ((hfaithful.allReliable hwf).of_find? h.properties).of_find? h.reference
  obtain ⟨target, htarget, hstands⟩ := hlead.of_textRef? htext
  obtain ⟨schema, hschema⟩ :=
    Option.isSome_iff_exists.mp (hstands.resolve_left List.not_mem_nil)
  have hnamed := (hreliable.of_textRef? htext htarget hschema).resolve_right List.not_mem_nil
  exact ⟨target, schema, htarget, hschema, hproperty, .target htext htarget hnamed hschema⟩

end Root

/-! ### Tables of schemas of their own -/

/-- Whether two tables list the same schemas, in whatever order: at the same places schemas that
have the same under each key. -/
structure ListsAlike (schemas schemas' : FlatSchemas) : Prop where
  keys : (Assoc.keys schemas).Perm (Assoc.keys schemas')
  entries : ∀ path entry, Assoc.find? schemas path = some entry → ∃ entry',
    Assoc.find? schemas' path = some entry' ∧ ∀ key, Assoc.find? entry' key = Assoc.find? entry key

/-- Whether only schemas are listed that are walked for their own sake, and not the root. -/
structure ListsOwn (document : Json) (table : FlatSchemas) : Prop where
  grounded : Grounded (trust document) table
  owned : ∀ path ∈ Assoc.keys table, path ≠ .root ∧ ∃ schema, Owned document (path, schema)

section ListsOwn

variable {document : Json} {table schemas : FlatSchemas} {state after : FlattenState}

/-- Nothing is asked of an empty table. -/
theorem listsOwn_nil (document : Json) : ListsOwn document [] :=
  ⟨.nil, fun _ hpath => absurd hpath List.not_mem_nil⟩

/-- What is walked while the root is being walked adds such schemas. -/
theorem ListsOwn.grows (h : ListsOwn document state.schemas)
    (hgrows : Grows (trust document) (trust document).own state after)
    (hroot : SchemaPath.root ∈ state.inProgress) : ListsOwn document after.schemas where
  grounded := hgrows.grounded
  owned path hpath := by
    obtain ⟨added, hadded, hfresh⟩ := hgrows.added
    rw [hadded, keys_append] at hpath
    rcases List.mem_append.mp hpath with hold | hnew
    · exact h.owned path hold
    · obtain ⟨hprogress, hown⟩ := hfresh path hnew
      exact ⟨fun heq => hprogress (heq ▸ hroot), hown.1⟩

/-- Such schemas are listed when the document is flattened, too. -/
theorem ListsOwn.find?_eq_some (h : ListsOwn document table) (hfaithful : Faithful document)
    (hwf : document.wellFormed) (hleads : AllLead document [] document) {depth : Nat}
    (hflatten : flattenWithin depth document = .ok schemas) {path : SchemaPath} {entry : Entries}
    (hentry : Assoc.find? table path = some entry) : Assoc.find? schemas path = some entry := by
  have hlisted := (h.grounded.listed (trust_kept hfaithful hwf hleads) hentry).1
  obtain ⟨schema, hvisited, hfate, -⟩ := Faithful.IsListed.site hlisted
  obtain ⟨-, other, howned⟩ := h.owned path (Assoc.mem_keys_of_find? hentry)
  obtain rfl := hfaithful.unique howned.visited hvisited rfl
  exact (find?_flattenWithin_iff hfaithful hwf hflatten).mpr ⟨other, howned, hfate⟩

/-- A table of such schemas that has all that the document needs is, with the root, what the
document is flattened to. -/
theorem ListsOwn.listsAlike (h : ListsOwn document table)
    (hlists : ListsAt document (Assoc.keys table) (.root, document)) (hfaithful : Faithful document)
    (hwf : document.wellFormed) (hleads : AllLead document [] document) {depth : Nat}
    (hflatten : flattenWithin depth document = .ok schemas) {entry entry' : Entries}
    (hroot : Assoc.find? schemas .root = some entry)
    (hentry : ∀ key, Assoc.find? entry' key = Assoc.find? entry key) :
    ListsAlike schemas (Assoc.insert table .root entry') := by
  have hsame : ∀ {path found}, Assoc.find? table path = some found →
      Assoc.find? schemas path = some found :=
    fun hfound => h.find?_eq_some hfaithful hwf hleads hflatten hfound
  have hmem : ∀ path ≠ .root, path ∈ Assoc.keys schemas → path ∈ Assoc.keys table := by
    intro path hpath hkey
    obtain ⟨found, hfound⟩ := Assoc.exists_find?_of_mem_keys hkey
    obtain ⟨schema, howned, hfate⟩ := (find?_flattenWithin_iff hfaithful hwf hflatten).mp hfound
    rcases howned with heq | ⟨before, hbefore, hcall⟩
    · exact absurd (Prod.mk.inj heq).1 hpath
    · exact hlists before _ hbefore hcall ⟨found, hfate⟩
  have hgrounded := grounded_of_flattenWithin (faith_kept hfaithful hwf)
    ⟨.refl, hfaithful.allReliable hwf⟩ hflatten
  refine ⟨(List.perm_ext_iff_of_nodup hgrounded.nodup_keys
    (Assoc.nodup_keys_insert h.grounded.nodup_keys _ _)).mpr fun path => ?_,
    fun path found hfound => ?_⟩
  · rw [Assoc.mem_keys_insert]
    constructor
    · exact fun hkey => or_iff_not_imp_right.mpr fun hpath => hmem path hpath hkey
    · rintro (hkey | rfl)
      · obtain ⟨found, hfound⟩ := Assoc.exists_find?_of_mem_keys hkey
        exact Assoc.mem_keys_of_find? (hsame hfound)
      · exact Assoc.mem_keys_of_find? hroot
  · by_cases hpath : path = .root
    · subst hpath
      obtain rfl := Option.some.inj (hroot.symm.trans hfound)
      exact ⟨entry', Assoc.find?_insert_self _ _ _, hentry⟩
    · obtain ⟨listed, hlisted⟩ := Assoc.exists_find?_of_mem_keys
        (hmem path hpath (Assoc.mem_keys_of_find? hfound))
      obtain rfl := Option.some.inj ((hsame hlisted).symm.trans hfound)
      exact ⟨listed, (Assoc.find?_insert_of_ne _ _ (Ne.symm hpath)).trans hlisted, fun _ => rfl⟩

end ListsOwn

/-! ### The target is walked first -/

section Target

variable {combiner name pointer : String} {root members again : Entries} {schemas : FlatSchemas}
  {depth : Nat} (h : Restates combiner name pointer root members again)
  (hfaithful : Faithful (.obj root)) (hwf : (Json.obj root).wellFormed)
  (hleads : AllLead (.obj root) [] (.obj root))
  (hflatten : flattenWithin depth (.obj root) = .ok schemas)

include h hfaithful hwf hleads hflatten

/-- The walk of the target of the reference for the member of the combiner, which comes before
anything else is listed. -/
theorem Restates.exists_target_walk {target : SchemaPath} {schema : Json}
    (hschema : (Json.obj root).at? target = some schema)
    (hproperty : Calls (.obj root) .own (.root, .obj root) (referenceSite name pointer))
    (htarget : Calls (.obj root) .own (referenceSite name pointer) (target, schema)) :
    ∃ least, ∀ depth ≥ least, ∃ walked table,
      Ends (walk (.obj again) depth schema target) { inProgress := [.root, memberPlace combiner,
        memberPlace combiner ++ ["properties", name]] } (· = walked) table ∧
      ListsOwn (.obj root) table ∧
      Faithful.IsLeft (.obj root) (Assoc.keys table) target schema walked := by
  have hfirst : Visited (.obj root) (.root, .obj root) := .refl
  have hreference : Visited (.obj root) (referenceSite name pointer) :=
    hfirst.tail ⟨_, hproperty⟩
  have hvisited : Visited (.obj root) (target, schema) := hreference.tail ⟨_, htarget⟩
  obtain ⟨least, hleast⟩ := exists_resumes hfaithful hwf hleads hflatten hvisited
  refine ⟨least, fun depth hdepth => ?_⟩
  have hraw : (trust (.obj root)).raw [] target schema :=
    ⟨⟨hvisited, (hfaithful.allReliable hwf).of_at? hschema⟩, hleads.of_at? hschema⟩
  have havoids : Avoids (.obj root) (target, schema)
      [.root, memberPlace combiner, memberPlace combiner ++ ["properties", name]] := by
    have hroot : ∀ schema', ¬Needs (.obj root) (target, schema) (.root, schema') :=
      fun schema' hneeds => not_needs_self hfaithful hwf hleads hflatten hfirst hproperty schema'
        (.head ⟨_, htarget⟩ hneeds)
    -- nothing is walked below the place of the new combiner
    have hbelow : ∀ place : SchemaPath, place.segments.head? = some combiner →
        ∀ schema', ¬Needs (.obj root) (target, schema) (place, schema') :=
      fun place hhead schema' hneeds => h.head?_ne hfaithful (hvisited.trans hneeds) hhead
    intro place hplace
    rcases hplace with rfl | hplace
    · exact hroot
    · rcases List.mem_cons.mp hplace with rfl | hplace
      · exact hroot
      rcases List.mem_cons.mp hplace with rfl | hplace
      · exact hbelow _ rfl
      · obtain rfl := List.mem_singleton.mp hplace
        exact hbelow _ rfl
  obtain ⟨walked, after, hrun, hkept, -⟩ := (hleast depth hdepth { inProgress := [.root,
    memberPlace combiner, memberPlace combiner ++ ["properties", name]] } .nil
    (fun _ _ => List.not_mem_nil) hraw (fun _ hkey => absurd hkey List.not_mem_nil)
    havoids).exists_ok
  have hown : (trust (.obj root)).own target :=
    ⟨⟨schema, .inr ⟨_, hreference, htarget⟩⟩, trivial⟩
  refine ⟨walked, after.schemas, ensures_of_eq_ok
    (follows_sealedWalk h.at? depth schema target _ _ hrun) ⟨rfl, ?_⟩,
    (listsOwn_nil _).grows (hkept.grows.of_own hown) List.mem_cons_self, hkept.left.1 hvisited⟩
  exact congrArg (FlattenState.mk after.schemas) hkept.grows.inProgress

end Target

/-! ### The member is folded -/

section Member

variable {document : Json} {walk : Walker} {path : SchemaPath} {schema : Entries}
  {state : FlattenState} {fail : FlattenError → Prop}

/-- Of all combiners only the one is folded that a schema has. -/
theorem ensures_foldCombiners_single {combiner : String} {members : List Json}
    {good : Entries → FlattenState → Prop} (hcombiner : combiner ∈ combiners)
    (habsent : ∀ other ∈ combiners, other ≠ combiner → Assoc.find? schema other = none)
    (hmembers : Assoc.find? schema combiner = some (.arr members))
    (hfold : Ensures (foldMembers document walk path combiner (Assoc.swapErase schema combiner) 0
      members) state (fun folded after => good folded after ∧
        ∀ other ∈ combiners, Assoc.find? folded other = none) fail) :
    Ensures (combiners.foldlM (foldCombiner document walk path) schema) state good fail := by
  -- what has been folded has no combiners any more
  have hrest : ∀ keywords ⊆ combiners, ∀ folded after, (good folded after ∧
      ∀ other ∈ combiners, Assoc.find? folded other = none) →
      Ensures (keywords.foldlM (foldCombiner document walk path) folded) after good fail := by
    intro keywords hkeywords folded after hfolded
    induction keywords with
    | nil => exact ensures_pure hfolded.1
    | cons keyword rest ih =>
      obtain ⟨hkeyword, hrest⟩ := List.cons_subset.mp hkeywords
      rw [List.foldlM_cons, foldCombiner_absent _ _ _ (hfolded.2 keyword hkeyword)]
      exact ensures_bind (ensures_pure (ih hrest))
  have hstart : ∀ keywords ⊆ combiners, combiner ∈ keywords →
      Ensures (keywords.foldlM (foldCombiner document walk path) schema) state good fail := by
    intro keywords hkeywords hmem
    induction keywords with
    | nil => exact absurd hmem List.not_mem_nil
    | cons keyword rest ih =>
      obtain ⟨hkeyword, hsubset⟩ := List.cons_subset.mp hkeywords
      rw [List.foldlM_cons]
      by_cases hsame : keyword = combiner
      · subst hsame
        refine ensures_bind (ensures_foldCombiner (fun hnone => ?_) (fun other hother => ?_)
          fun other hother hvalue => ?_)
        · cases hnone.symm.trans hmembers
        · obtain rfl := Json.arr.inj (Option.some.inj (hmembers.symm.trans hother))
          exact hfold.mono (hrest rest hsubset) fun _ h => h
        · exact absurd (Option.some.inj (hother.symm.trans hmembers)) (hvalue members)
      · rw [foldCombiner_absent _ _ _ (habsent keyword hkeyword hsame)]
        exact ensures_bind (ensures_pure
          (ih hsubset ((List.mem_cons.mp hmem).resolve_left (Ne.symm hsame))))
  exact hstart combiners (List.Subset.refl _) hcombiner

/-- The member that restates a reference becomes a schema whose property is what the target has
become, and is listed last. -/
theorem ends_restating {depth : Nat} {combiner name pointer : String} {target : SchemaPath}
    {stated value : Json} {table : FlatSchemas}
    (hpointer : SchemaPath.ofPointer pointer = .ok target)
    (hstated : document.at? target = some stated)
    (hwalk : Ends (Flatten.walk document depth stated target) { inProgress := [.root,
      memberPlace combiner, memberPlace combiner ++ ["properties", name]] }
      (fun walked => walked.toJson = value) table) :
    Ends (Flatten.walk document (depth + 2) (restating name pointer) (memberPlace combiner))
      { inProgress := [.root] } (· = .canonical (memberPlace combiner))
      (Assoc.insert table (memberPlace combiner) [("properties", .obj [(name, value)])]) := by
  have hplace : memberPlace combiner ∉ [SchemaPath.root] :=
    fun hmem => memberPlace_ne_root combiner (List.mem_singleton.mp hmem)
  have hbelow : memberPlace combiner ++ ["properties", name] ∉
      [SchemaPath.root, memberPlace combiner] := by
    intro hmem
    have hlength : ∀ place ∈ [SchemaPath.root, memberPlace combiner],
        place.length ≤ 2 := by simp [SchemaPath.length, SchemaPath.root]
    exact absurd (hlength _ hmem) (by simp [SchemaPath.length])
  have hentries : Ends (flattenEntries (Flatten.walk document (depth + 1)) (memberPlace combiner)
      "properties" [(name, .obj [(refKey, .str pointer)])])
      { inProgress := [.root, memberPlace combiner] } (· = [(name, value)]) table := by
    refine ends_flattenEntries_cons (ends_visit hbelow List.not_mem_nil ?_)
      (ensures_pure ⟨rfl, rfl⟩)
    rw [flattenSchema_of_textRef rfl]
    exact ends_followRef_stands hpointer List.not_mem_nil hstated hwalk
  refine ends_visit hplace List.not_mem_nil ?_
  rw [flattenSchema_of_object rfl (.inl rfl)]
  exact ends_flattenObject rfl rfl rfl rfl hentries

end Member

/-! ### The properties are walked -/

section Entries

variable {walk walk' : Walker} {path : SchemaPath} {keyword : String}

/-- Whether one computation, begun where something holds, succeeds with what another one succeeds
with, so that it holds afterwards, too. -/
def FollowsIn (holds : FlattenState → Prop) {α : Type} (x y : FlattenM α) : Prop :=
  ∀ state a after, holds state → x.run state = .ok (a, after) →
    y.run state = .ok (a, after) ∧ holds after

variable {holds : FlattenState → Prop}

/-- A result that is returned follows itself. -/
theorem followsIn_pure {α : Type} (a : α) : FollowsIn holds (pure a) (pure a) := by
  intro state b after hstate h
  obtain ⟨rfl, rfl⟩ := Prod.mk.inj (Except.ok.inj h)
  exact ⟨rfl, hstate⟩

/-- Two computations in sequence follow two others if each follows its own. -/
theorem FollowsIn.bind {α β : Type} {x y : FlattenM α} {f g : α → FlattenM β}
    (h : FollowsIn holds x y) (h' : ∀ a, FollowsIn holds (f a) (g a)) :
    FollowsIn holds (x >>= f) (y >>= g) := by
  intro state b after hstate hrun
  rw [StateT.run_bind] at hrun ⊢
  cases hfirst : x.run state with
  | error error =>
    rw [hfirst] at hrun
    cases hrun
  | ok first =>
    rw [hfirst] at hrun
    obtain ⟨hsecond, hbetween⟩ := h state first.1 first.2 hstate hfirst
    rw [hsecond]
    exact h' first.1 first.2 b after hbetween hrun

/-- A computation that follows another one does so wherever what holds is kept. -/
theorem Follows.within {α : Type} {x y : FlattenM α} (h : Follows x y)
    (hkeeps : ∀ state, holds state → Ensures x state (fun _ after => holds after) fun _ => True) :
    FollowsIn holds x y :=
  fun state _ _ hstate hrun => ⟨h state _ hrun, (hkeeps state hstate).of_eq_ok hrun⟩

/-- Schemas of the same names that are walked with the same success. -/
theorem followsIn_flattenEntries {members members' : Entries}
    (h : List.Forall₂ (fun member member' => member'.1 = member.1 ∧
      FollowsIn holds (walk member.2 (path ++ [keyword, member.1]))
        (walk' member'.2 (path ++ [keyword, member.1]))) members members') :
    FollowsIn holds (flattenEntries walk path keyword members)
      (flattenEntries walk' path keyword members') := by
  induction h with
  | nil => exact followsIn_pure []
  | @cons member member' rest rest' hmember _ ih =>
    obtain ⟨name, schema⟩ := member
    obtain ⟨name', schema'⟩ := member'
    obtain ⟨hname, hfollows⟩ := hmember
    obtain rfl : name' = name := hname
    exact hfollows.bind fun walked => ih.bind fun flat => followsIn_pure _

/-- Where a schema stays in place nothing is listed. -/
theorem not_mem_keys_of_inPlace {document schema left : Json} {table : FlatSchemas}
    (hfaithful : Faithful document) (hkept : (trust document).Kept document)
    (hgrounded : Grounded (trust document) table) (hvisited : Visited document (path, schema))
    (hfate : Becomes document path schema (.inPlace left)) : path ∉ Assoc.keys table := by
  intro hkey
  obtain ⟨entry, hentry⟩ := Assoc.exists_find?_of_mem_keys hkey
  obtain ⟨other, hother, hlisted, -⟩ :=
    Faithful.IsListed.site (hgrounded.listed hkept hentry).1
  obtain rfl := hfaithful.unique hother hvisited rfl
  cases hfate.unique hlisted

/-- A schema that becomes a truth value is walked without a trace, unless it is being walked. -/
theorem ensures_sealedWalk_bool {document : Json} (hfaithful : Faithful document)
    (hkept : (trust document).Kept document) {value : Bool} {depth : Nat} {schema : Json}
    {state : FlattenState} (hvisited : Visited document (path, schema))
    (hfate : Becomes document path schema (.inPlace (.bool value)))
    (hgrounded : Grounded (trust document) state.schemas) :
    Ensures (sealedWalk document depth schema path) state
      (fun walked after => walked = .inPlace (.bool value) ∧ after = state ∧
        path ∉ state.inProgress) fun _ => True := by
  induction depth generalizing schema path state with
  | zero => exact ensures_throw trivial
  | succ depth ih =>
    refine ensures_sealed (fun _ _ => trivial) (ensures_visit (fun _ => trivial)
      (fun _ hkey => absurd hkey (not_mem_keys_of_inPlace hfaithful hkept hgrounded hvisited hfate))
      (fun entries heq hprogress hkey => ?_)
      (fun other heq hprogress _ => ?_) fun _ _ => trivial)
    · subst heq
      -- only a reference can become a truth value without being one
      generalize hbool : Fate.inPlace (.bool value) = fate at hfate
      cases hfate with
      | @follow _ target _ text stated fate htext htarget hnamed hstated hfate =>
        have hbelow : Becomes document target stated (.inPlace (.bool value)) := by
          cases fate <;> cases hbool
          exact hfate
        have hnext : Visited document (target, stated) :=
          hvisited.tail ⟨_, .target htext htarget hnamed hstated⟩
        rw [flattenSchema_of_textRef htext]
        refine ensures_followRef (fun _ _ _ => trivial) (fun place entry hnames hentry => ?_)
          fun place found hnames _ hfound => ?_
        · obtain rfl : target = place := Except.ok.inj (htarget.symm.trans hnames)
          exact absurd (Assoc.mem_keys_of_find? hentry)
            (not_mem_keys_of_inPlace hfaithful hkept hgrounded hnext hbelow)
        · obtain rfl : target = place := Except.ok.inj (htarget.symm.trans hnames)
          obtain rfl := Option.some.inj (hstated.symm.trans hfound)
          have hrest : Ensures (sealedWalk document depth stated target)
              { state with inProgress := state.inProgress ++ [path] }
              (fun walked after => walked = .inPlace (.bool value) ∧
                after = { state with inProgress := state.inProgress ++ [path] } ∧ _)
              fun _ => True := ih hnext hbelow hgrounded
          refine hrest.mono (fun walked after hend => ?_) fun _ h => h
          obtain ⟨rfl, rfl, -⟩ := hend
          exact ⟨rfl, congrArg (FlattenState.mk state.schemas) (erase_last hprogress), hprogress⟩
      | refer => cases hbool
      | other => cases hbool
      | array =>
        unfold settleArray at hbool
        split at hbool <;> cases hbool
      | object _ _ _ _ _ hsettle =>
        subst hbool
        unfold settle at hsettle
        split at hsettle <;> cases hsettle
    · subst heq
      cases hfate
      exact ⟨rfl, rfl, hprogress⟩

/-- A table in which one schema is replaced. -/
theorem forall₂_insert {members : Entries} {name : String} {schema schema' : Json}
    {R : String × Json → String × Json → Prop} (hfind : Assoc.find? members name = some schema)
    (hsame : ∀ member ∈ members, R member member) (hnew : R (name, schema) (name, schema')) :
    List.Forall₂ R members (Assoc.insert members name schema') := by
  induction members with
  | nil => cases hfind
  | cons member rest ih =>
    obtain ⟨other, value⟩ := member
    rw [Assoc.find?] at hfind
    rw [Assoc.insert]
    have hrest : ∀ member ∈ rest, R member member :=
      fun member hmember => hsame member (List.mem_cons_of_mem _ hmember)
    split_ifs at hfind ⊢ with hkey
    · subst hkey
      obtain rfl := Option.some.inj hfind
      exact .cons hnew (List.forall₂_same.mpr hrest)
    · exact .cons (hsame _ List.mem_cons_self) (ih hfind hrest)

/-- Of a schema with a reference nothing else matters. -/
theorem visit_of_textRef? (document : Json) {node node' : Entries} {text : String}
    (h : textRef? node = some text) (h' : textRef? node' = some text) :
    visit document walk (.obj node) path = visit document walk (.obj node') path := by
  have hsame : flattenSchema document walk node path = flattenSchema document walk node' path := by
    rw [flattenSchema_of_textRef h, flattenSchema_of_textRef h']
  unfold visit
  simp only [hsame]

end Entries

section Properties

variable {combiner name pointer : String} {root members again : Entries} {schemas : FlatSchemas}
  {depth : Nat} (h : Restates combiner name pointer root members again)
  (hfaithful : Faithful (.obj root)) (hwf : (Json.obj root).wellFormed)
  (hleads : AllLead (.obj root) [] (.obj root))
  (hflatten : flattenWithin depth (.obj root) = .ok schemas)
  (hroot : SchemaPath.root ∈ Assoc.keys schemas)

include h hfaithful hwf hleads hflatten hroot

/-- The root calls for its properties. -/
theorem Restates.calls {entry : String × Json} (hentry : entry ∈ members) :
    Calls (.obj root) .own (.root, .obj root) (propertyPlace entry.1, entry.2) := by
  have hclass := h.isClassRoot hfaithful hwf hleads hflatten hroot
  refine .schema hclass.plain hclass.shape (folds_of_absent h.absent) (by decide) h.properties ?_
  exact (Assoc.find?_eq_some_iff (hleads.of_find? h.properties).nodup).mpr hentry

/-- Nothing but its properties. -/
theorem Restates.exists_of_calls {role : Role} {next : Site}
    (hcall : Calls (.obj root) role (.root, .obj root) next) :
    role = .own ∧ ∃ entry ∈ members, next = (propertyPlace entry.1, entry.2) := by
  have hclass := h.isClassRoot hfaithful hwf hleads hflatten hroot
  have hfold : Folds (.obj root) .root root root := folds_of_absent h.absent
  rcases hcall.of_object hclass.plain hclass.shape with
    ⟨-, hmember⟩ | ⟨rfl, folded, keyword, members', name', schema, hfolds, hkeyword, hmembers,
      hschema, rfl⟩
  · obtain ⟨other, hother, members', hmembers', -⟩ := mem_membersUnder.mp hmember
    cases (h.absent other hother).symm.trans hmembers'
  · obtain rfl := hfolds.unique hfold
    rcases mem_tables_iff.mp hkeyword with rfl | rfl
    · obtain rfl := Json.obj.inj (Option.some.inj (h.properties.symm.trans hmembers))
      exact ⟨rfl, _, Assoc.mem_of_find? hschema, rfl⟩
    · cases hclass.patterns.symm.trans hmembers

/-- The walk of the document visits each property of its root. -/
theorem Restates.visited {entry : String × Json} (hentry : entry ∈ members) :
    Visited (.obj root) (propertyPlace entry.1, entry.2) := by
  have hfirst : Visited (.obj root) (.root, .obj root) := .refl
  exact hfirst.tail ⟨_, h.calls hfaithful hwf hleads hflatten hroot hentry⟩

/-- What is known of schemas that are going to be walked is known of these properties. -/
theorem Restates.isRaw {entry : String × Json} (hentry : entry ∈ members)
    (keys : List SchemaPath) : (trust (.obj root)).raw keys (propertyPlace entry.1) entry.2 := by
  refine (trust_kept hfaithful hwf hleads).raw_mono (List.nil_subset _)
    ⟨⟨h.visited hfaithful hwf hleads hflatten hroot hentry, ?_⟩, ?_⟩
  · exact (((hfaithful.allReliable hwf).of_find? h.properties).of_mem hentry).2
  · exact ((hleads.of_find? h.properties).of_mem hentry).2

/-- The other document walks a property as this one does if it leaves the root alone. -/
theorem Restates.followsIn_property {entry : String × Json} (hentry : entry ∈ members)
    (depth : Nat) : FollowsIn (fun state => Grounded (trust (.obj root)) state.schemas)
      (sealedWalk (.obj root) depth entry.2 (propertyPlace entry.1))
      (walk (.obj again) depth entry.2 (propertyPlace entry.1)) := by
  refine (follows_sealedWalk h.at? depth entry.2 _).within fun state hgrounded => ?_
  have hkeeps := keeps_sealedWalk (trust_kept hfaithful hwf hleads) depth entry.2
    (propertyPlace entry.1) state hgrounded
    (.inr (h.isRaw hfaithful hwf hleads hflatten hroot hentry _))
  exact hkeeps.mono (fun _ _ hend => hend.1.grows.grounded) fun _ h => h

/-- The other document walks what stands for the reference as this one does the reference. -/
theorem Restates.followsIn_reference {value merged : Json}
    (hvalue : Assoc.find? (flatProperties root members) name = some value)
    (hstands : StandsFor pointer value merged) (depth : Nat) :
    FollowsIn (fun state => Grounded (trust (.obj root)) state.schemas)
      (sealedWalk (.obj root) (depth + 1) (.obj [(refKey, .str pointer)]) (propertyPlace name))
      (walk (.obj again) (depth + 1) merged (propertyPlace name)) := by
  have hentry : (name, Json.obj [(refKey, .str pointer)]) ∈ members :=
    Assoc.mem_of_find? h.reference
  cases merged with
  | obj merged =>
    have hreference : Flatten.textRef? [(refKey, .str pointer)] = some pointer := rfl
    rw [walk, visit_of_textRef? _ hstands hreference]
    exact h.followsIn_property hfaithful hwf hleads hflatten hroot hentry (depth + 1)
  | bool new =>
    have hvisited := h.visited hfaithful hwf hleads hflatten hroot hentry
    obtain ⟨fate, hfate⟩ := (hvisited.fit hfaithful hwf hleads hflatten).fate
    rw [find?_flatTable, h.reference, Option.map_some, hfate.fateOf_eq] at hvalue
    obtain rfl : fate = .inPlace (.bool new) := by
      have hbool : fate.toJson (propertyPlace name) = .bool new :=
        (Option.some.inj hvalue).trans hstands
      cases fate with
      | inPlace left => exact congrArg Fate.inPlace hbool
      | listed => cases hbool
      | refers => cases hbool
    intro state walked after hgrounded hrun
    have hkept := trust_kept hfaithful hwf hleads
    obtain ⟨rfl, rfl, hprogress⟩ :=
      (ensures_sealedWalk_bool hfaithful hkept hvisited hfate hgrounded).of_eq_ok hrun
    have hnew := not_mem_keys_of_inPlace hfaithful hkept hgrounded hvisited hfate
    have hends : Ends (walk (.obj again) (depth + 1) (.bool new) (propertyPlace name)) _
        (· = .inPlace (.bool new)) _ := ends_visit_bool hprogress hnew
    obtain ⟨walked, after, hrun', rfl, rfl⟩ := hends.exists_ok
    exact ⟨hrun', hgrounded⟩
  | _ => exact hstands.elim

/-- The other document walks the properties of its root as this one does those of its own. -/
theorem Restates.followsIn_properties {value merged : Json}
    (hvalue : Assoc.find? (flatProperties root members) name = some value)
    (hstands : StandsFor pointer value merged) (depth : Nat) :
    FollowsIn (fun state => Grounded (trust (.obj root)) state.schemas)
      (flattenEntries (sealedWalk (.obj root) (depth + 1)) .root "properties" members)
      (flattenEntries (walk (.obj again) (depth + 1)) .root "properties"
        (Assoc.insert members name merged)) := by
  refine followsIn_flattenEntries (forall₂_insert h.reference (fun entry hentry => ⟨rfl, ?_⟩)
    ⟨rfl, ?_⟩)
  · exact h.followsIn_property hfaithful hwf hleads hflatten hroot hentry (depth + 1)
  · exact h.followsIn_reference hfaithful hwf hleads hflatten hroot hvalue hstands depth

/-- The properties of the root can be walked whatever has been listed before. Each becomes what its
fate says, and all that the root needs is listed then. -/
theorem Restates.exists_properties_walk {value merged : Json}
    (hvalue : Assoc.find? (flatProperties root members) name = some value)
    (hstands : StandsFor pointer value merged) : ∃ least, ∀ depth ≥ least, ∀ table,
    ListsOwn (.obj root) table → ∃ table',
      Ends (flattenEntries (walk (.obj again) (depth + 1)) .root "properties"
          (Assoc.insert members name merged))
        { schemas := table, inProgress := [.root] } (· = flatProperties root members) table' ∧
      ListsOwn (.obj root) table' ∧
      ListsAt (.obj root) (Assoc.keys table') (.root, .obj root) := by
  have hkept := trust_kept hfaithful hwf hleads
  have hfirst : Visited (.obj root) (.root, .obj root) := .refl
  have hvisited := fun (entry : String × Json) (hentry : entry ∈ members) =>
    h.visited hfaithful hwf hleads hflatten hroot hentry
  have hcalls := fun (entry : String × Json) (hentry : entry ∈ members) =>
    h.calls hfaithful hwf hleads hflatten hroot hentry
  obtain ⟨least, hleast⟩ := exists_least_of_forall fun entry hentry =>
    exists_resumes hfaithful hwf hleads hflatten (hvisited entry hentry)
  refine ⟨least, fun depth hdepth table htable => ?_⟩
  have hraw := fun (entry : String × Json) (hentry : entry ∈ members) =>
    h.isRaw hfaithful hwf hleads hflatten hroot hentry (Assoc.keys table)
  have hsites : ∀ entry ∈ members,
      Resumes (.obj root) (depth + 1) (propertyPlace entry.1, entry.2) ∧
        Avoids (.obj root) (propertyPlace entry.1, entry.2) [.root] := by
    refine fun entry hentry => ⟨hleast (depth + 1) (Nat.le_succ_of_le hdepth) entry hentry,
      fun place hplace => ?_⟩
    obtain rfl : place = .root := hplace.elim id List.mem_singleton.mp
    exact not_needs_self hfaithful hwf hleads hflatten hfirst (hcalls entry hentry)
  have hapart : Apart { schemas := table, inProgress := [.root] } := by
    intro place hplace hkey
    exact (htable.owned place hkey).1 (List.mem_singleton.mp hplace)
  have hown : ∀ entry ∈ members, (trust (.obj root)).own (propertyPlace entry.1) :=
    fun entry hentry => ⟨⟨entry.2, .inr ⟨_, hfirst, hcalls entry hentry⟩⟩, trivial⟩
  -- walks in the first document that keep away from the root succeed from any such table
  obtain ⟨flat, after, hrun, ⟨hgrows, hflat⟩, -⟩ :=
    (((kept_flattenEntries hkept (keeps_sealedWalk hkept _).on htable.grounded hraw hown
      fun _ _ => trivial).both
      (carries_flattenEntries hkept htable.grounded hapart (fun _ _ _ _ => trivial) hraw
        hsites)).mono (fun _ _ h => h) fun _ h => h.2).exists_ok
  have hfollows :=
    h.followsIn_properties hfaithful hwf hleads hflatten hroot hvalue hstands depth
  have hsame := Faithful.flat_eq_flatTable hvisited hflat.of_and.1
  refine ⟨after.schemas,
    ensures_of_eq_ok (hfollows _ _ _ htable.grounded hrun).1
      ⟨hsame, congrArg (FlattenState.mk after.schemas) hgrows.inProgress⟩,
    htable.grows hgrows List.mem_cons_self, listsAt_of_calls fun role next hcall => ?_⟩
  obtain ⟨rfl, entry, hentry, rfl⟩ :=
    h.exists_of_calls hfaithful hwf hleads hflatten hroot hcall
  obtain ⟨walked, hwalked, -⟩ := hflat.of_and.1.exists_of_find?
    ((Assoc.find?_eq_some_iff (hleads.of_find? h.properties).nodup).mpr hentry)
  have hleft : Faithful.IsLeft (.obj root) (Assoc.keys after.schemas) (propertyPlace entry.1)
      entry.2 walked := hwalked (hvisited entry hentry)
  exact ⟨hleft.lists, fun _ hlisted => hleft.mem_keys hlisted⟩

end Properties

/-! ### The run -/

section Run

variable {document : Json} {walk : Walker} {table : FlatSchemas} {combiner name pointer : String}
  {folded merged node members flat : Entries} {path : SchemaPath} {state : FlattenState}

/-- A member that becomes a schema of its own is merged, and its entry leaves the table again. -/
theorem ends_foldMembers_single {member : Json} {entry : Entries}
    (hwalk : Ends (walk member (memberPlace combiner)) { inProgress := [.root] }
      (· = .canonical (memberPlace combiner)) (Assoc.insert table (memberPlace combiner) entry))
    (hnew : memberPlace combiner ∉ Assoc.keys table)
    (hmerge : merge folded entry .root = ⟨merged, none⟩) :
    Ends (foldMembers document walk .root combiner folded 0 [member]) { inProgress := [.root] }
      (· = merged) table := by
  refine ensures_foldMembers_cons (ensures_foldMember (hwalk.mono (fun walked between hend => ?_)
    fun _ h => h))
  obtain ⟨rfl, rfl⟩ := hend
  refine ensures_contribution (fun _ => nofun) (fun target heq hne => ?_) (fun _ => nofun)
    (fun _ _ => nofun) (fun _ _ => nofun) fun _ _ => ?_
  · exact absurd (Walked.canonical.inj heq).symm hne
  · rw [Assoc.find?_insert_self, Assoc.insert_of_not_mem hnew, Assoc.erase_append_singleton hnew]
    refine ⟨fun source hsource => ⟨fun _ => ensures_pure ⟨?_, rfl⟩, fun conflict hconflict => ?_⟩,
      fun hother => absurd rfl (hother entry)⟩
    · obtain rfl := Json.obj.inj hsource
      rw [hmerge]
    · obtain rfl := Json.obj.inj hsource
      rw [hmerge] at hconflict
      cases hconflict

end Run

section Restated

variable {combiner name pointer : String} {root members again : Entries} {value : Json}
  {schemas : FlatSchemas} {depth : Nat}
  (h : Restates combiner name pointer root members again)
  (hfaithful : Faithful (.obj root)) (hwf : (Json.obj root).wellFormed)
  (hleads : AllLead (.obj root) [] (.obj root))
  (hflatten : flattenWithin depth (.obj root) = .ok schemas)
  (hroot : SchemaPath.root ∈ Assoc.keys schemas)

include h in
/-- What the reference becomes is what its target has become. -/
theorem Restates.find?_flatProperties {keys : List SchemaPath} {target : SchemaPath}
    {schema : Json} {walked : Walked} (hpointer : SchemaPath.ofPointer pointer = .ok target)
    (hschema : (Json.obj root).at? target = some schema)
    (htarget : Calls (.obj root) .own (referenceSite name pointer) (target, schema))
    (hleft : Faithful.IsLeft (.obj root) keys target schema walked) :
    Assoc.find? (flatProperties root members) name = some walked.toJson := by
  have htext : Flatten.textRef? [(refKey, .str pointer)] = some pointer := rfl
  obtain ⟨-, hnamed, -⟩ := htarget.of_textRef? htext hpointer
  obtain ⟨fate, hfate, rfl⟩ := hleft.fate
  have hfollow : Becomes (.obj root) (propertyPlace name) (.obj [(refKey, .str pointer)])
      (fate.seenFrom target) := .follow htext hpointer hnamed hschema hfate
  rw [find?_flatTable, h.reference, Option.map_some, hfollow.fateOf_eq, Fate.toJson,
    Fate.walked_seenFrom]

include h in
/-- Without its combiner the other schema is the same. -/
theorem Restates.find?_swapErase (key : String) :
    Assoc.find? (Assoc.swapErase again combiner) key = Assoc.find? root key := by
  by_cases hkey : key = combiner
  · subst hkey
    rw [Assoc.find?_swapErase_self h.nodup, h.absent key h.mem]
  · rw [Assoc.find?_swapErase_of_ne h.nodup (Ne.symm hkey), h.others key hkey]

include h hfaithful hwf hleads hflatten hroot

/-- The combiner of the other root is folded, and only schemas of their own stay listed. -/
theorem Restates.exists_fold {folded : Entries}
    (hvalue : Assoc.find? (flatProperties root members) name = some value)
    (hmerge : merge (Assoc.swapErase again combiner) [("properties", .obj [(name, value)])] .root =
      ⟨folded, none⟩)
    (habsent : ∀ other ∈ combiners, Assoc.find? folded other = none) :
    ∃ least, ∀ depth ≥ least, ∃ table, ListsOwn (.obj root) table ∧
      Ends
        (combiners.foldlM (foldCombiner (.obj again) (walk (.obj again) (depth + 2)) .root) again)
        { inProgress := [.root] } (· = folded) table := by
  obtain ⟨target, schema, hpointer, hschema, hproperty, htarget⟩ :=
    h.exists_target hfaithful hwf hleads hflatten hroot
  obtain ⟨least, hleast⟩ :=
    h.exists_target_walk hfaithful hwf hleads hflatten hschema hproperty htarget
  refine ⟨least, fun depth hdepth => ?_⟩
  obtain ⟨walked, table, hwalk, hown, hleft⟩ := hleast depth hdepth
  have hnew : memberPlace combiner ∉ Assoc.keys table := by
    intro hkey
    obtain ⟨-, other, howned⟩ := hown.owned _ hkey
    exact h.head?_ne hfaithful howned.visited rfl
  have htargetRoot : target ≠ .root := by
    rintro rfl
    exact not_needs_self hfaithful hwf hleads hflatten .refl hproperty schema (.single ⟨_, htarget⟩)
  have hwalked : walked.toJson = value := Option.some.inj
    ((h.find?_flatProperties hpointer hschema htarget hleft).symm.trans hvalue)
  have hmembers : Ends (foldMembers (.obj again) (walk (.obj again) (depth + 2)) .root combiner
      (Assoc.swapErase again combiner) 0 [restating name pointer])
      { inProgress := [.root] } (· = folded) table :=
    ends_foldMembers_single (ends_restating hpointer (h.at? target schema htargetRoot hschema)
      (hwalk.imp fun found hfound => (congrArg Walked.toJson hfound).trans hwalked)) hnew hmerge
  refine ⟨table, hown, ensures_foldCombiners_single h.mem (fun other hother hne => ?_) h.restated
    (hmembers.mono (fun found after hend => ⟨hend, ?_⟩) fun _ h => h)⟩
  · rw [h.others other hne, h.absent other hother]
  · exact hend.1 ▸ habsent

/-- What is listed repeats no keys. -/
theorem Restates.nodup_keys
    (hvalue : Assoc.find? (flatProperties root members) name = some value) :
    ∀ source, value = .obj source → (Assoc.keys source).Nodup := by
  rintro source rfl
  have hclass := h.isClassRoot hfaithful hwf hleads hflatten hroot
  have hkept := faith_kept hfaithful hwf
  have hlisted := (grounded_of_flattenWithin hkept ⟨.refl, hfaithful.allReliable hwf⟩
    hflatten).listed hkept hclass.entry
  exact ((hlisted.reliable.of_find? (Assoc.find?_insert_self _ _ _)).of_find? hvalue).nodup

/-- The other document is walked from the root. -/
theorem Restates.exists_run
    (hvalue : Assoc.find? (flatProperties root members) name = some value)
    (hkeeps : KeepsReference pointer value) : ∃ depth table entry,
      Ends (walk (.obj again) depth (.obj again) .root) {} (· = .canonical .root)
        (Assoc.insert table .root entry) ∧
      ListsOwn (.obj root) table ∧ ListsAt (.obj root) (Assoc.keys table) (.root, .obj root) ∧
      ∀ key, Assoc.find? entry key =
        Assoc.find? (Assoc.insert root "properties" (.obj (flatProperties root members))) key := by
  have hclass := h.isClassRoot hfaithful hwf hleads hflatten hroot
  -- what the member brings in leaves the property a reference
  obtain ⟨merged, hstands, hmerge⟩ := merge_restated
    (h.nodup_keys hfaithful hwf hleads hflatten hroot hvalue) hkeeps
    ((h.find?_swapErase "properties").trans h.properties) h.reference
  obtain ⟨folded, hfolded⟩ : ∃ folded, folded = Assoc.insert (Assoc.swapErase again combiner)
    "properties" (.obj (Assoc.insert members name merged)) := ⟨_, rfl⟩
  rw [← hfolded] at hmerge
  have hkept : ∀ key, "properties" ≠ key → Assoc.find? folded key = Assoc.find? root key := by
    intro key hkey
    rw [hfolded, Assoc.find?_insert_of_ne _ _ hkey, h.find?_swapErase]
  have habsent : ∀ other ∈ combiners, Assoc.find? folded other = none := fun other hother =>
    (hkept other (ne_combiner hother (by decide))).trans (h.absent other hother)
  obtain ⟨least, hleast⟩ :=
    h.exists_fold hfaithful hwf hleads hflatten hroot hvalue hmerge habsent
  obtain ⟨least', hleast'⟩ :=
    h.exists_properties_walk hfaithful hwf hleads hflatten hroot hvalue hstands
  let depth := max least least'
  obtain ⟨table, hown, hfold⟩ := hleast depth (Nat.le_max_left _ _)
  obtain ⟨table', hentries, hown', hlists⟩ :=
    hleast' (depth + 1) (Nat.le_succ_of_le (Nat.le_max_right _ _)) table hown
  have hon : isOn folded "additionalProperties" = false := by
    unfold isOn
    rw [hkept _ (by decide)]
    exact hclass.additional
  have hproperties :
      Assoc.find? folded "properties" = some (.obj (Assoc.insert members name merged)) := by
    rw [hfolded, Assoc.find?_insert_self]
  have hobject := ends_flattenObject_folded hfold hon hproperties
    ((hkept _ (by decide)).trans hclass.patterns) hentries
  rw [← flattenSchema_of_object (h.textRef?.trans hclass.plain)
    (h.hasObjectType (ofSchema_eq_object.mp hclass.shape))] at hobject
  refine ⟨depth + 3, table', _, ends_visit List.not_mem_nil List.not_mem_nil hobject, hown', hlists,
    fun key => ?_⟩
  by_cases hkey : "properties" = key
  · rw [← hkey, Assoc.find?_insert_self, Assoc.find?_insert_self]
  · rw [Assoc.find?_insert_of_ne _ _ hkey, Assoc.find?_insert_of_ne _ _ hkey, hkept key hkey]

/-- The other document is flattened to the same schemas, in whatever order. -/
theorem Restates.exists_flatten
    (hvalue : Assoc.find? (flatProperties root members) name = some value)
    (hkeeps : KeepsReference pointer value) : ∃ least, ∀ deeper ≥ least, ∃ schemas',
      flattenWithin deeper (.obj again) = .ok schemas' ∧ ListsAlike schemas schemas' := by
  have hclass := h.isClassRoot hfaithful hwf hleads hflatten hroot
  obtain ⟨least, table, entry, hrun, hown, hlists, hentry⟩ :=
    h.exists_run hfaithful hwf hleads hflatten hroot hvalue hkeeps
  obtain ⟨walked, after, hwalk, -, rfl⟩ := hrun.exists_ok
  have hflatten' : flattenWithin least (.obj again) = .ok (Assoc.insert table .root entry) := by
    rw [flattenWithin_eq rfl, hwalk]
    rfl
  refine ⟨least, fun deeper hdeeper => ⟨Assoc.insert table .root entry, ?_, ?_⟩⟩
  · rw [flattenWithin_of_le hdeeper (hflatten' ▸ nofun), hflatten']
  · exact hown.listsAlike hlists hfaithful hwf hleads hflatten hclass.entry hentry

end Restated

end SchemaClasses.Flatten
