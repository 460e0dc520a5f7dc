import SchemaClasses.Proofs.Model.Complete

/-!
# Names of classes

Main statement (`ClassName.names_determined`): what a class is called depends on the base name of
its schema, on the number of schemas before it that have the same base name, and on the name of the
root, which no other class gets.

* A base name has no underscore (`ClassName.underscore_not_mem_base`): its words are runs of
  alphanumeric characters, and no character but the underscore itself has an upper case with an
  underscore in it. So a base name with underscores behind it tells of what base name and how many
  underscores it was made (`ClassName.underscored_inj`), and names that come of different base names
  never meet.
* Naming looks for a free name among all that were given before. What these are is said by
  `ClassName.AreNames`: the name of the root, and for each base name the first ones in its row. One
  more schema takes the next name in the row of its own base name (`ClassName.AreNames.snoc`), and a
  whole run of naming keeps the law (`ClassName.AreNames.assign`).
* The law speaks of the schemas before a schema only by their number for each base name, so it gives
  the name of each schema (`ClassName.find?_assign`) and does not see their order.
-/

namespace SchemaClasses

/-! ### Texts without underscores -/

namespace Text

/-- No piece of a text has a character at which the text is cut. -/
theorem eq_false_of_mem_splitWhere {test : Char → Bool} {text piece : List Char}
    (h : piece ∈ (splitWhere test text).1 :: (splitWhere test text).2) :
    ∀ c ∈ piece, test c = false := by
  induction text generalizing piece with
  | nil =>
    obtain rfl := List.mem_singleton.mp h
    exact fun _ hc => absurd hc List.not_mem_nil
  | cons c rest ih =>
    rw [splitWhere] at h
    split_ifs at h with htest
    · rcases List.mem_cons.mp h with rfl | hrest
      · exact fun _ hc => absurd hc List.not_mem_nil
      · exact ih hrest
    · rcases List.mem_cons.mp h with rfl | hrest
      · intro d hd
        rcases List.mem_cons.mp hd with rfl | hmem
        · exact Bool.eq_false_iff.mpr htest
        · exact ih List.mem_cons_self d hmem
      · exact ih (List.mem_cons_of_mem _ hrest)

/-- A number that is no character does not stand for an underscore either. -/
theorem eq_of_ofNat_eq_underscore {n : Nat} (h : Char.ofNat n = '_') : n = 0x5F := by
  by_cases hvalid : n.isValidChar
  · have hnat : (Char.ofNat n).toNat = n := by
      rw [Char.ofNat, dif_pos hvalid]
      rfl
    exact hnat.symm.trans (congrArg Char.toNat h)
  · rw [Char.ofNat, dif_neg hvalid] at h
    exact absurd h (by decide)

/-- Only the underscore has an underscore in its upper case. -/
theorem underscore_not_mem_uppercase {c : Char} (h : c ≠ '_') : '_' ∉ uppercase c := by
  have hsequences : ∀ entry ∈ uppercaseSequences, 0x5F ∉ entry.2 := by decide +kernel
  have hranges : ∀ range ∈ uppercaseRanges,
      0x5F < range.upper ∨ range.upper + (range.last - range.first) < 0x5F := by decide +kernel
  unfold uppercase
  split
  · rename_i entry hentry
    intro hmem
    obtain ⟨n, hn, heq⟩ := List.mem_map.mp hmem
    exact hsequences entry (List.mem_of_find?_eq_some hentry) (eq_of_ofNat_eq_underscore heq ▸ hn)
  · split
    · rename_i n hn
      obtain ⟨range, hrange, hupper⟩ := List.exists_of_findSome?_eq_some hn
      unfold CaseRange.upper? at hupper
      split_ifs at hupper with hwithin
      obtain rfl := Option.some.inj hupper
      intro hmem
      have heq := eq_of_ofNat_eq_underscore (List.mem_singleton.mp hmem).symm
      have := hranges range hrange
      omega
    · exact fun hmem => h (List.mem_singleton.mp hmem).symm

end Text

/-! ### Base names -/

namespace ClassName

/-- The words of a name are alphanumeric, and so are their capitals. -/
theorem underscore_not_mem_upperCamel (text : String) : '_' ∉ (upperCamel text).toList := by
  have hunderscore : Text.isAlphanumeric '_' = false := by decide +kernel
  unfold upperCamel
  dsimp only
  rw [String.toList_ofList]
  intro hmem
  obtain ⟨word, hword, hcapital⟩ := List.mem_flatMap.mp hmem
  have hplain : ∀ c ∈ word, c ≠ '_' := by
    rintro c hc rfl
    have hcut := Text.eq_false_of_mem_splitWhere hword '_' hc
    rw [hunderscore] at hcut
    cases hcut
  cases word with
  | nil => exact absurd hcapital List.not_mem_nil
  | cons c rest =>
    rcases List.mem_append.mp hcapital with hfirst | hrest
    · exact Text.underscore_not_mem_uppercase (hplain c List.mem_cons_self) hfirst
    · exact hplain '_' (List.mem_cons_of_mem _ hrest) rfl

/-- There is no underscore in a base name. -/
theorem underscore_not_mem_baseOfReversed {segments : List String} {name : String}
    (h : baseOfReversed? segments = some name) : '_' ∉ name.toList := by
  induction segments with
  | nil => cases h
  | cons segment rest ih =>
    rw [baseOfReversed?] at h
    split at h
    · have hname := underscore_not_mem_upperCamel (afterLastSlash segment)
      generalize upperCamel (afterLastSlash segment) = word at h hname
      dsimp only at h
      split at h
      · cases h
      · exact Option.some.inj h ▸ hname
    · exact ih h

/-- A base name has no underscore. -/
theorem underscore_not_mem_base {path : SchemaPath} {name : String} (h : base path = .ok name) :
    '_' ∉ name.toList := by
  unfold base at h
  split at h
  · rename_i found hfound
    obtain rfl := Except.ok.inj h
    exact underscore_not_mem_baseOfReversed hfound
  · cases h

/-- A name with underscores consists of the name and so many underscores. -/
theorem toList_underscored (name : String) (n : Nat) :
    (underscored name n).toList = name.toList ++ List.replicate n '_' := by
  induction n generalizing name with
  | zero => simp [underscored]
  | succ n ih => simp [underscored, ih, List.replicate_succ]

/-- Names with underscores behind them tell what they were made of. -/
theorem underscored_inj {name other : String} {m n : Nat} (hname : '_' ∉ name.toList)
    (hother : '_' ∉ other.toList) (h : underscored name m = underscored other n) :
    name = other ∧ m = n := by
  have hlists := congrArg String.toList h
  rw [toList_underscored, toList_underscored] at hlists
  have hcount := congrArg (List.count '_') hlists
  rw [List.count_append, List.count_append, List.count_eq_zero.mpr hname,
    List.count_eq_zero.mpr hother, List.count_replicate_self, List.count_replicate_self,
    Nat.zero_add, Nat.zero_add] at hcount
  subst hcount
  exact ⟨String.toList_inj.mp (List.append_cancel_right hlists), rfl⟩

/-! ### The names for one base name -/

/-- How many underscores the name of a schema has that comes after `k` others with the same base
name: as many, or one more if the reserved name is among the first that are tried. -/
def underscores (reserved : Option String) (name : String) (k : Nat) : Nat :=
  if ∃ j ≤ k, reserved = some (underscored name j) then k + 1 else k

section Underscores

variable {reserved : Option String} {name : String} {k m : Nat}

/-- No number is left out, or the one that would make the reserved name. -/
theorem underscores_cases (reserved : Option String) (name : String) :
    ((∀ m, reserved ≠ some (underscored name m)) ∧ ∀ k, underscores reserved name k = k) ∨
      ∃ r, (∀ m, reserved = some (underscored name m) ↔ m = r) ∧
        ∀ k, underscores reserved name k = if r ≤ k then k + 1 else k := by
  by_cases h : ∃ r, reserved = some (underscored name r)
  · obtain ⟨r, rfl⟩ := h
    have hiff : ∀ m, some (underscored name r) = some (underscored name m) ↔ m = r := by
      intro m
      rw [Option.some_inj, (underscored_injective name).eq_iff, eq_comm]
    refine .inr ⟨r, hiff, fun k => ?_⟩
    simp [underscores, hiff]
  · push Not at h
    exact .inl ⟨h, fun k => by simp [underscores, h]⟩

/-- The reserved name is not given. -/
theorem ne_underscored_underscores :
    reserved ≠ some (underscored name (underscores reserved name k)) := by
  rcases underscores_cases reserved name with ⟨hnone, -⟩ | ⟨r, hr, hcount⟩
  · exact hnone _
  · rw [ne_eq, hr, hcount]
    split_ifs <;> omega

/-- The next schema has more underscores than the one before it. -/
theorem underscores_lt_succ : underscores reserved name k < underscores reserved name (k + 1) := by
  rcases underscores_cases reserved name with ⟨-, hcount⟩ | ⟨r, -, hcount⟩
  · rw [hcount, hcount]
    exact Nat.lt_succ_self k
  · rw [hcount, hcount]
    split_ifs <;> omega

/-- With one more schema there is one more name, besides the reserved one. -/
theorem lt_underscores_succ (h : m < underscores reserved name (k + 1)) :
    (m < underscores reserved name k ∨ reserved = some (underscored name m)) ∨
      m = underscores reserved name k := by
  rcases underscores_cases reserved name with ⟨-, hcount⟩ | ⟨r, hr, hcount⟩
  · rw [hcount] at h ⊢
    omega
  · rw [hcount] at h
    rw [hr, hcount]
    split_ifs at h ⊢ <;> omega

/-- The name that is free if those before it are taken. -/
theorem free_eq {taken : List String} (hbefore : ∀ i < m, underscored name i ∈ taken)
    (hfree : underscored name m ∉ taken) : free taken name = underscored name m := by
  have htried : ∀ (n : Nat) (name : String), ∃ j ≤ n,
      appendUnderscores taken name n = underscored name j ∧
        ∀ i < j, underscored name i ∈ taken := by
    intro n
    induction n with
    | zero => exact fun name => ⟨0, Nat.le_refl 0, rfl, nofun⟩
    | succ n ih =>
      intro name
      rw [appendUnderscores]
      split_ifs with hname
      · obtain ⟨j, hj, heq, htaken⟩ := ih (name ++ "_")
        refine ⟨j + 1, Nat.succ_le_succ hj, heq, fun i hi => ?_⟩
        cases i with
        | zero => exact hname
        | succ i => exact htaken i (Nat.lt_of_succ_lt_succ hi)
      · exact ⟨0, Nat.zero_le _, rfl, nofun⟩
  obtain ⟨j, -, heq, htaken⟩ := htried taken.length name
  have hnot := free_not_mem taken name
  unfold free at hnot ⊢
  rw [heq] at hnot ⊢
  rcases Nat.lt_trichotomy j m with hlt | rfl | hgt
  · exact absurd (hbefore j hlt) hnot
  · rfl
  · exact absurd (htaken m hgt) hfree

end Underscores

/-! ### The names of all schemas -/

/-- Whether a place has a base name. -/
def hasBase (name : String) (path : SchemaPath) : Bool :=
  (base path).toOption = some name

/-- A place has a base name if that is the one found for it. -/
theorem hasBase_iff {name : String} {path : SchemaPath} :
    hasBase name path ↔ base path = .ok name := by
  unfold hasBase
  cases base path <;> simp [Except.toOption]

/-- Whether some names are the reserved one and those of the schemas at some places: for each base
name as many as there are places that have it. -/
def AreNames (reserved : Option String) (paths : List SchemaPath) (taken : List String) : Prop :=
  ∀ name, name ∈ taken ↔ reserved = some name ∨ ∃ stem m, '_' ∉ stem.toList ∧
    name = underscored stem m ∧ m < underscores reserved stem (paths.countP (hasBase stem))

section Assign

variable {reserved : Option String} {paths : List SchemaPath} {path : SchemaPath}
  {taken : List String} {stem : String} {m : Nat}

/-- Before any schema is named, only the reserved name is taken. -/
theorem areNames_nil : AreNames reserved [] reserved.toList := by
  intro name
  rw [Option.mem_toList, or_iff_left_of_imp]
  rintro ⟨stem, m, -, rfl, hm⟩
  rw [List.countP_nil] at hm
  rcases underscores_cases reserved stem with ⟨-, hcount⟩ | ⟨r, hr, hcount⟩
  · rw [hcount] at hm
    exact absurd hm (Nat.not_lt_zero m)
  · rw [hr]
    rw [hcount] at hm
    split_ifs at hm <;> omega

/-- Of the names that are made of a base name the first ones are taken. -/
theorem AreNames.underscored_mem_iff (h : AreNames reserved paths taken)
    (hstem : '_' ∉ stem.toList) :
    underscored stem m ∈ taken ↔
      m < underscores reserved stem (paths.countP (hasBase stem)) ∨
        reserved = some (underscored stem m) := by
  rw [h, or_comm]
  refine or_congr_left ⟨?_, fun hm => ⟨stem, m, hstem, rfl, hm⟩⟩
  rintro ⟨other, n, hother, heq, hn⟩
  obtain ⟨rfl, rfl⟩ := underscored_inj hstem hother heq
  exact hn

/-- The name that is free comes next in the row of those that are made of the same base name. -/
theorem AreNames.free_eq (h : AreNames reserved paths taken) (hstem : '_' ∉ stem.toList) :
    free taken stem =
      underscored stem (underscores reserved stem (paths.countP (hasBase stem))) := by
  refine ClassName.free_eq (fun i hi => (h.underscored_mem_iff hstem).mpr (.inl hi)) fun hmem => ?_
  rcases (h.underscored_mem_iff hstem).mp hmem with hlt | hreserved
  · exact Nat.lt_irrefl _ hlt
  · exact ne_underscored_underscores hreserved

/-- Naming one more schema takes the name that is free for its base name. -/
theorem AreNames.snoc (h : AreNames reserved paths taken) (hbase : base path = .ok stem) :
    AreNames reserved (paths ++ [path]) (taken ++ [free taken stem]) := by
  have hstem := underscore_not_mem_base hbase
  have hself : (paths ++ [path]).countP (hasBase stem) = paths.countP (hasBase stem) + 1 := by
    rw [List.countP_append, List.countP_singleton, if_pos (hasBase_iff.mpr hbase)]
  have hother : ∀ {other}, other ≠ stem →
      (paths ++ [path]).countP (hasBase other) = paths.countP (hasBase other) := by
    intro other hne
    have hnot : ¬hasBase other path := by
      rw [hasBase_iff, hbase]
      exact fun heq => hne (Except.ok.inj heq).symm
    rw [List.countP_append, List.countP_singleton, if_neg hnot, Nat.add_zero]
  intro name
  rw [h.free_eq hstem, List.mem_append, List.mem_singleton]
  constructor
  · rintro (hmem | rfl)
    · refine ((h name).mp hmem).imp_right ?_
      rintro ⟨other, m, hfree, rfl, hm⟩
      refine ⟨other, m, hfree, rfl, ?_⟩
      by_cases heq : other = stem
      · subst heq
        rw [hself]
        exact Nat.lt_trans hm underscores_lt_succ
      · rwa [hother heq]
    · refine .inr ⟨stem, _, hstem, rfl, ?_⟩
      rw [hself]
      exact underscores_lt_succ
  · rintro (hreserved | ⟨other, m, hfree, rfl, hm⟩)
    · exact .inl ((h name).mpr (.inl hreserved))
    · by_cases heq : other = stem
      · subst heq
        rw [hself] at hm
        rw [h.underscored_mem_iff hstem, (underscored_injective other).eq_iff]
        exact lt_underscores_succ hm
      · rw [hother heq] at hm
        exact .inl ((h.underscored_mem_iff hfree).mpr (.inl hm))

/-! #### Runs -/

variable {before front back : List SchemaPath} {names table : Table} {name : String}

/-- Schemas can be named if all of them have base names. -/
theorem exists_assign_iff :
    (∃ table, assign names paths = .ok table) ↔ ∀ path ∈ paths, ∃ name, base path = .ok name := by
  induction paths generalizing names with
  | nil => exact iff_of_true ⟨names, rfl⟩ nofun
  | cons path rest ih =>
    rw [assign, List.forall_mem_cons]
    cases hbase : base path with
    | error error =>
      refine iff_of_false ?_ ?_
      · rintro ⟨table, h⟩
        cases h
      · rintro ⟨⟨name, h⟩, -⟩
        cases h
    | ok name =>
      refine Iff.trans ih ⟨fun h => ⟨⟨name, rfl⟩, h⟩, And.right⟩

/-- Schemas are named one after the other. -/
theorem assign_append (names : Table) (front back : List SchemaPath) :
    assign names (front ++ back) =
      assign names front >>= fun between => assign between back := by
  induction front generalizing names with
  | nil => rfl
  | cons path rest ih =>
    rw [List.cons_append, assign, assign]
    cases base path with
    | error error => rfl
    | ok name => exact ih _

/-- The next schema is named after what is taken. -/
theorem assign_singleton (hnew : path ∉ Assoc.keys names) (hbase : base path = .ok name) :
    assign names [path] = .ok (names ++ [(path, free (Assoc.values names) name)]) := by
  rw [assign, hbase, ← Assoc.insert_of_not_mem hnew]
  rfl

/-- What is known of the names is kept by naming more schemas. -/
theorem AreNames.assign (htaken : AreNames reserved before (Assoc.values names))
    (hnew : (Assoc.keys names ++ paths).Nodup) (h : assign names paths = .ok table) :
    AreNames reserved (before ++ paths) (Assoc.values table) := by
  induction paths generalizing before names with
  | nil =>
    obtain rfl := Except.ok.inj h
    rwa [List.append_nil]
  | cons path rest ih =>
    obtain ⟨name, hbase⟩ := exists_assign_iff.mp ⟨table, h⟩ path List.mem_cons_self
    have hmissing : path ∉ Assoc.keys names := fun hmem =>
      List.disjoint_of_nodup_append hnew hmem List.mem_cons_self
    rw [← List.singleton_append, assign_append, assign_singleton hmissing hbase] at h
    have hkeys : Assoc.keys (names ++ [(path, free (Assoc.values names) name)]) =
        Assoc.keys names ++ [path] := List.map_append
    have hvalues : Assoc.values (names ++ [(path, free (Assoc.values names) name)]) =
        Assoc.values names ++ [free (Assoc.values names) name] := List.map_append
    rw [List.append_cons]
    exact ih (hvalues ▸ htaken.snoc hbase) (by rwa [hkeys, List.append_assoc]) h

/-- The name of a schema depends on the number of schemas before it that have the same base name. -/
theorem find?_assign (htaken : AreNames reserved before (Assoc.values names))
    (hnodup : (Assoc.values names).Nodup)
    (hnew : (Assoc.keys names ++ (front ++ path :: back)).Nodup)
    (h : assign names (front ++ path :: back) = .ok table) :
    ∃ name, base path = .ok name ∧ Assoc.find? table path = some (underscored name
      (underscores reserved name ((before ++ front).countP (hasBase name)))) := by
  obtain ⟨name, hbase⟩ := exists_assign_iff.mp ⟨table, h⟩ path
    (List.mem_append_right _ List.mem_cons_self)
  rw [assign_append] at h
  obtain ⟨between, hfront, h⟩ := exists_of_bind_eq_ok h
  have hnewFront : (Assoc.keys names ++ front).Nodup := by
    rw [← List.append_assoc] at hnew
    exact (List.nodup_append.mp hnew).1
  obtain ⟨-, hkeys, hvalues⟩ := assign_eq_ok hnewFront hnodup hfront
  have hbetween := htaken.assign hnewFront hfront
  rw [← List.append_assoc, ← hkeys] at hnew
  have hmissing : path ∉ Assoc.keys between := fun hmem =>
    List.disjoint_of_nodup_append hnew hmem List.mem_cons_self
  have hfirst := assign_singleton hmissing hbase
  rw [← List.singleton_append, assign_append, hfirst] at h
  rw [List.append_cons] at hnew
  obtain ⟨-, hfirstKeys, hfirstValues⟩ :=
    assign_eq_ok (List.nodup_append.mp hnew).1 hvalues hfirst
  obtain ⟨⟨rest, rfl⟩, -, -⟩ := assign_eq_ok (by rwa [hfirstKeys]) hfirstValues h
  refine ⟨name, hbase, ?_⟩
  rw [← hbetween.free_eq (underscore_not_mem_base hbase), List.append_assoc, Assoc.find?_append,
    Assoc.find?_eq_none_iff.mpr hmissing]
  exact if_pos rfl

end Assign

/-! ### The names of a flattened table -/

/-- The places of all listed schemas but the root, in order. -/
def others (schemas : FlatSchemas) : List SchemaPath :=
  (Assoc.keys schemas).filter fun path => !path.isRoot

/-- The name that is given to the root if it is listed. -/
def reservedName (schemas : FlatSchemas) (rootName : String) : Option String :=
  if Assoc.contains schemas .root then some rootName else none

section Table

variable {schemas schemas' : FlatSchemas} {rootName : String} {names names' : Table}
  {path : SchemaPath} {entry : Entries}

/-- The table that naming starts with. -/
def rootTable (schemas : FlatSchemas) (rootName : String) : Table :=
  if Assoc.contains schemas .root then [(.root, rootName)] else []

/-- The only name in the first table is that of the root, if there is one. -/
theorem values_rootTable (schemas : FlatSchemas) (rootName : String) :
    Assoc.values (rootTable schemas rootName) = (reservedName schemas rootName).toList := by
  unfold rootTable reservedName
  split_ifs <;> rfl

/-- Before any other schema is named only the name of the root is taken. -/
theorem areNames_rootTable (schemas : FlatSchemas) (rootName : String) :
    AreNames (reservedName schemas rootName) [] (Assoc.values (rootTable schemas rootName)) :=
  values_rootTable schemas rootName ▸ areNames_nil

/-- The table of names assigns a name to each schema but the root, one after the other. -/
theorem table_eq_assign (schemas : FlatSchemas) (rootName : String) :
    table schemas rootName = assign (rootTable schemas rootName) (others schemas) := rfl

/-- None of these schemas has a name already. -/
theorem nodup_rootTable (hnodup : (Assoc.keys schemas).Nodup) :
    (Assoc.keys (rootTable schemas rootName) ++ others schemas).Nodup := by
  have hothers : (others schemas).Nodup := hnodup.filter _
  unfold rootTable
  split_ifs
  · refine List.nodup_cons.mpr ⟨fun hmem => ?_, hothers⟩
    cases (List.mem_filter.mp hmem).2
  · exact hothers

/-- Which names there are depends on how many schemas have each base name. -/
theorem areNames_table (hnodup : (Assoc.keys schemas).Nodup)
    (h : table schemas rootName = .ok names) :
    AreNames (reservedName schemas rootName) (others schemas) (Assoc.values names) :=
  (areNames_rootTable schemas rootName).assign (nodup_rootTable hnodup) h

/-- The name of a schema depends on the schemas before it that have the same base name. -/
theorem find?_table {front back : List SchemaPath} (hnodup : (Assoc.keys schemas).Nodup)
    (h : table schemas rootName = .ok names) (hothers : others schemas = front ++ path :: back) :
    ∃ name, base path = .ok name ∧ Assoc.find? names path = some (underscored name
      (underscores (reservedName schemas rootName) name (front.countP (hasBase name)))) := by
  have hstart : (Assoc.values (rootTable schemas rootName)).Nodup := by
    rw [values_rootTable]
    cases reservedName schemas rootName with
    | none => exact List.nodup_nil
    | some name => exact List.nodup_singleton name
  have hnew : (Assoc.keys (rootTable schemas rootName) ++ others schemas).Nodup :=
    nodup_rootTable hnodup
  rw [hothers] at hnew
  rw [table_eq_assign, hothers] at h
  exact find?_assign (areNames_rootTable schemas rootName) hstart hnew h

/-- A place that is listed in both tables or in none counts the same. -/
theorem contains_congr (h : path ∈ Assoc.keys schemas ↔ path ∈ Assoc.keys schemas') :
    Assoc.contains schemas path = Assoc.contains schemas' path := by
  rwa [Bool.eq_iff_iff, ← Assoc.mem_keys_iff_contains, ← Assoc.mem_keys_iff_contains]

/-- A schema that is listed last is named last, and no other name changes. -/
theorem table_append_singleton (hpath : path ∉ Assoc.keys schemas) (hroot : path ≠ .root)
    (hnodup : (Assoc.keys schemas).Nodup) (h : table schemas rootName = .ok names)
    (h' : table (schemas ++ [(path, entry)]) rootName = .ok names') :
    ∃ name, names' = names ++ [(path, name)] := by
  have hlisted : Assoc.keys (schemas ++ [(path, entry)]) = Assoc.keys schemas ++ [path] :=
    List.map_append
  have hothers : others (schemas ++ [(path, entry)]) = others schemas ++ [path] := by
    rw [others, hlisted, List.filter_append, List.filter_singleton]
    have hchild : path.isRoot = false := by
      obtain ⟨segments⟩ := path
      cases segments with
      | nil => exact absurd rfl hroot
      | cons segment rest => rfl
    rw [hchild]
    rfl
  have hstart : rootTable (schemas ++ [(path, entry)]) rootName = rootTable schemas rootName := by
    have hiff : SchemaPath.root ∈ Assoc.keys (schemas ++ [(path, entry)]) ↔
        SchemaPath.root ∈ Assoc.keys schemas := by
      rw [hlisted, List.mem_append, List.mem_singleton, or_iff_left (Ne.symm hroot)]
    rw [rootTable, rootTable, contains_congr hiff]
  rw [table_eq_assign, hothers, hstart, assign_append, ← table_eq_assign, h] at h'
  obtain ⟨name, hbase⟩ := exists_assign_iff.mp ⟨names', h'⟩ path List.mem_cons_self
  have hnew : path ∉ Assoc.keys names := by
    rwa [(table_eq_ok hnodup h).1, mem_places]
  exact ⟨_, Except.ok.inj (h'.symm.trans (assign_singleton hnew hbase))⟩

section Order

variable (hkeys : (Assoc.keys schemas).Perm (Assoc.keys schemas'))

include hkeys

/-- Reordering a table reorders the schemas other than the root. -/
theorem others_perm : (others schemas).Perm (others schemas') :=
  hkeys.filter _

/-- The name of the root stays reserved in any order. -/
theorem reservedName_perm : reservedName schemas rootName = reservedName schemas' rootName := by
  rw [reservedName, reservedName, contains_congr hkeys.mem_iff]

/-- Schemas can be named in any order if they can be named in one. -/
theorem exists_table (h : table schemas rootName = .ok names) :
    ∃ names', table schemas' rootName = .ok names' := by
  have hbases := exists_assign_iff.mp ⟨names, h⟩
  exact exists_assign_iff.mpr fun path hpath =>
    hbases path ((others_perm hkeys).mem_iff.mpr hpath)

end Order

/-- The names of classes are determined by the base names and the order of their schemas: the root
is given its name, and of the other schemas that have some base name the first is named so, the next
one with an underscore more, and so on, but for the number of underscores that would make the name
of the root. So no two classes have the same name, a schema that is added at the end does not rename
any other, and which names there are does not depend on the order. -/
theorem names_determined (hnodup : (Assoc.keys schemas).Nodup)
    (h : table schemas rootName = .ok names) :
    Assoc.keys names = places schemas ∧
    (Assoc.contains schemas .root → Assoc.find? names .root = some rootName) ∧
    (∀ front path back, others schemas = front ++ path :: back → ∃ name, base path = .ok name ∧
      Assoc.find? names path = some (underscored name
        (underscores (reservedName schemas rootName) name (front.countP (hasBase name))))) ∧
    (Assoc.values names).Nodup ∧
    (∀ path entry names', path ∉ Assoc.keys schemas → path ≠ .root →
      table (schemas ++ [(path, entry)]) rootName = .ok names' →
      ∃ name, names' = names ++ [(path, name)]) ∧
    ∀ schemas', schemas.Perm schemas' → ∃ names', table schemas' rootName = .ok names' ∧
      (Assoc.values names).Perm (Assoc.values names') := by
  obtain ⟨hkeys, -, hvalues, hroot⟩ := table_eq_ok hnodup h
  refine ⟨hkeys, hroot, fun front path back hothers => find?_table hnodup h hothers, hvalues,
    fun path entry names' hpath hne h' => table_append_singleton hpath hne hnodup h h',
    fun schemas' hperm => ?_⟩
  have hlisted : (Assoc.keys schemas).Perm (Assoc.keys schemas') := hperm.map Prod.fst
  have hnodup' : (Assoc.keys schemas').Nodup := hlisted.nodup_iff.mp hnodup
  obtain ⟨names', h'⟩ := exists_table hlisted h
  obtain ⟨-, -, hvalues', -⟩ := table_eq_ok hnodup' h'
  refine ⟨names', h', (List.perm_ext_iff_of_nodup hvalues hvalues').mpr fun name => ?_⟩
  rw [areNames_table hnodup h, areNames_table hnodup' h', reservedName_perm hlisted]
  simp only [(others_perm hlisted).countP_eq]

end Table

/-- Three schemas with one base name, and another one, around the root. -/
def homonyms : FlatSchemas :=
  [(⟨["definitions", "foo-bar"]⟩, []), (.root, []), (⟨["definitions", "foo_bar"]⟩, []),
    (⟨["properties", "item"]⟩, []), (⟨["definitions", "fooBar"]⟩, [])]

/-- The root has a name that the second of its homonyms would get. -/
theorem names_determined_homonyms :
    (Assoc.keys homonyms).Nodup ∧
    table homonyms "FooBar_" = .ok
      [(.root, "FooBar_"), (⟨["definitions", "foo-bar"]⟩, "FooBar"),
        (⟨["definitions", "foo_bar"]⟩, "FooBar__"), (⟨["properties", "item"]⟩, "Item"),
        (⟨["definitions", "fooBar"]⟩, "FooBar___")] ∧
    underscores (reservedName homonyms "FooBar_") "FooBar" 2 = 3 ∧
    ∃ names, table homonyms.reverse "FooBar_" = .ok names ∧
      ["FooBar_", "FooBar", "FooBar__", "Item", "FooBar___"].Perm (Assoc.values names) := by
  have hnodup : (Assoc.keys homonyms).Nodup := by decide
  have htable : table homonyms "FooBar_" = .ok
      [(.root, "FooBar_"), (⟨["definitions", "foo-bar"]⟩, "FooBar"),
        (⟨["definitions", "foo_bar"]⟩, "FooBar__"), (⟨["properties", "item"]⟩, "Item"),
        (⟨["definitions", "fooBar"]⟩, "FooBar___")] := by decide +kernel
  obtain ⟨-, -, -, -, -, hperm⟩ := names_determined hnodup htable
  exact ⟨hnodup, htable, by decide +kernel, hperm homonyms.reverse (List.reverse_perm _).symm⟩

end ClassName
end SchemaClasses
