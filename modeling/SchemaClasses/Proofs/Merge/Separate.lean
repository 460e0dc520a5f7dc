import SchemaClasses.Proofs.Merge.Alike

/-!
# A merge takes every key by itself

Apart from types and references, what a merge makes of a key depends on what both sides have under
that key alone: whether they agree (`conflict_mergeEntries_iff`) and what is left there
(`find?_mergeEntries_elim`). Which names a table has afterwards, and in which order, does not even
depend on the values (`keys_mergeEntries`).

So a merge that names no types is one operation on the values that both sides have under a key,
`unite`: it succeeds just if `unite` does under all keys (`exists_result_of_unite`), and leaves what
`unite` makes of the values (`unite_of_result`).
-/

namespace SchemaClasses

/-- What a merge makes of its target, unless it stops. -/
def Merged.result? {α : Type} (merged : Merged α) : Option α :=
  if merged.conflict.isNone then some merged.value else none

namespace Merge

variable {keys : Keys} {path : SchemaPath} {target target' source source' : Entries}
  {key other : String} {value : Json}

/-! ### One entry -/

/-- Merging one entry does the same under its key to targets that have the same there. -/
theorem mergeEntry_congr (htype : ¬NamesType keys key)
    (h : Assoc.find? target key = Assoc.find? target' key) :
    (mergeEntry keys path target key value).conflict =
        (mergeEntry keys path target' key value).conflict ∧
      Assoc.find? (mergeEntry keys path target key value).value key =
        Assoc.find? (mergeEntry keys path target' key value).value key := by
  cases hold : Assoc.find? target key with
  | none =>
    rw [mergeEntry_of_none htype hold, mergeEntry_of_none htype (h ▸ hold)]
    exact ⟨rfl, by rw [Assoc.find?_insert_self, Assoc.find?_insert_self]⟩
  | some old =>
    have hold' := h ▸ hold
    by_cases hobjects : ∃ entries new, old = .obj entries ∧ value = .obj new
    · obtain ⟨entries, new, rfl, rfl⟩ := hobjects
      rw [mergeEntry_objects htype hold, mergeEntry_objects htype hold']
      refine ⟨rfl, ?_⟩
      dsimp only [Merged.map]
      rw [Assoc.find?_insert_self, Assoc.find?_insert_self]
    · have hother : ∀ entries new, old = .obj entries → value ≠ .obj new :=
        fun entries new hentries hnew => hobjects ⟨entries, new, hentries, hnew⟩
      cases keys with
      | names =>
        rw [mergeEntry_names hold hother, mergeEntry_names hold' hother]
        exact ⟨rfl, by rw [Assoc.find?_insert_self, Assoc.find?_insert_self]⟩
      | keywords =>
        rw [mergeEntry_keywords htype hold hother, mergeEntry_keywords htype hold' hother]
        unfold mergePlain
        split_ifs
        · exact ⟨rfl, by rw [Assoc.find?_insert_self, Assoc.find?_insert_self]⟩
        · exact ⟨rfl, h⟩
        · exact ⟨rfl, by rw [Assoc.find?_insert_self, Assoc.find?_insert_self]⟩

/-- Merging an entry changes nothing under any other key that does not name a type. -/
theorem find?_mergeEntry_other (hnodup : (Assoc.keys target).Nodup)
    (hother : ¬NamesType keys other) (hne : key ≠ other) :
    Assoc.find? (mergeEntry keys path target key value).value other =
      Assoc.find? target other := by
  by_cases htype : NamesType keys key
  · rw [mergeEntry_of_namesType htype]
    exact find?_unifyType_of_ne hnodup hne (fun h => hother ⟨htype.1, .inl h.symm⟩)
      fun h => hother ⟨htype.1, .inr h.symm⟩
  · exact find?_mergeEntry_of_ne htype hne

/-- Under its own key it leaves something if there is no disagreement. -/
theorem keys_mergeEntry (htype : ¬NamesType keys key)
    (hagree : (mergeEntry keys path target key value).conflict = none) :
    Assoc.keys (mergeEntry keys path target key value).value =
      if Assoc.contains target key then Assoc.keys target else Assoc.keys target ++ [key] := by
  generalize hmerged : mergeEntry keys path target key value = merged at hagree ⊢
  cases hmerged ▸ mergesEntry keys path target key value with
  | unify h => exact absurd h htype
  | put => exact Assoc.keys_insert _ _ _
  | objects => exact Assoc.keys_insert _ _ _
  | required => exact Assoc.keys_insert _ _ _
  | disagree => cases hagree

/-- Merging an entry, if it succeeds, leaves some entries behind. -/
theorem mergeEntry_ne_nil (hagree : (mergeEntry keys path target key value).conflict = none) :
    (mergeEntry keys path target key value).value ≠ [] := by
  generalize hmerged : mergeEntry keys path target key value = merged at hagree ⊢
  cases hmerged ▸ mergesEntry keys path target key value with
  | unify =>
    dsimp only
    rcases unifyType_cases target key value with ⟨-, heq⟩ | ⟨-, ⟨ref, href, -⟩, heq⟩ | ⟨-, heq⟩ <;>
      rw [heq]
    · exact Assoc.insert_ne_nil _ _ _
    · rintro rfl
      cases href
    · exact Assoc.insert_ne_nil _ _ _
  | put => exact Assoc.insert_ne_nil _ _ _
  | objects => exact Assoc.insert_ne_nil _ _ _
  | required => exact Assoc.insert_ne_nil _ _ _
  | disagree => cases hagree

/-! ### All entries -/

/-- Merging a type or a reference meets no disagreement. -/
theorem conflict_mergeEntry_of_namesType (htype : NamesType keys key) :
    (mergeEntry keys path target key value).conflict = none := by
  rw [mergeEntry_of_namesType htype]

/-- Two objects disagree where some of their entries do. -/
theorem conflict_mergeEntries_iff (htarget : (Assoc.keys target).Nodup)
    (hsource : (Assoc.keys source).Nodup) :
    (mergeEntries keys path target source).conflict = none ↔
      ∀ key value, Assoc.find? source key = some value →
        (mergeEntry keys path target key value).conflict = none := by
  induction source generalizing target with
  | nil =>
    rw [mergeEntries]
    refine iff_of_true rfl fun key value hvalue => ?_
    cases hvalue
  | cons entry rest ih =>
    obtain ⟨k, v⟩ := entry
    obtain ⟨hmissing, hrest⟩ := List.nodup_cons.mp hsource
    have hbetween : (Assoc.keys (mergeEntry keys path target k v).value).Nodup :=
      nodup_keys_mergeEntry htarget
    -- merging the first entry does not change whether another one disagrees
    have hsame : ∀ key value, Assoc.find? rest key = some value →
        (mergeEntry keys path (mergeEntry keys path target k v).value key value).conflict =
          (mergeEntry keys path target key value).conflict := by
      intro key value hvalue
      by_cases htype : NamesType keys key
      · rw [conflict_mergeEntry_of_namesType htype, conflict_mergeEntry_of_namesType htype]
      · have hne : k ≠ key := fun heq => hmissing (heq ▸ Assoc.mem_keys_of_find? hvalue)
        exact (mergeEntry_congr htype (find?_mergeEntry_other htarget htype hne)).1
    constructor
    · intro hagree key value hvalue
      obtain ⟨hfirst, heq⟩ := mergeEntries_cons hagree
      by_cases hk : k = key
      · rw [Assoc.find?, if_pos hk] at hvalue
        exact Option.some.inj hvalue ▸ hk ▸ hfirst
      · rw [Assoc.find?, if_neg hk] at hvalue
        rw [heq] at hagree
        rw [← hsame key value hvalue]
        exact (ih hbetween hrest).mp hagree key value hvalue
    · intro hall
      have hfirst := hall k v (if_pos rfl)
      rw [mergeEntries]
      simp only [hfirst]
      refine (ih hbetween hrest).mpr fun key value hvalue => ?_
      have hne : k ≠ key := fun heq => hmissing (heq ▸ Assoc.mem_keys_of_find? hvalue)
      rw [hsame key value hvalue]
      exact hall key value (by rw [Assoc.find?, if_neg hne, hvalue])

/-- Under a key that does not name a type a merge leaves what merging that entry alone would. -/
theorem find?_mergeEntries_elim (htype : ¬NamesType keys key) (htarget : (Assoc.keys target).Nodup)
    (hsource : (Assoc.keys source).Nodup)
    (hagree : (mergeEntries keys path target source).conflict = none) :
    Assoc.find? (mergeEntries keys path target source).value key =
      (Assoc.find? source key).elim (Assoc.find? target key) fun value =>
        Assoc.find? (mergeEntry keys path target key value).value key := by
  induction source generalizing target with
  | nil =>
    rw [mergeEntries]
    rfl
  | cons entry rest ih =>
    obtain ⟨k, v⟩ := entry
    obtain ⟨hmissing, hrest⟩ := List.nodup_cons.mp hsource
    obtain ⟨-, heq⟩ := mergeEntries_cons hagree
    rw [heq] at hagree ⊢
    rw [ih (nodup_keys_mergeEntry htarget) hrest hagree, Assoc.find?]
    by_cases hk : k = key
    · subst hk
      rw [if_pos rfl, Assoc.find?_eq_none_iff.mpr hmissing]
      rfl
    · have hsame : Assoc.find? (mergeEntry keys path target k v).value key =
          Assoc.find? target key := find?_mergeEntry_other htarget htype hk
      rw [if_neg hk, hsame]
      cases Assoc.find? rest key with
      | none => rfl
      | some value => exact (mergeEntry_congr htype hsame).2

/-- A merge leaves nothing only of nothing. -/
theorem mergeEntries_eq_nil_iff (hagree : (mergeEntries keys path target source).conflict = none) :
    (mergeEntries keys path target source).value = [] ↔ target = [] ∧ source = [] := by
  cases source with
  | nil =>
    rw [mergeEntries]
    exact ⟨fun h => ⟨h, rfl⟩, And.left⟩
  | cons entry rest =>
    obtain ⟨key, value⟩ := entry
    obtain ⟨hfirst, heq⟩ := mergeEntries_cons hagree
    rw [heq] at hagree ⊢
    have hne := mergeEntries_keeps (I := fun t => t ≠ []) (fun _ _ _ _ h _ => mergeEntry_ne_nil h)
      hagree (mergeEntry_ne_nil hfirst)
    exact iff_of_false hne fun h => List.cons_ne_nil _ _ h.2

/-- Appends to a list of names those of another one that it does not have yet, in order. -/
def addNames (names more : List String) : List String :=
  more.foldl (fun names name => if name ∈ names then names else names ++ [name]) names

/-- A name is appended only if it is new. -/
theorem addNames_cons (names : List String) (name : String) (more : List String) :
    addNames names (name :: more) =
      addNames (if name ∈ names then names else names ++ [name]) more :=
  rfl

/-- Appending names does not repeat any. -/
theorem nodup_addNames {names : List String} (h : names.Nodup) (more : List String) :
    (addNames names more).Nodup := by
  induction more generalizing names with
  | nil => exact h
  | cons name rest ih =>
    rw [addNames_cons]
    split_ifs with hmem
    · exact ih h
    · exact ih (List.nodup_append_comm.mp (List.nodup_cons.mpr ⟨hmem, h⟩))

/-- Names that are all new are appended as they are. -/
theorem addNames_of_nodup {names more : List String} (h : (names ++ more).Nodup) :
    addNames names more = names ++ more := by
  induction more generalizing names with
  | nil => exact (List.append_nil _).symm
  | cons name rest ih =>
    have hnew : name ∉ names := fun hmem =>
      List.disjoint_of_nodup_append h hmem List.mem_cons_self
    rw [List.append_cons] at h ⊢
    rw [addNames_cons, if_neg hnew, ih h]

/-- A merge of tables keeps the names of the target and appends those that are new. -/
theorem keys_mergeEntries (hagree : (mergeEntries .names path target source).conflict = none) :
    Assoc.keys (mergeEntries .names path target source).value =
      addNames (Assoc.keys target) (Assoc.keys source) := by
  induction source generalizing target with
  | nil =>
    rw [mergeEntries]
    rfl
  | cons entry rest ih =>
    obtain ⟨key, value⟩ := entry
    obtain ⟨hfirst, heq⟩ := mergeEntries_cons hagree
    rw [heq] at hagree ⊢
    have hkeys := keys_mergeEntry (isOrdinary_names key).not_namesType hfirst
    simp only [← Assoc.mem_keys_iff_contains] at hkeys
    rw [ih hagree, hkeys]
    rfl

/-- Which names a merge of tables leaves depends on the names on both sides alone. -/
theorem keys_mergeEntries_congr {path' : SchemaPath}
    (hsource : Assoc.keys source = Assoc.keys source')
    (htarget : Assoc.keys target = Assoc.keys target')
    (hagree : (mergeEntries .names path target source).conflict = none)
    (hagree' : (mergeEntries .names path' target' source').conflict = none) :
    Assoc.keys (mergeEntries .names path target source).value =
      Assoc.keys (mergeEntries .names path' target' source').value := by
  rw [keys_mergeEntries hagree, keys_mergeEntries hagree', hsource, htarget]

/-! ### The values under one key -/

/-- A merge that does not stop makes what its target has become. -/
theorem result?_eq_some {merged : Merged Entries} {result : Entries} :
    merged.result? = some result ↔ merged.conflict = none ∧ merged.value = result := by
  rw [Merged.result?, Option.ite_none_right_eq_some, Option.some.injEq, Option.isNone_iff_eq_none]

/-- What a merge makes of the values that both sides have under a key, unless it stops there. -/
def unite (keys : Keys) (path : SchemaPath) (key : String) :
    Option Json → Option Json → Option (Option Json)
  | old, none => some old
  | none, some new => some (some new)
  | some (.obj old), some (.obj new) =>
    (mergeEntries (keys.below key) (path.child key) old new).result?.map fun entries =>
      some (.obj entries)
  | some old, some new =>
    if keys = .names then some (some new)
    else if key = "required" then some (some (unionRequired old new))
    else if mustAgree key && !old.same new then none
    else some (some new)

/-- Where the target has nothing under a key, the value of the source is taken over. -/
theorem none_unite (new : Option Json) : unite keys path key none new = some new := by
  cases new <;> rfl

/-- Where the source has nothing under it, the value of the target stays. -/
theorem unite_none (old : Option Json) : unite keys path key old none = some old := by
  cases old with
  | none => rfl
  | some value => cases value <;> rfl

/-- Values that are not both objects unite as names, required names or plain values do. -/
theorem unite_of_not_objects {old new : Json}
    (h : ∀ entries schema, old = .obj entries → new ≠ .obj schema) :
    unite keys path key (some old) (some new) =
      if keys = .names then some (some new)
      else if key = "required" then some (some (unionRequired old new))
      else if mustAgree key && !old.same new then none
      else some (some new) := by
  cases old with
  | obj entries =>
    cases new with
    | obj schema => exact absurd rfl (h entries schema rfl)
    | _ => rfl
  | _ => rfl

/-- Uniting two values is what merging an entry does under its key. -/
theorem unite_eq (htype : ¬NamesType keys key) :
    unite keys path key (Assoc.find? target key) (some value) =
      (mergeEntry keys path target key value).result?.map fun entries =>
        Assoc.find? entries key := by
  cases hold : Assoc.find? target key with
  | none =>
    rw [mergeEntry_of_none htype hold]
    exact (congrArg some (Assoc.find?_insert_self _ _ _)).symm
  | some old =>
    by_cases hobjects : ∃ entries new, old = .obj entries ∧ value = .obj new
    · obtain ⟨entries, new, rfl, rfl⟩ := hobjects
      rw [mergeEntry_objects htype hold, unite, Merged.result?, Merged.result?, Merged.map]
      split_ifs
      · exact (congrArg some (Assoc.find?_insert_self _ _ _)).symm
      · rfl
    · have hother : ∀ entries new, old = .obj entries → value ≠ .obj new :=
        fun entries new hentries hnew => hobjects ⟨entries, new, hentries, hnew⟩
      rw [unite_of_not_objects hother]
      cases keys with
      | names =>
        rw [mergeEntry_names hold hother, if_pos rfl]
        exact (congrArg some (Assoc.find?_insert_self _ _ _)).symm
      | keywords =>
        have hkeys : Keys.keywords ≠ Keys.names := by decide
        rw [mergeEntry_keywords htype hold hother, if_neg hkeys]
        unfold mergePlain
        split_ifs
        · exact (congrArg some (Assoc.find?_insert_self _ _ _)).symm
        · rfl
        · exact (congrArg some (Assoc.find?_insert_self _ _ _)).symm

/-- A merge leaves under each key what becomes of the values there. -/
theorem unite_of_result {result : Entries} (htarget : (Assoc.keys target).Nodup)
    (hsource : (Assoc.keys source).Nodup)
    (h : (mergeEntries keys path target source).result? = some result)
    (htype : ¬NamesType keys key) :
    unite keys path key (Assoc.find? target key) (Assoc.find? source key) =
      some (Assoc.find? result key) := by
  obtain ⟨hagree, rfl⟩ := result?_eq_some.mp h
  rw [find?_mergeEntries_elim htype htarget hsource hagree]
  cases hnew : Assoc.find? source key with
  | none => exact unite_none _
  | some new =>
    have hentry := (conflict_mergeEntries_iff htarget hsource).mp hagree key new hnew
    rw [unite_eq htype, result?_eq_some.mpr ⟨hentry, rfl⟩]
    rfl

/-- A merge succeeds if the values under every key can be united. -/
theorem exists_result_of_unite (htarget : (Assoc.keys target).Nodup)
    (hsource : (Assoc.keys source).Nodup)
    (h : ∀ key, ¬NamesType keys key → ∃ value,
      unite keys path key (Assoc.find? target key) (Assoc.find? source key) = some value) :
    ∃ result, (mergeEntries keys path target source).result? = some result := by
  refine ⟨_, result?_eq_some.mpr
    ⟨(conflict_mergeEntries_iff htarget hsource).mpr fun key new hnew => ?_, rfl⟩⟩
  by_cases htype : NamesType keys key
  · exact conflict_mergeEntry_of_namesType htype
  · obtain ⟨value, hvalue⟩ := h key htype
    rw [hnew, unite_eq htype] at hvalue
    obtain ⟨entries, hentries, -⟩ := Option.map_eq_some_iff.mp hvalue
    exact (result?_eq_some.mp hentries).1

end Merge

end SchemaClasses
