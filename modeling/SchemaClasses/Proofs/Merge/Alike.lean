import SchemaClasses.Proofs.Json.Alike
import SchemaClasses.Proofs.Merge.LookUp

/-!
# Merging alike schemas

Main statement (`Alike.merge`): if a merge of two schemas meets no disagreement, then neither does
the merge of two schemas like them, and what comes of it is alike.

Keywords are in the same order on both sides, so they are merged side by side (`mergeEntry_alike`).
Names are not, and there it counts that a merge joins the values under each name by itself
(`find?_mergeEntries`) and fails for a name only if that fails (`agree_of_names`).
-/

namespace SchemaClasses.Merge

open Json

/-! ### Types and references -/

section Types

variable {keys : Keys} {target target' : Entries} {key : String} {value value' : Json}
  {types types' values values' : List Json}

/-- Alike lists have the same alternatives. -/
theorem hasValue_eq (htypes : List.Forall₂ (Alike .keywords) types types')
    (hvalue : Alike keys value value') : hasValue types value = hasValue types' value' := by
  unfold hasValue
  induction htypes with
  | nil => rfl
  | cons htype _ ih => rw [List.any_cons, List.any_cons, htype.same_eq hvalue, ih]

/-- Appending alike values to alike lists gives alike lists. -/
theorem appendNew_alike (htypes : List.Forall₂ (Alike .keywords) types types')
    (hvalues : List.Forall₂ (Alike .keywords) values values') :
    List.Forall₂ (Alike .keywords) (appendNew types values) (appendNew types' values') := by
  induction hvalues generalizing types types' with
  | nil => exact htypes
  | cons hvalue _ ih =>
    rw [appendNew, appendNew, List.foldl_cons, List.foldl_cons]
    apply ih
    rw [hasValue_eq htypes hvalue]
    split_ifs
    · exact htypes
    · exact List.rel_append htypes (.cons hvalue .nil)

/-- Alike types have alike alternatives. -/
theorem alternatives_alike (h : Alike keys value value') (hkeys : keys = .keywords) :
    List.Forall₂ (Alike .keywords) (alternatives value) (alternatives value') := by
  cases value with
  | arr items =>
    obtain ⟨others, rfl, -⟩ := h.exists_arr
    exact alike_arr_iff.mp h
  | obj entries =>
    obtain ⟨others, rfl⟩ := h.exists_obj
    exact .cons (hkeys ▸ h) .nil
  | _ =>
    obtain rfl := h.eq_of_isAtom rfl
    exact .cons (.atom rfl) .nil

/-- Alike values are collected to alike lists. -/
theorem collect_alike (h : List.Forall₂ (Alike .keywords) values values') :
    List.Forall₂ (Alike .keywords) (collect values) (collect values') := by
  refine appendNew_alike .nil ?_
  induction h with
  | nil => exact .nil
  | cons hvalue _ ih =>
    rw [List.flatMap_cons, List.flatMap_cons]
    exact List.rel_append (alternatives_alike hvalue rfl) ih

/-- Alike lists of alternatives make alike types. -/
theorem typeOfAlternatives_alike (h : List.Forall₂ (Alike .keywords) types types') :
    Alike .keywords (typeOfAlternatives types) (typeOfAlternatives types') := by
  cases h with
  | nil => exact alike_arr_iff.mpr .nil
  | cons hfirst hrest =>
    cases hrest with
    | nil => exact hfirst
    | cons hsecond hrest => exact alike_arr_iff.mpr (.cons hfirst (.cons hsecond hrest))

/-- Alike schemas declare alike types. -/
theorem declared_alike (h : Alike .keywords (.obj target) (.obj target')) :
    List.Forall₂ (Alike .keywords) (declared target) (declared target') := by
  have hone : ∀ key, Keys.below .keywords key = .keywords →
      List.Forall₂ (Alike .keywords) (Assoc.find? target key).toList
        (Assoc.find? target' key).toList := by
    intro key hbelow
    rcases h.find?_cases key with ⟨hnone, hnone'⟩ | ⟨v, w, hv, hw, hlike⟩
    · rw [hnone, hnone']
      exact .nil
    · rw [hv, hw]
      exact .cons (hbelow ▸ hlike) .nil
  exact List.rel_append (hone typeKey (by decide)) (hone refKey (by decide))

/-- Unifying alike types with alike schemas gives alike schemas. -/
theorem unifyType_alike (htarget : Alike .keywords (.obj target) (.obj target'))
    (hkey : key = typeKey ∨ key = refKey) (hvalue : Alike (.under key) value value') :
    Alike .keywords (.obj (unifyType target key value)) (.obj (unifyType target' key value')) := by
  have hbelow : Keys.under key = .keywords := by
    rcases hkey with rfl | rfl <;> decide
  have hinsert : ∀ {v w : Json}, Alike (.under typeKey) v w → Alike .keywords
      (.obj (Assoc.insert (Assoc.swapErase (Assoc.swapErase target typeKey) refKey) typeKey v))
      (.obj (Assoc.insert (Assoc.swapErase (Assoc.swapErase target' typeKey) refKey) typeKey w)) :=
    ((htarget.swapErase typeKey).swapErase refKey).insert
  have hmerged := hinsert (typeOfAlternatives_alike (collect_alike
    (List.rel_append (declared_alike htarget) (.cons (hbelow ▸ hvalue) .nil))))
  unfold declared at hmerged
  unfold unifyType
  dsimp only
  rw [collect_append_singleton, collect_append_singleton]
  rcases htarget.find?_cases typeKey with ⟨htype, htype'⟩ | ⟨type, type', htype, htype', -⟩
  · rcases htarget.find?_cases refKey with ⟨href, href'⟩ | ⟨ref, ref', href, href', hlike⟩
    · simp only [htype, htype', href, href', Option.isNone_none, Bool.and_self, if_true]
      exact htarget.insert hvalue
    · simp only [htype, htype', href, href', Option.isNone_none, Option.isNone_some,
        Bool.and_false, Bool.true_and, Bool.false_eq_true, if_false, hlike.same_eq hvalue]
        at hmerged ⊢
      split_ifs
      · exact htarget
      · exact hmerged
  · simp only [htype, htype', Option.isNone_some, Bool.false_and, Bool.false_eq_true,
      if_false] at hmerged ⊢
    exact hmerged

end Types

/-! ### One entry -/

/-- Whether one merge agrees if another one does, and both leave alike entries behind then. -/
def MergedAlike (keys : Keys) (merged merged' : Merged Entries) : Prop :=
  merged.conflict = none → merged'.conflict = none ∧
    Alike keys (.obj merged.value) (.obj merged'.value)

/-- Whether merging an object keeps likeness. -/
def MergesAlike (new : Entries) : Prop :=
  ∀ {keys : Keys} {path : SchemaPath} {new' target target' : Entries},
    Alike keys (.obj new) (.obj new') → Alike keys (.obj target) (.obj target') →
    MergedAlike keys (mergeEntries keys path target new) (mergeEntries keys path target' new')

section Entry

variable {keys : Keys} {path : SchemaPath} {target target' : Entries} {key : String}
  {old old' value value' : Json}

/-- Alike values list the same required names. -/
theorem requiredNames_eq (h : Alike keys value value') :
    requiredNames value = requiredNames value' := by
  cases value with
  | arr items =>
    obtain ⟨others, rfl, -⟩ := h.exists_arr
    have hitems := alike_arr_iff.mp h
    change items.filterMap text? = others.filterMap text?
    clear h
    induction hitems with
    | nil => rfl
    | @cons item other _ _ hitem _ ih =>
      have htext : item.text? = other.text? := by
        cases item with
        | arr =>
          obtain ⟨_, rfl, -⟩ := hitem.exists_arr
          rfl
        | obj =>
          obtain ⟨_, rfl⟩ := hitem.exists_obj
          rfl
        | _ => rw [hitem.eq_of_isAtom rfl]
      rw [List.filterMap_cons, List.filterMap_cons, htext, ih]
  | obj entries =>
    obtain ⟨others, rfl⟩ := h.exists_obj
    rfl
  | _ => rw [h.eq_of_isAtom rfl]

/-- Merging alike plain entries into alike schemas gives alike schemas. -/
theorem mergePlain_alike (htarget : Alike .keywords (.obj target) (.obj target'))
    (hold : Alike (.under key) old old') (hvalue : Alike (.under key) value value') :
    MergedAlike .keywords (mergePlain path target key old value)
      (mergePlain path target' key old' value') := by
  intro hagree
  unfold mergePlain at hagree ⊢
  rw [hold.same_eq hvalue] at hagree ⊢
  split_ifs at hagree ⊢
  · refine ⟨rfl, htarget.insert ?_⟩
    rw [unionRequired, unionRequired, requiredNames_eq hold, requiredNames_eq hvalue]
    exact alike_texts _
  · exact ⟨rfl, htarget.insert hvalue⟩

/-- An entry is taken over where the target has nothing under its key. -/
theorem mergeEntry_of_none (htype : ¬NamesType keys key) (hnone : Assoc.find? target key = none) :
    mergeEntry keys path target key value = ⟨Assoc.insert target key value, none⟩ := by
  unfold mergeEntry
  cases value <;> simp only [if_neg htype, hnone]

/-- Of two schemas under a name that are not both objects the new one counts. -/
theorem mergeEntry_names (hold : Assoc.find? target key = some old)
    (hother : ∀ entries new, old = .obj entries → value ≠ .obj new) :
    mergeEntry .names path target key value = ⟨Assoc.insert target key value, none⟩ := by
  have htype : ¬NamesType .names key := nofun
  unfold mergeEntry
  cases value with
  | obj new =>
    cases old with
    | obj entries => exact absurd rfl (hother entries new rfl)
    | _ => simp only [if_neg htype, hold]
  | _ => simp only [if_neg htype]

/-- Where no objects meet, the value under a keyword is merged as a plain one. -/
theorem mergeEntry_keywords (htype : ¬NamesType .keywords key)
    (hold : Assoc.find? target key = some old)
    (hother : ∀ entries new, old = .obj entries → value ≠ .obj new) :
    mergeEntry .keywords path target key value = mergePlain path target key old value := by
  unfold mergeEntry
  cases value with
  | obj new =>
    cases old with
    | obj entries => exact absurd rfl (hother entries new rfl)
    | _ =>
      dsimp only
      rw [if_neg htype, hold]
  | _ =>
    dsimp only
    rw [if_neg htype, hold]

/-- Merging an entry keeps likeness if merging the objects in it does. -/
theorem mergeEntry_alike (hvalue : Alike (keys.below key) value value')
    (hbelow : ∀ new, value = .obj new → MergesAlike new)
    (htarget : Alike keys (.obj target) (.obj target')) :
    MergedAlike keys (mergeEntry keys path target key value)
      (mergeEntry keys path target' key value') := by
  by_cases htype : NamesType keys key
  · obtain ⟨rfl, hkey⟩ := id htype
    rw [mergeEntry_of_namesType htype, mergeEntry_of_namesType htype]
    exact fun _ => ⟨rfl, unifyType_alike htarget hkey hvalue⟩
  rcases htarget.find?_cases key with ⟨hnone, hnone'⟩ | ⟨old, old', hold, hold', hlike⟩
  · rw [mergeEntry_of_none htype hnone, mergeEntry_of_none htype hnone']
    exact fun _ => ⟨rfl, htarget.insert hvalue⟩
  by_cases hobjects : ∃ entries new, old = .obj entries ∧ value = .obj new
  · obtain ⟨entries, new, rfl, rfl⟩ := hobjects
    obtain ⟨entries', rfl⟩ := hlike.exists_obj
    obtain ⟨new', rfl⟩ := hvalue.exists_obj
    rw [mergeEntry_objects htype hold, mergeEntry_objects htype hold']
    intro hagree
    obtain ⟨hagree', hmerged⟩ := hbelow new rfl hvalue hlike hagree
    exact ⟨hagree', htarget.insert hmerged⟩
  · have hother : ∀ entries new, old = .obj entries → value ≠ .obj new :=
      fun entries new hentries hnew => hobjects ⟨entries, new, hentries, hnew⟩
    have hother' : ∀ entries new, old' = .obj entries → value' ≠ .obj new := by
      rintro entries new rfl rfl
      obtain ⟨_, hentries⟩ := hlike.symm.exists_obj
      obtain ⟨_, hnew⟩ := hvalue.symm.exists_obj
      exact hother _ _ hentries hnew
    cases keys with
    | names =>
      rw [mergeEntry_names hold hother, mergeEntry_names hold' hother']
      exact fun _ => ⟨rfl, htarget.insert hvalue⟩
    | keywords =>
      rw [mergeEntry_keywords htype hold hother, mergeEntry_keywords htype hold' hother']
      exact mergePlain_alike htarget hlike hvalue

end Entry

/-! ### All entries -/

section Names

variable {path : SchemaPath} {target source : Entries}

/-- Of two values that are not both objects the second one counts. -/
theorem joined_of_not_objects {keys : Keys} {name : String} {old new : Json}
    (h : ∀ entries schema, old = .obj entries → new ≠ .obj schema) :
    joined keys path name (some old) (some new) = some new := by
  cases old with
  | obj entries =>
    cases new with
    | obj schema => exact absurd rfl (h entries schema rfl)
    | _ => rfl
  | _ => rfl

/-- A merge of tables of schemas meets no disagreement if that of no two schemas under the same name
does. -/
theorem agree_of_names (hnodup : (Assoc.keys source).Nodup)
    (h : ∀ name old new, Assoc.find? target name = some (.obj old) →
      Assoc.find? source name = some (.obj new) →
      (mergeEntries .keywords (path.child name) old new).conflict = none) :
    (mergeEntries .names path target source).conflict = none := by
  induction source generalizing target with
  | nil => rfl
  | cons entry rest ih =>
    obtain ⟨name, value⟩ := entry
    obtain ⟨hmissing, hrest⟩ := List.nodup_cons.mp hnodup
    have htype : ¬NamesType .names name := nofun
    have hfirst : (mergeEntry .names path target name value).conflict = none := by
      cases hfind : Assoc.find? target name with
      | none => rw [mergeEntry_of_none htype hfind]
      | some old =>
        by_cases hobjects : ∃ entries new, old = .obj entries ∧ value = .obj new
        · obtain ⟨entries, new, rfl, rfl⟩ := hobjects
          rw [mergeEntry_objects htype hfind]
          exact h name entries new hfind (if_pos rfl)
        · rw [mergeEntry_names hfind fun entries new hentries hnew =>
            hobjects ⟨entries, new, hentries, hnew⟩]
    rw [mergeEntries]
    simp only [hfirst]
    refine ih hrest fun other old new hold hnew => ?_
    have hne : name ≠ other := by
      rintro rfl
      exact hmissing (Assoc.mem_keys_of_find? hnew)
    rw [find?_mergeEntry_of_ne htype hne] at hold
    exact h other old new hold (by rw [Assoc.find?, if_neg hne, hnew])

end Names

/-- Merging tables of schemas keeps likeness if merging the schemas in them does. -/
theorem mergesAlike_names {source : Entries}
    (ih : ∀ entry ∈ source, ∀ new, entry.2 = .obj new → MergesAlike new) {path : SchemaPath}
    {source' target target' : Entries} (hsource : Alike .names (.obj source) (.obj source'))
    (htarget : Alike .names (.obj target) (.obj target')) :
    MergedAlike .names (mergeEntries .names path target source)
      (mergeEntries .names path target' source') := by
  intro hagree
  -- two schemas under the same name on both sides
  have hbelow : ∀ {name : String} {old old' new new' : Entries},
      Assoc.find? target name = some (.obj old) → Assoc.find? target' name = some (.obj old') →
      Assoc.find? source name = some (.obj new) → Assoc.find? source' name = some (.obj new') →
      (mergeEntries .keywords (path.child name) old' new').conflict = none ∧
        Alike .keywords (.obj (mergeEntries .keywords (path.child name) old new).value)
          (.obj (mergeEntries .keywords (path.child name) old' new').value) := by
    intro name old old' new new' hold hold' hnew hnew'
    exact ih (name, .obj new) (Assoc.mem_of_find? hnew) new rfl (hsource.of_find? hnew hnew')
      (htarget.of_find? hold hold')
      (agree_of_objects (isOrdinary_names name) htarget.nodup hagree hold hnew)
  have hagree' : (mergeEntries .names path target' source').conflict = none := by
    refine agree_of_names hsource.symm.nodup fun name old' new' hold' hnew' => ?_
    obtain ⟨old, hold, hlike⟩ := htarget.symm.exists_find? hold'
    obtain ⟨new, hnew, hlike'⟩ := hsource.symm.exists_find? hnew'
    obtain ⟨_, rfl⟩ := hlike.exists_obj
    obtain ⟨_, rfl⟩ := hlike'.exists_obj
    exact (hbelow hold hold' hnew hnew').1
  refine ⟨hagree', alike_of_find?_cases (nodup_keys_mergeEntries hagree htarget.nodup)
    (nodup_keys_mergeEntries hagree' htarget.symm.nodup) nofun fun name => ?_⟩
  rw [find?_mergeEntries (isOrdinary_names name) htarget.nodup hsource.nodup hagree,
    find?_mergeEntries (isOrdinary_names name) htarget.symm.nodup hsource.symm.nodup hagree']
  rcases hsource.find?_cases name with ⟨hnone, hnone'⟩ | ⟨new, new', hnew, hnew', hlike⟩
  · rw [hnone, hnone', joined_none, joined_none]
    exact htarget.find?_cases name
  rcases htarget.find?_cases name with ⟨hnone, hnone'⟩ | ⟨old, old', hold, hold', hlike'⟩
  · rw [hnone, hnone', none_joined, none_joined]
    exact .inr ⟨new, new', hnew, hnew', hlike⟩
  by_cases hobjects : ∃ entries schema, old = .obj entries ∧ new = .obj schema
  · obtain ⟨entries, schema, rfl, rfl⟩ := hobjects
    obtain ⟨entries', rfl⟩ := hlike'.exists_obj
    obtain ⟨schema', rfl⟩ := hlike.exists_obj
    rw [hold, hold', hnew, hnew']
    exact .inr ⟨_, _, rfl, rfl, (hbelow hold hold' hnew hnew').2⟩
  · have hother : ∀ entries schema, old = .obj entries → new ≠ .obj schema :=
      fun entries schema hentries hschema => hobjects ⟨entries, schema, hentries, hschema⟩
    have hother' : ∀ entries schema, old' = .obj entries → new' ≠ .obj schema := by
      rintro entries schema rfl rfl
      obtain ⟨_, hentries⟩ := hlike'.symm.exists_obj
      obtain ⟨_, hschema⟩ := hlike.symm.exists_obj
      exact hother _ _ hentries hschema
    rw [hold, hold', hnew, hnew', joined_of_not_objects hother, joined_of_not_objects hother']
    exact .inr ⟨new, new', rfl, rfl, hlike⟩

/-- Merging schemas keeps likeness if merging the objects in them does: keywords are merged side by
side. -/
theorem mergesAlike_keywords {source : Entries}
    (ih : ∀ entry ∈ source, ∀ new, entry.2 = .obj new → MergesAlike new) {path : SchemaPath}
    {source' target target' : Entries} (hsource : Alike .keywords (.obj source) (.obj source'))
    (htarget : Alike .keywords (.obj target) (.obj target')) :
    MergedAlike .keywords (mergeEntries .keywords path target source)
      (mergeEntries .keywords path target' source') := by
  induction source generalizing source' target target' with
  | nil =>
    obtain rfl : source' = [] := List.map_eq_nil_iff.mp hsource.keys_eq.symm
    exact fun _ => ⟨rfl, htarget⟩
  | cons entry rest ihrest =>
    obtain ⟨key, value⟩ := entry
    obtain ⟨value', rest', rfl, hvalue, hrest⟩ := hsource.exists_cons
    intro hagree
    obtain ⟨hfirst, heq⟩ := mergeEntries_cons hagree
    have hvalue' : Alike (Keys.below .keywords key) value value' := hvalue
    obtain ⟨hfirst', hbetween⟩ := mergeEntry_alike hvalue'
      (ih (key, value) List.mem_cons_self) htarget hfirst
    have heq' : mergeEntries .keywords path target' ((key, value') :: rest') =
        mergeEntries .keywords path (mergeEntry .keywords path target' key value').value
          rest' := by
      rw [mergeEntries]
      simp only [hfirst']
    rw [heq] at hagree ⊢
    rw [heq']
    exact ihrest (fun entry hentry => ih entry (List.mem_cons_of_mem _ hentry)) hrest hbetween
      hagree

/-- Merging keeps likeness. -/
theorem mergesAlike (source : Json) : ∀ new, source = .obj new → MergesAlike new := by
  induction source using Json.induction with
  | obj entries ih =>
    intro new hnew keys path new' target target' hsource htarget
    obtain rfl := Json.obj.inj hnew
    cases keys with
    | keywords => exact mergesAlike_keywords ih hsource htarget
    | names => exact mergesAlike_names ih hsource htarget
  | _ =>
    intro new hnew
    cases hnew

end SchemaClasses.Merge

namespace SchemaClasses

/-- Merges of alike schemas agree alike and leave alike schemas. -/
theorem Json.Alike.merge {target target' source source' : Entries} {path : SchemaPath}
    (htarget : Alike .keywords (.obj target) (.obj target'))
    (hsource : Alike .keywords (.obj source) (.obj source'))
    (hagree : (merge target source path).conflict = none) :
    (merge target' source' path).conflict = none ∧
      Alike .keywords (.obj (merge target source path).value)
        (.obj (merge target' source' path).value) :=
  Merge.mergesAlike (.obj source) source rfl hsource htarget hagree

end SchemaClasses
