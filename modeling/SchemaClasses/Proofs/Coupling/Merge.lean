import SchemaClasses.Proofs.Coupling.Basic
import SchemaClasses.Proofs.Merge.Separate

/-!
# Merging coupled schemas

Main statement (`CoupledSchemas.merge`): merges of coupled schemas agree on both sides or on
neither, and what they leave is coupled.

Keywords need not come in the same order on both sides, so nothing is merged side by side here:
each key is looked at by itself. Where coupled values stand under a key (`CoupledAt`), merging one
entry leaves coupled values there (`leavesCoupled_mergeEntry`), and so does a whole merge
(`CoupledAt.mergeEntries`). The heads are left to the coupling.
-/

namespace SchemaClasses

open Merge Json
open Flatten (isOn)

/-- Whether merging objects that are coupled with these agrees alike and leaves coupled objects. -/
def MergesCoupled (coupling : Coupling) (new : Entries) : Prop :=
  ∀ (path : SchemaPath) {keys : Keys} {new' target target' : Entries},
    Coupled coupling keys (.obj new) (.obj new') →
    Coupled coupling keys (.obj target) (.obj target') →
    ((mergeEntries keys path target new).conflict = none ↔
      (mergeEntries keys path target' new').conflict = none) ∧
    ((mergeEntries keys path target new).conflict = none →
      Coupled coupling keys (.obj (mergeEntries keys path target new).value)
        (.obj (mergeEntries keys path target' new').value))

/-- Whether coupled values stand under a key on both sides, or nothing on either. -/
def CoupledAt (coupling : Coupling) (keys : Keys) (key : String) (entries others : Entries) :
    Prop :=
  (Assoc.find? entries key = none ∧ Assoc.find? others key = none) ∨
    ∃ value other, Assoc.find? entries key = some value ∧ Assoc.find? others key = some other ∧
      Coupled coupling (keys.below key) value other

/-- Whether two merges agree alike and leave coupled values under a key. -/
def LeavesCoupled (coupling : Coupling) (keys : Keys) (key : String)
    (merged merged' : Merged Entries) : Prop :=
  (merged.conflict = none ↔ merged'.conflict = none) ∧
    (merged.conflict = none → ∃ value value', Assoc.find? merged.value key = some value ∧
      Assoc.find? merged'.value key = some value' ∧
      Coupled coupling (keys.below key) value value')

/-! ### One entry -/

section Entry

variable {coupling : Coupling} {keys : Keys} {target target' : Entries} {key : String}
  {value value' : Json}

/-- Coupled values list the same required names. -/
theorem Coupled.requiredNames_eq (h : Coupled coupling keys value value') :
    requiredNames value = requiredNames value' := by
  rcases h.cases_kind with ⟨-, rfl⟩ | ⟨items, others, rfl, rfl, hitems⟩ | ⟨_, _, rfl, rfl⟩
  · rfl
  · change items.filterMap text? = others.filterMap text?
    clear h
    induction hitems with
    | nil => rfl
    | @cons item other _ _ hitem _ ih =>
      have htext : item.text? = other.text? := by
        rcases hitem.cases_kind with ⟨-, rfl⟩ | ⟨_, _, rfl, rfl, -⟩ | ⟨_, _, rfl, rfl⟩ <;> rfl
      rw [List.filterMap_cons, List.filterMap_cons, htext, ih]
  · rfl

/-- Keywords on which the sides must agree are among those whose values are compared. -/
theorem mem_comparedKeywords (h : mustAgree key) : key ∈ comparedKeywords := by
  rw [mustAgree, Bool.or_eq_true, decide_eq_true_iff, decide_eq_true_iff] at h
  rcases h with rfl | rfl <;> decide

/-- Putting in coupled values agrees and leaves them there. -/
theorem leavesCoupled_insert (h : Coupled coupling (keys.below key) value value') :
    LeavesCoupled coupling keys key ⟨Assoc.insert target key value, none⟩
      ⟨Assoc.insert target' key value', none⟩ :=
  ⟨Iff.rfl, fun _ => ⟨value, value', Assoc.find?_insert_self _ _ _, Assoc.find?_insert_self _ _ _,
    h⟩⟩

/-- Values that are compared are the same on both sides, so they disagree alike. -/
theorem leavesCoupled_mergePlain (path : SchemaPath) {old old' : Json}
    (hold : Coupled coupling (Keys.under key) old old')
    (hvalue : Coupled coupling (Keys.under key) value value')
    (hcompared : key ∈ comparedKeywords → old = old' ∧ value = value') :
    LeavesCoupled coupling .keywords key (mergePlain path target key old value)
      (mergePlain path target' key old' value') := by
  unfold mergePlain
  by_cases hrequired : key = "required"
  · rw [if_pos hrequired, if_pos hrequired]
    refine leavesCoupled_insert ?_
    rw [unionRequired, unionRequired, hold.requiredNames_eq, hvalue.requiredNames_eq]
    exact .texts _
  rw [if_neg hrequired, if_neg hrequired]
  by_cases hagree : mustAgree key
  · obtain ⟨rfl, rfl⟩ := hcompared (mem_comparedKeywords hagree)
    by_cases hdiffers : (mustAgree key && !old.same value)
    · rw [if_pos hdiffers, if_pos hdiffers]
      exact ⟨iff_of_false (Option.some_ne_none _) (Option.some_ne_none _),
        fun hnone => absurd hnone (Option.some_ne_none _)⟩
    · rw [if_neg hdiffers, if_neg hdiffers]
      exact leavesCoupled_insert hvalue
  · rw [Bool.not_eq_true] at hagree
    rw [hagree, Bool.false_and, Bool.false_and, if_neg Bool.false_ne_true,
      if_neg Bool.false_ne_true]
    exact leavesCoupled_insert hvalue

/-- Merging coupled values into coupled ones agrees alike and leaves coupled values. -/
theorem leavesCoupled_mergeEntry (path : SchemaPath) (htype : ¬NamesType keys key)
    (htarget : CoupledAt coupling keys key target target')
    (hvalue : Coupled coupling (keys.below key) value value')
    (hcompared : keys = .keywords → key ∈ comparedKeywords →
      Assoc.find? target key = Assoc.find? target' key ∧ value = value')
    (hbelow : ∀ new, value = .obj new → MergesCoupled coupling new) :
    LeavesCoupled coupling keys key (mergeEntry keys path target key value)
      (mergeEntry keys path target' key value') := by
  rcases htarget with ⟨hnone, hnone'⟩ | ⟨old, old', hold, hold', hcoupled⟩
  · rw [mergeEntry_of_none htype hnone, mergeEntry_of_none htype hnone']
    exact leavesCoupled_insert hvalue
  by_cases hobjects : ∃ entries new, old = .obj entries ∧ value = .obj new
  · obtain ⟨entries, new, rfl, rfl⟩ := hobjects
    obtain ⟨entries', rfl⟩ := hcoupled.exists_obj
    obtain ⟨new', rfl⟩ := hvalue.exists_obj
    rw [mergeEntry_objects htype hold, mergeEntry_objects htype hold']
    obtain ⟨hiff, hmerged⟩ := hbelow new rfl (path.child key) hvalue hcoupled
    exact ⟨hiff, fun hagree => ⟨_, _, Assoc.find?_insert_self _ _ _, Assoc.find?_insert_self _ _ _,
      hmerged hagree⟩⟩
  · have hother : ∀ entries new, old = .obj entries → value ≠ .obj new :=
      fun entries new hentries hnew => hobjects ⟨entries, new, hentries, hnew⟩
    have hother' : ∀ entries new, old' = .obj entries → value' ≠ .obj new := by
      rintro entries new rfl rfl
      obtain ⟨_, hentries⟩ := hcoupled.exists_obj'
      obtain ⟨_, hnew⟩ := hvalue.exists_obj'
      exact hother _ _ hentries hnew
    cases keys with
    | names =>
      rw [mergeEntry_names hold hother, mergeEntry_names hold' hother']
      exact leavesCoupled_insert hvalue
    | keywords =>
      rw [mergeEntry_keywords htype hold hother, mergeEntry_keywords htype hold' hother']
      refine leavesCoupled_mergePlain path hcoupled hvalue fun hkey => ?_
      obtain ⟨hsame, heq⟩ := hcompared rfl hkey
      exact ⟨Option.some.inj (hold.symm.trans (hsame.trans hold')), heq⟩

end Entry

/-! ### One key of many -/

section Key

variable {coupling : Coupling} {keys : Keys} {path : SchemaPath} {key : String}
  {source source' target target' : Entries}

/-- Merges agree alike if that is so for each key by itself. -/
theorem conflict_mergeEntries_congr (htarget : (Assoc.keys target).Nodup)
    (htarget' : (Assoc.keys target').Nodup) (hsource : (Assoc.keys source).Nodup)
    (hsource' : (Assoc.keys source').Nodup)
    (h : ∀ key, (∀ value, Assoc.find? source key = some value →
        (mergeEntry keys path target key value).conflict = none) ↔
      ∀ value, Assoc.find? source' key = some value →
        (mergeEntry keys path target' key value).conflict = none) :
    (mergeEntries keys path target source).conflict = none ↔
      (mergeEntries keys path target' source').conflict = none := by
  rw [conflict_mergeEntries_iff htarget hsource, conflict_mergeEntries_iff htarget' hsource']
  exact forall_congr' h

variable (hsource : CoupledAt coupling keys key source source')
  (hentry : ∀ value value', Assoc.find? source key = some value →
    Assoc.find? source' key = some value' → Coupled coupling (keys.below key) value value' →
    LeavesCoupled coupling keys key (mergeEntry keys path target key value)
      (mergeEntry keys path target' key value'))

include hsource hentry

/-- Where coupled values stand under a key, or none, merging them agrees on both sides or on
neither. -/
theorem CoupledAt.agree_iff :
    (∀ value, Assoc.find? source key = some value →
        (mergeEntry keys path target key value).conflict = none) ↔
      ∀ value, Assoc.find? source' key = some value →
        (mergeEntry keys path target' key value).conflict = none := by
  rcases hsource with ⟨hnone, hnone'⟩ | ⟨value, value', hvalue, hvalue', hcoupled⟩
  · simp only [hnone, hnone', reduceCtorEq, false_imp_iff, implies_true]
  · simp only [hvalue, hvalue', Option.some.injEq, forall_eq']
    exact (hentry value value' hvalue hvalue' hcoupled).1

/-- A whole merge leaves coupled values under a key, or none, if merging its entry does. -/
theorem CoupledAt.mergeEntries (htype : ¬NamesType keys key)
    (htarget : CoupledAt coupling keys key target target') (hnodup : (Assoc.keys target).Nodup)
    (hnodup' : (Assoc.keys target').Nodup) (hnew : (Assoc.keys source).Nodup)
    (hnew' : (Assoc.keys source').Nodup)
    (hagree : (mergeEntries keys path target source).conflict = none)
    (hagree' : (mergeEntries keys path target' source').conflict = none) :
    CoupledAt coupling keys key (mergeEntries keys path target source).value
      (mergeEntries keys path target' source').value := by
  unfold CoupledAt
  rw [find?_mergeEntries_elim htype hnodup hnew hagree,
    find?_mergeEntries_elim htype hnodup' hnew' hagree']
  rcases hsource with ⟨hnone, hnone'⟩ | ⟨value, value', hvalue, hvalue', hcoupled⟩
  · rw [hnone, hnone']
    exact htarget
  · rw [hvalue, hvalue']
    exact .inr ((hentry value value' hvalue hvalue' hcoupled).2
      ((conflict_mergeEntries_iff hnodup hnew).mp hagree key value hvalue))

end Key

/-! ### Tables -/

/-- Merging coupled tables agrees alike and leaves coupled tables if that is so for the schemas in
them. -/
theorem mergesCoupled_table {coupling : Coupling} {source : Entries}
    (ih : ∀ entry ∈ source, ∀ new, entry.2 = .obj new → MergesCoupled coupling new)
    {path : SchemaPath} {source' target target' : Entries}
    (hsource : Coupled coupling .names (.obj source) (.obj source'))
    (htarget : Coupled coupling .names (.obj target) (.obj target')) :
    ((mergeEntries .names path target source).conflict = none ↔
      (mergeEntries .names path target' source').conflict = none) ∧
    ((mergeEntries .names path target source).conflict = none →
      Coupled coupling .names (.obj (mergeEntries .names path target source).value)
        (.obj (mergeEntries .names path target' source').value)) := by
  have hnodup := (coupled_table_iff.mp htarget).1
  have hnodup' : (Assoc.keys target').Nodup := htarget.keys_eq ▸ hnodup
  have hnew := (coupled_table_iff.mp hsource).1
  have hnew' : (Assoc.keys source').Nodup := hsource.keys_eq ▸ hnew
  have htype : ∀ name, ¬NamesType .names name := fun name => (isOrdinary_names name).not_namesType
  have hentry : ∀ name value value', Assoc.find? source name = some value →
      Assoc.find? source' name = some value' → Coupled coupling .keywords value value' →
      LeavesCoupled coupling .names name (mergeEntry .names path target name value)
        (mergeEntry .names path target' name value') :=
    fun name value value' hvalue _ hcoupled =>
      leavesCoupled_mergeEntry path (htype name) (htarget.find?_name name) hcoupled
        (fun h => by cases h) fun new heq => ih _ (Assoc.mem_of_find? hvalue) new heq
  have hat : ∀ name, CoupledAt coupling .names name source source' := hsource.find?_name
  have hiff := conflict_mergeEntries_congr hnodup hnodup' hnew hnew' fun name =>
    (hat name).agree_iff (hentry name)
  refine ⟨hiff, fun hagree => ?_⟩
  have hagree' := hiff.mp hagree
  refine .table (nodup_keys_mergeEntries hagree hnodup)
    (keys_mergeEntries_congr hsource.keys_eq htarget.keys_eq hagree hagree') ?_
  intro name merged merged' hmerged hmerged'
  rcases (hat name).mergeEntries (hentry name) (htype name) (htarget.find?_name name) hnodup hnodup'
    hnew hnew' hagree hagree' with ⟨hnone, -⟩ | ⟨left, right, hleft, hright, hcoupled⟩
  · cases hmerged.symm.trans hnone
  · obtain rfl := Option.some.inj (hmerged.symm.trans hleft)
    obtain rfl := Option.some.inj (hmerged'.symm.trans hright)
    exact hcoupled

/-! ### Schemas -/

section Schemas

variable {coupling : Coupling} {path : SchemaPath} {source source' target target' : Entries}
  {key : String} {value : Json}

/-- A switch is merged like any ordinary keyword. -/
theorem isOrdinary_of_mem_switches (h : key ∈ switches) : IsOrdinary .keywords key := by
  have hall : ∀ key ∈ switches, IsOrdinary .keywords key := by decide
  exact hall key h

/-- Keywords whose values are compared name no type. -/
theorem not_namesType_of_mem_compared (h : key ∈ comparedKeywords) :
    ¬NamesType .keywords key := by
  have hall : ∀ key ∈ comparedKeywords, ¬NamesType .keywords key := by decide
  exact hall key h

/-- Switches count. -/
theorem mem_counted_of_mem_switches (h : key ∈ switches) : key ∈ countedKeywords := by
  have hall : ∀ key ∈ switches, key ∈ countedKeywords := by decide
  exact hall key h

/-- Keywords whose values are compared count. -/
theorem mem_counted_of_mem_compared (h : key ∈ comparedKeywords) : key ∈ countedKeywords := by
  have hall : ∀ key ∈ comparedKeywords, key ∈ countedKeywords := by decide
  exact hall key h

/-- What is not set apart names no type. -/
theorem Coupling.not_namesType (htype : typeKey ∈ coupling.apart) (href : refKey ∈ coupling.apart)
    (hkey : key ∉ coupling.apart) : ¬NamesType .keywords key := by
  rintro ⟨-, rfl | rfl⟩
  · exact hkey htype
  · exact hkey href

/-- What a lawful coupling does not set apart names no type. -/
theorem Coupling.Lawful.not_namesType (hlawful : coupling.Lawful) (hkey : key ∉ coupling.apart) :
    ¬NamesType .keywords key :=
  Coupling.not_namesType hlawful.type_mem hlawful.ref_mem hkey

/-- Values that are nothing do not disagree. -/
theorem conflict_mergeEntry_null (htype : ¬NamesType .keywords key)
    (hold : ∀ old, Assoc.find? target key = some old → old = .null)
    (hkey : key ∉ comparedKeywords) :
    (mergeEntry .keywords path target key .null).conflict = none := by
  cases hfind : Assoc.find? target key with
  | none => rw [mergeEntry_of_none htype hfind]
  | some old =>
    have hagree : mustAgree key = false :=
      Bool.eq_false_iff.mpr fun h => hkey (mem_comparedKeywords h)
    rw [hold old hfind] at hfind
    rw [mergeEntry_keywords htype hfind fun _ _ h => by cases h]
    unfold mergePlain
    rw [hagree, Bool.false_and]
    split_ifs <;> first | rfl | contradiction

/-- What is set apart does not disagree. -/
theorem Coupling.Lawful.conflict_apart (hlawful : coupling.Lawful)
    (hsource : coupling.heads source source') (htarget : coupling.heads target target')
    (hkey : key ∈ coupling.apart) :
    (∀ value, Assoc.find? source key = some value →
      (mergeEntry .keywords path target key value).conflict = none) ∧
    ∀ value, Assoc.find? source' key = some value →
      (mergeEntry .keywords path target' key value).conflict = none := by
  by_cases htype : NamesType .keywords key
  · exact ⟨fun _ _ => conflict_mergeEntry_of_namesType htype,
      fun _ _ => conflict_mergeEntry_of_namesType htype⟩
  have hname : ¬(key = typeKey ∨ key = refKey) := fun h => htype ⟨rfl, h⟩
  have hnull := hlawful.null hsource key hkey hname
  have hnull' := hlawful.null htarget key hkey hname
  have hother : key ∉ comparedKeywords := fun hmem =>
    hlawful.counted key (mem_counted_of_mem_compared hmem) hkey
  constructor
  · intro value hvalue
    rw [hnull.1 value hvalue]
    exact conflict_mergeEntry_null htype hnull'.1 hother
  · intro value hvalue
    rw [hnull.2 value hvalue]
    exact conflict_mergeEntry_null htype hnull'.2 hother

/-- Whether an object stands under a key. -/
def hasObject (schema : Entries) (key : String) : Bool :=
  (Assoc.find? schema key).any isObject

/-- Coupled schemas have entries, and objects, under the same keywords that are not set apart. -/
theorem CoupledSchemas.contains_eq (h : CoupledSchemas coupling source source')
    (hkey : key ∉ coupling.apart) :
    Assoc.contains source key = Assoc.contains source' key ∧
      hasObject source key = hasObject source' key := by
  unfold Assoc.contains hasObject
  rcases h.find?_cases key hkey with ⟨hnone, hnone'⟩ | ⟨value, value', hvalue, hvalue', hcoupled⟩
  · rw [hnone, hnone']
    exact ⟨rfl, rfl⟩
  · rw [hvalue, hvalue']
    refine ⟨rfl, ?_⟩
    rcases hcoupled.cases_kind with ⟨-, rfl⟩ | ⟨_, _, rfl, rfl, -⟩ | ⟨_, _, rfl, rfl⟩ <;> rfl

/-- A switch is on after a merge if the source turns it on, or if objects stand on both sides and
one of them does. -/
theorem isOn_mergeEntries (hkey : key ∈ switches) (htarget : (Assoc.keys target).Nodup)
    (hsource : (Assoc.keys source).Nodup)
    (hagree : (mergeEntries .keywords path target source).conflict = none) :
    isOn (mergeEntries .keywords path target source).value key =
      if !Assoc.contains source key then isOn target key
      else if hasObject target key && hasObject source key then isOn target key || isOn source key
      else isOn source key := by
  have hordinary := isOrdinary_of_mem_switches hkey
  have hfind := find?_mergeEntries hordinary htarget hsource hagree
  unfold isOn Assoc.contains hasObject
  rw [hfind]
  cases hnew : Assoc.find? source key with
  | none =>
    rw [joined_none]
    rfl
  | some new =>
    cases hold : Assoc.find? target key with
    | none =>
      rw [none_joined]
      rfl
    | some old =>
      by_cases hobjects : ∃ entries schema, old = .obj entries ∧ new = .obj schema
      · obtain ⟨entries, schema, rfl, rfl⟩ := hobjects
        have hbelow := agree_of_objects hordinary htarget hagree hold hnew
        change (!(mergeEntries _ _ entries schema).value.isEmpty) =
          (!entries.isEmpty || !schema.isEmpty)
        rw [Bool.eq_iff_iff, Bool.or_eq_true]
        simp only [Bool.not_eq_true', List.isEmpty_eq_false_iff, ne_eq,
          mergeEntries_eq_nil_iff hbelow]
        exact not_and_or
      · rw [joined_of_not_objects fun entries schema hentries hschema =>
          hobjects ⟨entries, schema, hentries, hschema⟩]
        have hother : ¬(old.isObject && new.isObject) := by
          rw [Bool.and_eq_true]
          rintro ⟨hold, hnew⟩
          obtain ⟨entries, rfl⟩ := exists_of_isObject hold
          obtain ⟨schema, rfl⟩ := exists_of_isObject hnew
          exact hobjects ⟨entries, schema, rfl, rfl⟩
        exact (if_neg hother).symm

/-- Merging coupled schemas agrees alike and leaves coupled schemas if that is so for the objects
in them. -/
theorem mergesCoupled_schema (hlawful : coupling.Lawful)
    (ih : ∀ entry ∈ source, ∀ new, entry.2 = .obj new → MergesCoupled coupling new)
    (hsource : CoupledSchemas coupling source source')
    (htarget : CoupledSchemas coupling target target') :
    ((mergeEntries .keywords path target source).conflict = none ↔
      (mergeEntries .keywords path target' source').conflict = none) ∧
    ((mergeEntries .keywords path target source).conflict = none →
      CoupledSchemas coupling (mergeEntries .keywords path target source).value
        (mergeEntries .keywords path target' source').value) := by
  have hentry : ∀ key ∉ coupling.apart, ∀ value value', Assoc.find? source key = some value →
      Assoc.find? source' key = some value' → Coupled coupling (.under key) value value' →
      LeavesCoupled coupling .keywords key (mergeEntry .keywords path target key value)
        (mergeEntry .keywords path target' key value') := by
    intro key hkey value value' hvalue hvalue' hcoupled
    refine leavesCoupled_mergeEntry path (hlawful.not_namesType hkey) (htarget.find?_cases key hkey)
      hcoupled (fun _ hmem => ?_) fun new heq => ih _ (Assoc.mem_of_find? hvalue) new heq
    have hsame := hsource.compared key hmem
    rw [hvalue, hvalue'] at hsame
    exact ⟨htarget.compared key hmem, Option.some.inj hsame⟩
  have hat : ∀ key ∉ coupling.apart, CoupledAt coupling .keywords key source source' :=
    hsource.find?_cases
  have hiff : (mergeEntries .keywords path target source).conflict = none ↔
      (mergeEntries .keywords path target' source').conflict = none := by
    refine conflict_mergeEntries_congr htarget.nodup htarget.nodup' hsource.nodup hsource.nodup'
      fun key => ?_
    by_cases hkey : key ∈ coupling.apart
    · obtain ⟨hagree, hagree'⟩ := hlawful.conflict_apart hsource.heads htarget.heads hkey
      exact iff_of_true hagree hagree'
    · exact (hat key hkey).agree_iff (hentry key hkey)
  refine ⟨hiff, fun hagree => ?_⟩
  have hagree' := hiff.mp hagree
  refine ⟨nodup_keys_mergeEntries hagree htarget.nodup,
    nodup_keys_mergeEntries hagree' htarget.nodup',
    hlawful.merge htarget.nodup htarget.nodup' hsource.nodup hsource.nodup' htarget.heads
      hsource.heads hagree hagree', fun key hkey => ?_, fun key hkey => ?_, fun key hkey => ?_⟩
  · have hcounted := fun h => hlawful.counted key (mem_counted_of_mem_switches hkey) h
    rw [isOn_mergeEntries hkey htarget.nodup hsource.nodup hagree,
      isOn_mergeEntries hkey htarget.nodup' hsource.nodup' hagree', htarget.switches key hkey,
      hsource.switches key hkey, (hsource.contains_eq hcounted).1, (hsource.contains_eq hcounted).2,
      (htarget.contains_eq hcounted).2]
  · have htype := not_namesType_of_mem_compared hkey
    rw [find?_mergeEntries_elim htype htarget.nodup hsource.nodup hagree,
      find?_mergeEntries_elim htype htarget.nodup' hsource.nodup' hagree',
      hsource.compared key hkey, htarget.compared key hkey]
    cases Assoc.find? source' key with
    | none => rfl
    | some value => exact (mergeEntry_congr htype (htarget.compared key hkey)).2
  · exact (hat key hkey).mergeEntries (hentry key hkey) (hlawful.not_namesType hkey)
      (htarget.find?_cases key hkey) htarget.nodup htarget.nodup' hsource.nodup hsource.nodup'
      hagree hagree'

/-- Merging coupled objects agrees alike and leaves coupled objects. -/
theorem mergesCoupled (hlawful : coupling.Lawful) (source : Json) :
    ∀ new, source = .obj new → MergesCoupled coupling new := by
  induction source using Json.induction with
  | obj entries ih =>
    intro new hnew path keys new' target target' hsource htarget
    obtain rfl := Json.obj.inj hnew
    cases keys with
    | names => exact mergesCoupled_table ih hsource htarget
    | keywords =>
      rw [coupled_schema_iff] at hsource htarget ⊢
      exact mergesCoupled_schema hlawful ih hsource htarget
  | _ =>
    intro new hnew
    cases hnew

/-- Merges of coupled schemas agree alike and leave coupled schemas. -/
theorem CoupledSchemas.merge (hlawful : coupling.Lawful)
    (htarget : CoupledSchemas coupling target target')
    (hsource : CoupledSchemas coupling source source') :
    ((merge target source path).conflict = none ↔ (merge target' source' path).conflict = none) ∧
      ((merge target source path).conflict = none →
        CoupledSchemas coupling (merge target source path).value
          (merge target' source' path).value) :=
  mergesCoupled_schema hlawful (fun _ _ new _ => mergesCoupled hlawful (.obj new) new rfl) hsource
    htarget

end Schemas

end SchemaClasses
