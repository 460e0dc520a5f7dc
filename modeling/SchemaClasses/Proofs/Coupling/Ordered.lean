import SchemaClasses.Proofs.Coupling.Merge

/-!
# Heads that differ in the type alone

Two heads are `SameHeads types` if the keywords come in the same order on both sides, the
references are the same and the types are related. A merge collects types and references in the
order of the keywords and asks nothing of a type but its alternatives, so heads stay related if
related types have the same alternatives (`SameHeads.merge`).
-/

namespace SchemaClasses

open Merge

/-- The same keywords in the same order, the same reference and related types. -/
structure SameHeads (types : Json → Json → Prop) (schema schema' : Entries) : Prop where
  /-- The keywords. -/
  keys_eq : Assoc.keys schema = Assoc.keys schema'
  /-- The references. -/
  ref_eq : Assoc.find? schema refKey = Assoc.find? schema' refKey
  /-- The types. -/
  type_rel : Option.Rel types (Assoc.find? schema typeKey) (Assoc.find? schema' typeKey)

/-- Whether related types have the same alternatives. -/
structure SameAlternatives (types : Json → Json → Prop) : Prop where
  /-- A type is related to itself. -/
  refl : ∀ value, types value value
  /-- Related types have the same alternatives. -/
  alternatives : ∀ {value value'}, types value value' → alternatives value = alternatives value'

section SameHeads

variable {types : Json → Json → Prop} {path : SchemaPath} {target target' source source' : Entries}
  {schema schema' : Entries} {key : String} {value value' : Json}

/-- A schema has the same head as itself. -/
theorem SameHeads.refl (htypes : SameAlternatives types) (schema : Entries) :
    SameHeads types schema schema := by
  refine ⟨rfl, rfl, ?_⟩
  cases Assoc.find? schema typeKey with
  | none => exact .none
  | some value => exact .some (htypes.refl value)

/-- Schemas with the same heads have the same keywords. -/
theorem SameHeads.contains_eq (h : SameHeads types schema schema') (key : String) :
    Assoc.contains schema key = Assoc.contains schema' key := by
  rw [Bool.eq_iff_iff, ← Assoc.mem_keys_iff_contains, ← Assoc.mem_keys_iff_contains, h.keys_eq]

/-- Related types, equal references and any other values may be put under a keyword. -/
theorem SameHeads.insert_related (h : SameHeads types schema schema')
    (htype : key = typeKey → types value value') (href : key = refKey → value = value') :
    SameHeads types (Assoc.insert schema key value) (Assoc.insert schema' key value') := by
  refine ⟨?_, ?_, ?_⟩
  · rw [Assoc.keys_insert, Assoc.keys_insert, h.contains_eq, h.keys_eq]
  · by_cases heq : key = refKey
    · rw [heq, Assoc.find?_insert_self, Assoc.find?_insert_self, href heq]
    · rw [Assoc.find?_insert_of_ne _ _ heq, Assoc.find?_insert_of_ne _ _ heq, h.ref_eq]
  · by_cases heq : key = typeKey
    · rw [heq, Assoc.find?_insert_self, Assoc.find?_insert_self]
      exact .some (htype heq)
    · rw [Assoc.find?_insert_of_ne _ _ heq, Assoc.find?_insert_of_ne _ _ heq]
      exact h.type_rel

/-- Anything may be put under a keyword that names no type. -/
theorem SameHeads.insert (h : SameHeads types schema schema') (hkey : ¬NamesType .keywords key)
    (value value' : Json) :
    SameHeads types (Assoc.insert schema key value) (Assoc.insert schema' key value') :=
  h.insert_related (fun heq => absurd ⟨rfl, .inl heq⟩ hkey) fun heq => absurd ⟨rfl, .inr heq⟩ hkey

/-- A keyword that names no type may be taken out. -/
theorem SameHeads.swapErase (hnodup : (Assoc.keys schema).Nodup)
    (h : SameHeads types schema schema') (hkey : ¬NamesType .keywords key) :
    SameHeads types (Assoc.swapErase schema key) (Assoc.swapErase schema' key) := by
  have htype : key ≠ typeKey := fun heq => hkey ⟨rfl, .inl heq⟩
  have href : key ≠ refKey := fun heq => hkey ⟨rfl, .inr heq⟩
  have hnodup' : (Assoc.keys schema').Nodup := h.keys_eq ▸ hnodup
  refine ⟨Assoc.keys_swapErase_congr h.keys_eq key, ?_, ?_⟩
  · rw [Assoc.find?_swapErase_of_ne hnodup href, Assoc.find?_swapErase_of_ne hnodup' href, h.ref_eq]
  · rw [Assoc.find?_swapErase_of_ne hnodup htype, Assoc.find?_swapErase_of_ne hnodup' htype]
    exact h.type_rel

/-! ### Merging -/

/-- There is a type on both sides, a related one, or on neither. -/
theorem SameHeads.type_cases (h : SameHeads types schema schema') :
    (Assoc.find? schema typeKey = none ∧ Assoc.find? schema' typeKey = none) ∨
      ∃ type type', Assoc.find? schema typeKey = some type ∧
        Assoc.find? schema' typeKey = some type' ∧ types type type' := by
  have hrel := h.type_rel
  generalize Assoc.find? schema typeKey = type at hrel
  generalize Assoc.find? schema' typeKey = type' at hrel
  cases hrel with
  | none => exact .inl ⟨rfl, rfl⟩
  | some hrelated => exact .inr ⟨_, _, rfl, rfl, hrelated⟩

/-- What is collected depends on the alternatives alone. -/
theorem collect_congr {values values' : List Json}
    (h : List.Forall₂ (fun v w => alternatives v = alternatives w) values values') :
    collect values = collect values' := by
  unfold collect
  congr 1
  induction h with
  | nil => rfl
  | cons hfirst _ ih => rw [List.flatMap_cons, List.flatMap_cons, hfirst, ih]

/-- What is collected from both sides and one more type is the same. -/
theorem SameHeads.collect_eq (htypes : SameAlternatives types) (h : SameHeads types target target')
    (hvalue : alternatives value = alternatives value') :
    collect (declared target ++ [value]) = collect (declared target' ++ [value']) := by
  apply collect_congr
  refine List.rel_append (List.rel_append ?_ ?_) (.cons hvalue .nil)
  · rcases h.type_cases with ⟨hnone, hnone'⟩ | ⟨type, type', htype, htype', hrelated⟩
    · rw [hnone, hnone']
      exact .nil
    · rw [htype, htype']
      exact .cons (htypes.alternatives hrelated) .nil
  · rw [h.ref_eq]
    exact List.forall₂_same.mpr fun _ _ => rfl

/-- The three cases of unifying types, each with its condition. -/
theorem unifyType_eq (target : Entries) (key : String) (value : Json) :
    Merge.unifyType target key value =
      if (Assoc.find? target typeKey).isNone && (Assoc.find? target refKey).isNone then
        Assoc.insert target key value
      else if (Assoc.find? target typeKey).isNone &&
          (Assoc.find? target refKey).any fun ref => key = refKey && ref.same value then target
      else
        Assoc.insert (Assoc.swapErase (Assoc.swapErase target typeKey) refKey) typeKey
          (typeOfAlternatives (collect (declared target ++ [value]))) := by
  unfold Merge.unifyType declared
  dsimp only
  rw [collect_append_singleton]
  cases Assoc.find? target refKey <;> rfl

/-- What is collected becomes the type on both sides. -/
theorem SameHeads.collected (htypes : SameAlternatives types) (hnodup : (Assoc.keys target).Nodup)
    (h : SameHeads types target target') (hvalue : alternatives value = alternatives value') :
    SameHeads types
      (Assoc.insert (Assoc.swapErase (Assoc.swapErase target typeKey) refKey) typeKey
        (typeOfAlternatives (collect (declared target ++ [value]))))
      (Assoc.insert (Assoc.swapErase (Assoc.swapErase target' typeKey) refKey) typeKey
        (typeOfAlternatives (collect (declared target' ++ [value'])))) := by
  have hnodup' : (Assoc.keys target').Nodup := h.keys_eq ▸ hnodup
  have hkeys := Assoc.keys_swapErase_congr (Assoc.keys_swapErase_congr h.keys_eq typeKey) refKey
  have hne : typeKey ≠ refKey := by decide
  refine ⟨?_, ?_, ?_⟩
  · have hcontains : ∀ {left right : Entries}, Assoc.keys left = Assoc.keys right →
        Assoc.contains left typeKey = Assoc.contains right typeKey := by
      intro left right hsame
      rw [Bool.eq_iff_iff, ← Assoc.mem_keys_iff_contains, ← Assoc.mem_keys_iff_contains, hsame]
    rw [Assoc.keys_insert, Assoc.keys_insert, hcontains hkeys, hkeys]
  · rw [Assoc.find?_insert_of_ne _ _ hne, Assoc.find?_insert_of_ne _ _ hne,
      Assoc.find?_swapErase_self (Assoc.nodup_keys_swapErase hnodup _),
      Assoc.find?_swapErase_self (Assoc.nodup_keys_swapErase hnodup' _)]
  · rw [Assoc.find?_insert_self, Assoc.find?_insert_self, h.collect_eq htypes hvalue]
    exact .some (htypes.refl _)

/-- Unifying one more type or reference, related on both sides, leaves such heads. -/
theorem SameHeads.unifyType (htypes : SameAlternatives types)
    (hnodup : (Assoc.keys target).Nodup) (h : SameHeads types target target')
    (htype : key = typeKey → types value value') (href : key = refKey → value = value')
    (hkey : key = typeKey ∨ key = refKey) :
    SameHeads types (unifyType target key value) (Merge.unifyType target' key value') := by
  have hvalue : alternatives value = alternatives value' :=
    hkey.elim (fun heq => htypes.alternatives (htype heq)) fun heq => congrArg _ (href heq)
  have hnone : (Assoc.find? target typeKey).isNone = (Assoc.find? target' typeKey).isNone := by
    rcases h.type_cases with ⟨hnone, hnone'⟩ | ⟨type, type', htype, htype', -⟩
    · rw [hnone, hnone']
    · rw [htype, htype']
      rfl
  have hsame : ((Assoc.find? target' refKey).any fun ref => key = refKey && ref.same value) =
      (Assoc.find? target' refKey).any fun ref => key = refKey && ref.same value' := by
    congr 1
    funext ref
    by_cases heq : key = refKey
    · rw [href heq]
    · rw [decide_eq_false heq, Bool.false_and, Bool.false_and]
  rw [unifyType_eq, unifyType_eq]
  simp only [hnone, h.ref_eq, hsame]
  split_ifs
  · exact h.insert_related htype href
  · exact h
  · exact h.collected htypes hnodup hvalue

/-- Merging one entry with a related value leaves such heads. -/
theorem SameHeads.mergeEntry (htypes : SameAlternatives types) (hnodup : (Assoc.keys target).Nodup)
    (h : SameHeads types target target') (htype : key = typeKey → types value value')
    (href : key = refKey → value = value')
    (hagree : (mergeEntry .keywords path target key value).conflict = none)
    (hagree' : (mergeEntry .keywords path target' key value').conflict = none) :
    SameHeads types (mergeEntry .keywords path target key value).value
      (mergeEntry .keywords path target' key value').value := by
  by_cases hkey : NamesType .keywords key
  · rw [mergeEntry_of_namesType hkey, mergeEntry_of_namesType hkey]
    exact h.unifyType htypes hnodup htype href hkey.2
  · have hneType : key ≠ typeKey := fun hname => hkey ⟨rfl, .inl hname⟩
    have hneRef : key ≠ refKey := fun hname => hkey ⟨rfl, .inr hname⟩
    refine ⟨?_, ?_, ?_⟩
    · rw [keys_mergeEntry hkey hagree, keys_mergeEntry hkey hagree', h.contains_eq, h.keys_eq]
    · rw [find?_mergeEntry_of_ne hkey hneRef, find?_mergeEntry_of_ne hkey hneRef, h.ref_eq]
    · rw [find?_mergeEntry_of_ne hkey hneType, find?_mergeEntry_of_ne hkey hneType]
      exact h.type_rel

/-- What stands first is related, and so is what is left. -/
theorem SameHeads.uncons {rest rest' : Entries} (hmissing : key ∉ Assoc.keys rest)
    (h : SameHeads types ((key, value) :: rest) ((key, value') :: rest')) :
    (key = typeKey → types value value') ∧ (key = refKey → value = value') ∧
      SameHeads types rest rest' := by
  have hkeys : Assoc.keys rest = Assoc.keys rest' := (List.cons.inj h.keys_eq).2
  have hnone : Assoc.find? rest key = none := Assoc.find?_eq_none_iff.mpr hmissing
  have hnone' : Assoc.find? rest' key = none := Assoc.find?_eq_none_iff.mpr (hkeys ▸ hmissing)
  have hself : ∀ (v : Json) (rest : Entries), Assoc.find? ((key, v) :: rest) key = some v :=
    fun _ _ => if_pos rfl
  have hbehind : ∀ {other : String}, key ≠ other → ∀ (v : Json) (rest : Entries),
      Assoc.find? ((key, v) :: rest) other = Assoc.find? rest other := fun hne _ _ => if_neg hne
  obtain ⟨-, href, htype⟩ := h
  refine ⟨fun hname => ?_, fun hname => ?_, hkeys, ?_, ?_⟩
  · rw [← hname, hself, hself] at htype
    exact Option.rel_some_some.mp htype
  · rw [← hname, hself, hself] at href
    exact Option.some.inj href
  · by_cases hname : key = refKey
    · rw [← hname, hnone, hnone']
    · rwa [hbehind hname, hbehind hname] at href
  · by_cases hname : key = typeKey
    · rw [← hname, hnone, hnone']
      exact .none
    · rwa [hbehind hname, hbehind hname] at htype

/-- Merging schemas with such heads leaves such heads. -/
theorem SameHeads.merge (htypes : SameAlternatives types) (htarget : (Assoc.keys target).Nodup)
    (hsource : (Assoc.keys source).Nodup) (h : SameHeads types target target')
    (h' : SameHeads types source source')
    (hagree : (mergeEntries .keywords path target source).conflict = none)
    (hagree' : (mergeEntries .keywords path target' source').conflict = none) :
    SameHeads types (mergeEntries .keywords path target source).value
      (mergeEntries .keywords path target' source').value := by
  induction source generalizing target target' source' with
  | nil =>
    obtain rfl : source' = [] := List.map_eq_nil_iff.mp h'.keys_eq.symm
    rw [mergeEntries, mergeEntries]
    exact h
  | cons entry rest ih =>
    obtain ⟨key, value⟩ := entry
    cases source' with
    | nil => cases h'.keys_eq
    | cons entry' rest' =>
      obtain ⟨key', value'⟩ := entry'
      obtain rfl : key = key' := (List.cons.inj h'.keys_eq).1
      obtain ⟨hmissing, hrest⟩ := List.nodup_cons.mp hsource
      obtain ⟨htype, href, htail⟩ := h'.uncons hmissing
      obtain ⟨hfirst, heq⟩ := mergeEntries_cons hagree
      obtain ⟨hfirst', heq'⟩ := mergeEntries_cons hagree'
      rw [heq] at hagree ⊢
      rw [heq'] at hagree' ⊢
      exact ih (nodup_keys_mergeEntry htarget) hrest
        (h.mergeEntry htypes htarget htype href hfirst hfirst') htail hagree hagree'

end SameHeads

/-! ### References -/

/-- Whether a text is no pointer to a table of schemas. -/
def LeadsToSchema (text : String) : Prop :=
  ∀ target, SchemaPath.ofPointer text = .ok target → Json.keysAt target = .keywords

/-- Whether no reference in a value is a pointer to a table of schemas. -/
def refersToSchemas (value : Json) : Bool :=
  value.refs.all fun ref =>
    match SchemaPath.ofPointer ref.2 with
    | .ok target => Json.keysAt target = .keywords
    | .error _ => true

/-- A reference in a document without pointers to tables leads to a schema if it leads anywhere. -/
theorem leadsToSchema_of_mem_refs {value : Json} (h : refersToSchemas value) {place : List String}
    {text : String} (hmem : (place, text) ∈ value.refs) : LeadsToSchema text := by
  intro target htarget
  have hall := List.all_eq_true.mp h _ hmem
  simpa only [htarget, decide_eq_true_iff] using hall

/-- The pointer of a place of schemas leads to a schema. -/
theorem leadsToSchema_toPointer {path : SchemaPath} (h : Json.keysAt path = .keywords) :
    LeadsToSchema path.toPointer := by
  intro target htarget
  rw [path.ofPointer_toPointer] at htarget
  exact Except.ok.inj htarget ▸ h

/-- A reference of a merged schema is one of those that were merged. -/
theorem find?_refKey_of_merge {path : SchemaPath} {target source : Entries} {ref : Json}
    (hagree : (mergeEntries .keywords path target source).conflict = none)
    (h : Assoc.find? (mergeEntries .keywords path target source).value refKey = some ref) :
    (refKey, ref) ∈ target ∨ (refKey, ref) ∈ source := by
  refine forall_mergeEntries (E := fun key value => key = refKey →
    (refKey, value) ∈ target ∨ (refKey, value) ∈ source) (fun key _ _ _ htype _ _ hkey => ?_)
    (fun _ _ _ _ _ hkey => ?_) (fun _ _ _ _ hkey => ?_) hagree
    (fun entry hentry hkey => .inl (hkey ▸ hentry)) (fun entry hentry hkey => .inr (hkey ▸ hentry))
    _ (Assoc.mem_of_find? h) rfl
  · exact absurd ⟨rfl, .inr hkey⟩ htype
  · exact absurd hkey (by decide)
  · exact absurd hkey (by decide)

end SchemaClasses
