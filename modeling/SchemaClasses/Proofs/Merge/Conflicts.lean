import SchemaClasses.Proofs.Merge.Separate

/-!
# Where a merge stops

Main statement (`conflict_merge_iff`): a merge of two schemas stops if and only if they disagree
somewhere, and it reports the first place where they do.

What it means that they disagree is said without the merge (`Disagrees`): a chain of keys leads
through objects on both sides to two schemas whose values under a keyword have to agree and do not.
Places are in the order in which a walk of the source in depth comes to them (`Before`).

A merge changes its target while it goes along, but under no key that it has yet to come to, except
for types and references, which never disagree. So one entry reports what there is to report of it
alone (`reports_mergeEntry`), and the entries of an object together report the first of these
(`Reports.mergeEntries`).
-/

namespace SchemaClasses

/-- The keys of a chain extend a path one by one. -/
theorem SchemaPath.child_append (path : SchemaPath) (key : String) (chain : List String) :
    path.child key ++ chain = path ++ (key :: chain) :=
  congrArg SchemaPath.mk (List.append_assoc _ _ _)

namespace Merge

open Json

/-! ### Disagreements and their order -/

/-- Whether two schemas, or two tables of schemas, have different values under a keyword at the end
of a chain of keys, and the values have to agree. Every key of the chain leads to objects on both
sides and is not read as `type` or `$ref`. -/
inductive Disagrees : Keys → Entries → Entries → List String → String → Json → Json → Prop where
  /-- The schemas themselves have the keyword. -/
  | here {target source : Entries} {keyword : String} {old new : Json}
      (hkeyword : mustAgree keyword)
      (hold : Assoc.find? target keyword = some old) (hnew : Assoc.find? source keyword = some new)
      (hobjects : ∀ entries schema, old = .obj entries → new ≠ .obj schema)
      (hdiffer : old.same new = false) :
      Disagrees .keywords target source [] keyword old new
  /-- Objects under the same key disagree. -/
  | inside {keys : Keys} {target source entries schema : Entries} {key : String}
      {chain : List String} {keyword : String} {old new : Json} (htype : ¬NamesType keys key)
      (hold : Assoc.find? target key = some (.obj entries))
      (hnew : Assoc.find? source key = some (.obj schema))
      (h : Disagrees (keys.below key) entries schema chain keyword old new) :
      Disagrees keys target source (key :: chain) keyword old new

/-- Whether a walk of an object in depth comes to one place before it comes to another one. -/
inductive Before : Entries → List String → List String → Prop where
  /-- The keys at which the places part are listed in this order. -/
  | part {source : Entries} {key other : String} {place place' : List String}
      (h : [key, other].Sublist (Assoc.keys source)) :
      Before source (key :: place) (other :: place')
  /-- Both places are under the same key. -/
  | under {source schema : Entries} {key : String} {place place' : List String}
      (hschema : Assoc.find? source key = some (.obj schema)) (h : Before schema place place') :
      Before source (key :: place) (key :: place')

/-- Different things are listed in one order only. -/
theorem not_sublist_swap {keys : List String} (hnodup : keys.Nodup) {key other : String}
    (h : [key, other].Sublist keys) : ¬[other, key].Sublist keys := by
  induction keys with
  | nil => cases h
  | cons first rest ih =>
    obtain ⟨hmissing, hrest⟩ := List.nodup_cons.mp hnodup
    intro hswap
    rcases List.sublist_cons_iff.mp h with h | ⟨_, heq, h⟩
    · rcases List.sublist_cons_iff.mp hswap with hswap | ⟨_, heq, -⟩
      · exact ih hrest h hswap
      · exact hmissing ((List.cons.inj heq).1 ▸ h.subset (.tail _ (.head _)))
    · obtain ⟨rfl, rfl⟩ := List.cons.inj heq
      rcases List.sublist_cons_iff.mp hswap with hswap | ⟨_, heq, -⟩
      · exact hmissing (hswap.subset (.tail _ (.head _)))
      · exact hmissing ((List.cons.inj heq).1 ▸ List.singleton_sublist.mp h)

/-- Of two places that a walk comes to, one comes first only. -/
theorem Before.asymm {source : Entries} (hwf : (obj source).wellFormed)
    {place place' : List String} (h : Before source place place') :
    ¬Before source place' place := by
  induction h with
  | part hbefore =>
    obtain ⟨hnodup, -⟩ := wellFormed_obj.mp hwf
    rintro (hafter | _)
    · exact not_sublist_swap hnodup hbefore hafter
    · exact not_sublist_swap hnodup hbefore hbefore
  | under hschema _ ih =>
    obtain ⟨hnodup, hentries⟩ := wellFormed_obj.mp hwf
    rintro (hafter | ⟨hother, hafter⟩)
    · exact not_sublist_swap hnodup hafter hafter
    · obtain rfl := Json.obj.inj (Option.some.inj (hschema.symm.trans hother))
      exact ih (hentries _ (Assoc.mem_of_find? hschema)) hafter

/-- The first of all disagreements. -/
structure DisagreesFirst (keys : Keys) (target source : Entries) (chain : List String)
    (keyword : String) (old new : Json) : Prop where
  disagrees : Disagrees keys target source chain keyword old new
  first : ∀ {chain' keyword' old' new'}, Disagrees keys target source chain' keyword' old' new' →
    chain' ++ [keyword'] = chain ++ [keyword] ∨
      Before source (chain ++ [keyword]) (chain' ++ [keyword'])

section Unique

variable {keys : Keys} {target source : Entries} {chain chain' : List String}
  {keyword keyword' : String} {old new old' new' : Json}

/-- The values at a place are determined. -/
theorem Disagrees.unique (h : Disagrees keys target source chain keyword old new)
    (h' : Disagrees keys target source chain keyword old' new') : old = old' ∧ new = new' := by
  induction h with
  | here _ hold hnew =>
    cases h' with
    | here _ hold' hnew' =>
      exact ⟨Option.some.inj (hold.symm.trans hold'), Option.some.inj (hnew.symm.trans hnew')⟩
  | inside _ hold hnew _ ih =>
    cases h' with
    | inside _ hold' hnew' h' =>
      obtain rfl := Json.obj.inj (Option.some.inj (hold.symm.trans hold'))
      obtain rfl := Json.obj.inj (Option.some.inj (hnew.symm.trans hnew'))
      exact ih h'

/-- There is only one first disagreement. -/
theorem DisagreesFirst.unique (hwf : (obj source).wellFormed)
    (h : DisagreesFirst keys target source chain keyword old new)
    (h' : DisagreesFirst keys target source chain' keyword' old' new') :
    chain = chain' ∧ keyword = keyword' ∧ old = old' ∧ new = new' := by
  have hplace : chain ++ [keyword] = chain' ++ [keyword'] := by
    rcases h.first h'.disagrees with heq | hbefore
    · exact heq.symm
    · exact (h'.first h.disagrees).resolve_right (hbefore.asymm hwf)
  obtain ⟨rfl, hkeyword⟩ := List.append_inj' hplace rfl
  obtain rfl := List.singleton_inj.mp hkeyword
  exact ⟨rfl, rfl, h.disagrees.unique h'.disagrees⟩

end Unique

/-! ### Disagreements in one entry and in the others -/

section Cons

variable {keys : Keys} {target target' rest : Entries} {key keyword : String} {value old new : Json}
  {chain : List String}

/-- The key that a place begins with does not name a type, and both sides have it. -/
theorem Disagrees.exists_head {source : Entries}
    (h : Disagrees keys target source chain keyword old new) :
    ∃ head place, chain ++ [keyword] = head :: place ∧ ¬NamesType keys head ∧
      head ∈ Assoc.keys source := by
  cases h with
  | here hkeyword _ hnew =>
    refine ⟨keyword, [], rfl, ?_, Assoc.mem_keys_of_find? hnew⟩
    rintro ⟨-, rfl | rfl⟩ <;> exact absurd hkeyword (by decide)
  | inside htype _ hnew => exact ⟨_, _, rfl, htype, Assoc.mem_keys_of_find? hnew⟩

/-- Disagreements with a source are about what it has and what the target has under the same
keys. -/
theorem Disagrees.congr {source source' : Entries}
    (h : Disagrees keys target source chain keyword old new)
    (htarget : ∀ head ∈ Assoc.keys source, ¬NamesType keys head →
      Assoc.find? target head = Assoc.find? target' head)
    (hsource : ∀ head value, Assoc.find? source head = some value →
      Assoc.find? source' head = some value) :
    Disagrees keys target' source' chain keyword old new := by
  have hhead := h.exists_head
  cases h with
  | here hkeyword hold hnew hobjects hdiffer =>
    obtain ⟨_, _, ⟨⟩, htype, hmem⟩ := hhead
    exact .here hkeyword (htarget _ hmem htype ▸ hold) (hsource _ _ hnew) hobjects hdiffer
  | inside htype hold hnew h =>
    exact .inside htype (htarget _ (Assoc.mem_keys_of_find? hnew) htype ▸ hold) (hsource _ _ hnew) h

/-- A disagreement in one entry is about its value, or inside the objects under its key. -/
theorem Disagrees.cases_singleton
    (h : Disagrees keys target [(key, value)] chain keyword old new) :
    ¬NamesType keys key ∧
      ((keys = .keywords ∧ mustAgree key ∧ Assoc.find? target key = some old ∧
          (∀ entries schema, old = .obj entries → value ≠ .obj schema) ∧
          old.same value = false ∧ chain = [] ∧ keyword = key) ∨
        ∃ entries schema rest, chain = key :: rest ∧
          Assoc.find? target key = some (.obj entries) ∧ value = .obj schema ∧
          Disagrees (keys.below key) entries schema rest keyword old new) := by
  have hvalue : Assoc.find? [(key, value)] key = some value := if_pos rfl
  obtain ⟨head, place, hplace, htype, hmem⟩ := h.exists_head
  obtain rfl := List.mem_singleton.mp hmem
  refine ⟨htype, ?_⟩
  cases h with
  | here hkeyword hold hnew hobjects hdiffer =>
    obtain ⟨rfl, -⟩ := List.cons.inj hplace
    obtain rfl := Option.some.inj (hvalue.symm.trans hnew)
    exact .inl ⟨rfl, hkeyword, hold, hobjects, hdiffer, rfl, rfl⟩
  | inside _ hold hnew h =>
    obtain ⟨rfl, -⟩ := List.cons.inj hplace
    exact .inr ⟨_, _, _, rfl, hold, Option.some.inj (hvalue.symm.trans hnew), h⟩

/-- Two objects disagree in their first entry or in the others. -/
theorem disagrees_cons (hmissing : key ∉ Assoc.keys rest) :
    Disagrees keys target ((key, value) :: rest) chain keyword old new ↔
      Disagrees keys target [(key, value)] chain keyword old new ∨
        Disagrees keys target rest chain keyword old new := by
  have hnone := Assoc.find?_eq_none_iff.mpr hmissing
  constructor
  · intro h
    cases h with
    | here hkeyword hold hnew hobjects hdiffer =>
      rw [Assoc.find?] at hnew
      split_ifs at hnew with heq
      · exact .inl (.here hkeyword hold (by rw [Assoc.find?, if_pos heq, hnew]) hobjects hdiffer)
      · exact .inr (.here hkeyword hold hnew hobjects hdiffer)
    | inside htype hold hnew h =>
      rw [Assoc.find?] at hnew
      split_ifs at hnew with heq
      · exact .inl (.inside htype hold (by rw [Assoc.find?, if_pos heq, hnew]) h)
      · exact .inr (.inside htype hold hnew h)
  · rintro (h | h)
    · refine h.congr (fun _ _ _ => rfl) fun head v hv => ?_
      rw [Assoc.find?] at hv ⊢
      split_ifs at hv ⊢
      · exact hv
      · cases hv
    · refine h.congr (fun _ _ _ => rfl) fun head v hv => ?_
      have hne : key ≠ head := fun heq => hmissing (heq ▸ Assoc.mem_keys_of_find? hv)
      rw [Assoc.find?, if_neg hne, hv]

/-- What comes first in one entry comes first in an object that begins with it. -/
theorem Before.of_singleton {place place' : List String}
    (h : Before [(key, value)] place place') : Before ((key, value) :: rest) place place' := by
  cases h with
  | part h =>
    exact absurd h.length_le (Nat.not_succ_le_self 1)
  | under hschema h =>
    refine .under ?_ h
    rw [Assoc.find?] at hschema ⊢
    split_ifs at hschema ⊢
    · exact hschema
    · cases hschema

/-- What comes first in the other entries comes first among all. -/
theorem Before.cons (hmissing : key ∉ Assoc.keys rest) {place place' : List String}
    (h : Before rest place place') : Before ((key, value) :: rest) place place' := by
  cases h with
  | part h => exact .part (h.cons key)
  | under hschema h =>
    have hne := fun heq : key = _ => hmissing (heq ▸ Assoc.mem_keys_of_find? hschema)
    exact .under (by rw [Assoc.find?, if_neg hne, hschema]) h

/-- The first disagreement in one entry is the first of all if that entry comes first. -/
theorem DisagreesFirst.of_singleton (hmissing : key ∉ Assoc.keys rest)
    (h : DisagreesFirst keys target [(key, value)] chain keyword old new) :
    DisagreesFirst keys target ((key, value) :: rest) chain keyword old new where
  disagrees := (disagrees_cons hmissing).mpr (.inl h.disagrees)
  first h' := by
    rcases (disagrees_cons hmissing).mp h' with h' | h'
    · exact (h.first h').imp_right Before.of_singleton
    · obtain ⟨head, place, hplace, -, hhead⟩ := h.disagrees.exists_head
      obtain ⟨head', place', hplace', -, hhead'⟩ := h'.exists_head
      obtain rfl := List.mem_singleton.mp hhead
      rw [hplace, hplace']
      exact .inr (.part ((List.singleton_sublist.mpr hhead').cons_cons head))

/-- If the first entry does not disagree then the first disagreement of the others is the first
one. -/
theorem DisagreesFirst.cons (hmissing : key ∉ Assoc.keys rest)
    (hagree : ∀ chain keyword old new, ¬Disagrees keys target [(key, value)] chain keyword old new)
    (h : DisagreesFirst keys target rest chain keyword old new) :
    DisagreesFirst keys target ((key, value) :: rest) chain keyword old new where
  disagrees := (disagrees_cons hmissing).mpr (.inr h.disagrees)
  first h' := (h.first (((disagrees_cons hmissing).mp h').resolve_left
    (hagree _ _ _ _))).imp_right (Before.cons hmissing)

end Cons

/-! ### What is reported -/

/-- Whether a merge reports the first disagreement if there is one, and nothing otherwise. -/
inductive Reports (keys : Keys) (path : SchemaPath) (target source : Entries) :
    Option Conflict → Prop where
  /-- There is no disagreement. -/
  | nothing (h : ∀ chain keyword old new, ¬Disagrees keys target source chain keyword old new) :
      Reports keys path target source none
  /-- The chain of keys of the first disagreement extends the path. -/
  | first {chain : List String} {keyword : String} {old new : Json}
      (h : DisagreesFirst keys target source chain keyword old new) :
      Reports keys path target source (some ⟨path ++ chain, keyword, old, new⟩)

section Reports

variable {keys : Keys} {path : SchemaPath} {target target' source entries schema : Entries}
  {key : String} {value : Json} {conflict : Option Conflict}

/-- What there is to report depends on what the target has under the keys of the source. -/
theorem Reports.congr (h : Reports keys path target source conflict)
    (htarget : ∀ head ∈ Assoc.keys source, ¬NamesType keys head →
      Assoc.find? target head = Assoc.find? target' head) :
    Reports keys path target' source conflict := by
  have hto : ∀ {chain keyword old new}, Disagrees keys target source chain keyword old new →
      Disagrees keys target' source chain keyword old new :=
    fun h => h.congr htarget fun _ _ hvalue => hvalue
  have hfrom : ∀ {chain keyword old new}, Disagrees keys target' source chain keyword old new →
      Disagrees keys target source chain keyword old new :=
    fun h => h.congr (fun head hhead htype => (htarget head hhead htype).symm)
      fun _ _ hvalue => hvalue
  cases h with
  | nothing h => exact .nothing fun chain keyword old new h' => h chain keyword old new (hfrom h')
  | first h => exact .first ⟨hto h.disagrees, fun h' => h.first (hfrom h')⟩

/-- Of two objects under the same key that is reported which there is to report of them. -/
theorem Reports.inside (htype : ¬NamesType keys key)
    (hold : Assoc.find? target key = some (.obj entries))
    (h : Reports (keys.below key) (path.child key) entries schema conflict) :
    Reports keys path target [(key, .obj schema)] conflict := by
  have hnew : Assoc.find? [(key, Json.obj schema)] key = some (.obj schema) := if_pos rfl
  have hinside : ∀ {chain keyword old new},
      Disagrees keys target [(key, .obj schema)] chain keyword old new →
      ∃ rest, chain = key :: rest ∧
        Disagrees (keys.below key) entries schema rest keyword old new := by
    intro chain keyword old new h
    rcases h.cases_singleton.2 with
      ⟨-, -, hold', hobjects, -⟩ | ⟨_, _, rest, hchain, hold', hnew', h⟩
    · exact absurd rfl (hobjects _ schema (Option.some.inj (hold'.symm.trans hold)))
    · obtain rfl := Json.obj.inj (Option.some.inj (hold.symm.trans hold'))
      obtain rfl := Json.obj.inj hnew'
      exact ⟨rest, hchain, h⟩
  cases h with
  | nothing h =>
    refine .nothing fun chain keyword old new h' => ?_
    obtain ⟨rest, -, h'⟩ := hinside h'
    exact h rest keyword old new h'
  | @first chain keyword old new h =>
    rw [SchemaPath.child_append]
    refine .first ⟨.inside htype hold hnew h.disagrees, fun h' => ?_⟩
    obtain ⟨rest, rfl, hrest⟩ := hinside h'
    rcases h.first hrest with heq | hbefore
    · exact .inl (congrArg (key :: ·) heq)
    · exact .inr (.under hnew hbefore)

/-- One entry reports what there is to report of it alone, if objects under its key do. -/
theorem reports_mergeEntry
    (hobjects : ∀ entries schema, Assoc.find? target key = some (.obj entries) →
      value = .obj schema → Reports (keys.below key) (path.child key) entries schema
        (mergeEntries (keys.below key) (path.child key) entries schema).conflict) :
    Reports keys path target [(key, value)] (mergeEntry keys path target key value).conflict := by
  by_cases htype : NamesType keys key
  · rw [conflict_mergeEntry_of_namesType htype]
    exact .nothing fun _ _ _ _ h => h.cases_singleton.1 htype
  cases hold : Assoc.find? target key with
  | none =>
    rw [mergeEntry_of_none htype hold]
    refine .nothing fun _ _ _ _ h => ?_
    rcases h.cases_singleton.2 with ⟨-, -, hold', -⟩ | ⟨_, _, _, -, hold', -⟩ <;>
      cases hold.symm.trans hold'
  | some old =>
    by_cases hboth : ∃ entries schema, old = .obj entries ∧ value = .obj schema
    · obtain ⟨entries, schema, rfl, rfl⟩ := hboth
      rw [mergeEntry_objects htype hold]
      exact (hobjects entries schema hold rfl).inside htype hold
    have hother : ∀ entries schema, old = .obj entries → value ≠ .obj schema :=
      fun entries schema hentries hschema => hboth ⟨entries, schema, hentries, hschema⟩
    -- two values that are not both objects are compared if they have to agree
    have hplain : ∀ {chain keyword o n},
        Disagrees keys target [(key, value)] chain keyword o n →
        keys = .keywords ∧ mustAgree key ∧ old.same value = false ∧ chain = [] ∧
          keyword = key := by
      intro chain keyword o n h
      rcases h.cases_singleton.2 with
        ⟨hkeys, hkeyword, hold', -, hdiffer, hplace⟩ | ⟨_, _, _, -, hold', hvalue, -⟩
      · obtain rfl := Option.some.inj (hold.symm.trans hold')
        exact ⟨hkeys, hkeyword, hdiffer, hplace⟩
      · exact absurd ⟨_, _, Option.some.inj (hold.symm.trans hold'), hvalue⟩ hboth
    cases keys with
    | names =>
      rw [mergeEntry_names hold hother]
      exact .nothing fun _ _ _ _ h => nomatch (hplain h).1
    | keywords =>
      rw [mergeEntry_keywords htype hold hother]
      unfold mergePlain
      split_ifs with hrequired hdiffer
      · refine .nothing fun _ _ _ _ h => ?_
        exact absurd (hrequired ▸ (hplain h).2.1) (by decide)
      · rw [Bool.and_eq_true, Bool.not_eq_true'] at hdiffer
        have hreport : Reports .keywords path target [(key, value)]
            (some ⟨path ++ ([] : List String), key, old, value⟩) := by
          refine .first ⟨.here hdiffer.1 hold (if_pos rfl) hother hdiffer.2, fun h => ?_⟩
          obtain ⟨-, -, -, rfl, rfl⟩ := hplain h
          exact .inl rfl
        have hpath : path ++ ([] : List String) = path :=
          congrArg SchemaPath.mk (List.append_nil _)
        rwa [hpath] at hreport
      · refine .nothing fun _ _ _ _ h => hdiffer ?_
        obtain ⟨-, hkeyword, hsame, -⟩ := hplain h
        rw [hkeyword, hsame]
        rfl

/-- The entries of an object report what the first of them reports that reports anything. -/
theorem Reports.all (htarget : (Assoc.keys target).Nodup)
    (hsource : (Assoc.keys source).Nodup)
    (hentry : ∀ key value, (key, value) ∈ source →
      Reports keys path target [(key, value)] (mergeEntry keys path target key value).conflict) :
    Reports keys path target source (mergeEntries keys path target source).conflict := by
  induction source generalizing target with
  | nil =>
    rw [mergeEntries]
    refine .nothing fun _ _ _ _ h => ?_
    obtain ⟨_, _, -, -, hmem⟩ := h.exists_head
    cases hmem
  | cons entry rest ih =>
    obtain ⟨key, value⟩ := entry
    obtain ⟨hmissing, hrest⟩ := List.nodup_cons.mp hsource
    have hfirst := hentry key value List.mem_cons_self
    rw [mergeEntries]
    cases hconflict : (mergeEntry keys path target key value).conflict with
    | some conflict =>
      rw [hconflict] at hfirst
      simp only [hconflict]
      cases hfirst with
      | first h => exact .first (h.of_singleton hmissing)
    | none =>
      rw [hconflict] at hfirst
      simp only
      obtain ⟨hagree⟩ := hfirst
      -- the first entry changes nothing under the others, so these report of the target as it was
      have hsame : ∀ head ∈ Assoc.keys rest, ¬NamesType keys head →
          Assoc.find? (mergeEntry keys path target key value).value head =
            Assoc.find? target head := fun head hhead htype =>
        find?_mergeEntry_other htarget htype fun heq => hmissing (heq ▸ hhead)
      have hothers : Reports keys path (mergeEntry keys path target key value).value rest
          (mergeEntries keys path (mergeEntry keys path target key value).value rest).conflict := by
        refine ih (nodup_keys_mergeEntry htarget) hrest fun k v hmem => ?_
        have hreport := hentry k v (List.mem_cons_of_mem _ hmem)
        by_cases htype : NamesType keys k
        · rw [conflict_mergeEntry_of_namesType htype] at hreport ⊢
          refine hreport.congr fun head hhead hnot => ?_
          obtain rfl := List.mem_singleton.mp hhead
          exact absurd htype hnot
        · have hk := hsame k (Assoc.mem_keys_of_mem hmem) htype
          rw [(mergeEntry_congr htype hk).1]
          refine hreport.congr fun head hhead _ => ?_
          obtain rfl := List.mem_singleton.mp hhead
          exact hk.symm
      replace hothers := hothers.congr hsame
      generalize (mergeEntries keys path _ rest).conflict = conflict at hothers ⊢
      cases hothers with
      | nothing h =>
        refine .nothing fun chain keyword old new h' => ?_
        exact ((disagrees_cons hmissing).mp h').elim (hagree chain keyword old new)
          (h chain keyword old new)
      | first h => exact .first (h.cons hmissing hagree)

end Reports

/-- A merge reports the first disagreement. -/
theorem reports_mergeEntries (source : Json) (hsource : source.wellFormed) :
    ∀ {schema : Entries}, source = .obj schema → ∀ {keys : Keys} {path : SchemaPath}
      {target : Entries}, (obj target).wellFormed →
      Reports keys path target schema (mergeEntries keys path target schema).conflict := by
  induction source using Json.induction with
  | obj entries ih =>
    intro schema heq keys path target htarget
    obtain rfl := Json.obj.inj heq
    obtain ⟨hnodup, hentries⟩ := wellFormed_obj.mp hsource
    obtain ⟨hnodupTarget, hentriesTarget⟩ := wellFormed_obj.mp htarget
    refine Reports.all hnodupTarget hnodup fun key value hmem => ?_
    refine reports_mergeEntry fun old new hold hnew => ?_
    exact ih (key, value) hmem (hentries _ hmem) hnew
      (hentriesTarget _ (Assoc.mem_of_find? hold))
  | _ =>
    intro schema heq
    cases heq

end Merge

open Merge

/-- A merge stops if and only if the schemas disagree, and reports the place, the keyword and the
values of the first disagreement: its chain of keys extends the path. -/
theorem conflict_merge_iff {target source : Entries} (htarget : (Json.obj target).wellFormed)
    (hsource : (Json.obj source).wellFormed) (path : SchemaPath) :
    ((merge target source path).conflict ≠ none ↔
      ∃ chain keyword old new, Disagrees .keywords target source chain keyword old new) ∧
    ∀ conflict, (merge target source path).conflict = some conflict ↔
      ∃ chain, conflict.path = path ++ chain ∧ DisagreesFirst .keywords target source chain
        conflict.keyword conflict.target conflict.source := by
  have hreports : Reports .keywords path target source (merge target source path).conflict :=
    reports_mergeEntries _ hsource rfl htarget
  cases hreports' : (merge target source path).conflict with
  | none =>
    rw [hreports'] at hreports
    obtain ⟨hnone⟩ := hreports
    refine ⟨iff_of_false (fun h => h rfl) ?_, fun conflict => iff_of_false nofun ?_⟩
    · rintro ⟨chain, keyword, old, new, h⟩
      exact hnone chain keyword old new h
    · rintro ⟨chain, -, h⟩
      exact hnone _ _ _ _ h.disagrees
  | some conflict =>
    rw [hreports'] at hreports
    cases hreports with
    | @first chain keyword old new h =>
      refine ⟨iff_of_true nofun ⟨chain, keyword, old, new, h.disagrees⟩, fun conflict => ?_⟩
      constructor
      · rintro ⟨⟩
        exact ⟨chain, rfl, h⟩
      · obtain ⟨place, keyword', old', new'⟩ := conflict
        rintro ⟨chain', rfl, h'⟩
        obtain ⟨rfl, rfl, rfl, rfl⟩ := h.unique hsource h'
        rfl

/-- A schema of lists, one property of which is called `type`. -/
def shelf : Entries :=
  [("properties", .obj [("type", .obj [("uniqueItems", .bool true),
    ("items", .obj [("insertionOrder", .bool false)])])])]

/-- A schema that disagrees with it twice. -/
def delivery : Entries :=
  [(typeKey, .str "object"), ("properties", .obj [("type", .obj [(typeKey, .str "array"),
    ("items", .obj [("insertionOrder", .bool true)]), ("uniqueItems", .bool false)])])]

/-- The disagreement that is reported is the first one in the source, not in the target. -/
theorem conflict_merge_delivery : (Json.obj shelf).wellFormed ∧ (Json.obj delivery).wellFormed ∧
    Disagrees .keywords shelf delivery ["properties", "type"] "uniqueItems" (.bool true)
      (.bool false) ∧
    DisagreesFirst .keywords shelf delivery ["properties", "type", "items"] "insertionOrder"
      (.bool false) (.bool true) := by
  have htarget : (Json.obj shelf).wellFormed := by decide +kernel
  have hsource : (Json.obj delivery).wellFormed := by decide +kernel
  have hmerge : (merge shelf delivery .root).conflict = some
      ⟨⟨["properties", "type", "items"]⟩, "insertionOrder", .bool false, .bool true⟩ := by rfl
  have hother : Disagrees .keywords shelf delivery ["properties", "type"] "uniqueItems"
      (.bool true) (.bool false) :=
    .inside (by decide) rfl rfl (.inside (by decide) rfl rfl (.here rfl rfl rfl nofun rfl))
  obtain ⟨chain, hchain, hfirst⟩ := ((conflict_merge_iff htarget hsource .root).2 _).mp hmerge
  obtain rfl : ["properties", "type", "items"] = chain := congrArg SchemaPath.segments hchain
  exact ⟨htarget, hsource, hother, hfirst⟩

end SchemaClasses
