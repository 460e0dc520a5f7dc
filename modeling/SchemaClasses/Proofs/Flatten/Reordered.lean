import SchemaClasses.Proofs.Flatten.Fated
import SchemaClasses.Proofs.Flatten.Orderly
import SchemaClasses.Proofs.Merge.Alike

/-!
# Documents whose schemas are named in another order

Main statement (`flattenWithin_alike`): if two documents differ in the order of their tables of
schemas only and both are faithful, then they are flattened to entries at the same places, and the
entries at each place are the same.

In a faithful document what is listed is what `Becomes` says, and that knows nothing of the order in
which the walk comes to the schemas. So it is enough to compare fates: alike schemas of alike
documents have alike fates (`Becomes.alike`), because members of combiners are in the same order on
both sides and merges of alike schemas are alike, and the walks that they call for are those of
alike schemas (`Calls.alike`).
-/

namespace SchemaClasses.Flatten

open Json (Alike keysAt alike_arr_iff)

/-! ### Alike fates -/

/-- Whether what becomes of two schemas differs in the order of names at most. -/
inductive Fate.Like : Fate → Fate → Prop where
  /-- Both are listed. -/
  | listed {entry entry' : Entries} (h : Alike .keywords (.obj entry) (.obj entry')) :
      Like (.listed entry) (.listed entry')
  /-- Both refer to the same place. -/
  | refers (target : SchemaPath) : Like (.refers target) (.refers target)
  /-- Both stay where they are. -/
  | inPlace {schema schema' : Json} (h : Alike .keywords schema schema') :
      Like (.inPlace schema) (.inPlace schema')

/-- Whether alike schemas stand at the same place. -/
def AlikeAt (site site' : Site) : Prop :=
  site.1 = site'.1 ∧ Alike .keywords site.2 site'.2

/-- Being alike at a place goes both ways. -/
theorem AlikeAt.symm {site site' : Site} (h : AlikeAt site site') : AlikeAt site' site :=
  ⟨h.1.symm, h.2.symm⟩

section Fates

variable {path target : SchemaPath} {fate fate' : Fate}

/-- A reference to a place is alike to itself. -/
theorem alike_toSchema (path : SchemaPath) :
    Alike .keywords (Reference.canonical path).toSchema (Reference.canonical path).toSchema := by
  refine Json.alike_refl (Json.wellFormed_obj.mpr ⟨List.nodup_singleton _, fun entry hentry => ?_⟩)
  obtain rfl := List.mem_singleton.mp hentry
  rfl

/-- Alike fates leave alike schemas behind. -/
theorem Fate.Like.toJson (h : fate.Like fate') :
    Alike .keywords (fate.toJson path) (fate'.toJson path) := by
  cases h with
  | listed => exact alike_toSchema path
  | refers target => exact alike_toSchema target
  | inPlace h => exact h

/-- Alike fates contribute alike schemas to a merge. -/
theorem Fate.Like.contribution (h : fate.Like fate') :
    Alike .keywords fate.contribution fate'.contribution := by
  cases h with
  | listed h => exact h
  | refers target => exact alike_toSchema target
  | inPlace h => exact h

/-- Alike fates stay alike when they are seen from somewhere else. -/
theorem Fate.Like.seenFrom (h : fate.Like fate') (target : SchemaPath) :
    (fate.seenFrom target).Like (fate'.seenFrom target) := by
  cases h with
  | listed => exact .refers target
  | refers other => exact .refers other
  | inPlace h => exact .inPlace h

end Fates

/-! ### What alike schemas consist of -/

section Parts

variable {path : SchemaPath} {node node' : Entries} {site : Site}

/-- Alike schemas have the same text for their `$ref`, if any. -/
theorem textRef?_alike (h : Alike .keywords (.obj node) (.obj node')) :
    textRef? node' = textRef? node := by
  refine Option.ext fun text => ?_
  rw [textRef?_eq_some_iff, textRef?_eq_some_iff]
  exact ⟨h.symm.find?_str, h.find?_str⟩

/-- Alike schemas have the same shape. -/
theorem ofSchema_alike (h : Alike .keywords (.obj node) (.obj node')) :
    Shape.ofSchema node' = Shape.ofSchema node := by
  unfold Shape.ofSchema
  rcases h.find?_cases typeKey with ⟨hnone, hnone'⟩ | ⟨value, value', hvalue, hvalue', hlike⟩
  · rw [hnone, hnone']
  · rw [hvalue, hvalue']
    cases value with
    | arr =>
      obtain ⟨others, rfl, -⟩ := hlike.exists_arr
      rfl
    | obj =>
      obtain ⟨others, rfl⟩ := hlike.exists_obj
      rfl
    | _ => rw [hlike.eq_of_isAtom rfl]

/-- The members of alike combiners are alike at the same places. -/
theorem memberPlaces_alike {combiner : String} {index : Nat} {members members' : List Json}
    (h : List.Forall₂ (Alike .keywords) members members') :
    List.Forall₂ AlikeAt (memberPlaces path combiner index members)
      (memberPlaces path combiner index members') := by
  induction h generalizing index with
  | nil => exact .nil
  | cons hfirst _ ih => exact .cons ⟨rfl, hfirst⟩ ih

/-- A member of a combiner has one like it on the other side. -/
theorem exists_mem_membersOf (h : Alike .keywords (.obj node) (.obj node'))
    (hsite : site ∈ membersOf path node) : ∃ site' ∈ membersOf path node', AlikeAt site site' := by
  obtain ⟨combiner, hcombiner, members, hmembers, hplace⟩ := mem_membersUnder.mp hsite
  obtain ⟨value, hvalue, hlike⟩ := h.exists_find? hmembers
  obtain ⟨members', rfl, -⟩ := hlike.exists_arr
  obtain ⟨site', hsite', halike⟩ := exists_of_forall₂
    (memberPlaces_alike (alike_arr_iff.mp hlike)) hplace
  exact ⟨site', mem_membersUnder.mpr ⟨combiner, hcombiner, members', hvalue, hsite'⟩, halike⟩

/-- A schema in a table has one like it on the other side. -/
theorem exists_mem_schemasOf (h : Alike .keywords (.obj node) (.obj node'))
    (hsite : site ∈ schemasOf path node) : ∃ site' ∈ schemasOf path node', AlikeAt site site' := by
  obtain ⟨keyword, hkeyword, members, hmembers, ⟨name, schema⟩, hentry, rfl⟩ :=
    mem_schemasOf.mp hsite
  obtain ⟨value, hvalue, hlike⟩ := h.exists_find? hmembers
  rw [below_of_mem_tables hkeyword] at hlike
  obtain ⟨members', rfl⟩ := hlike.exists_obj
  obtain ⟨schema', hschema', halike⟩ := hlike.exists_find?
    ((Assoc.find?_eq_some_iff hlike.nodup).mpr hentry)
  exact ⟨_, mem_schemasOf.mpr ⟨keyword, hkeyword, members', hvalue, (name, schema'),
    Assoc.mem_of_find? hschema', rfl⟩, rfl, halike⟩

end Parts

/-! ### Folding and settling alike schemas -/

section Folding

variable {path : SchemaPath} {fates fates' : Fates} {node node' folded : Entries} {fate : Fate}

/-- Steps that lead from alike values to alike values over alike items do so over alike lists. -/
theorem foldlM_alike {α β : Type} {R : α → α → Prop} {S : β → β → Prop}
    {f g : β → α → Option β} {items items' : List α} (hitems : List.Forall₂ R items items')
    (hstep : ∀ item ∈ items, ∀ item', R item item' → ∀ b b' c, S b b' → f b item = some c →
      ∃ c', g b' item' = some c' ∧ S c c')
    {b b' c : β} (hb : S b b') (hc : items.foldlM f b = some c) :
    ∃ c', items'.foldlM g b' = some c' ∧ S c c' := by
  induction hitems generalizing b b' with
  | nil =>
    obtain rfl := Option.some.inj hc
    exact ⟨b', rfl, hb⟩
  | cons hfirst _ ih =>
    rw [List.foldlM_cons] at hc
    obtain ⟨d, hd, hrest⟩ := Option.bind_eq_some_iff.mp hc
    obtain ⟨d', hd', hlike⟩ := hstep _ List.mem_cons_self _ hfirst _ _ _ hb hd
    obtain ⟨c', hc', hlike'⟩ := ih (fun item hitem => hstep item (List.mem_cons_of_mem _ hitem))
      hlike hrest
    refine ⟨c', ?_, hlike'⟩
    rw [List.foldlM_cons]
    exact Option.bind_eq_some_iff.mpr ⟨d', hd', hc'⟩

/-- Whether schemas have alike fates in some places, as far as they are alike. -/
def LikeFates (fates fates' : Fates) (sites : List Site) : Prop :=
  ∀ site ∈ sites, ∀ site', AlikeAt site site' →
    (fates site.1 site.2).Like (fates' site'.1 site'.2)

/-- Folding a member into alike schemas gives alike schemas. -/
theorem foldFate_alike {site site' : Site}
    (hfates : (fates site.1 site.2).Like (fates' site'.1 site'.2))
    (hnode : Alike .keywords (.obj node) (.obj node'))
    (hfold : foldFate path fates node site = some folded) :
    ∃ folded', foldFate path fates' node' site' = some folded' ∧
      Alike .keywords (.obj folded) (.obj folded') := by
  have hlike := hfates.contribution
  unfold foldFate at hfold ⊢
  generalize (fates site.1 site.2).contribution = contributed at hlike hfold
  generalize (fates' site'.1 site'.2).contribution = contributed' at hlike
  cases contributed with
  | obj source =>
    obtain ⟨source', rfl⟩ := hlike.exists_obj
    dsimp only at hfold
    cases hagree : (merge node source path).conflict with
    | some conflict =>
      rw [hagree] at hfold
      cases hfold
    | none =>
      rw [hagree] at hfold
      obtain rfl := Option.some.inj hfold
      obtain ⟨hagree', hmerged⟩ := hnode.merge hlike hagree
      exact ⟨_, by simp only [hagree'], hmerged⟩
  | arr =>
    obtain ⟨others, rfl, -⟩ := hlike.exists_arr
    exact ⟨node', rfl, Option.some.inj hfold ▸ hnode⟩
  | _ =>
    rw [hlike.eq_of_isAtom rfl]
    exact ⟨node', rfl, Option.some.inj hfold ▸ hnode⟩

/-- The combiners of alike schemas are folded to alike schemas. -/
theorem foldAll_alike (hnode : Alike .keywords (.obj node) (.obj node'))
    (hfates : LikeFates fates fates' (membersOf path node))
    (hfold : foldAll path fates node = some folded) :
    ∃ folded', foldAll path fates' node' = some folded' ∧
      Alike .keywords (.obj folded) (.obj folded') := by
  refine foldlM_alike (R := Eq) (S := fun b b' => Alike .keywords (.obj b) (.obj b'))
    (List.forall₂_same.mpr fun _ _ => rfl) ?_ hnode hfold
  rintro combiner hcombiner _ rfl b b' c hb hc
  unfold foldCombinerFate at hc ⊢
  rcases hnode.find?_cases combiner with ⟨hnone, hnone'⟩ | ⟨value, value', hvalue, hvalue', hlike⟩
  · rw [hnone] at hc
    rw [hnone']
    exact ⟨b', rfl, Option.some.inj hc ▸ hb⟩
  rw [hvalue] at hc
  rw [hvalue']
  cases value with
  | arr members =>
    obtain ⟨members', rfl, -⟩ := hlike.exists_arr
    refine foldlM_alike (R := AlikeAt) (S := fun b b' => Alike .keywords (.obj b) (.obj b'))
      (memberPlaces_alike (alike_arr_iff.mp hlike)) ?_ (hb.swapErase combiner) hc
    intro site hsite site' halike d d' e hd he
    exact foldFate_alike (hfates site
      (mem_membersUnder.mpr ⟨combiner, hcombiner, members, hvalue, hsite⟩) site' halike) hd he
  | _ => cases hc

/-- Alike tables are flattened to alike tables. -/
theorem flatTable_alike {keyword : String} {members members' : Entries}
    (hmembers : Alike .names (.obj members) (.obj members'))
    (hfates : LikeFates fates fates'
      (members.map fun entry => (path ++ [keyword, entry.1], entry.2))) :
    Alike .names (.obj (flatTable path fates keyword members))
      (.obj (flatTable path fates' keyword members')) := by
  refine Json.alike_of_find?_cases ?_ ?_ nofun fun name => ?_
  · rw [keys_flatTable]
    exact hmembers.nodup
  · rw [keys_flatTable]
    exact hmembers.symm.nodup
  rw [find?_flatTable, find?_flatTable]
  rcases hmembers.find?_cases name with ⟨hnone, hnone'⟩ | ⟨schema, schema', hfind, hfind', hlike⟩
  · exact .inl ⟨by rw [hnone]; rfl, by rw [hnone']; rfl⟩
  · have hlikeFates := hfates _ (List.mem_map_of_mem (Assoc.mem_of_find? hfind))
      (path ++ [keyword, name], schema') ⟨rfl, hlike⟩
    exact .inr ⟨_, _, by rw [hfind]; rfl, by rw [hfind']; rfl, hlikeFates.toJson⟩

/-- Alike schemas are settled alike. -/
theorem settle_alike {folded' : Entries} (hfolded : Alike .keywords (.obj folded) (.obj folded'))
    (hfates : LikeFates fates fates' (schemasOf path folded))
    (hsettle : settle path fates folded = some fate) :
    ∃ fate', settle path fates' folded' = some fate' ∧ fate.Like fate' := by
  -- the schemas of a table that the schema has
  have htable : ∀ keyword ∈ tables, ∀ members value',
      Assoc.find? folded keyword = some (.obj members) →
      Alike (.under keyword) (.obj members) value' → ∃ members', value' = .obj members' ∧
        Alike .keywords
          (.obj (Assoc.insert folded keyword (.obj (flatTable path fates keyword members))))
          (.obj (Assoc.insert folded' keyword
            (.obj (flatTable path fates' keyword members')))) := by
    intro keyword hkeyword members value' hmembers hlike
    obtain ⟨members', rfl⟩ := hlike.exists_obj
    refine ⟨members', rfl, hfolded.insert ?_⟩
    rw [below_of_mem_tables hkeyword]
    refine flatTable_alike (below_of_mem_tables hkeyword ▸ hlike) fun site hsite => ?_
    obtain ⟨entry, hentry, rfl⟩ := List.mem_map.mp hsite
    exact hfates _ (mem_schemasOf.mpr ⟨keyword, hkeyword, members, hmembers, entry, hentry, rfl⟩)
  unfold settle at hsettle ⊢
  rcases hfolded.find?_cases "properties" with
    ⟨hnone, hnone'⟩ | ⟨value, value', hvalue, hvalue', hlike⟩
  · rcases hfolded.find?_cases "patternProperties" with
      ⟨hbare, hbare'⟩ | ⟨value, value', hvalue, hvalue', hlike⟩
    · rw [hnone, hbare] at hsettle
      rw [hnone', hbare']
      exact ⟨_, rfl, Option.some.inj hsettle ▸ .inPlace hfolded⟩
    · rw [hnone, hvalue] at hsettle
      rw [hnone', hvalue']
      cases value with
      | obj members =>
        obtain ⟨members', rfl, hinserted⟩ := htable _ (by decide) members value' hvalue hlike
        exact ⟨_, rfl, Option.some.inj hsettle ▸ .inPlace hinserted⟩
      | _ => cases hsettle
  · rcases hfolded.find?_cases "patternProperties" with
      ⟨hbare, hbare'⟩ | ⟨other, other', hother, hother', -⟩
    · rw [hvalue, hbare] at hsettle
      rw [hvalue', hbare']
      cases value with
      | obj members =>
        obtain ⟨members', rfl, hinserted⟩ := htable _ (by decide) members value' hvalue hlike
        exact ⟨_, rfl, Option.some.inj hsettle ▸ .listed hinserted⟩
      | _ => cases hsettle
    · rw [hvalue, hother] at hsettle
      cases value <;> cases hsettle

/-- Alike arrays are settled alike. -/
theorem settleArray_alike (hnode : Alike .keywords (.obj node) (.obj node'))
    (hfates : ∀ items items', Assoc.find? node "items" = some items →
      Alike .keywords items items' →
        (fates (path.child "items") items).Like (fates' (path.child "items") items')) :
    (settleArray path fates node).Like (settleArray path fates' node') := by
  unfold settleArray
  rcases hnode.find?_cases "items" with ⟨hnone, hnone'⟩ | ⟨items, items', hitems, hitems', hlike⟩
  · rw [hnone, hnone']
    exact .inPlace hnode
  · rw [hitems, hitems']
    exact .inPlace (hnode.insert (hfates items items' hitems hlike).toJson)

end Folding

/-! ### Alike documents -/

section Documents

variable {document document' : Json} (hlike : Alike .keywords document document')

include hlike

/-- A place that is named in a document is named in an alike one. -/
theorem named_alike {target : SchemaPath} (h : Named document target) : Named document' target := by
  obtain ⟨⟨place, text, hmem, htarget⟩, hsome⟩ := h
  obtain ⟨schema, hschema⟩ := Option.isSome_iff_exists.mp hsome
  obtain ⟨schema', hschema', -⟩ := hlike.at? hschema
  exact ⟨⟨place, text, hlike.mem_refs hmem, htarget⟩, Option.isSome_of_eq_some hschema'⟩

variable (hkeys : ∀ target, Named document target → keysAt target = .keywords)

include hkeys

/-- A reference leads to alike schemas. -/
theorem exists_target_alike {target : SchemaPath} {schema : Json} (hnamed : Named document target)
    (hschema : document.at? target = some schema) :
    ∃ schema', document'.at? target = some schema' ∧ Alike .keywords schema schema' := by
  obtain ⟨schema', hschema', halike⟩ := hlike.at? hschema
  exact ⟨schema', hschema', hkeys target hnamed ▸ halike⟩

variable {path : SchemaPath} {schema schema' : Json} {fate : Fate}

/-- Alike schemas have alike fates. -/
theorem Becomes.alike (h : Becomes document path schema fate)
    (hschema : Alike .keywords schema schema') :
    ∃ fate', Becomes document' path schema' fate' ∧ fate.Like fate' := by
  induction h generalizing schema' with
  | @follow path target node text schema fate htext htarget hnamed hat _ ih =>
    obtain ⟨node', rfl⟩ := hschema.exists_obj
    obtain ⟨schema', hat', hbelow⟩ := exists_target_alike hlike hkeys hnamed hat
    obtain ⟨fate', hfate', hfates⟩ := ih hbelow
    exact ⟨_, .follow ((textRef?_alike hschema).trans htext) htarget (named_alike hlike hnamed)
      hat' hfate', hfates.seenFrom target⟩
  | @refer path target node text htext htarget hother =>
    obtain ⟨node', rfl⟩ := hschema.exists_obj
    exact ⟨_, .refer ((textRef?_alike hschema).trans htext) htarget
      fun hnamed => hother (named_alike hlike.symm hnamed), .refers target⟩
  | @bool path value =>
    obtain rfl := hschema.eq_of_isAtom rfl
    exact ⟨_, .bool, .inPlace hschema⟩
  | other hplain hshape =>
    obtain ⟨node', rfl⟩ := hschema.exists_obj
    exact ⟨_, .other ((textRef?_alike hschema).trans hplain)
      ((ofSchema_alike hschema).trans hshape), .inPlace hschema⟩
  | @array path node fates hplain hshape _ ih =>
    obtain ⟨node', rfl⟩ := hschema.exists_obj
    have hitems : ∀ items items', Assoc.find? node "items" = some items →
        Alike .keywords items items' →
        Becomes document' (path.child "items") items'
            (fateOf document' (path.child "items") items') ∧
          (fates (path.child "items") items).Like
            (fateOf document' (path.child "items") items') := by
      intro items items' hitems halike
      obtain ⟨fate', hfate', hfates⟩ := ih items hitems halike
      exact ⟨hfate'.fateOf_eq ▸ hfate', hfate'.fateOf_eq ▸ hfates⟩
    refine ⟨_, .array ((textRef?_alike hschema).trans hplain)
      ((ofSchema_alike hschema).trans hshape) fun items' hitems' => ?_,
      settleArray_alike hschema fun items items' h halike => (hitems items items' h halike).2⟩
    obtain ⟨items, hfind, halike⟩ := hschema.symm.exists_find? hitems'
    exact (hitems items items' hfind halike.symm).1
  | @object path node folded fates fate hplain hshape _ hfold _ hsettle ihmembers ihschemas =>
    obtain ⟨node', rfl⟩ := hschema.exists_obj
    -- a schema has one fate, so what is known of some fate is known of the one that is looked up
    have hfate : ∀ sites : List Site, (∀ site ∈ sites, ∀ schema', Alike .keywords site.2 schema' →
        ∃ fate', Becomes document' site.1 schema' fate' ∧
          (fates site.1 site.2).Like fate') → ∀ site ∈ sites, ∀ site', AlikeAt site site' →
        Becomes document' site'.1 site'.2 (fateOf document' site'.1 site'.2) ∧
          (fates site.1 site.2).Like (fateOf document' site'.1 site'.2) := by
      rintro sites h ⟨place, schema⟩ hsite ⟨_, schema'⟩ ⟨rfl, halike⟩
      obtain ⟨fate', hfate', hfates⟩ := h _ hsite schema' halike
      exact ⟨hfate'.fateOf_eq ▸ hfate', hfate'.fateOf_eq ▸ hfates⟩
    have hmembers := hfate _ fun site hsite schema' halike => ihmembers site hsite halike
    have hschemas := hfate _ fun site hsite schema' halike => ihschemas site hsite halike
    obtain ⟨folded', hfold', hfolded⟩ := foldAll_alike hschema
      (fun site hsite site' halike => (hmembers site hsite site' halike).2) hfold
    obtain ⟨fate', hsettle', hfates⟩ := settle_alike hfolded
      (fun site hsite site' halike => (hschemas site hsite site' halike).2) hsettle
    refine ⟨fate', .object ((textRef?_alike hschema).trans hplain)
      ((ofSchema_alike hschema).trans hshape) (fun site' hsite' => ?_) hfold'
      (fun site' hsite' => ?_) hsettle', hfates⟩
    · obtain ⟨site, hsite, halike⟩ := exists_mem_membersOf hschema.symm hsite'
      exact (hmembers site hsite site' halike.symm).1
    · obtain ⟨site, hsite, halike⟩ := exists_mem_schemasOf hfolded.symm hsite'
      exact (hschemas site hsite site' halike.symm).1

/-- The combiners of alike schemas are folded to alike schemas. -/
theorem Folds.alike {node node' folded : Entries} (h : Folds document path node folded)
    (hnode : Alike .keywords (.obj node) (.obj node')) :
    ∃ folded', Folds document' path node' folded' ∧
      Alike .keywords (.obj folded) (.obj folded') := by
  have hmembers : ∀ site ∈ membersOf path node, ∀ site', AlikeAt site site' →
      ∃ fate', Becomes document' site'.1 site'.2 fate' ∧
        (fateOf document site.1 site.2).Like fate' := by
    rintro ⟨place, schema⟩ hsite ⟨_, schema'⟩ ⟨rfl, halike⟩
    exact (becomes_fateOf (h.members _ hsite)).alike hlike hkeys halike
  have hfates : LikeFates (fateOf document) (fateOf document') (membersOf path node) := by
    intro site hsite site' halike
    obtain ⟨fate', hfate', hfates⟩ := hmembers site hsite site' halike
    exact hfate'.fateOf_eq ▸ hfates
  obtain ⟨folded', hfold', hfolded⟩ := foldAll_alike hnode hfates h.eq_some
  refine ⟨folded', ⟨fun site' hsite' => ?_, hfold'⟩, hfolded⟩
  obtain ⟨site, hsite, halike⟩ := exists_mem_membersOf hnode.symm hsite'
  obtain ⟨fate', hfate', -⟩ := hmembers site hsite site' halike.symm
  exact ⟨fate', hfate'⟩

/-- The walk of a schema calls for the same walks as that of a schema like it. -/
theorem Calls.alike {role : Role} {site next site' : Site} (h : Calls document role site next)
    (hsite : AlikeAt site site') :
    ∃ next', Calls document' role site' next' ∧ AlikeAt next next' := by
  obtain ⟨path, schema⟩ := site
  obtain ⟨path', schema'⟩ := site'
  obtain ⟨rfl, hschema⟩ : path = path' ∧ Alike .keywords schema schema' := hsite
  cases h with
  | @target _ target _ text found htext htarget hnamed hat =>
    obtain ⟨node', rfl⟩ := hschema.exists_obj
    obtain ⟨found', hat', hbelow⟩ := exists_target_alike hlike hkeys hnamed hat
    exact ⟨(target, found'), .target ((textRef?_alike hschema).trans htext) htarget
      (named_alike hlike hnamed) hat', rfl, hbelow⟩
  | items hplain hshape hitems =>
    obtain ⟨node', rfl⟩ := hschema.exists_obj
    obtain ⟨items', hitems', hbelow⟩ := hschema.exists_find? hitems
    exact ⟨(path.child "items", items'), .items ((textRef?_alike hschema).trans hplain)
      ((ofSchema_alike hschema).trans hshape) hitems', rfl, hbelow⟩
  | member hplain hshape hmember =>
    obtain ⟨node', rfl⟩ := hschema.exists_obj
    obtain ⟨next', hnext', halike⟩ := exists_mem_membersOf hschema hmember
    exact ⟨next', .member ((textRef?_alike hschema).trans hplain)
      ((ofSchema_alike hschema).trans hshape) hnext', halike⟩
  | @schema _ node folded members keyword name found hplain hshape hfolds hkeyword hmembers hfind =>
    obtain ⟨node', rfl⟩ := hschema.exists_obj
    obtain ⟨folded', hfolds', hfolded⟩ := hfolds.alike hlike hkeys hschema
    obtain ⟨value', hvalue', hbelow⟩ := hfolded.exists_find? hmembers
    rw [below_of_mem_tables hkeyword] at hbelow
    obtain ⟨members', rfl⟩ := hbelow.exists_obj
    obtain ⟨found', hfind', hfound⟩ := hbelow.exists_find? hfind
    exact ⟨(path ++ [keyword, name], found'), .schema ((textRef?_alike hschema).trans hplain)
      ((ofSchema_alike hschema).trans hshape) hfolds' hkeyword hvalue' hfind', rfl, hfound⟩

/-- What is visited in a document is visited in an alike one. -/
theorem visited_alike {site : Site} (h : Visited document site) :
    ∃ site', Visited document' site' ∧ AlikeAt site site' := by
  induction h with
  | refl => exact ⟨_, .refl, rfl, hlike⟩
  | tail _ hcall ih =>
    obtain ⟨before', hbefore', halike⟩ := ih
    obtain ⟨role, hcall⟩ := hcall
    obtain ⟨next', hcall', hnext⟩ := hcall.alike hlike hkeys halike
    exact ⟨next', hbefore'.tail ⟨role, hcall'⟩, hnext⟩

/-- What is walked in its own right in a document is so in an alike one. -/
theorem Owned.alike {site : Site} (h : Owned document site) :
    ∃ site', Owned document' site' ∧ AlikeAt site site' := by
  rcases h with rfl | ⟨before, hbefore, hcall⟩
  · exact ⟨_, .inl rfl, rfl, hlike⟩
  · obtain ⟨before', hbefore', halike⟩ := visited_alike hlike hkeys hbefore
    obtain ⟨next', hcall', hnext⟩ := hcall.alike hlike hkeys halike
    exact ⟨next', .inr ⟨before', hbefore', hcall'⟩, hnext⟩

end Documents

/-! ### Flattening alike documents -/

section Runs

variable {document document' : Json} {depth depth' : Nat} {schemas schemas' : FlatSchemas}
  {path : SchemaPath}

/-- An entry of one document has one like it at the same place in the other. -/
theorem exists_entry_alike (hlike : Alike .keywords document document')
    (hwf : document.wellFormed) (hwf' : document'.wellFormed)
    (hfaithful : Faithful document) (hfaithful' : Faithful document')
    (hflatten : flattenWithin depth document = .ok schemas)
    (hflatten' : flattenWithin depth' document' = .ok schemas') {entry : Entries}
    (hentry : Assoc.find? schemas path = some entry) :
    ∃ entry', Assoc.find? schemas' path = some entry' ∧
      Alike .keywords (.obj entry) (.obj entry') := by
  have hkeys : ∀ target, Named document target → keysAt target = .keywords :=
    fun target hnamed => (hfaithful.target target hnamed).1
  obtain ⟨schema, howned, hfate⟩ :=
    (find?_flattenWithin_iff hfaithful hwf hflatten).mp hentry
  obtain ⟨⟨_, schema'⟩, howned', rfl, hschema⟩ := howned.alike hlike hkeys
  obtain ⟨fate', hfate', hfates⟩ := hfate.alike hlike hkeys hschema
  cases hfates with
  | listed halike =>
    exact ⟨_, (find?_flattenWithin_iff hfaithful' hwf' hflatten').mpr ⟨schema', howned', hfate'⟩,
      halike⟩

/-- What faithful documents that differ in the order of their tables of schemas only are flattened
to has the same places, and the same schema at each of them. -/
theorem flattenWithin_alike (hlike : Alike .keywords document document')
    (hwf : document.wellFormed) (hwf' : document'.wellFormed)
    (hfaithful : Faithful document) (hfaithful' : Faithful document')
    (hflatten : flattenWithin depth document = .ok schemas)
    (hflatten' : flattenWithin depth' document' = .ok schemas') :
    (∀ path, path ∈ Assoc.keys schemas ↔ path ∈ Assoc.keys schemas') ∧
      ∀ path entry entry', Assoc.find? schemas path = some entry →
        Assoc.find? schemas' path = some entry' → Json.same (.obj entry) (.obj entry') := by
  have hthere : ∀ {path entry}, Assoc.find? schemas path = some entry →
      ∃ entry', Assoc.find? schemas' path = some entry' ∧
        Alike .keywords (.obj entry) (.obj entry') :=
    exists_entry_alike hlike hwf hwf' hfaithful hfaithful' hflatten hflatten'
  have hback : ∀ {path entry}, Assoc.find? schemas' path = some entry →
      ∃ entry', Assoc.find? schemas path = some entry' ∧
        Alike .keywords (.obj entry) (.obj entry') :=
    exists_entry_alike hlike.symm hwf' hwf hfaithful' hfaithful hflatten' hflatten
  refine ⟨fun path => ⟨fun hmem => ?_, fun hmem => ?_⟩, fun path entry entry' hentry hentry' => ?_⟩
  · obtain ⟨entry, hentry⟩ := Assoc.exists_find?_of_mem_keys hmem
    obtain ⟨entry', hentry', -⟩ := hthere hentry
    exact Assoc.mem_keys_of_find? hentry'
  · obtain ⟨entry, hentry⟩ := Assoc.exists_find?_of_mem_keys hmem
    obtain ⟨entry', hentry', -⟩ := hback hentry
    exact Assoc.mem_keys_of_find? hentry'
  · obtain ⟨other, hother, halike⟩ := hthere hentry
    obtain rfl := Option.some.inj (hentry'.symm.trans hother)
    exact halike.same

end Runs

/-! ### Documents in two orders -/

/-- The schema of a text. -/
def textSchema : Json :=
  .obj [(typeKey, .str "string")]

/-- An object schema. -/
def objectOf (properties : Entries) : Json :=
  .obj [("properties", .obj properties)]

/-- A reference. -/
def refersTo (pointer : String) : Json :=
  .obj [(refKey, .str pointer)]

/-- A document with references to the members of a combiner and to the schema around it. -/
def crossing (order : Entries → Entries) : Json :=
  objectOf (order [
    ("p1", refersTo "#/properties/p2/allOf/0"),
    ("p2", .obj [("allOf", .arr [objectOf [("a", textSchema)],
      objectOf [("b", objectOf (order [("c", textSchema), ("d", textSchema)]))]])]),
    ("p3", refersTo "#/properties/p2"),
    ("p4", refersTo "#/properties/p2/allOf/1")])

/-- The theorem at `crossing`: the classes are listed in another order, and are the same. -/
theorem flattenWithin_alike_crossing :
    ∃ schemas schemas', flatten (crossing id) = .ok schemas ∧
      flatten (crossing List.reverse) = .ok schemas' ∧
      Assoc.keys schemas = [⟨["properties", "p2", "allOf", "0"]⟩,
        ⟨["properties", "p2", "allOf", "1", "properties", "b"]⟩, ⟨["properties", "p2"]⟩,
        ⟨["properties", "p2", "allOf", "1"]⟩, .root] ∧
      Assoc.keys schemas' = [⟨["properties", "p2", "allOf", "1", "properties", "b"]⟩,
        ⟨["properties", "p2", "allOf", "1"]⟩, ⟨["properties", "p2"]⟩,
        ⟨["properties", "p2", "allOf", "0"]⟩, .root] ∧
      ∀ path entry entry', Assoc.find? schemas path = some entry →
        Assoc.find? schemas' path = some entry' → Json.same (.obj entry) (.obj entry') := by
  have hwf : (crossing id).wellFormed := by decide +kernel
  have hwf' : (crossing List.reverse).wellFormed := by decide +kernel
  have hlike : Json.isAlike .keywords (crossing id) (crossing List.reverse) := by decide +kernel
  have horderly : isOrderly (crossing id) := by decide +kernel
  have horderly' : isOrderly (crossing List.reverse) := by decide +kernel
  have hplaces : (flatten (crossing id)).toOption.map Assoc.keys =
      some [⟨["properties", "p2", "allOf", "0"]⟩,
        ⟨["properties", "p2", "allOf", "1", "properties", "b"]⟩, ⟨["properties", "p2"]⟩,
        ⟨["properties", "p2", "allOf", "1"]⟩, .root] := by decide +kernel
  have hplaces' : (flatten (crossing List.reverse)).toOption.map Assoc.keys =
      some [⟨["properties", "p2", "allOf", "1", "properties", "b"]⟩,
        ⟨["properties", "p2", "allOf", "1"]⟩, ⟨["properties", "p2"]⟩,
        ⟨["properties", "p2", "allOf", "0"]⟩, .root] := by decide +kernel
  obtain ⟨schemas, hflatten, hkeys⟩ := exists_of_keys hplaces
  obtain ⟨schemas', hflatten', hkeys'⟩ := exists_of_keys hplaces'
  exact ⟨schemas, schemas', hflatten, hflatten', hkeys, hkeys',
    (flattenWithin_alike (Json.alike_of_isAlike hlike) hwf hwf' (faithful_of_isOrderly hwf horderly)
      (faithful_of_isOrderly hwf' horderly') hflatten hflatten').2⟩

/-- Whether two documents differ in the order of their tables of schemas only and are flattened to
different schemas at a place. -/
def FlattensApart (document document' : Json) (path : SchemaPath) : Prop :=
  Alike .keywords document document' ∧ document.wellFormed ∧ document'.wellFormed ∧
    ∃ schemas schemas' entry entry', flatten document = .ok schemas ∧
      flatten document' = .ok schemas' ∧ Assoc.find? schemas path = some entry ∧
      Assoc.find? schemas' path = some entry' ∧ ¬Json.same (.obj entry) (.obj entry')

/-- The entry of a flattened document at a place. -/
def entryAt? (document : Json) (path : SchemaPath) : Option Entries :=
  (flatten document).toOption.bind fun schemas => Assoc.find? schemas path

/-- An entry of a flattened document is one of a table that flattening gives. -/
theorem exists_of_entryAt? {document : Json} {path : SchemaPath} {entry : Entries}
    (h : entryAt? document path = some entry) :
    ∃ schemas, flatten document = .ok schemas ∧ Assoc.find? schemas path = some entry := by
  unfold entryAt? at h
  cases hflatten : flatten document with
  | ok schemas =>
    rw [hflatten] at h
    exact ⟨schemas, rfl, h⟩
  | error error =>
    rw [hflatten] at h
    cases h

/-- Whether two documents are flattened apart, by evaluation. -/
def checkApart (document document' : Json) (path : SchemaPath) : Bool :=
  Json.isAlike .keywords document document' && document.wellFormed && document'.wellFormed &&
    match entryAt? document path, entryAt? document' path with
    | some entry, some entry' => !Json.same (.obj entry) (.obj entry')
    | _, _ => false

/-- The evaluation is right about documents that are flattened apart. -/
theorem flattensApart_of_check {document document' : Json} {path : SchemaPath}
    (h : checkApart document document' path) : FlattensApart document document' path := by
  rw [checkApart, Bool.and_eq_true, Bool.and_eq_true, Bool.and_eq_true] at h
  obtain ⟨⟨⟨hlike, hwf⟩, hwf'⟩, hentries⟩ := h
  split at hentries
  · rename_i entry entry' hentry hentry'
    obtain ⟨schemas, hflatten, hfind⟩ := exists_of_entryAt? hentry
    obtain ⟨schemas', hflatten', hfind'⟩ := exists_of_entryAt? hentry'
    exact ⟨Json.alike_of_isAlike hlike, hwf, hwf', schemas, schemas', entry, entry', hflatten,
      hflatten', hfind, hfind', by simpa using hentries⟩
  · cases hentries

/-- A document with a reference to a property that a combiner adds to. -/
def amended (order : Entries → Entries) : Json :=
  .obj [
    ("properties", .obj (order [("x", objectOf [("a", textSchema)]),
      ("y", refersTo "#/properties/x")])),
    ("allOf", .arr [objectOf [("x", .obj [("description", .str "d")])]])]

/-- A document with a reference to a member of a combiner, in whose place comes what another member
has brought in. -/
def displaced (member : Json) (definitions : Entries) (order : Entries → Entries) : Json :=
  .obj [
    ("properties", .obj (order [("p", refersTo "#/properties/q/allOf/0"),
      ("q", .obj [("oneOf", .arr [member]), ("allOf", .arr [objectOf [("a", textSchema)]])])])),
    ("definitions", .obj definitions)]

/-- A text with a combiner, which is passed over. -/
def coated : Json :=
  .obj [(typeKey, .str "string"), ("allOf", .arr [objectOf [("b", textSchema)]])]

/-- A document with a reference to a table of properties, whose names are those of keywords. -/
def tabular (order : Entries → Entries) : Json :=
  .obj [
    ("properties", .obj [("q", .obj [("allOf", .arr [refersTo "#/definitions/t/properties"])])]),
    ("definitions", .obj [
      ("t", objectOf (order [("type", textSchema), ("$ref", refersTo "#/definitions/u")])),
      ("u", textSchema)])]

/-- Without the conditions the order matters. There is a pair of documents for each of them, for
which only that one is not met. -/
theorem flatten_order_matters :
    (orderChecks (amended id) = [true, true, true, false] ∧
      FlattensApart (amended id) (amended List.reverse) ⟨["properties", "x"]⟩) ∧
    (orderChecks (displaced coated [] id) = [false, true, true, true] ∧
      FlattensApart (displaced coated [] id) (displaced coated [] List.reverse)
        ⟨["properties", "q"]⟩) ∧
    (orderChecks (displaced (refersTo "#/definitions/t") [("t", coated)] id) =
        [true, true, false, true] ∧
      FlattensApart (displaced (refersTo "#/definitions/t") [("t", coated)] id)
        (displaced (refersTo "#/definitions/t") [("t", coated)] List.reverse)
        ⟨["properties", "q"]⟩) ∧
    (orderChecks (tabular id) = [true, false, true, true] ∧
      FlattensApart (tabular id) (tabular List.reverse) .root) := by
  refine ⟨⟨?_, flattensApart_of_check ?_⟩, ⟨?_, flattensApart_of_check ?_⟩,
    ⟨?_, flattensApart_of_check ?_⟩, ⟨?_, flattensApart_of_check ?_⟩⟩ <;> decide +kernel

end SchemaClasses.Flatten
