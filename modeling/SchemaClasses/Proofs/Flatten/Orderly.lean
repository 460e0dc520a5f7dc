import SchemaClasses.Proofs.Flatten.Faithful
import SchemaClasses.Proofs.Merge.LookUp

/-!
# Documents whose references keep clear of merges

Main statement (`faithful_of_isOrderly`): a document is faithful if no combiner is passed over where
a schema may be merged or referred to, and no reference leads to or past a schema in a table that a
member of a combiner may change.

A member leaves a schema in a table alone if it is no reference, has no combiners and does not have
that name in its own table (`touches`). Then what it contributes has nothing under that name either
(`Spares`), and merging it changes nothing there (`Agrees.merge`). So what is walked where no
combiner changes anything stands in the document (`at?_of_visited`).
-/

namespace SchemaClasses.Flatten

open Json (keysAt)
open Merge (IsOrdinary agree_of_objects find?_mergeEntries isOrdinary_names
  nodup_keys_mergeEntries)

/-! ### The check -/

/-- Whether a member of a combiner may change what stands under a name in a table of the schema
around it. -/
def touches (keyword name : String) : Json → Bool
  | .obj member => (textRef? member).isSome || !lacksCombiners (.obj member) ||
      match Assoc.find? member keyword with
      | none => false
      | some (.obj entries) => decide (name ∈ Assoc.keys entries)
      | some _ => true
  | _ => false

/-- Whether some member of a combiner of an object may. -/
def isTouched (keyword name : String) : Json → Bool
  | .obj node => combiners.any fun combiner =>
      match Assoc.find? node combiner with
      | some (.arr members) => members.any (touches keyword name)
      | _ => false
  | _ => false

/-- Whether a path through a value leads to or past a schema in a table that a combiner may
change. -/
def isRewritten (value : Json) : List String → Bool
  | keyword :: name :: rest =>
    (decide (keyword ∈ tables) && isTouched keyword name value) ||
      match value.step? keyword with
      | some next => isRewritten next (name :: rest)
      | none => false
  | _ => false

/-- The places in a document that its references lead to. -/
def targetsOf (document : Json) : List SchemaPath :=
  (document.refs.filterMap fun reference => (SchemaPath.ofPointer reference.2).toOption).filter
    fun target => (document.at? target).isSome

/-- What is asked of an orderly document: no combiner is passed over in a member of a combiner, all
references lead to schemas, no combiner is passed over there, and no combiner changes what is
there. -/
def orderChecks (document : Json) : List Bool :=
  [document.everywhere hasFoldableMembers,
    (targetsOf document).all fun target => keysAt target = .keywords,
    (targetsOf document).all fun target => (document.at? target).all isFoldable,
    (targetsOf document).all fun target => !isRewritten document target.segments]

/-- Whether a document meets all of this. -/
def isOrderly (document : Json) : Bool :=
  (orderChecks document).all id

/-- The targets of a document are the places that its references name. -/
theorem mem_targetsOf {document : Json} {target : SchemaPath} :
    target ∈ targetsOf document ↔ Named document target := by
  rw [targetsOf, List.mem_filter, List.mem_filterMap, Named]
  refine and_congr_left fun _ => ⟨?_, ?_⟩
  · rintro ⟨⟨place, text⟩, hmem, htarget⟩
    refine ⟨place, text, hmem, ?_⟩
    cases htext : SchemaPath.ofPointer text with
    | ok path =>
      rw [htext] at htarget
      exact congrArg _ (Option.some.inj htarget)
    | error error =>
      rw [htext] at htarget
      cases htarget
  · rintro ⟨place, text, hmem, htarget⟩
    exact ⟨(place, text), hmem, by rw [htarget]; rfl⟩

section Rewritten

variable {value next : Json} {segment keyword name : String} {path more : List String}

/-- What is rewritten below a segment is rewritten. -/
theorem isRewritten_cons (hstep : value.step? segment = some next) (h : isRewritten next path) :
    isRewritten value (segment :: path) := by
  cases path with
  | nil => cases h
  | cons name rest =>
    rw [isRewritten, hstep, Bool.or_eq_true]
    exact .inr h

/-- Going on along a path does not help. -/
theorem isRewritten_append (h : isRewritten value path) : isRewritten value (path ++ more) := by
  induction path generalizing value with
  | nil => cases h
  | cons segment rest ih =>
    cases rest with
    | nil => cases h
    | cons name rest =>
      rw [isRewritten, Bool.or_eq_true] at h
      rcases h with htouched | hbelow
      · rw [List.cons_append, List.cons_append, isRewritten, htouched, Bool.true_or]
      · cases hstep : value.step? segment with
        | none =>
          rw [hstep] at hbelow
          cases hbelow
        | some next =>
          rw [hstep] at hbelow
          exact isRewritten_cons hstep (ih hbelow)

/-- A schema in a table is rewritten if a member of a combiner beside the table may change it. -/
theorem isRewritten_of_isTouched (hvalue : value.descend? path = some next)
    (hkeyword : keyword ∈ tables) (h : isTouched keyword name next) :
    isRewritten value (path ++ [keyword, name]) := by
  induction path generalizing value with
  | nil =>
    obtain rfl := Option.some.inj hvalue
    rw [List.nil_append, isRewritten, h, decide_eq_true hkeyword]
    rfl
  | cons segment rest ih =>
    obtain ⟨between, hstep, hrest⟩ := Option.bind_eq_some_iff.mp hvalue
    exact isRewritten_cons hstep (ih hrest)

end Rewritten

/-! ### What is left alone -/

/-- Whether a schema has no schema under a name in one of its tables. -/
structure Spares (keyword name : String) (source : Entries) : Prop where
  nodup : (Assoc.keys source).Nodup
  table : ∀ value, Assoc.find? source keyword = some value →
    ∃ entries, value = .obj entries ∧ (Assoc.keys entries).Nodup ∧ name ∉ Assoc.keys entries

/-- Whether a schema has the same under a name in one of its tables as another one. -/
structure Agrees (keyword name : String) (first node : Entries) : Prop where
  nodup : (Assoc.keys node).Nodup
  table : ∀ entries, Assoc.find? node keyword = some (.obj entries) → (Assoc.keys entries).Nodup
  same : ∀ entries schema, Assoc.find? node keyword = some (.obj entries) →
    Assoc.find? entries name = some schema →
    ∃ entries', Assoc.find? first keyword = some (.obj entries') ∧
      Assoc.find? entries' name = some schema

section Tables

variable {keyword name key : String} {first node source members : Entries} {path : SchemaPath}
  {fates : Fates} {fate : Fate}

/-- Agreement depends only on the table under the keyword. -/
theorem Agrees.congr {other : Entries} (h : Agrees keyword name first node)
    (hnodup : (Assoc.keys other).Nodup)
    (hfind : Assoc.find? other keyword = Assoc.find? node keyword) :
    Agrees keyword name first other :=
  ⟨hnodup, fun entries hentries => h.table entries (hfind.symm.trans hentries),
    fun entries schema hentries => h.same entries schema (hfind.symm.trans hentries)⟩

/-- A schema with a table agrees with another one if what the table has under the name is there,
too. -/
theorem Agrees.of_table {entries : Entries} (hnodup : (Assoc.keys node).Nodup)
    (hfind : Assoc.find? node keyword = some (.obj entries)) (hentries : (Assoc.keys entries).Nodup)
    (hsame : ∀ schema, Assoc.find? entries name = some schema →
      ∃ entries', Assoc.find? first keyword = some (.obj entries') ∧
        Assoc.find? entries' name = some schema) : Agrees keyword name first node := by
  refine ⟨hnodup, fun other hother => ?_, fun other schema hother hschema => ?_⟩
  · exact Json.obj.inj (Option.some.inj (hfind.symm.trans hother)) ▸ hentries
  · obtain rfl := Json.obj.inj (Option.some.inj (hfind.symm.trans hother))
    exact hsame schema hschema

/-- A merge with a schema that spares a name changes nothing there. -/
theorem Agrees.merge (hkeyword : keyword ∈ tables) (h : Agrees keyword name first node)
    (hspares : Spares keyword name source)
    (hagree : (SchemaClasses.merge node source path).conflict = none) :
    Agrees keyword name first (SchemaClasses.merge node source path).value := by
  have hordinary : ∀ keyword ∈ tables, IsOrdinary .keywords keyword := by decide
  have hlook := find?_mergeEntries (hordinary keyword hkeyword) h.nodup hspares.nodup hagree
  have hnodup := nodup_keys_mergeEntries hagree h.nodup
  cases hnew : Assoc.find? source keyword with
  | none =>
    rw [hnew, Merge.joined_none] at hlook
    exact h.congr hnodup hlook
  | some value =>
    obtain ⟨new, rfl, hnewNodup, hmissing⟩ := hspares.table value hnew
    -- where the table of the source stands, there is no schema under the name
    have htaken : ∀ schema, Assoc.find? new name = some schema →
        ∃ entries', Assoc.find? first keyword = some (.obj entries') ∧
          Assoc.find? entries' name = some schema :=
      fun _ hschema => absurd (Assoc.mem_keys_of_find? hschema) hmissing
    rw [hnew] at hlook
    rcases hold : Assoc.find? node keyword with _ | value
    · rw [hold] at hlook
      exact .of_table hnodup hlook hnewNodup htaken
    · rw [hold] at hlook
      cases value with
      | obj old =>
        have hinner := agree_of_objects (hordinary keyword hkeyword) h.nodup hagree hold hnew
        refine .of_table hnodup hlook (nodup_keys_mergeEntries hinner (h.table old hold))
          fun schema hschema => ?_
        rw [below_of_mem_tables hkeyword] at hinner hschema
        rw [find?_mergeEntries (isOrdinary_names name) (h.table old hold) hnewNodup hinner,
          Assoc.find?_eq_none_iff.mpr hmissing, Merge.joined_none] at hschema
        exact h.same old schema hold hschema
      | _ => exact .of_table hnodup hlook hnewNodup htaken

/-- Folding members whose contributions spare a name changes nothing there. -/
theorem Agrees.foldFate {site : Site} {between : Entries} (hkeyword : keyword ∈ tables)
    (h : Agrees keyword name first node)
    (hspares : ∀ source, (fates site.1 site.2).contribution = .obj source →
      Spares keyword name source)
    (hfold : Flatten.foldFate path fates node site = some between) :
    Agrees keyword name first between := by
  unfold Flatten.foldFate at hfold
  cases hcontribution : (fates site.1 site.2).contribution with
  | obj source =>
    rw [hcontribution] at hfold
    dsimp only at hfold
    cases hagree : (SchemaClasses.merge node source path).conflict with
    | some conflict =>
      rw [hagree] at hfold
      cases hfold
    | none =>
      rw [hagree] at hfold
      exact Option.some.inj hfold ▸ h.merge hkeyword (hspares source hcontribution) hagree
  | _ =>
    rw [hcontribution] at hfold
    exact Option.some.inj hfold ▸ h

/-- What each step keeps holds in the end. -/
theorem foldlM_keeps {α β : Type} {P : β → Prop} {f : β → α → Option β} {items : List α}
    (hstep : ∀ item ∈ items, ∀ b c, P b → f b item = some c → P c) {b c : β} (hb : P b)
    (hc : items.foldlM f b = some c) : P c := by
  induction items generalizing b with
  | nil => exact Option.some.inj hc ▸ hb
  | cons item rest ih =>
    rw [List.foldlM_cons] at hc
    obtain ⟨d, hd, hrest⟩ := Option.bind_eq_some_iff.mp hc
    exact ih (fun item hitem => hstep item (List.mem_cons_of_mem _ hitem))
      (hstep item List.mem_cons_self b d hb hd) hrest

/-- Folding members that spare a name puts nothing new under that name. -/
theorem agrees_foldAll {folded : Entries} (hkeyword : keyword ∈ tables)
    (hnodup : (Assoc.keys first).Nodup)
    (htable : ∀ entries, Assoc.find? first keyword = some (.obj entries) →
      (Assoc.keys entries).Nodup)
    (hspares : ∀ site ∈ membersOf path first, ∀ source,
      (fates site.1 site.2).contribution = .obj source → Spares keyword name source)
    (hfold : foldAll path fates first = some folded) : Agrees keyword name first folded := by
  refine foldlM_keeps (fun combiner hcombiner b c hb hc => ?_)
    ⟨hnodup, htable, fun entries schema hentries hschema => ⟨entries, hentries, hschema⟩⟩ hfold
  unfold foldCombinerFate at hc
  split at hc
  · exact Option.some.inj hc ▸ hb
  · rename_i members hmembers
    have hne : combiner ≠ keyword := fun heq => not_mem_combiners hkeyword (heq ▸ hcombiner)
    have hdropped := hb.congr (Assoc.nodup_keys_swapErase hb.nodup combiner)
      (Assoc.find?_swapErase_of_ne hb.nodup hne)
    refine foldlM_keeps (fun site hsite d e hd he => ?_) hdropped hc
    exact hd.foldFate hkeyword (hspares site (mem_membersUnder.mpr
      ⟨combiner, hcombiner, members, hmembers, hsite⟩)) he
  · cases hc

/-! ### What a member contributes -/

/-- What is put under another key adds nothing to the table. -/
theorem Spares.insert_of_ne {value : Json} (h : Spares keyword name node) (hne : key ≠ keyword) :
    Spares keyword name (Assoc.insert node key value) := by
  refine ⟨Assoc.nodup_keys_insert h.nodup key value, fun other hother => ?_⟩
  rw [Assoc.find?_insert_of_ne _ _ hne] at hother
  exact h.table other hother

/-- The schemas of a table have the same names after their walks. -/
theorem Spares.insert_flatTable (h : Spares keyword name node)
    (hmembers : Assoc.find? node key = some (.obj members)) :
    Spares keyword name (Assoc.insert node key (.obj (flatTable path fates key members))) := by
  by_cases heq : key = keyword
  · subst heq
    obtain ⟨entries, hentries, hnodup, hmissing⟩ := h.table _ hmembers
    obtain rfl := Json.obj.inj hentries
    refine ⟨Assoc.nodup_keys_insert h.nodup key _, fun value hvalue => ?_⟩
    rw [Assoc.find?_insert_self] at hvalue
    refine ⟨_, (Option.some.inj hvalue).symm, ?_, ?_⟩ <;> rw [keys_flatTable] <;> assumption
  · exact h.insert_of_ne heq

/-- A schema without combiners folds to itself. -/
theorem foldAll_of_lacksCombiners (h : lacksCombiners (.obj node)) :
    foldAll path fates node = some node := by
  have hskip : ∀ combiner ∈ combiners, ∀ between,
      foldCombinerFate path fates node between combiner = some between := by
    intro combiner hcombiner between
    unfold foldCombinerFate
    rw [find?_combiner h hcombiner]
  rw [foldAll, foldlM_congr hskip node]
  rfl

/-- What a schema that spares a name settles to spares that name. -/
theorem Spares.settle (h : Spares keyword name node)
    (hsettle : Flatten.settle path fates node = some fate)
    (hsource : fate.contribution = .obj source) : Spares keyword name source := by
  unfold Flatten.settle at hsettle
  split at hsettle
  · rename_i members hmembers _
    obtain rfl := Option.some.inj hsettle
    exact Json.obj.inj hsource ▸ h.insert_flatTable hmembers
  · rename_i members _ hmembers
    obtain rfl := Option.some.inj hsettle
    exact Json.obj.inj hsource ▸ h.insert_flatTable hmembers
  · obtain rfl := Option.some.inj hsettle
    exact Json.obj.inj hsource ▸ h
  · cases hsettle

/-- What an array that spares a name settles to spares that name. -/
theorem Spares.settleArray (hkeyword : keyword ∈ tables) (h : Spares keyword name node)
    (hsource : (Flatten.settleArray path fates node).contribution = .obj source) :
    Spares keyword name source := by
  unfold Flatten.settleArray at hsource
  split at hsource
  · exact Json.obj.inj hsource ▸ h
  · have hne : ∀ keyword ∈ tables, "items" ≠ keyword := by decide
    exact Json.obj.inj hsource ▸ h.insert_of_ne (hne keyword hkeyword)

/-- A member that does not touch a name is a plain schema without combiners that spares the name. -/
theorem spares_of_touches {member : Entries} (hwf : (Json.obj member).wellFormed)
    (h : touches keyword name (.obj member) = false) :
    textRef? member = none ∧ lacksCombiners (.obj member) ∧ Spares keyword name member := by
  rw [touches, Bool.or_eq_false_iff, Bool.or_eq_false_iff] at h
  obtain ⟨⟨hplain, hlacks⟩, htable⟩ := h
  refine ⟨Option.isNone_iff_eq_none.mp (Option.isSome_eq_false_iff.mp hplain), ?_, ?_⟩
  · simpa using hlacks
  · obtain ⟨hnodup, hentries⟩ := Json.wellFormed_obj.mp hwf
    refine ⟨hnodup, fun value hvalue => ?_⟩
    rw [hvalue] at htable
    cases value with
    | obj entries =>
      have hbelow := hentries _ (Assoc.mem_of_find? hvalue)
      exact ⟨entries, rfl, (Json.wellFormed_obj.mp hbelow).1, of_decide_eq_false htable⟩
    | _ => cases htable

/-- What a member contributes that does not touch a name spares it. -/
theorem spares_of_becomes {document member : Json} {place : SchemaPath}
    (hkeyword : keyword ∈ tables) (hwf : member.wellFormed)
    (htouches : touches keyword name member = false) (h : Becomes document place member fate)
    (hsource : fate.contribution = .obj source) : Spares keyword name source := by
  cases h with
  | follow htext =>
    obtain ⟨hplain, -⟩ := spares_of_touches hwf htouches
    cases hplain.symm.trans htext
  | refer htext =>
    obtain ⟨hplain, -⟩ := spares_of_touches hwf htouches
    cases hplain.symm.trans htext
  | bool => cases hsource
  | other =>
    obtain ⟨-, -, hspares⟩ := spares_of_touches hwf htouches
    exact Json.obj.inj hsource ▸ hspares
  | array =>
    obtain ⟨-, -, hspares⟩ := spares_of_touches hwf htouches
    exact hspares.settleArray hkeyword hsource
  | object _ _ _ hfold _ hsettle =>
    obtain ⟨-, hlacks, hspares⟩ := spares_of_touches hwf htouches
    rw [foldAll_of_lacksCombiners hlacks] at hfold
    obtain rfl := Option.some.inj hfold
    exact hspares.settle hsettle hsource

end Tables

/-! ### Orderly documents -/

section Documents

variable {document : Json} {path : SchemaPath} {site : Site}

/-- If a name in a table is not touched, no member of any combiner touches it. -/
theorem lacksTouch {node : Entries} {keyword name combiner : String} {members : List Json}
    (h : isTouched keyword name (.obj node) = false) (hcombiner : combiner ∈ combiners)
    (hmembers : Assoc.find? node combiner = some (.arr members)) {member : Json}
    (hmember : member ∈ members) : touches keyword name member = false := by
  have hall := List.any_eq_false.mp h combiner hcombiner
  rw [hmembers] at hall
  exact Bool.eq_false_iff.mpr (List.any_eq_false.mp (Bool.eq_false_iff.mpr hall) member hmember)

/-- A schema in a table that no combiner touches is there from the beginning. -/
theorem exists_of_folds {node folded members : Entries} {keyword name : String} {schema : Json}
    (hfolds : Folds document path node folded) (hwf : (Json.obj node).wellFormed)
    (hkeyword : keyword ∈ tables) (huntouched : isTouched keyword name (.obj node) = false)
    (hmembers : Assoc.find? folded keyword = some (.obj members))
    (hschema : Assoc.find? members name = some schema) :
    ∃ members', Assoc.find? node keyword = some (.obj members') ∧
      Assoc.find? members' name = some schema := by
  obtain ⟨hnodup, hentries⟩ := Json.wellFormed_obj.mp hwf
  refine (agrees_foldAll hkeyword hnodup (fun entries hfind => ?_) (fun site hsite source hsource =>
    ?_) hfolds.eq_some).same members schema hmembers hschema
  · exact (Json.wellFormed_obj.mp (hentries _ (Assoc.mem_of_find? hfind))).1
  · obtain ⟨combiner, hcombiner, items, hitems, hplace⟩ := mem_membersUnder.mp hsite
    have hmember := mem_of_mem_memberPlaces hplace
    have hwfMember := (Json.wellFormed_arr.mp (hentries _ (Assoc.mem_of_find? hitems))).2 _ hmember
    exact spares_of_becomes hkeyword hwfMember (lacksTouch huntouched hcombiner hitems hmember)
      (becomes_fateOf (hfolds.members site hsite)) hsource

/-- What is walked at a place that no combiner changes stands there in the document. -/
theorem at?_of_visited (hwf : document.wellFormed) (h : Visited document site)
    (hkept : isRewritten document site.1.segments = false) :
    document.at? site.1 = some site.2 := by
  have hfront : ∀ {front : SchemaPath} {segment : String},
      isRewritten document (front.child segment).segments = false →
        isRewritten document front.segments = false := by
    intro front segment hfalse
    rw [Bool.eq_false_iff] at hfalse ⊢
    exact fun htrue => hfalse (isRewritten_append htrue)
  induction h with
  | refl => rfl
  | @tail before site hvisited hcall ih =>
    obtain ⟨role, hcall⟩ := hcall
    cases hcall with
    | target _ _ _ hschema => exact hschema
    | items _ _ hitems => rw [at?_child (ih (hfront hkept)), hitems]
    | member _ _ hmember =>
      obtain ⟨combiner, -, members, hmembers, hplace⟩ := mem_membersUnder.mp hmember
      obtain ⟨index, hindex, hpath⟩ := mem_memberPlaces.mp hplace
      rw [Nat.zero_add, SchemaPath.append_pair] at hpath
      rw [hpath] at hkept ⊢
      have hnode := ih (hfront (hfront hkept))
      have hitems := (at?_child hnode combiner).trans hmembers
      have hlength := (Json.wellFormed_arr.mp (Json.wellFormed_of_descend? hitems hwf)).1
      have hlt := (List.getElem?_eq_some_iff.mp hindex).1
      rw [at?_item hitems (by omega), hindex]
    | @schema path node folded members keyword name schema _ _ hfolds hkeyword hmembers hschema =>
      rw [SchemaPath.append_pair] at hkept ⊢
      have hnode := ih (hfront (hfront hkept))
      have huntouched : isTouched keyword name (.obj node) = false := by
        rw [Bool.eq_false_iff] at hkept ⊢
        intro htouched
        have hrewritten := isRewritten_of_isTouched hnode hkeyword htouched
        rw [← SchemaPath.append_pair] at hkept
        exact hkept hrewritten
      obtain ⟨members', hmembers', hschema'⟩ := exists_of_folds hfolds
        (Json.wellFormed_of_descend? hnode hwf) hkeyword huntouched hmembers hschema
      rw [at?_child ((at?_child hnode keyword).trans hmembers'), hschema']

/-- A document whose references keep clear of merges is faithful. -/
theorem faithful_of_isOrderly (hwf : document.wellFormed) (h : isOrderly document) :
    Faithful document := by
  simp only [isOrderly, orderChecks, List.all_cons, List.all_nil, Bool.and_true, Bool.and_eq_true,
    id, List.all_eq_true, mem_targetsOf, decide_eq_true_iff] at h
  obtain ⟨hfoldable, hkeys, htargets, hkept⟩ := h
  refine ⟨hfoldable, fun target hnamed => ⟨hkeys target hnamed, fun schema hschema => ?_⟩,
    fun target schema hnamed hvisited => ?_⟩
  · have hall := htargets target hnamed
    rwa [hschema] at hall
  · exact at?_of_visited hwf hvisited (Bool.not_eq_true' _ ▸ hkept target hnamed)

end Documents

end SchemaClasses.Flatten
