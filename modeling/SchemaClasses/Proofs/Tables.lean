import Mathlib.Data.List.Forall2
import Mathlib.Data.List.Nodup
import Mathlib.Data.List.Perm.Basic
import SchemaClasses.Assoc

/-!
# Tables without repeated keys

A table whose keys are all different is a finite function: `find?_eq_some_iff` reads the entries
off the look-up. Inserting under a new key appends (`insert_of_not_mem`), inserting under a known
one changes that entry alone (`insert_of_mem`), and neither repeats a key (`nodup_keys_insert`).
Erasing the entry that was appended last undoes the insertion (`erase_append_singleton`). In which
order the keys are left by `swapErase` depends on the keys alone (`keys_swapErase_congr`).

Two tables may also be compared entry by entry (`Related`), and all operations keep that.
-/

namespace SchemaClasses

universe u v w

/-- What is in a list has something that it is related to in the other one. -/
theorem exists_of_forall₂ {α : Type u} {β : Type v} {R : α → β → Prop} {items : List α}
    {others : List β} {item : α} (h : List.Forall₂ R items others) (hmem : item ∈ items) :
    ∃ other ∈ others, R item other := by
  induction h with
  | nil => cases hmem
  | cons hfirst _ ih =>
    rcases List.mem_cons.mp hmem with rfl | hrest
    · exact ⟨_, List.mem_cons_self, hfirst⟩
    · obtain ⟨other, hother, hrelated⟩ := ih hrest
      exact ⟨other, List.mem_cons_of_mem _ hother, hrelated⟩

/-- Lists whose items are the same in some respect are. -/
theorem map_eq_of_forall₂ {α : Type u} {β : Type v} {γ : Type w} {R : α → β → Prop} {f : α → γ}
    {g : β → γ} {items : List α} {others : List β} (h : List.Forall₂ R items others)
    (hsame : ∀ item other, R item other → f item = g other) : items.map f = others.map g := by
  induction h with
  | nil => rfl
  | cons hfirst _ ih => exact List.cons_eq_cons.mpr ⟨hsame _ _ hfirst, ih⟩

namespace Assoc

variable {κ : Type u} {α : Type v} {β : Type w} [DecidableEq κ]

/-! ### Looking up -/

/-- A key that is found stands in the table with the value found. -/
theorem mem_of_find? {table : List (κ × α)} {key : κ} {value : α}
    (h : find? table key = some value) : (key, value) ∈ table := by
  induction table with
  | nil => cases h
  | cons entry rest ih =>
    obtain ⟨k, a⟩ := entry
    by_cases hk : k = key
    · rw [find?, if_pos hk] at h
      obtain rfl := Option.some.inj h
      exact hk ▸ List.mem_cons_self
    · rw [find?, if_neg hk] at h
      exact List.mem_cons_of_mem _ (ih h)

omit [DecidableEq κ] in
/-- The keys of a table are those of its entries. -/
theorem mem_keys_of_mem {table : List (κ × α)} {key : κ} {value : α}
    (h : (key, value) ∈ table) : key ∈ keys table :=
  List.mem_map.mpr ⟨(key, value), h, rfl⟩

/-- What is found under a key shows that the table has that key. -/
theorem mem_keys_of_find? {table : List (κ × α)} {key : κ} {value : α}
    (h : find? table key = some value) : key ∈ keys table :=
  mem_keys_of_mem (mem_of_find? h)

/-- Something is found under each key of a table. -/
theorem exists_find?_of_mem_keys {table : List (κ × α)} {key : κ} (h : key ∈ keys table) :
    ∃ value, find? table key = some value :=
  Option.isSome_iff_exists.mp ((mem_keys_iff_contains table key).mp h)

/-- Nothing is found under a key if and only if the table does not have it. -/
theorem find?_eq_none_iff {table : List (κ × α)} {key : κ} :
    find? table key = none ↔ key ∉ keys table := by
  rw [mem_keys_iff_contains, contains, Bool.not_eq_true, Option.isSome_eq_false_iff,
    Option.isNone_iff_eq_none]

/-- Without repeated keys an entry that stands in the table is the one that is found. -/
theorem find?_eq_some_iff {table : List (κ × α)} (hnodup : (keys table).Nodup) {key : κ}
    {value : α} : find? table key = some value ↔ (key, value) ∈ table := by
  refine ⟨mem_of_find?, fun h => ?_⟩
  induction table with
  | nil => cases h
  | cons entry rest ih =>
    obtain ⟨k, a⟩ := entry
    obtain ⟨hk, hrest⟩ := List.nodup_cons.mp hnodup
    rcases List.mem_cons.mp h with heq | hmem
    · obtain ⟨rfl, rfl⟩ := Prod.mk.inj heq
      rw [find?, if_pos rfl]
    · have hne : k ≠ key := fun he => hk (he ▸ mem_keys_of_mem hmem)
      rw [find?, if_neg hne]
      exact ih hrest hmem

/-- Changing values by their keys changes what is found. -/
theorem find?_map (f : κ → α → β) (table : List (κ × α)) (key : κ) :
    find? (table.map fun entry => (entry.1, f entry.1 entry.2)) key =
      (find? table key).map (f key) := by
  induction table with
  | nil => rfl
  | cons entry rest ih =>
    by_cases h : entry.1 = key
    · simp [find?, h]
    · simp [find?, h, ih]

/-- Of two tables behind each other the first one is asked first. -/
theorem find?_append (front back : List (κ × α)) (key : κ) :
    find? (front ++ back) key = (find? front key).or (find? back key) := by
  induction front with
  | nil => rfl
  | cons entry rest ih =>
    by_cases h : entry.1 = key
    · simp [find?, h]
    · simp [find?, h, ih]

omit [DecidableEq κ] in
/-- Tables with the same keys and the same value under each of them are the same. -/
theorem ext_of_keys_eq {left right : List (κ × α)} (hkeys : keys left = keys right)
    (hvalues : ∀ key a b, (key, a) ∈ left → (key, b) ∈ right → a = b) : left = right := by
  induction left generalizing right with
  | nil => exact (List.map_eq_nil_iff.mp hkeys.symm).symm
  | cons entry rest ih =>
    obtain ⟨key, a⟩ := entry
    cases right with
    | nil => cases hkeys
    | cons other others =>
      obtain ⟨key', b⟩ := other
      obtain ⟨hkey, hrest⟩ := List.cons.inj hkeys
      obtain rfl : key = key' := hkey
      obtain rfl := hvalues key a b List.mem_cons_self List.mem_cons_self
      rw [ih hrest fun k v w hv hw =>
        hvalues k v w (List.mem_cons_of_mem _ hv) (List.mem_cons_of_mem _ hw)]

/-! ### Inserting -/

/-- A new key goes to the end of the table. -/
theorem insert_of_not_mem {table : List (κ × α)} {key : κ} (h : key ∉ keys table) (value : α) :
    insert table key value = table ++ [(key, value)] := by
  induction table with
  | nil => rfl
  | cons entry rest ih =>
    have hne : entry.1 ≠ key := fun he => h (he ▸ List.mem_cons_self)
    have hrest : key ∉ keys rest := fun hm => h (List.mem_cons_of_mem _ hm)
    rw [insert, if_neg hne, ih hrest, List.cons_append]

/-- A key that the table has keeps its position and gets the new value. -/
theorem insert_of_mem {table : List (κ × α)} (hnodup : (keys table).Nodup) {key : κ}
    (h : key ∈ keys table) (value : α) :
    insert table key value =
      table.map fun entry => (entry.1, if entry.1 = key then value else entry.2) := by
  induction table with
  | nil => cases h
  | cons entry rest ih =>
    obtain ⟨k, a⟩ := entry
    obtain ⟨hk, hrest⟩ := List.nodup_cons.mp hnodup
    by_cases he : k = key
    · subst he
      have same : ∀ entry ∈ rest, (entry.1, if entry.1 = k then value else entry.2) = entry := by
        intro entry hentry
        have hne : entry.1 ≠ k := fun he => hk (List.mem_map.mpr ⟨entry, hentry, he⟩)
        rw [if_neg hne]
      rw [insert, if_pos rfl, List.map_cons, if_pos rfl, List.map_congr_left same, List.map_id']
    · have hmem : key ∈ keys rest := (List.mem_cons.mp h).resolve_left fun h' => he h'.symm
      rw [insert, if_neg he, ih hrest hmem, List.map_cons, if_neg he]

/-- Putting in a value repeats no key. -/
theorem nodup_keys_insert {table : List (κ × α)} (hnodup : (keys table).Nodup) (key : κ)
    (value : α) : (keys (insert table key value)).Nodup := by
  rw [keys_insert]
  split_ifs with h
  · exact hnodup
  · have hnew : key ∉ keys table := fun hm => h ((mem_keys_iff_contains table key).mp hm)
    exact List.nodup_append.mpr ⟨hnodup, List.nodup_singleton key, by
      rintro k hk _ hkey rfl
      exact hnew (List.mem_singleton.mp hkey ▸ hk)⟩

/-- The keys after putting in a value are the old ones and the new one. -/
theorem mem_keys_insert {table : List (κ × α)} {key other : κ} {value : α} :
    other ∈ keys (insert table key value) ↔ other ∈ keys table ∨ other = key := by
  rw [keys_insert]
  split_ifs with h
  · refine ⟨Or.inl, fun hor => hor.elim id ?_⟩
    rintro rfl
    exact (mem_keys_iff_contains table other).mpr h
  · rw [List.mem_append, List.mem_singleton]

/-- Inserting what stands there changes nothing. -/
theorem insert_of_find? {table : List (κ × α)} {key : κ} {value : α}
    (h : find? table key = some value) : insert table key value = table := by
  induction table with
  | nil => cases h
  | cons entry rest ih =>
    obtain ⟨k, a⟩ := entry
    by_cases hk : k = key
    · subst hk
      rw [find?, if_pos rfl] at h
      rw [insert, if_pos rfl, Option.some.inj h]
    · rw [find?, if_neg hk] at h
      rw [insert, if_neg hk, ih h]

/-- A table into which something was put is not empty. -/
theorem insert_ne_nil (table : List (κ × α)) (key : κ) (value : α) :
    insert table key value ≠ [] := by
  intro hnil
  have hfind := find?_insert_self table key value
  rw [hnil] at hfind
  cases hfind

/-- Entries inserted one after the other come before what was there. -/
theorem find?_foldl_insert {entries : List (κ × α)} (hnodup : (keys entries).Nodup)
    (table : List (κ × α)) (key : κ) :
    find? (entries.foldl (fun table entry => insert table entry.1 entry.2) table) key =
      (find? entries key).or (find? table key) := by
  induction entries generalizing table with
  | nil => rfl
  | cons entry rest ih =>
    obtain ⟨k, a⟩ := entry
    obtain ⟨hk, hrest⟩ := List.nodup_cons.mp hnodup
    rw [List.foldl_cons, ih hrest, find?]
    by_cases he : k = key
    · subst he
      rw [find?_insert_self, if_pos rfl, find?_eq_none_iff.mpr hk]
      rfl
    · rw [find?_insert_of_ne _ _ he, if_neg he]

/-- Putting in one entry after another repeats no key. -/
theorem nodup_keys_foldl_insert {table : List (κ × α)} (hnodup : (keys table).Nodup)
    (entries : List (κ × α)) :
    (keys (entries.foldl (fun table entry => insert table entry.1 entry.2) table)).Nodup := by
  induction entries generalizing table with
  | nil => exact hnodup
  | cons entry rest ih => exact ih (nodup_keys_insert hnodup _ _)

/-- Entries with different new keys are appended. -/
theorem foldl_insert_of_nodup {table entries : List (κ × α)}
    (hnodup : (keys (table ++ entries)).Nodup) :
    entries.foldl (fun table entry => insert table entry.1 entry.2) table = table ++ entries := by
  induction entries generalizing table with
  | nil => exact (List.append_nil table).symm
  | cons entry rest ih =>
    have hnew : entry.1 ∉ keys table := by
      rw [keys, List.map_append] at hnodup
      exact fun h => List.disjoint_of_nodup_append hnodup h List.mem_cons_self
    rw [List.append_cons] at hnodup ⊢
    rw [List.foldl_cons, insert_of_not_mem hnew, ih hnodup]

/-- A table without repeated keys is built by inserting its entries. -/
theorem ofList_of_nodup {entries : List (κ × α)} (hnodup : (keys entries).Nodup) :
    ofList entries = entries :=
  foldl_insert_of_nodup hnodup

/-- What is in the table afterwards was there before or has been put in. -/
theorem mem_insert {table : List (κ × α)} {key : κ} {value : α} {entry : κ × α}
    (h : entry ∈ insert table key value) : entry ∈ table ∨ entry = (key, value) := by
  induction table with
  | nil => exact .inr (List.mem_singleton.mp h)
  | cons first rest ih =>
    rw [insert] at h
    split_ifs at h
    · exact (List.mem_cons.mp h).symm.imp (List.mem_cons_of_mem _) id
    · rcases List.mem_cons.mp h with rfl | hmem
      · exact .inl List.mem_cons_self
      · exact (ih hmem).imp (List.mem_cons_of_mem _) id

/-! ### Erasing -/

/-- Taking out what was put behind a table gives the table back. -/
theorem erase_append_singleton {table : List (κ × α)} {key : κ} (h : key ∉ keys table)
    (value : α) : erase (table ++ [(key, value)]) key = table := by
  induction table with
  | nil => simp [erase]
  | cons entry rest ih =>
    have hne : entry.1 ≠ key := fun he => h (he ▸ List.mem_cons_self)
    have hrest : key ∉ keys rest := fun hm => h (List.mem_cons_of_mem _ hm)
    rw [List.cons_append, erase, if_neg hne, ih hrest]

/-- Erasing a key adds nothing. -/
theorem mem_of_mem_erase {table : List (κ × α)} {key : κ} {entry : κ × α}
    (h : entry ∈ erase table key) : entry ∈ table := by
  induction table with
  | nil => cases h
  | cons first rest ih =>
    rw [erase] at h
    split_ifs at h
    · exact List.mem_cons_of_mem _ h
    · rcases List.mem_cons.mp h with rfl | hmem
      · exact List.mem_cons_self
      · exact List.mem_cons_of_mem _ (ih hmem)

/-- Replacing an entry adds nothing but the new one. -/
theorem mem_replaceEntry {table : List (κ × α)} {key : κ} {new entry : κ × α}
    (h : entry ∈ replaceEntry table key new) : entry ∈ table ∨ entry = new := by
  induction table with
  | nil => cases h
  | cons first rest ih =>
    rw [replaceEntry] at h
    split_ifs at h
    · exact (List.mem_cons.mp h).symm.imp (List.mem_cons_of_mem _) id
    · rcases List.mem_cons.mp h with rfl | hmem
      · exact .inl List.mem_cons_self
      · exact (ih hmem).imp (List.mem_cons_of_mem _) id

/-- Erasing adds no entry, in whichever order it leaves the others. -/
theorem mem_of_mem_swapErase {table : List (κ × α)} {key : κ} {entry : κ × α}
    (h : entry ∈ swapErase table key) : entry ∈ table := by
  unfold swapErase at h
  cases hlast : table.getLast? with
  | none =>
    rw [hlast] at h
    cases h
  | some last =>
    rw [hlast] at h
    dsimp only at h
    split_ifs at h
    · exact List.dropLast_subset _ h
    · rcases mem_replaceEntry h with hmem | rfl
      · exact List.dropLast_subset _ hmem
      · exact List.mem_of_getLast? hlast
    · exact h

/-- Erasing a key that the table does not have changes nothing. -/
theorem erase_of_not_mem {table : List (κ × α)} {key : κ} (h : key ∉ keys table) :
    erase table key = table := by
  induction table with
  | nil => rfl
  | cons first rest ih =>
    have hne : first.1 ≠ key := fun he => h (he ▸ List.mem_cons_self)
    rw [erase, if_neg hne, ih fun hm => h (List.mem_cons_of_mem _ hm)]

/-- A key of the front part is erased there. -/
theorem erase_append_of_mem {front : List (κ × α)} {key : κ} (h : key ∈ keys front)
    (back : List (κ × α)) : erase (front ++ back) key = erase front key ++ back := by
  induction front with
  | nil => cases h
  | cons first rest ih =>
    rw [List.cons_append, erase, erase]
    split_ifs with hk
    · rfl
    · rw [ih ((List.mem_cons.mp h).resolve_left fun h' => hk h'.symm), List.cons_append]

/-- Erasing a key keeps the order of the other entries. -/
theorem erase_sublist (table : List (κ × α)) (key : κ) : (erase table key).Sublist table := by
  induction table with
  | nil => exact List.Sublist.refl _
  | cons first rest ih =>
    rw [erase]
    split_ifs
    · exact List.sublist_cons_self _ _
    · exact ih.cons_cons _

/-- An erased key is gone. -/
theorem not_mem_keys_erase {table : List (κ × α)} (hnodup : (keys table).Nodup) (key : κ) :
    key ∉ keys (erase table key) := by
  induction table with
  | nil => exact List.not_mem_nil
  | cons first rest ih =>
    obtain ⟨hfirst, hrest⟩ := List.nodup_cons.mp hnodup
    rw [erase]
    split_ifs with hk
    · exact hk ▸ hfirst
    · intro hmem
      rcases List.mem_cons.mp hmem with heq | hmem
      · exact hk heq.symm
      · exact ih hrest hmem

/-- Erasing a key leaves what is found under the others. -/
theorem find?_erase_of_ne (table : List (κ × α)) {key other : κ} (h : key ≠ other) :
    find? (erase table key) other = find? table other := by
  induction table with
  | nil => rfl
  | cons first rest ih =>
    rw [erase]
    by_cases hk : first.1 = key
    · rw [if_pos hk, find?, if_neg fun he => h (hk.symm.trans he)]
    · rw [if_neg hk, find?, find?, ih]

/-- Replacing an entry is taking it out and putting in the new one, up to the order. -/
theorem replaceEntry_perm {table : List (κ × α)} {key : κ} (h : key ∈ keys table) (new : κ × α) :
    (replaceEntry table key new).Perm (new :: erase table key) := by
  induction table with
  | nil => cases h
  | cons first rest ih =>
    rw [replaceEntry, erase]
    split_ifs with hk
    · exact List.Perm.refl _
    · have hrest := ih ((List.mem_cons.mp h).resolve_left fun h' => hk h'.symm)
      exact (hrest.cons first).trans (List.Perm.swap new first _)

/-- Without repeated keys both ways of erasing leave the same entries. -/
theorem swapErase_perm_erase {table : List (κ × α)} (hnodup : (keys table).Nodup) (key : κ) :
    (swapErase table key).Perm (erase table key) := by
  rcases List.eq_nil_or_concat' table with rfl | ⟨front, last, rfl⟩
  · exact List.Perm.refl _
  have hkeys : keys (front ++ [last]) = keys front ++ [last.1] := List.map_append
  rw [hkeys] at hnodup
  have hlast : last.1 ∉ keys front := fun h =>
    List.disjoint_of_nodup_append hnodup h List.mem_cons_self
  unfold swapErase
  rw [List.getLast?_append_cons, List.dropLast_concat]
  dsimp only [List.getLast?_singleton]
  split_ifs with heq hmem
  · subst heq
    obtain ⟨key, value⟩ := last
    rw [erase_append_singleton hlast]
  · rw [← mem_keys_iff_contains, hkeys, List.mem_append] at hmem
    have hfront : key ∈ keys front :=
      hmem.resolve_right fun h => heq (List.mem_singleton.mp h).symm
    rw [erase_append_of_mem hfront]
    exact (replaceEntry_perm hfront last).trans (List.perm_append_singleton last _).symm
  · rw [erase_of_not_mem fun h => hmem ((mem_keys_iff_contains _ _).mp h)]

/-- A table whose keys differ still has different ones after a swap-remove. -/
theorem nodup_keys_swapErase {table : List (κ × α)} (hnodup : (keys table).Nodup) (key : κ) :
    (keys (swapErase table key)).Nodup := by
  have hperm : (keys (swapErase table key)).Perm (keys (erase table key)) :=
    (swapErase_perm_erase hnodup key).map _
  exact hperm.nodup_iff.mpr (hnodup.sublist ((erase_sublist table key).map _))

/-- What is erased is gone. -/
theorem find?_swapErase_self {table : List (κ × α)} (hnodup : (keys table).Nodup) (key : κ) :
    find? (swapErase table key) key = none := by
  have hperm : (keys (swapErase table key)).Perm (keys (erase table key)) :=
    (swapErase_perm_erase hnodup key).map _
  rw [find?_eq_none_iff, hperm.mem_iff]
  exact not_mem_keys_erase hnodup key

/-- A swap-remove leaves what is found under the other keys. -/
theorem find?_swapErase_of_ne {table : List (κ × α)} (hnodup : (keys table).Nodup) {key other : κ}
    (h : key ≠ other) : find? (swapErase table key) other = find? table other := by
  have herase : (keys (erase table key)).Nodup := hnodup.sublist ((erase_sublist table key).map _)
  rw [← find?_erase_of_ne table h]
  refine Option.ext fun value => ?_
  rw [find?_eq_some_iff (nodup_keys_swapErase hnodup key), find?_eq_some_iff herase,
    (swapErase_perm_erase hnodup key).mem_iff]

/-! ### The order of the keys -/

/-- Where an entry is replaced depends on the keys only. -/
theorem keys_replaceEntry_congr {left right : List (κ × α)} (h : keys left = keys right) (key : κ)
    {new new' : κ × α} (hnew : new.1 = new'.1) :
    keys (replaceEntry left key new) = keys (replaceEntry right key new') := by
  induction left generalizing right with
  | nil =>
    obtain rfl : right = [] := List.map_eq_nil_iff.mp h.symm
    rfl
  | cons first rest ih =>
    cases right with
    | nil => cases h
    | cons first' rest' =>
      obtain ⟨hfirst, hrest⟩ := List.cons.inj h
      obtain ⟨first, value⟩ := first
      obtain ⟨other, value'⟩ := first'
      obtain rfl : first = other := hfirst
      rw [replaceEntry, replaceEntry]
      split_ifs
      · exact List.cons_eq_cons.mpr ⟨hnew, hrest⟩
      · exact List.cons_eq_cons.mpr ⟨rfl, ih hrest⟩

/-- Which keys are left and in which order depends on the keys alone. -/
theorem keys_swapErase_congr {left right : List (κ × α)} (h : keys left = keys right) (key : κ) :
    keys (swapErase left key) = keys (swapErase right key) := by
  have hsnoc : ∀ (front : List (κ × α)) (last : κ × α),
      keys (front ++ [last]) = keys front ++ [last.1] := fun _ _ => List.map_append
  rcases List.eq_nil_or_concat' left with rfl | ⟨front, last, rfl⟩
  · obtain rfl : right = [] := List.map_eq_nil_iff.mp h.symm
    rfl
  rcases List.eq_nil_or_concat' right with rfl | ⟨front', last', rfl⟩
  · cases List.append_ne_nil_of_right_ne_nil _ (List.cons_ne_nil _ _) (List.map_eq_nil_iff.mp h)
  have hcontains : contains (front ++ [last]) key = contains (front' ++ [last']) key := by
    rw [Bool.eq_iff_iff, ← mem_keys_iff_contains, ← mem_keys_iff_contains, h]
  have hall := h
  rw [hsnoc, hsnoc] at h
  obtain ⟨hfront, hlast⟩ := List.append_inj' h rfl
  obtain hlast : last.1 = last'.1 := (List.cons.inj hlast).1
  unfold swapErase
  simp only [List.getLast?_append_cons, List.getLast?_singleton, List.dropLast_concat, hcontains,
    hlast]
  split_ifs
  · exact hfront
  · exact keys_replaceEntry_congr hfront key hlast
  · exact hall

/-! ### Related tables -/

section Related

variable {R : κ → α → β → Prop} {left : List (κ × α)} {right : List (κ × β)}

/-- Tables with the same keys in the same order and related values. -/
def Related (R : κ → α → β → Prop) (left : List (κ × α)) (right : List (κ × β)) : Prop :=
  List.Forall₂ (fun entry other => entry.1 = other.1 ∧ R entry.1 entry.2 other.2) left right

omit [DecidableEq κ] in
/-- Related tables have the same keys in the same order. -/
theorem Related.keys_eq (h : Related R left right) : keys left = keys right :=
  map_eq_of_forall₂ h fun _ _ hentry => hentry.1

/-- Under a key stands nothing on either side, or related values do. -/
theorem Related.find?_cases (h : Related R left right) (key : κ) :
    (find? left key = none ∧ find? right key = none) ∨
      ∃ a b, find? left key = some a ∧ find? right key = some b ∧ R key a b := by
  induction h with
  | nil => exact .inl ⟨rfl, rfl⟩
  | @cons entry other _ _ hfirst _ ih =>
    obtain ⟨hkey, hrelated⟩ := hfirst
    by_cases heq : entry.1 = key
    · refine .inr ⟨entry.2, other.2, ?_, ?_, heq ▸ hrelated⟩
      · rw [find?, if_pos heq]
      · rw [find?, if_pos (hkey ▸ heq)]
    · rw [find?, if_neg heq, find?, if_neg fun h => heq (hkey.trans h)]
      exact ih

/-- Related tables contain the same keys. -/
theorem Related.contains_eq (h : Related R left right) (key : κ) :
    contains left key = contains right key := by
  unfold contains
  rcases h.find?_cases key with ⟨hnone, hnone'⟩ | ⟨_, _, ha, hb, -⟩
  · rw [hnone, hnone']
    rfl
  · rw [ha, hb]
    rfl

/-- Putting related values under the same key keeps tables related. -/
theorem Related.insert (h : Related R left right) {key : κ} {a : α} {b : β} (hvalue : R key a b) :
    Related R (insert left key a) (Assoc.insert right key b) := by
  induction h with
  | nil => exact .cons ⟨rfl, hvalue⟩ .nil
  | @cons entry other _ _ hfirst hrest ih =>
    by_cases heq : entry.1 = key
    · rw [Assoc.insert, if_pos heq, Assoc.insert, if_pos (hfirst.1 ▸ heq)]
      exact .cons ⟨rfl, hvalue⟩ hrest
    · rw [Assoc.insert, if_neg heq, Assoc.insert, if_neg fun h => heq (hfirst.1.trans h)]
      exact .cons hfirst ih

/-- Erasing the same key keeps tables related. -/
theorem Related.erase (h : Related R left right) (key : κ) :
    Related R (erase left key) (Assoc.erase right key) := by
  induction h with
  | nil => exact .nil
  | @cons entry other _ _ hfirst hrest ih =>
    by_cases heq : entry.1 = key
    · rw [Assoc.erase, if_pos heq, Assoc.erase, if_pos (hfirst.1 ▸ heq)]
      exact hrest
    · rw [Assoc.erase, if_neg heq, Assoc.erase, if_neg fun h => heq (hfirst.1.trans h)]
      exact .cons hfirst ih

/-- Tables without repeated keys are related if they have the same keys and what is found under a
key is related. -/
theorem related_iff (hnodup : (keys left).Nodup) :
    Related R left right ↔ keys left = keys right ∧ ∀ key a b, find? left key = some a →
      find? right key = some b → R key a b := by
  constructor
  · intro h
    refine ⟨h.keys_eq, fun key a b ha hb => ?_⟩
    rcases h.find?_cases key with ⟨hnone, -⟩ | ⟨c, d, hc, hd, hrelated⟩
    · cases ha.symm.trans hnone
    · obtain rfl := Option.some.inj (ha.symm.trans hc)
      obtain rfl := Option.some.inj (hb.symm.trans hd)
      exact hrelated
  · rintro ⟨hkeys, hall⟩
    induction left generalizing right with
    | nil =>
      obtain rfl : right = [] := List.map_eq_nil_iff.mp hkeys.symm
      exact .nil
    | cons first rest ih =>
      obtain ⟨hmissing, hrest⟩ := List.nodup_cons.mp hnodup
      cases right with
      | nil => cases hkeys
      | cons other rest' =>
        obtain ⟨key, a⟩ := first
        obtain ⟨key', b⟩ := other
        obtain ⟨hkey, htail⟩ := List.cons.inj hkeys
        obtain rfl : key = key' := hkey
        refine .cons ⟨rfl, hall key a b (if_pos rfl) (if_pos rfl)⟩ (ih hrest htail ?_)
        intro k v w hv hw
        have hne : key ≠ k := fun heq => hmissing (heq ▸ mem_keys_of_find? hv)
        exact hall k v w (by rw [find?, if_neg hne, hv]) (by rw [find?, if_neg hne, hw])

end Related

end Assoc

end SchemaClasses
