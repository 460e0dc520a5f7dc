import Mathlib.Logic.Function.Basic
import SchemaClasses.Inline.Combine
import SchemaClasses.Proofs.Json.References

/-!
# Redirecting the references of a value

`Json.redirect` gives each object at a place of a table a new reference at once. It is what
changing one reference after another comes to (`modifyDescend?_redirect`), and all it does to the
references of a value is to replace their texts (`refs_redirect`); every place that led to a value
still does (`isSome_descend?_redirect`).
-/

namespace SchemaClasses.Json

/-! ### All references at once -/

mutual

/-- The value with the reference of each object replaced for which the table has a text. -/
def redirect (target : List String → Option String) : Json → Json
  | arr items => arr (redirectItems target 0 items)
  | obj entries => obj (redirectEntries target entries)
  | value => value

/-- The items of an array from some position on, with their references replaced. -/
def redirectItems (target : List String → Option String) (index : Nat) : List Json → List Json
  | [] => []
  | item :: rest =>
    redirect (fun place => target (SchemaPath.ofIndex index :: place)) item ::
      redirectItems target (index + 1) rest

/-- The entries of an object with its reference and those in the entries replaced. -/
def redirectEntries (target : List String → Option String) : Entries → Entries
  | [] => []
  | (key, value) :: rest =>
    (key, ((if key = refKey then target [] else none).map str).getD
        (redirect (fun place => target (key :: place)) value)) :: redirectEntries target rest

end

/-- What an entry of an object becomes. -/
def redirectEntry (target : List String → Option String) (key : String) (value : Json) : Json :=
  ((if key = refKey then target [] else none).map str).getD
    (redirect (fun place => target (key :: place)) value)

variable {target : List String → Option String}

/-- The entries of an object are redirected one by one, each under its key. -/
theorem redirectEntries_eq_map (entries : Entries) :
    redirectEntries target entries =
      entries.map fun entry => (entry.1, redirectEntry target entry.1 entry.2) := by
  induction entries with
  | nil => rfl
  | cons entry rest ih => rw [redirectEntries, ih, List.map_cons, redirectEntry]

/-- Redirecting keeps the keys of an object in their order. -/
@[simp] theorem keys_redirectEntries (entries : Entries) :
    Assoc.keys (redirectEntries target entries) = Assoc.keys entries := by
  rw [redirectEntries_eq_map, Assoc.keys, List.map_map]
  rfl

/-- Redirecting changes nothing but what stands under a key. -/
theorem find?_redirectEntries (entries : Entries) (key : String) :
    Assoc.find? (redirectEntries target entries) key =
      (Assoc.find? entries key).map (redirectEntry target key) := by
  rw [redirectEntries_eq_map, Assoc.find?_map]

/-- An item is redirected by what the table has for places below its position. -/
theorem getElem?_redirectItems (items : List Json) (start index : Nat) :
    (redirectItems target start items)[index]? =
      items[index]?.map
        (redirect fun place => target (SchemaPath.ofIndex (start + index) :: place)) := by
  induction items generalizing start index with
  | nil => simp [redirectItems]
  | cons item rest ih =>
    cases index with
    | zero => simp [redirectItems]
    | succ index =>
      rw [redirectItems, List.getElem?_cons_succ, List.getElem?_cons_succ, ih]
      rw [Nat.add_assoc, Nat.add_comm 1]

/-- Redirecting keeps the number of items. -/
@[simp] theorem length_redirectItems (items : List Json) (start : Nat) :
    (redirectItems target start items).length = items.length := by
  induction items generalizing start with
  | nil => rfl
  | cons item rest ih => rw [redirectItems, List.length_cons, List.length_cons, ih]

/-- A table that has no texts but those of the references that are there changes nothing. -/
theorem redirect_eq_self {value : Json}
    (h : ∀ place entries text old, StandsAt value place (obj entries) → target place = some text →
      (refKey, old) ∈ entries → old = str text) : value.redirect target = value := by
  induction value using Json.induction generalizing target with
  | arr items ih =>
    rw [redirect]
    refine congrArg arr (List.ext_getElem? fun index => ?_)
    rw [getElem?_redirectItems, Nat.zero_add]
    cases hitem : items[index]? with
    | none => rfl
    | some item =>
      apply congrArg some
      apply ih item (List.mem_of_getElem? hitem)
      exact fun place entries text old hplace => h _ entries text old (.item hitem hplace)
  | obj entries ih =>
    rw [redirect, redirectEntries_eq_map]
    apply congrArg obj
    conv_rhs => rw [← List.map_id entries]
    apply List.map_congr_left
    rintro ⟨key, value⟩ hentry
    have hbelow : value.redirect (fun place => target (key :: place)) = value := by
      apply ih (key, value) hentry
      exact fun place entries text old hplace => h _ entries text old (.entry hentry hplace)
    rw [redirectEntry, hbelow]
    split_ifs with hkey
    · subst hkey
      cases htext : target [] with
      | none => rfl
      | some text =>
        rw [h [] entries text value (.here _) htext hentry]
        rfl
    · rfl
  | null => rfl
  | bool => rfl
  | num => rfl
  | str => rfl

/-- A table without texts changes nothing. -/
theorem redirect_none (value : Json) : value.redirect (fun _ => none) = value :=
  redirect_eq_self nofun

/-- The texts that the references of a value have already change nothing. -/
theorem redirect_refs {value : Json} (hwf : value.wellFormed)
    (h : ∀ place text, target place = some text → (place, text) ∈ value.refs) :
    value.redirect target = value := by
  apply redirect_eq_self
  intro place entries text old hplace htext hold
  obtain ⟨v, hv, href⟩ := mem_refs.mp (h place text htext)
  obtain rfl := hplace.unique hv hwf
  obtain ⟨hnodup, -⟩ := wellFormed_obj.mp (wellFormed_of_descend? (hplace.descend? hwf) hwf)
  rw [ref?, get?, (Assoc.find?_eq_some_iff hnodup).mpr hold] at href
  cases old with
  | str other => exact congrArg str (Option.some.inj href)
  | _ => cases href

/-- A table that has texts only for places of references in a value. -/
def OnlyRefs (target : List String → Option String) (value : Json) : Prop :=
  ∀ place text, target place = some text → ∃ old, (place, old) ∈ value.refs

/-- If a table has texts for references only, so has the table of an entry. -/
theorem OnlyRefs.entry {entries : Entries} (h : OnlyRefs target (obj entries))
    (hnodup : (Assoc.keys entries).Nodup) {key : String} {value : Json}
    (hmem : (key, value) ∈ entries) : OnlyRefs (fun place => target (key :: place)) value := by
  intro place text htext
  obtain ⟨old, hold⟩ := h _ _ htext
  rcases mem_refs_obj.mp hold with ⟨hnil, -⟩ | ⟨k, v, below, hentry, heq, hbelow⟩
  · cases hnil
  · obtain ⟨rfl, rfl⟩ := List.cons.inj heq
    have hv := (Assoc.find?_eq_some_iff hnodup).mpr hentry
    rw [(Assoc.find?_eq_some_iff hnodup).mpr hmem] at hv
    obtain rfl := Option.some.inj hv
    exact ⟨old, hbelow⟩

/-- If a table has texts for references only, so has the table of an item. -/
theorem OnlyRefs.item {items : List Json} (h : OnlyRefs target (arr items)) {index : Nat}
    {item : Json} (hitem : items[index]? = some item) :
    OnlyRefs (fun place => target (SchemaPath.ofIndex index :: place)) item := by
  intro place text htext
  obtain ⟨old, hold⟩ := h _ _ htext
  rw [refs, mem_refsOfItems] at hold
  obtain ⟨i, v, below, hi, heq, hbelow⟩ := hold
  obtain ⟨hindex, rfl⟩ := List.cons.inj heq
  rw [Nat.zero_add] at hindex
  obtain rfl := Text.decimal_injective hindex
  rw [hitem] at hi
  obtain rfl := Option.some.inj hi
  exact ⟨old, hbelow⟩

/-- An entry is replaced as a whole only if it is the reference of the object. -/
theorem redirectEntry_cases {entries : Entries} (h : OnlyRefs target (obj entries))
    {key : String} {value : Json} (hfind : Assoc.find? entries key = some value) :
    (key = refKey ∧ ∃ text new, value = str text ∧ target [] = some new ∧
        redirectEntry target key value = str new) ∨
      (key = refKey → target [] = none) ∧
        redirectEntry target key value = redirect (fun place => target (key :: place)) value := by
  unfold redirectEntry
  by_cases hkey : key = refKey
  · subst hkey
    cases hnew : target [] with
    | none => exact .inr ⟨fun _ => rfl, by rw [if_pos rfl]; rfl⟩
    | some new =>
      obtain ⟨old, hold⟩ := h _ _ hnew
      rcases mem_refs_obj.mp hold with ⟨-, href⟩ | ⟨_, _, _, -, hnil, -⟩
      · rw [ref?, get?, hfind] at href
        cases value with
        | str text => exact .inl ⟨rfl, text, new, rfl, rfl, by rw [if_pos rfl]; rfl⟩
        | null => cases href
        | bool => cases href
        | num => cases href
        | arr => cases href
        | obj => cases href
      · cases hnil
  · exact .inr ⟨fun hk => absurd hk hkey, by rw [if_neg hkey]; rfl⟩

/-! ### What redirecting keeps -/

/-- Redirecting keeps a value well-formed. -/
theorem wellFormed_redirect {value : Json} (hwf : value.wellFormed) :
    (value.redirect target).wellFormed := by
  induction value using Json.induction generalizing target with
  | arr items ih =>
    obtain ⟨hlength, hitems⟩ := wellFormed_arr.mp hwf
    refine wellFormed_arr.mpr ⟨by rwa [length_redirectItems], fun item hitem => ?_⟩
    obtain ⟨index, hindex⟩ := List.mem_iff_getElem?.mp hitem
    rw [getElem?_redirectItems] at hindex
    obtain ⟨old, hold, rfl⟩ := Option.map_eq_some_iff.mp hindex
    have hmem := List.mem_of_getElem? hold
    exact ih old hmem (hitems old hmem)
  | obj entries ih =>
    obtain ⟨hnodup, hentries⟩ := wellFormed_obj.mp hwf
    refine wellFormed_obj.mpr ⟨by rwa [keys_redirectEntries], fun entry hentry => ?_⟩
    rw [redirectEntries_eq_map] at hentry
    obtain ⟨old, hold, rfl⟩ := List.mem_map.mp hentry
    unfold redirectEntry
    cases (if old.1 = refKey then target [] else none) with
    | none => exact ih old hold (hentries old hold)
    | some text => rfl
  | null => rfl
  | bool => rfl
  | num => rfl
  | str => rfl

/-- Redirecting keeps an object an object. -/
theorem isObject_redirect (value : Json) : (value.redirect target).isObject = value.isObject := by
  cases value <;> rfl

/-- Redirecting keeps the keys of a document. -/
theorem isSome_get?_redirect (target : List String → Option String) (document : Json)
    (key : String) : ((document.redirect target).get? key).isSome = (document.get? key).isSome := by
  cases document with
  | obj entries => rw [redirect, get?, find?_redirectEntries, Option.isSome_map, get?]
  | null => rfl
  | bool => rfl
  | num => rfl
  | str => rfl
  | arr => rfl

/-- Every place that leads to a value still does. -/
theorem isSome_descend?_redirect {value : Json} (hfit : OnlyRefs target value)
    (hwf : value.wellFormed) {place : List String} (h : (value.descend? place).isSome) :
    ((value.redirect target).descend? place).isSome := by
  induction place generalizing value target with
  | nil => rfl
  | cons segment rest ih =>
    cases value with
    | obj entries =>
      obtain ⟨hnodup, hentries⟩ := wellFormed_obj.mp hwf
      rw [descend?, step?] at h
      rw [redirect, descend?, step?, find?_redirectEntries]
      cases hfind : Assoc.find? entries segment with
      | none => rw [hfind] at h; cases h
      | some value =>
        rw [hfind, Option.bind_some] at h
        rw [Option.map_some, Option.bind_some]
        have hmem := Assoc.mem_of_find? hfind
        rcases redirectEntry_cases hfit hfind with ⟨-, text, new, rfl, -, hnew⟩ | ⟨-, hnew⟩
        · cases rest with
          | nil => rfl
          | cons => cases h
        · rw [hnew]
          exact ih (hfit.entry hnodup hmem) (hentries _ hmem) h
    | arr items =>
      obtain ⟨-, hitems⟩ := wellFormed_arr.mp hwf
      rw [descend?, step?] at h
      rw [redirect, descend?, step?]
      cases hindex : arrayIndex? segment with
      | none => rw [hindex] at h; cases h
      | some index =>
        rw [hindex, Option.bind_some] at h
        rw [Option.bind_some, getElem?_redirectItems, Nat.zero_add]
        cases hitem : items[index]? with
        | none => rw [hitem] at h; cases h
        | some item =>
          rw [hitem, Option.bind_some] at h
          exact ih (hfit.item hitem) (hitems _ (List.mem_of_getElem? hitem)) h
    | null => cases h
    | bool => cases h
    | num => cases h
    | str => cases h

/-- Places can be put below a segment after their texts are replaced as well as before. -/
theorem underSegment_map (segment : String) (found : List (List String × String)) :
    underSegment segment
        (found.map fun ref => (ref.1, (target (segment :: ref.1)).getD ref.2)) =
      (underSegment segment found).map fun ref => (ref.1, (target ref.1).getD ref.2) := by
  unfold underSegment
  rw [List.map_map, List.map_map]
  rfl

/-- In the items of an array references get new texts if they do in each item. -/
theorem refsOfItems_redirectItems {items : List Json} {start : Nat}
    (h : ∀ index item, items[index]? = some item →
      (redirect (fun place => target (SchemaPath.ofIndex (start + index) :: place)) item).refs =
        item.refs.map fun ref =>
          (ref.1, (target (SchemaPath.ofIndex (start + index) :: ref.1)).getD ref.2)) :
    refsOfItems start (redirectItems target start items) =
      (refsOfItems start items).map fun ref => (ref.1, (target ref.1).getD ref.2) := by
  induction items generalizing start with
  | nil => rfl
  | cons item rest ih =>
    have hitem := h 0 item rfl
    rw [Nat.add_zero] at hitem
    have hrest := ih fun index other hother => by
      have hnext := h (index + 1) other hother
      rwa [Nat.add_comm index, ← Nat.add_assoc] at hnext
    rw [redirectItems, refsOfItems, refsOfItems, List.map_append, hitem, underSegment_map, hrest]

/-- In the entries of an object they do if they do in each entry. -/
theorem refsOfEntries_redirectEntries {entries : Entries}
    (h : ∀ entry ∈ entries, (redirectEntry target entry.1 entry.2).refs =
      entry.2.refs.map fun ref => (ref.1, (target (entry.1 :: ref.1)).getD ref.2)) :
    refsOfEntries (redirectEntries target entries) =
      (refsOfEntries entries).map fun ref => (ref.1, (target ref.1).getD ref.2) := by
  induction entries with
  | nil => rfl
  | cons entry rest ih =>
    have hrest := ih fun other hother => h other (List.mem_cons_of_mem _ hother)
    rw [redirectEntries, ← redirectEntry, refsOfEntries, refsOfEntries, List.map_append,
      h entry List.mem_cons_self, underSegment_map, hrest]

/-- The reference of an object itself. -/
theorem ref?_redirect {entries : Entries} (hfit : OnlyRefs target (obj entries)) :
    (obj (redirectEntries target entries)).ref? =
      (obj entries).ref?.map fun text => (target []).getD text := by
  rw [ref?, ref?, get?, get?, find?_redirectEntries]
  cases hfind : Assoc.find? entries refKey with
  | none => rfl
  | some value =>
    rw [Option.map_some, Option.bind_some, Option.bind_some]
    rcases redirectEntry_cases hfit hfind with
      ⟨-, text, new, rfl, htarget, hnew⟩ | ⟨hnone, hnew⟩
    · simp [hnew, text?, htarget]
    · rw [hnew]
      cases value <;> simp [redirect, text?, hnone rfl]

/-- Redirecting replaces the texts of references and changes no other reference. -/
theorem refs_redirect {value : Json} (hfit : OnlyRefs target value) (hwf : value.wellFormed) :
    (value.redirect target).refs =
      value.refs.map fun ref => (ref.1, (target ref.1).getD ref.2) := by
  induction value using Json.induction generalizing target with
  | arr items ih =>
    obtain ⟨-, hitems⟩ := wellFormed_arr.mp hwf
    rw [redirect, refs, refs]
    refine refsOfItems_redirectItems fun index item hitem => ?_
    have hmem := List.mem_of_getElem? hitem
    rw [Nat.zero_add]
    exact ih item hmem (hfit.item hitem) (hitems item hmem)
  | obj entries ih =>
    obtain ⟨hnodup, hentries⟩ := wellFormed_obj.mp hwf
    have hbelow : ∀ entry ∈ entries, (redirectEntry target entry.1 entry.2).refs =
        entry.2.refs.map fun ref => (ref.1, (target (entry.1 :: ref.1)).getD ref.2) := by
      rintro ⟨key, value⟩ hmem
      rcases redirectEntry_cases hfit ((Assoc.find?_eq_some_iff hnodup).mpr hmem) with
        ⟨-, text, new, rfl, -, hnew⟩ | ⟨-, hnew⟩
      · rw [hnew]
        rfl
      · rw [hnew, ih _ hmem (hfit.entry hnodup hmem) (hentries _ hmem)]
    rw [redirect, refs, refs, List.map_append, ref?_redirect hfit,
      refsOfEntries_redirectEntries hbelow]
    cases (obj entries).ref? <;> rfl
  | null => rfl
  | bool => rfl
  | num => rfl
  | str => rfl

/-! ### One reference after another -/

/-- Below the key of a place, a table is changed at the rest of the place. -/
theorem update_below {key : String} {place : List String} (text : Option String) :
    (fun below => Function.update target (key :: place) text (key :: below)) =
      Function.update (fun below => target (key :: below)) place text := by
  funext below
  by_cases h : below = place
  · rw [h, Function.update_self, Function.update_self]
  · rw [Function.update_of_ne h, Function.update_of_ne fun he => h (List.cons.inj he).2]

/-- Below another key it is not changed. -/
theorem update_beside {key other : String} (h : other ≠ key) {place : List String}
    (text : Option String) :
    (fun below => Function.update target (key :: place) text (other :: below)) =
      fun below => target (other :: below) := by
  funext below
  exact Function.update_of_ne (fun he => h (List.cons.inj he).1) _ _

/-- The reference of an object is replaced by giving the object a new one. -/
theorem setRef_redirect {entries : Entries} (hnodup : (Assoc.keys entries).Nodup)
    (hmem : refKey ∈ Assoc.keys entries) (new : String) :
    Survey.setRef new (redirect target (obj entries)) =
      some (redirect (Function.update target [] (some new)) (obj entries)) := by
  rw [redirect, Survey.setRef, redirect,
    Assoc.insert_of_mem (by rwa [keys_redirectEntries]) (by rwa [keys_redirectEntries]),
    redirectEntries_eq_map, redirectEntries_eq_map, List.map_map]
  refine congrArg (fun entries => some (obj entries)) (List.map_congr_left fun entry _ => ?_)
  rw [Function.comp_apply]
  by_cases hkey : entry.1 = refKey
  · simp [hkey, redirectEntry]
  · have hbelow : (fun below => Function.update target [] (some new) (entry.1 :: below)) =
        fun below => target (entry.1 :: below) := by
      funext below
      exact Function.update_of_ne (List.cons_ne_nil _ _) _ _
    simp only [redirectEntry, if_neg hkey, hbelow]

/-- One below an entry, by giving the entry a new value. -/
theorem insert_redirectEntries {entries : Entries} (hnodup : (Assoc.keys entries).Nodup)
    {key : String} {value : Json} (hmem : (key, value) ∈ entries)
    (hnone : key = refKey → target [] = none) (place : List String) (text : Option String) :
    Assoc.insert (redirectEntries target entries) key
        (redirect (Function.update (fun below => target (key :: below)) place text) value) =
      redirectEntries (Function.update target (key :: place) text) entries := by
  have hkeys : key ∈ Assoc.keys (redirectEntries target entries) := by
    rw [keys_redirectEntries]
    exact Assoc.mem_keys_of_mem hmem
  rw [Assoc.insert_of_mem (by rwa [keys_redirectEntries]) hkeys, redirectEntries_eq_map,
    redirectEntries_eq_map, List.map_map]
  refine List.map_congr_left fun entry hother => ?_
  rw [Function.comp_apply]
  have hroot : Function.update target (key :: place) text [] = target [] :=
    Function.update_of_ne (List.cons_ne_nil _ _).symm _ _
  by_cases hkey : entry.1 = key
  · have hsame : entry.2 = value := by
      have hentry : (key, entry.2) ∈ entries := hkey ▸ hother
      have hfind := (Assoc.find?_eq_some_iff hnodup).mpr hentry
      rw [(Assoc.find?_eq_some_iff hnodup).mpr hmem] at hfind
      exact (Option.some.inj hfind).symm
    have hown : (if key = refKey then target [] else none) = none := by
      split_ifs with hk
      · exact hnone hk
      · rfl
    simp only [hkey, if_true, redirectEntry, hroot, hown, update_below, hsame]
    rfl
  · simp only [if_neg hkey, redirectEntry, hroot, update_beside hkey]

/-- One below an item, by replacing the item. -/
theorem set_redirectItems {items : List Json} {index : Nat} {item : Json}
    (hitem : items[index]? = some item) (place : List String) (text : Option String) :
    (redirectItems target 0 items).set index
        (redirect (Function.update (fun below => target (SchemaPath.ofIndex index :: below)) place
          text) item) =
      redirectItems (Function.update target (SchemaPath.ofIndex index :: place) text) 0 items := by
  obtain ⟨hindex, -⟩ := List.getElem?_eq_some_iff.mp hitem
  refine List.ext_getElem? fun i => ?_
  rw [getElem?_redirectItems, List.getElem?_set, getElem?_redirectItems, Nat.zero_add,
    length_redirectItems]
  by_cases hi : index = i
  · subst hi
    rw [if_pos rfl, if_pos hindex, hitem, Option.map_some, update_below]
  · have hne : SchemaPath.ofIndex i ≠ SchemaPath.ofIndex index :=
      fun he => hi (Text.decimal_injective he).symm
    rw [if_neg hi, update_beside hne]

/-- Redirecting one more reference is changing the value at its place. -/
theorem modifyDescend?_redirect {value v : Json} {place : List String} {old : String}
    (h : StandsAt value place v) (href : v.ref? = some old) (hfit : OnlyRefs target value)
    (hwf : value.wellFormed) (new : String) :
    (value.redirect target).modifyDescend? (Survey.setRef new) place =
      some (value.redirect (Function.update target place (some new))) := by
  induction h generalizing target with
  | here value =>
    cases value with
    | obj entries =>
      rw [ref?, get?] at href
      obtain ⟨value, hvalue, -⟩ := Option.bind_eq_some_iff.mp href
      rw [modifyDescend?]
      exact setRef_redirect (wellFormed_obj.mp hwf).1 (Assoc.mem_keys_of_find? hvalue) new
    | null => cases href
    | bool => cases href
    | num => cases href
    | str => cases href
    | arr => cases href
  | @entry entries key value v place hmem hbelow ih =>
    obtain ⟨hnodup, hentries⟩ := wellFormed_obj.mp hwf
    have hfind := (Assoc.find?_eq_some_iff hnodup).mpr hmem
    have hcontains : Assoc.contains (redirectEntries target entries) key := by
      rw [← Assoc.mem_keys_iff_contains, keys_redirectEntries]
      exact Assoc.mem_keys_of_mem hmem
    rcases redirectEntry_cases hfit hfind with ⟨-, text, -, rfl, -, -⟩ | ⟨hnone, hentry⟩
    · -- below the text of a reference there is no object
      cases hbelow
      cases href
    · have hnew := ih href (hfit.entry hnodup hmem) (hentries _ hmem)
      rw [redirect, modifyDescend?, step?, find?_redirectEntries, hfind, Option.map_some, hentry]
      simp only [Option.bind_eq_bind, Option.bind_some, hnew]
      rw [putStep?, if_pos hcontains, redirect, insert_redirectEntries hnodup hmem hnone]
  | @item items index value v place hitem hbelow ih =>
    obtain ⟨hlength, hitems⟩ := wellFormed_arr.mp hwf
    obtain ⟨hindex, -⟩ := List.getElem?_eq_some_iff.mp hitem
    have hnew := ih href (hfit.item hitem) (hitems _ (List.mem_of_getElem? hitem))
    rw [redirect, modifyDescend?, step?, arrayIndex?_ofIndex (by omega), Option.bind_some,
      getElem?_redirectItems, Nat.zero_add, hitem, Option.map_some]
    simp only [Option.bind_eq_bind, Option.bind_some, hnew]
    rw [putStep?, arrayIndex?_ofIndex (by omega)]
    simp only [length_redirectItems, hindex, if_true]
    rw [redirect, set_redirectItems hitem]

end SchemaClasses.Json
