import Mathlib.Data.List.Perm.Subperm
import SchemaClasses.Proofs.Json.Alike
import SchemaClasses.Proofs.Json.Throughout

/-!
# Being the same value

On values in which no object repeats a key, to be the same value is an equivalence: `same_refl`,
`same_symm` and `same_trans`, so of two same values one is the same as a third one just if the other
is (`same_congr_right`). Two objects are the same just if the same values are found under every key
(`same_obj_iff_find?`).
-/

namespace SchemaClasses

/-- Being the same number goes both ways. -/
theorem Number.same_symm {a b : Number} (h : a.same b) : b.same a := by
  cases a <;> cases b <;> simp only [same, Binary64.same, Bool.or_eq_true, Bool.and_eq_true,
    decide_eq_true_iff, reduceCtorEq] at h ⊢
  · exact h.symm
  · exact h.imp Eq.symm And.symm

/-- Being the same number is transitive. -/
theorem Number.same_trans {a b c : Number} (h : a.same b) (h' : b.same c) : a.same c := by
  cases a <;> cases b <;> cases c <;> simp_all [Number.same, Binary64.same]
  rcases h with rfl | ⟨ha, hb⟩
  · exact h'
  · rcases h' with rfl | ⟨-, hc⟩
    · exact .inr ⟨ha, hb⟩
    · exact .inr ⟨ha, hc⟩

namespace Json

variable {E : String → Json → Prop} {value other third : Json} {entries others : Entries}

/-- A value that repeats no key is the same as itself. -/
theorem same_refl (h : Throughout E value) : value.same value := by
  induction value using Json.induction with
  | arr items ih =>
    refine same_arr.mpr ⟨rfl, fun index item other hitem hother => ?_⟩
    obtain rfl := Option.some.inj (hitem.symm.trans hother)
    have hmem := List.mem_of_getElem? hitem
    exact ih item hmem (throughout_arr.mp h item hmem)
  | obj entries ih =>
    refine same_obj.mpr ⟨rfl, fun entry hentry => ?_⟩
    exact ⟨entry.2, (Assoc.find?_eq_some_iff h.nodup).mpr hentry,
      ih entry hentry (h.of_mem hentry).2⟩
  | null => exact same_self rfl
  | bool => exact same_self rfl
  | num => exact same_self rfl
  | str => exact same_self rfl

/-- The keys of an object that is the same as one without repeated keys are those of that one. -/
theorem keys_perm_of_same (hnodup : (Assoc.keys entries).Nodup)
    (h : (obj entries).same (obj others)) : (Assoc.keys entries).Perm (Assoc.keys others) := by
  obtain ⟨hlength, hall⟩ := same_obj.mp h
  refine (List.subperm_of_subset hnodup fun key hkey => ?_).perm_of_length_le ?_
  · obtain ⟨entry, hentry, rfl⟩ := List.mem_map.mp hkey
    obtain ⟨other, hother, -⟩ := hall entry hentry
    exact Assoc.mem_keys_of_find? hother
  · refine Nat.le_of_eq ?_
    rw [Assoc.keys, Assoc.keys, List.length_map, List.length_map, hlength]

/-- Being the same value goes both ways if the first value repeats no key. -/
theorem same_symm (hvalue : Throughout E value) (h : value.same other) : other.same value := by
  induction value using Json.induction generalizing other with
  | arr items ih =>
    cases other with
    | arr others =>
      obtain ⟨hlength, hall⟩ := same_arr.mp h
      refine same_arr.mpr ⟨hlength.symm, fun index other item hother hitem => ?_⟩
      have hmem := List.mem_of_getElem? hitem
      exact ih item hmem (throughout_arr.mp hvalue item hmem) (hall index item other hitem hother)
    | _ => simp [same] at h
  | obj entries ih =>
    cases other with
    | obj others =>
      obtain ⟨hlength, hall⟩ := same_obj.mp h
      have hperm := keys_perm_of_same hvalue.nodup h
      refine same_obj.mpr ⟨hlength.symm, fun entry hentry => ?_⟩
      have hkey : entry.1 ∈ Assoc.keys entries :=
        hperm.mem_iff.mpr (Assoc.mem_keys_of_mem hentry)
      obtain ⟨old, hold⟩ := Assoc.exists_find?_of_mem_keys hkey
      have hmem := Assoc.mem_of_find? hold
      obtain ⟨found, hfound, hsame⟩ := hall _ hmem
      have hentry' := (Assoc.find?_eq_some_iff (hperm.nodup_iff.mp hvalue.nodup)).mpr hentry
      obtain rfl : found = entry.2 := Option.some.inj (hfound.symm.trans hentry')
      exact ⟨old, hold, ih _ hmem (hvalue.of_mem hmem).2 hsame⟩
    | _ => simp [same] at h
  | num number =>
    cases other with
    | num other =>
      rw [same] at h ⊢
      exact Number.same_symm h
    | _ => simp [same] at h
  | _ => cases other <;> simp_all [same]

/-- Being the same value is transitive. -/
theorem same_trans (h : value.same other) (h' : other.same third) : value.same third := by
  induction value using Json.induction generalizing other third with
  | arr items ih =>
    cases other with
    | arr others =>
      cases third with
      | arr thirds =>
        obtain ⟨hlength, hall⟩ := same_arr.mp h
        obtain ⟨hlength', hall'⟩ := same_arr.mp h'
        refine same_arr.mpr ⟨hlength.trans hlength', fun index item third hitem hthird => ?_⟩
        have hindex : index < others.length := hlength ▸ (List.getElem?_eq_some_iff.mp hitem).1
        have hother := List.getElem?_eq_getElem hindex
        exact ih item (List.mem_of_getElem? hitem) (hall index item _ hitem hother)
          (hall' index _ third hother hthird)
      | _ => simp [same] at h'
    | _ => simp [same] at h
  | obj entries ih =>
    cases other with
    | obj others =>
      cases third with
      | obj thirds =>
        obtain ⟨hlength, hall⟩ := same_obj.mp h
        obtain ⟨hlength', hall'⟩ := same_obj.mp h'
        refine same_obj.mpr ⟨hlength.trans hlength', fun entry hentry => ?_⟩
        obtain ⟨other, hother, hsame⟩ := hall entry hentry
        obtain ⟨third, hthird, hsame'⟩ := hall' _ (Assoc.mem_of_find? hother)
        exact ⟨third, hthird, ih entry hentry hsame hsame'⟩
      | _ => simp [same] at h'
    | _ => simp [same] at h
  | num number =>
    cases other with
    | num other =>
      cases third with
      | num third =>
        rw [same] at h h' ⊢
        exact Number.same_trans h h'
      | _ => simp [same] at h'
    | _ => simp [same] at h
  | _ => cases other <;> cases third <;> simp_all [same]

/-- Of two same values one is the same as a third one just if the other is. -/
theorem same_congr_right (hother : Throughout E other) (h : other.same third) :
    value.same other ↔ value.same third :=
  ⟨fun hsame => same_trans hsame h, fun hsame => same_trans hsame (same_symm hother h)⟩

/-- Two objects are the same if the same values are found in them. -/
theorem same_of_find? (hnodup : (Assoc.keys entries).Nodup) (hnodup' : (Assoc.keys others).Nodup)
    (h : ∀ key, Option.Rel (fun v w => same v w) (Assoc.find? entries key)
      (Assoc.find? others key)) : (obj entries).same (obj others) := by
  have hfind : ∀ key, Assoc.find? entries key = none ↔ Assoc.find? others key = none := by
    intro key
    have hkey := h key
    generalize Assoc.find? entries key = value at hkey ⊢
    generalize Assoc.find? others key = other at hkey ⊢
    cases hkey <;> simp
  have hkeys : ∀ key, key ∈ Assoc.keys entries ↔ key ∈ Assoc.keys others := fun key => by
    rw [← not_iff_not, ← Assoc.find?_eq_none_iff, ← Assoc.find?_eq_none_iff, hfind]
  have hlength := ((List.perm_ext_iff_of_nodup hnodup hnodup').mpr hkeys).length_eq
  rw [Assoc.keys, Assoc.keys, List.length_map, List.length_map] at hlength
  refine same_obj.mpr ⟨hlength, fun entry hentry => ?_⟩
  have hvalue := (Assoc.find?_eq_some_iff hnodup).mpr hentry
  have hrel := h entry.1
  rw [hvalue] at hrel
  generalize hother : Assoc.find? others entry.1 = found at hrel
  cases hrel with
  | some hsame => exact ⟨_, rfl, hsame⟩

/-- Objects are the same just if what is found under each key is the same. -/
theorem same_obj_iff_find? (hnodup : (Assoc.keys entries).Nodup)
    (hnodup' : (Assoc.keys others).Nodup) :
    (obj entries).same (obj others) ↔ ∀ key, Option.Rel (fun v w => same v w)
      (Assoc.find? entries key) (Assoc.find? others key) := by
  refine ⟨fun h key => ?_, same_of_find? hnodup hnodup'⟩
  cases hvalue : Assoc.find? entries key with
  | none =>
    have hmissing : key ∉ Assoc.keys others := fun hkey =>
      Assoc.find?_eq_none_iff.mp hvalue ((keys_perm_of_same hnodup h).mem_iff.mpr hkey)
    rw [Assoc.find?_eq_none_iff.mpr hmissing]
    exact .none
  | some value =>
    obtain ⟨other, hother, hsame⟩ := (same_obj.mp h).2 _ (Assoc.mem_of_find? hvalue)
    rw [hother]
    exact .some hsame

end Json

end SchemaClasses
