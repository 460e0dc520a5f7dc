import Mathlib.Data.List.DropRight
import SchemaClasses.Proofs.Pointer
import SchemaClasses.Uri.Parser

/-!
# Pointers as references

Main statement (`join_toPointer`): resolved against any URI, the pointer to a place is that URI with
the segments of the pointer as its fragment, as they are written. For a pointer is written in
characters that are neither dropped nor escaped when a reference is read (`isVerbatim`). So it leads
to the place in the document of that URI (`decode_fragment`, `withoutFragment_withFragment`).
-/

namespace SchemaClasses

namespace Uri

/-! ### Characters that are read as they are -/

/-- Whether a character is neither dropped nor escaped in the fragment of a reference. -/
def isVerbatim (c : Char) : Bool :=
  0x20 < c.toNat && c.toNat ≤ 0x7F && !UriPath.escapedInFragment c

section Verbatim

variable {text : List Char}

/-- No such character is dropped from either end of a text. -/
theorem trim_eq (h : ∀ c ∈ text, 0x20 < c.toNat) : trim (String.ofList text) = text := by
  have hends : ∀ chars : List Char, (∀ c ∈ chars, 0x20 < c.toNat) →
      chars.dropWhile (fun c : Char => decide (c.toNat ≤ 0x20)) = chars := by
    intro chars hchars
    cases chars with
    | nil => rfl
    | cons c rest =>
      have hc := hchars c List.mem_cons_self
      simp [List.dropWhile, Nat.not_le.mpr hc]
  unfold trim
  dsimp only
  rw [String.toList_ofList, hends text h, hends text.reverse, List.reverse_reverse]
  exact fun c hc => h c (List.mem_reverse.mp hc)

/-- A text without blanks and control characters has no breaks to leave out. -/
theorem withoutBreaks_eq (h : ∀ c ∈ text, 0x20 < c.toNat) : UriPath.withoutBreaks text = text := by
  apply List.filter_eq_self.mpr
  intro c hc
  have hvisible := h c hc
  simp only [UriPath.isBreak, Bool.not_eq_true', Bool.or_eq_false_iff, decide_eq_false_iff_not]
  refine ⟨⟨?_, ?_⟩, ?_⟩ <;> rintro rfl <;> exact absurd hvisible (by decide)

/-- A text without characters that are to be encoded stays as it is. -/
theorem encodeWhere_eq {test : Char → Bool}
    (h : ∀ c ∈ text, test c = false ∧ c.toNat ≤ 0x7F) :
    Percent.encodeWhere test text = String.ofList text := by
  have hchars : (text.flatMap fun c => if test c || 0x7F < c.toNat then
      (String.utf8EncodeChar c).flatMap Percent.escapeByte else [c]) = text := by
    induction text with
    | nil => rfl
    | cons c rest ih =>
      obtain ⟨htest, hascii⟩ := h c List.mem_cons_self
      rw [List.flatMap_cons, ih fun d hd => h d (List.mem_cons_of_mem _ hd), htest]
      simp [Nat.not_lt.mpr hascii]
  rw [Percent.encodeWhere, hchars]

end Verbatim

/-- A reference that is a number sign and characters that are read as they are. -/
theorem join_fragment (base : Uri) {text : List Char} (h : ∀ c ∈ text, isVerbatim c) :
    base.join (String.ofList ('#' :: text)) =
      .ok { base with fragment := some (String.ofList text) } := by
  have hvisible : ∀ c ∈ '#' :: text, 0x20 < c.toNat := by
    intro c hc
    rcases List.mem_cons.mp hc with rfl | hmem
    · decide
    · have hc := h c hmem
      simp only [isVerbatim, Bool.and_eq_true, decide_eq_true_eq] at hc
      exact hc.1.1
  have hfragment : Percent.encodeWhere UriPath.escapedInFragment text = String.ofList text := by
    apply encodeWhere_eq
    intro c hc
    have hc := h c hc
    simp only [isVerbatim, Bool.and_eq_true, decide_eq_true_eq, Bool.not_eq_true'] at hc
    exact ⟨hc.2, hc.1.2⟩
  have hscheme : splitScheme? ('#' :: text) = none := rfl
  have htail : readTail (SchemeKind.ofScheme base.scheme) ('#' :: text) =
      (none, some (String.ofList text)) := by
    rw [← hfragment]
    rfl
  unfold join read
  dsimp only
  rw [trim_eq hvisible, withoutBreaks_eq hvisible, hscheme]
  dsimp only
  rw [if_pos (List.head?_cons ..), withTail, htail]

/-- Trimming spaces twice is trimming them once. -/
theorem trimTrailingSpaces_trimTrailingSpaces (text : String) :
    trimTrailingSpaces (trimTrailingSpaces text) = trimTrailingSpaces text := by
  unfold trimTrailingSpaces
  rw [String.toList_ofList, List.reverse_reverse, List.dropWhile_idempotent]

/-- A fragment that is added is taken away again. -/
theorem withoutFragment_withFragment (uri : Uri) (fragment : Option String) :
    ({ uri.withoutFragment with fragment := fragment } : Uri).withoutFragment =
      uri.withoutFragment := by
  obtain ⟨scheme, username, password, host, port, path, query, old⟩ := uri
  cases path with
  | structured list => rfl
  | unstructured text =>
    cases query with
    | some query => rfl
    | none =>
      simp only [withoutFragment]
      rw [trimTrailingSpaces_trimTrailingSpaces]

end Uri

/-! ### Pointers -/

namespace SchemaPath

open Pointer in
/-- What an encoded pointer is made of stays as it is in a fragment. -/
theorem isVerbatim_of_mem_encode {segments : List String} {c : Char}
    (h : c ∈ (encode "" segments).toList) : Uri.isVerbatim c := by
  have all : ∀ n ∈ List.range 256,
      (Percent.encodeByte (UInt8.ofNat n)).all Uri.isVerbatim := by decide +kernel
  rw [toList_encode] at h
  obtain ⟨piece, hpiece, hmem⟩ := List.mem_flatMap.mp h
  obtain ⟨segment, -, rfl⟩ := List.mem_map.mp hpiece
  rcases List.mem_cons.mp hmem with rfl | hc
  · rfl
  · rw [encodeSegment, Percent.encode, String.toList_ofList, List.mem_flatMap] at hc
    obtain ⟨b, -, hb⟩ := hc
    have hbyte := all b.toNat (List.mem_range.mpr b.toNat_lt)
    rw [UInt8.ofNat_toNat] at hbyte
    exact List.all_eq_true.mp hbyte c hb

/-- Resolved against a URI, the pointer to a place is the fragment of that URI. -/
theorem join_toPointer (base : Uri) (path : SchemaPath) :
    base.join path.toPointer =
      .ok { base with fragment := some (Pointer.encode "" path.segments) } := by
  have hpointer : path.toPointer =
      String.ofList ('#' :: (Pointer.encode "" path.segments).toList) := by
    apply String.toList_injective
    simp [toPointer, Pointer.toList_encode]
  rw [hpointer, Uri.join_fragment base fun c => isVerbatim_of_mem_encode, String.ofList_toList]

/-- Without the number sign the pointer still leads to the place. -/
theorem decode_fragment (path : SchemaPath) :
    Pointer.decode "" (Pointer.encode "" path.segments) = .ok path.segments := by
  apply Pointer.decode_encode
  · decide
  · decide +kernel

end SchemaPath

end SchemaClasses
