import Mathlib.Algebra.Group.Nat.Defs
import Mathlib.Data.List.Basic
import SchemaClasses.SchemaPath

/-!
# Reading pointers and positions back

`decode_encode`: behind an anchor without slash that stands for itself, the pointer to a path leads
along that path; so `ofPointer` undoes `toPointer` (`ofPointer_toPointer`) and different places
have different pointers. The proof splits the text at the slashes, of which encoded segments have
none (`slash_not_mem_encodeSegment`), and undoes the two encodings piece by piece.

`arrayIndex?_ofIndex`: the decimal segment of a position below `2^64` stands for that position.
-/

namespace SchemaClasses

/-! ### Segments -/

namespace Pointer

/-- Undoing the escapes of one character gives that character back. -/
theorem unescapeChars_escapeChar (c : Char) (rest : List Char) :
    unescapeChars (escapeChar c ++ rest) = c :: unescapeChars rest := by
  unfold escapeChar
  split_ifs with htilde hslash
  · subst htilde; rfl
  · subst hslash; rfl
  · rw [List.singleton_append, unescapeChars]
    · exact fun _ h => absurd h htilde
    · exact fun _ h => absurd h htilde

/-- Undoing the escapes of a segment gives the segment back. -/
theorem unescape_escape (segment : String) : unescape (escape segment) = segment := by
  have undo : ∀ text : List Char, unescapeChars (text.flatMap escapeChar) = text := by
    intro text
    induction text with
    | nil => rfl
    | cons c rest ih => rw [List.flatMap_cons, unescapeChars_escapeChar, ih]
  rw [unescape, escape, String.toList_ofList, undo, String.ofList_toList]

/-- The text of a segment in a pointer is read as that segment. -/
theorem decodeSegment_encodeSegment (segment : String) :
    decodeSegment (encodeSegment segment) = .ok segment := by
  rw [decodeSegment, encodeSegment, Percent.decode?_encode]
  exact congrArg Except.ok (unescape_escape segment)

/-- The encoding of a byte has no slash. -/
theorem slash_not_mem_encodeByte (b : UInt8) : '/' ∉ Percent.encodeByte b := by
  have all : ∀ n ∈ List.range 256, '/' ∉ Percent.encodeByte (UInt8.ofNat n) := by decide +kernel
  simpa using all b.toNat (List.mem_range.mpr b.toNat_lt)

/-- The text of a segment has no slash. -/
theorem slash_not_mem_encodeSegment (segment : String) :
    '/' ∉ (encodeSegment segment).toList := by
  rw [encodeSegment, Percent.encode, String.toList_ofList, List.mem_flatMap]
  rintro ⟨b, -, hb⟩
  exact slash_not_mem_encodeByte b hb

/-! ### Pointers -/

/-- A pointer is its anchor followed by the texts of its segments, each behind a slash. -/
theorem toList_encode (anchor : String) (segments : List String) :
    (encode anchor segments).toList = anchor.toList ++
      Text.joinBehind '/' (segments.map fun segment => (encodeSegment segment).toList) := by
  induction segments generalizing anchor with
  | nil => simp [encode, Text.joinBehind]
  | cons segment rest ih =>
    have step : encode anchor (segment :: rest) =
        encode (anchor ++ "/" ++ encodeSegment segment) rest := rfl
    rw [step, ih]
    simp [Text.joinBehind]

/-- The texts of segments are read as those segments, one by one. -/
theorem mapM_decodeSegment (segments : List String) :
    ((segments.map fun segment => (encodeSegment segment).toList).mapM fun piece =>
      decodeSegment (String.ofList piece)) = .ok segments := by
  induction segments with
  | nil => rfl
  | cons segment rest ih =>
    rw [List.map_cons, List.mapM_cons, ih, String.ofList_toList, decodeSegment_encodeSegment]
    rfl

/-- Behind an anchor without slash that stands for itself, pointers are read as they were
written. -/
theorem decode_encode {anchor : String} (hslash : '/' ∉ anchor.toList)
    (hself : decodeSegment anchor = .ok anchor) (segments : List String) :
    decode anchor (encode anchor segments) = .ok segments := by
  have pieces : Text.splitWhere (fun c => c = '/') (encode anchor segments).toList =
      (anchor.toList, segments.map fun segment => (encodeSegment segment).toList) := by
    rw [toList_encode]
    refine Text.splitWhere_joinBehind hslash fun piece hpiece => ?_
    obtain ⟨segment, -, rfl⟩ := List.mem_map.mp hpiece
    exact slash_not_mem_encodeSegment segment
  have first : decodeSegment (String.ofList anchor.toList) = .ok anchor := by
    rw [String.ofList_toList, hself]
  have same : ¬(anchor ≠ anchor) := fun h => h rfl
  unfold decode
  simp only [pieces, first, bind, Except.bind, if_neg same]
  exact mapM_decodeSegment segments

end Pointer

namespace SchemaPath

/-- The pointer of a path is read as that path. -/
theorem ofPointer_toPointer (path : SchemaPath) : ofPointer path.toPointer = .ok path := by
  have hself : Pointer.decodeSegment "#" = .ok "#" := by decide +kernel
  rw [ofPointer, toPointer, Pointer.decode_encode (by decide) hself]
  rfl

/-- Different paths have different pointers. -/
theorem toPointer_injective : Function.Injective toPointer := by
  intro p q h
  have hok : (Except.ok p : Except PointerError SchemaPath) = .ok q := by
    rw [← ofPointer_toPointer p, h, ofPointer_toPointer]
  exact Except.ok.inj hok

/-! ### Places that end alike -/

variable {path other : SchemaPath} {a b c d : String}

/-- Going down two segments is going down twice. -/
theorem append_pair (path : SchemaPath) (a b : String) : path ++ [a, b] = (path.child a).child b :=
  congrArg mk (List.append_assoc path.segments [a] [b]).symm

/-- Children are the same if their parents and their last segments are. -/
theorem child_inj : path.child a = other.child b ↔ path = other ∧ a = b := by
  constructor
  · intro h
    obtain ⟨hfront, hlast⟩ := List.append_inj' (congrArg segments h) rfl
    exact ⟨congrArg mk hfront, (List.cons.inj hlast).1⟩
  · rintro ⟨rfl, rfl⟩
    rfl

/-- No child is the root. -/
theorem child_ne_root : path.child a ≠ .root := by
  intro h
  exact List.append_ne_nil_of_right_ne_nil _ (List.cons_ne_nil _ _) (congrArg segments h)

end SchemaPath

/-! ### Positions -/

namespace Text

/-- Decimal digits are read as the number that they were written for. -/
theorem ofDecimal_toDigits (n : Nat) : ofDecimal (Nat.toDigits 10 n) = n := by
  have same : ∀ (digits : List Char) (start : Nat),
      digits.foldl (fun n c => n * 10 + digitValue c) start = Nat.ofDigitChars 10 digits start := by
    intro digits
    induction digits with
    | nil => intro start; simp
    | cons c rest ih =>
      intro start
      rw [List.foldl_cons, ih, Nat.ofDigitChars_cons, digitValue, Nat.mul_comm]
  rw [ofDecimal, same, Nat.ofDigitChars_ten_toDigits]

/-- Different numbers have different digits. -/
theorem decimal_injective : Function.Injective decimal := by
  intro m n h
  have digits : Nat.toDigits 10 m = Nat.toDigits 10 n := String.ofList_injective h
  rw [← ofDecimal_toDigits m, digits, ofDecimal_toDigits]

end Text

/-- The segment of a position is no other word. -/
theorem ofIndex_ne {word : String} (h : word.toList.all Char.isDigit = false) (index : Nat) :
    SchemaPath.ofIndex index ≠ word := by
  rintro rfl
  have text : (SchemaPath.ofIndex index).toList = Nat.toDigits 10 index := String.toList_ofList
  have all : (Nat.toDigits 10 index).all Char.isDigit = true :=
    List.all_eq_true.mpr fun c hc => Nat.isDigit_of_mem_toDigits (by omega) (by omega) hc
  rw [text, all] at h
  cases h

/-- The segment of a position is read as that position, if it is below the limit. -/
theorem arrayIndex?_ofIndex_eq (index : Nat) :
    arrayIndex? (SchemaPath.ofIndex index) = if index < Nat.pow 2 64 then some index else none := by
  have digits : ∀ c ∈ Nat.toDigits 10 index, c.isDigit = true :=
    fun c hc => Nat.isDigit_of_mem_toDigits (by omega) (by omega) hc
  have text : (SchemaPath.ofIndex index).toList = Nat.toDigits 10 index := String.toList_ofList
  obtain ⟨c, rest, hc⟩ := List.exists_cons_of_ne_nil (Nat.toDigits_ne_nil (n := index) (b := 10))
  have plus : c ≠ '+' := by
    rintro rfl
    exact absurd (digits '+' (hc ▸ List.mem_cons_self)) (by decide)
  have all : (Nat.toDigits 10 index).all Char.isDigit = true := List.all_eq_true.mpr digits
  have value := Text.ofDecimal_toDigits index
  rw [hc] at text all value
  unfold arrayIndex?
  rw [text]
  split
  · rename_i heq
    exact absurd (List.cons.inj heq).1 plus
  · simp only [all, value, List.isEmpty_cons, Bool.not_true, Bool.or_self, Bool.false_eq_true,
      if_false]

/-- The text of an index below the limit is read as that index. -/
theorem arrayIndex?_ofIndex {index : Nat} (h : index < 2 ^ 64) :
    arrayIndex? (SchemaPath.ofIndex index) = some index := by
  rw [arrayIndex?_ofIndex_eq]
  exact if_pos h

end SchemaClasses
