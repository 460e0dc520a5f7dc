/-!
# Text from bytes that may not be UTF-8

Bytes that are not UTF-8 are still shown as text: as far as they can be read as characters they
are, and U+FFFD stands for the rest. One U+FFFD stands for as many bytes as a character could have
begun with, so that a character that is cut off in the middle is shown as one sign.

Main statement: the bytes of a text are shown as that text.
-/

namespace SchemaClasses.Text

/-- What a first byte says about the bytes behind it. -/
structure Utf8Lead where
  /-- How many bytes follow. -/
  missing : Nat
  /-- The least second byte. -/
  low : Nat
  /-- The greatest second byte. -/
  high : Nat
  /-- The bits of the character that the first byte holds. -/
  bits : Nat

/-- What a byte says as the first one of a character; nothing if no character begins with it. The
bounds of the second byte rule out characters written with more bytes than needed, surrogates, and
numbers beyond the last character. -/
def Utf8Lead.ofByte? (b : UInt8) : Option Utf8Lead :=
  let n := b.toNat
  if n < 0x80 then some ⟨0, 0x80, 0xBF, n⟩
  else if n < 0xC2 then none
  else if n < 0xE0 then some ⟨1, 0x80, 0xBF, n - 0xC0⟩
  else if n < 0xF0 then
    some ⟨2, if n = 0xE0 then 0xA0 else 0x80, if n = 0xED then 0x9F else 0xBF, n - 0xE0⟩
  else if n < 0xF5 then
    some ⟨3, if n = 0xF0 then 0x90 else 0x80, if n = 0xF4 then 0x8F else 0xBF, n - 0xF0⟩
  else none

/-- Reads the bytes of a character behind its first one, as far as they fit: the character, if
they are all there, and the bytes that are left. -/
def readFollowing : Utf8Lead → List UInt8 → Option Char × List UInt8
  | ⟨0, _, _, bits⟩, bytes => (some (Char.ofNat bits), bytes)
  | ⟨_ + 1, _, _, _⟩, [] => (none, [])
  | ⟨missing + 1, low, high, bits⟩, b :: rest =>
    if low ≤ b.toNat ∧ b.toNat ≤ high then
      readFollowing ⟨missing, 0x80, 0xBF, bits * 64 + b.toNat % 64⟩ rest
    else (none, b :: rest)

/-- Reading the bytes behind a lead leaves no more of them than there were. -/
theorem length_readFollowing_le (lead : Utf8Lead) (bytes : List UInt8) :
    (readFollowing lead bytes).2.length ≤ bytes.length := by
  fun_induction readFollowing lead bytes with
  | case1 => exact Nat.le_refl _
  | case2 => exact Nat.le_refl _
  | case3 _ _ _ _ _ _ _ ih => exact Nat.le_succ_of_le ih
  | case4 => exact Nat.le_refl _

/-- The characters that some bytes are shown as. -/
def shownChars : List UInt8 → List Char
  | [] => []
  | b :: rest =>
    match Utf8Lead.ofByte? b with
    | none => '\uFFFD' :: shownChars rest
    | some lead =>
      (readFollowing lead rest).1.getD '\uFFFD' :: shownChars (readFollowing lead rest).2
termination_by bytes => bytes.length
decreasing_by
  · exact Nat.lt_succ_self _
  · exact Nat.lt_succ_of_le (length_readFollowing_le _ _)

/-- The text that some bytes are shown as. -/
def shownText (bytes : List UInt8) : String :=
  String.ofList (shownChars bytes)

example : shownText [0xE2, 0x82, 0xAC, 0xE2, 0x82, 0x41] = "€\uFFFDA" := by decide +kernel
example : shownText [0xED, 0xA0, 0x80] = "\uFFFD\uFFFD\uFFFD" := by decide +kernel

/-! ## The bytes of a text

The first byte of a character is one of four kinds, and each kind leaves as many bytes to read as
the character has left. -/

/-- A number below 256 survives being made a byte. -/
private theorem toNat_byte {n : Nat} (h : n < 256) : (UInt8.ofNat n).toNat = n := by
  rw [UInt8.toNat_ofNat']
  exact Nat.mod_eq_of_lt h

/-- A byte below 128 leads itself only. -/
private theorem Utf8Lead.ofByte?_one {n : Nat} (h : n < 0x80) :
    ofByte? (UInt8.ofNat n) = some ⟨0, 0x80, 0xBF, n⟩ := by
  rw [ofByte?, toNat_byte (by omega)]
  exact if_pos h

/-- The lead of two bytes, with the upper five bits of a character. -/
private theorem Utf8Lead.ofByte?_two {n : Nat} (hlow : 2 ≤ n) (hhigh : n < 32) :
    ofByte? (UInt8.ofNat (n + 192)) = some ⟨1, 0x80, 0xBF, n⟩ := by
  have h0 : ¬ n + 192 < 0x80 := by omega
  have h1 : ¬ n + 192 < 0xC2 := by omega
  have h2 : n + 192 < 0xE0 := by omega
  have bits : n + 192 - 0xC0 = n := by omega
  rw [ofByte?, toNat_byte (by omega), if_neg h0, if_neg h1, if_pos h2, bits]

/-- The lead of three bytes, with the range that its second byte has to be in. -/
private theorem Utf8Lead.ofByte?_three {n : Nat} (h : n < 16) :
    ofByte? (UInt8.ofNat (n + 224)) =
      some ⟨2, if n = 0 then 0xA0 else 0x80, if n = 13 then 0x9F else 0xBF, n⟩ := by
  have h0 : ¬ n + 224 < 0x80 := by omega
  have h1 : ¬ n + 224 < 0xC2 := by omega
  have h2 : ¬ n + 224 < 0xE0 := by omega
  have h3 : n + 224 < 0xF0 := by omega
  have low : n + 224 = 0xE0 ↔ n = 0 := by omega
  have high : n + 224 = 0xED ↔ n = 13 := by omega
  have bits : n + 224 - 0xE0 = n := by omega
  rw [ofByte?, toNat_byte (by omega), if_neg h0, if_neg h1, if_neg h2, if_pos h3, bits]
  simp only [low, high]

/-- The lead of four bytes, with the range that its second byte has to be in. -/
private theorem Utf8Lead.ofByte?_four {n : Nat} (h : n < 5) :
    ofByte? (UInt8.ofNat (n + 240)) =
      some ⟨3, if n = 0 then 0x90 else 0x80, if n = 4 then 0x8F else 0xBF, n⟩ := by
  have h0 : ¬ n + 240 < 0x80 := by omega
  have h1 : ¬ n + 240 < 0xC2 := by omega
  have h2 : ¬ n + 240 < 0xE0 := by omega
  have h3 : ¬ n + 240 < 0xF0 := by omega
  have h4 : n + 240 < 0xF5 := by omega
  have low : n + 240 = 0xF0 ↔ n = 0 := by omega
  have high : n + 240 = 0xF4 ↔ n = 4 := by omega
  have bits : n + 240 - 0xF0 = n := by omega
  rw [ofByte?, toNat_byte (by omega), if_neg h0, if_neg h1, if_neg h2, if_neg h3, if_pos h4, bits]
  simp only [low, high]

/-- A lead shows one sign, and what comes behind it is read on from there. -/
private theorem shownChars_of_lead {b : UInt8} {lead : Utf8Lead}
    (h : Utf8Lead.ofByte? b = some lead) (rest : List UInt8) :
    shownChars (b :: rest) =
      (readFollowing lead rest).1.getD '\uFFFD' :: shownChars (readFollowing lead rest).2 := by
  rw [shownChars, h]

/-- A byte that fits adds its last six bits. -/
theorem readFollowing_byte {missing low high bits n : Nat} (hlow : low ≤ n) (hhigh : n ≤ high)
    (hn : n < 256) (rest : List UInt8) :
    readFollowing ⟨missing + 1, low, high, bits⟩ (UInt8.ofNat n :: rest) =
      readFollowing ⟨missing, 0x80, 0xBF, bits * 64 + n % 64⟩ rest := by
  rw [readFollowing, toNat_byte hn, if_pos ⟨hlow, hhigh⟩]

/-- The bytes of a character are shown as that character, whatever follows. -/
theorem shownChars_utf8EncodeChar (c : Char) (rest : List UInt8) :
    shownChars (String.utf8EncodeChar c ++ rest) = c :: shownChars rest := by
  have valid : c.val.toNat < 0xD800 ∨ (0xDFFF < c.val.toNat ∧ c.val.toNat < 0x110000) := c.valid
  have back : Char.ofNat c.val.toNat = c := Char.ofNat_toNat c
  unfold String.utf8EncodeChar
  generalize c.val.toNat = v at valid back ⊢
  dsimp only
  split
  next one =>
    rw [List.cons_append, List.nil_append, shownChars_of_lead (Utf8Lead.ofByte?_one (by omega)),
      readFollowing, back]
    rfl
  next one =>
  split
  next two =>
    have small : v / 64 % 32 = v / 64 := by omega
    have sum : v / 64 * 64 + (v % 64 + 128) % 64 = v := by omega
    simp only [List.cons_append, List.nil_append, small]
    rw [shownChars_of_lead (Utf8Lead.ofByte?_two (by omega) (by omega)),
      readFollowing_byte (by omega) (by omega) (by omega), readFollowing, sum, back]
    rfl
  next two =>
  split
  next three =>
    have small : v / 4096 % 16 = v / 4096 := by omega
    have sum : (v / 4096 * 64 + (v / 64 % 64 + 128) % 64) * 64 + (v % 64 + 128) % 64 = v := by
      omega
    simp only [List.cons_append, List.nil_append, small]
    rw [shownChars_of_lead (Utf8Lead.ofByte?_three (by omega)),
      readFollowing_byte (by split <;> omega) (by split <;> omega) (by omega),
      readFollowing_byte (by omega) (by omega) (by omega), readFollowing, sum, back]
    rfl
  next three =>
    have small : v / 262144 % 8 = v / 262144 := by omega
    have sum : ((v / 262144 * 64 + (v / 4096 % 64 + 128) % 64) * 64 +
        (v / 64 % 64 + 128) % 64) * 64 + (v % 64 + 128) % 64 = v := by omega
    simp only [List.cons_append, List.nil_append, small]
    rw [shownChars_of_lead (Utf8Lead.ofByte?_four (by omega)),
      readFollowing_byte (by split <;> omega) (by split <;> omega) (by omega),
      readFollowing_byte (by omega) (by omega) (by omega),
      readFollowing_byte (by omega) (by omega) (by omega), readFollowing, sum, back]
    rfl

/-- The bytes of a text are shown as that text. -/
theorem shownText_toUTF8 (text : String) : shownText text.toUTF8.data.toList = text := by
  have chars (cs : List Char) : shownChars (cs.flatMap String.utf8EncodeChar) = cs := by
    induction cs with
    | nil => simp [shownChars]
    | cons c rest ih => rw [List.flatMap_cons, shownChars_utf8EncodeChar, ih]
  have bytes : (String.ofList text.toList).toUTF8.data.toList =
      text.toList.flatMap String.utf8EncodeChar :=
    congrArg Array.toList List.data_toByteArray
  rw [String.ofList_toList] at bytes
  rw [shownText, bytes, chars, String.ofList_toList]

end SchemaClasses.Text
