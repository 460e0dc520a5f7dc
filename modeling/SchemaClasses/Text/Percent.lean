import SchemaClasses.Text.Digits

/-!
# Percent-encoding

Each byte of the UTF-8 form of a text is written as it is, if it is one of the unreserved
characters of URIs, or as a percent sign and two hexadecimal digits in upper case. Reading leaves
a percent sign without two hexadecimal digits behind it as it is, and fails only if the bytes are
not UTF-8.
-/

namespace SchemaClasses.Percent

/-- Whether a character is never encoded: ASCII letters, digits and four marks. -/
def isUnreserved (c : Char) : Bool :=
  c.isAlphanum || c = '-' || c = '_' || c = '.' || c = '~'

/-- The escape of one byte. -/
def escapeByte (b : UInt8) : List Char :=
  ['%', Text.upperHex (b.toNat / 16), Text.upperHex (b.toNat % 16)]

/-- A byte, escaped unless it is an unreserved character. -/
def encodeByte (b : UInt8) : List Char :=
  let c := Char.ofNat b.toNat
  if isUnreserved c then [c] else escapeByte b

/-- A text with all but the unreserved characters escaped. -/
def encode (text : String) : String :=
  String.ofList (text.toUTF8.data.toList.flatMap encodeByte)

/-- A text with those of its characters escaped that satisfy a test, and all that are not ASCII. -/
def encodeWhere (test : Char → Bool) (text : List Char) : String :=
  String.ofList (text.flatMap fun c =>
    if test c || 0x7F < c.toNat then (String.utf8EncodeChar c).flatMap escapeByte else [c])

/-- The bytes that an encoded text stands for. -/
def decodeBytes : List Char → List UInt8
  | [] => []
  | '%' :: a :: b :: rest =>
    match Text.hexValue? a, Text.hexValue? b with
    | some high, some low => UInt8.ofNat (16 * high + low) :: decodeBytes rest
    | _, _ => UInt8.ofNat '%'.toNat :: decodeBytes (a :: b :: rest)
  | c :: rest => String.utf8EncodeChar c ++ decodeBytes rest

/-- The text that an encoded text stands for, if its bytes are UTF-8. -/
def decode? (text : String) : Option String :=
  String.fromUTF8? ⟨(decodeBytes text.toList).toArray⟩

/-! ## Reading what was written -/

/-- A character that is no percent sign stands for its own bytes. -/
theorem decodeBytes_cons_of_ne {c : Char} (h : c ≠ '%') (rest : List Char) :
    decodeBytes (c :: rest) = String.utf8EncodeChar c ++ decodeBytes rest := by
  match rest with
  | [] => simp [decodeBytes]
  | [_] => simp [decodeBytes]
  | _ :: _ :: _ =>
    rw [decodeBytes]
    exact fun _ _ _ hc _ => h hc

/-- An escaped byte is decoded to that byte, whatever comes behind it. -/
theorem decodeBytes_escapeByte (b : UInt8) (rest : List Char) :
    decodeBytes (escapeByte b ++ rest) = b :: decodeBytes rest := by
  have hb : b.toNat < 256 := b.toNat_lt
  have high : Text.hexValue? (Text.upperHex (b.toNat / 16)) = some (b.toNat / 16) :=
    Text.hexValue?_upperHex (by omega)
  have low : Text.hexValue? (Text.upperHex (b.toNat % 16)) = some (b.toNat % 16) :=
    Text.hexValue?_upperHex (by omega)
  have sum : 16 * (b.toNat / 16) + b.toNat % 16 = b.toNat := Nat.div_add_mod _ _
  simp [escapeByte, decodeBytes, high, low, sum]

/-- An unreserved character is ASCII and no percent sign. -/
theorem isUnreserved_of_byte {b : UInt8} (h : isUnreserved (Char.ofNat b.toNat) = true) :
    Char.ofNat b.toNat ≠ '%' ∧ String.utf8EncodeChar (Char.ofNat b.toNat) = [b] := by
  have all : ∀ n ∈ List.range 256, isUnreserved (Char.ofNat n) = true →
      Char.ofNat n ≠ '%' ∧ String.utf8EncodeChar (Char.ofNat n) = [UInt8.ofNat n] := by
    decide +kernel
  have hb := all b.toNat (List.mem_range.mpr b.toNat_lt) h
  simpa using hb

/-- An encoded byte is decoded to that byte, whether it was escaped or not. -/
theorem decodeBytes_encodeByte (b : UInt8) (rest : List Char) :
    decodeBytes (encodeByte b ++ rest) = b :: decodeBytes rest := by
  by_cases h : isUnreserved (Char.ofNat b.toNat) = true
  · have hb := isUnreserved_of_byte h
    simp only [encodeByte, h, if_true, List.cons_append, List.nil_append]
    rw [decodeBytes_cons_of_ne hb.1, hb.2]
    rfl
  · simpa [encodeByte, h] using decodeBytes_escapeByte b rest

/-- Decoding undoes the encoding of any bytes. -/
theorem decodeBytes_flatMap_encodeByte (bytes : List UInt8) :
    decodeBytes (bytes.flatMap encodeByte) = bytes := by
  induction bytes with
  | nil => rfl
  | cons b rest ih => rw [List.flatMap_cons, decodeBytes_encodeByte, ih]

/-- Encoding loses nothing. -/
theorem decode?_encode (text : String) : decode? (encode text) = some text := by
  unfold decode? encode
  rw [String.toList_ofList, decodeBytes_flatMap_encodeByte]
  exact dif_pos text.isValidUTF8

end SchemaClasses.Percent
