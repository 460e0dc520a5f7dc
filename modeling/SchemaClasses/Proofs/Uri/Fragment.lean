import SchemaClasses.Proofs.Uri

/-!
# References that are fragments

A reference that begins with a number sign leads into the document that it stands in. Main statement
(`SchemaPath.ofPointer_cleaned`): the place that the fragment of the URI names is the place that the
text names as a pointer, once it has been cleaned of what no URI keeps of it (`Uri.cleaned`).

For the fragment is the rest of the text with some characters escaped (`Uri.join_local`), none of
them a slash, a percent sign or a hexadecimal digit. So the slashes cut it into the same pieces, and
reading a piece undoes the escapes that have been added and those that were there before
(`Percent.decodeBytes_flatMap_escapeWhere`).
-/

namespace SchemaClasses

/-! ### Escaping what is escaped in part -/

namespace Percent

variable {test : Char → Bool}

/-- A character, escaped if it satisfies a test or is not ASCII. -/
def escapeWhere (test : Char → Bool) (c : Char) : List Char :=
  if test c || 0x7F < c.toNat then (String.utf8EncodeChar c).flatMap escapeByte else [c]

/-- Encoding a text encodes it character by character. -/
theorem toList_encodeWhere (text : List Char) :
    (encodeWhere test text).toList = text.flatMap (escapeWhere test) :=
  String.toList_ofList

/-- A character stays as it is, or its bytes are escaped because it passes the test or is not
ASCII. -/
theorem escapeWhere_cases (test : Char → Bool) (c : Char) :
    escapeWhere test c = [c] ∨
      (escapeWhere test c = (String.utf8EncodeChar c).flatMap escapeByte ∧
        (test c = true ∨ 0x7F < c.toNat)) := by
  unfold escapeWhere
  split_ifs with h
  · exact .inr ⟨rfl, by simpa using h⟩
  · exact .inl rfl

/-- Escaped bytes are decoded to themselves, whatever comes behind them. -/
theorem decodeBytes_flatMap_escapeByte (bytes : List UInt8) (rest : List Char) :
    decodeBytes (bytes.flatMap escapeByte ++ rest) = bytes ++ decodeBytes rest := by
  induction bytes with
  | nil => rfl
  | cons b bytes ih =>
    rw [List.flatMap_cons, List.append_assoc, decodeBytes_escapeByte, ih, List.cons_append]

/-- Escaped or not, a character other than the percent sign is read as its bytes. -/
theorem decodeBytes_escapeWhere {c : Char} (h : c ≠ '%') (rest : List Char) :
    decodeBytes (escapeWhere test c ++ rest) = String.utf8EncodeChar c ++ decodeBytes rest := by
  rcases escapeWhere_cases test c with hkept | ⟨hescaped, -⟩
  · rw [hkept, List.singleton_append, decodeBytes_cons_of_ne h]
  · rw [hescaped, decodeBytes_flatMap_escapeByte]

/-- A percent sign without two hexadecimal digits behind it stands for itself. -/
theorem decodeBytes_percent {rest : List Char}
    (h : ∀ a b behind, rest = a :: b :: behind →
      Text.hexValue? a = none ∨ Text.hexValue? b = none) :
    decodeBytes ('%' :: rest) = UInt8.ofNat '%'.toNat :: decodeBytes rest := by
  match rest with
  | [] => rfl
  | [a] => rfl
  | a :: b :: behind =>
    rw [decodeBytes]
    rcases h a b behind rfl with ha | hb
    · rw [ha]
    · rw [hb]
      cases Text.hexValue? a <;> rfl

/-- The escapes begin with a percent sign, so a hexadecimal digit in front has been there before. -/
theorem cons_of_flatMap_escapeWhere {text rest : List Char} {d : Char}
    (h : text.flatMap (escapeWhere test) = d :: rest) (hd : (Text.hexValue? d).isSome) :
    ∃ behind, text = d :: behind ∧ rest = behind.flatMap (escapeWhere test) := by
  cases text with
  | nil => cases h
  | cons c behind =>
    rw [List.flatMap_cons] at h
    rcases escapeWhere_cases test c with hkept | ⟨hescaped, -⟩
    · rw [hkept] at h
      obtain ⟨rfl, rfl⟩ := List.cons.inj h
      exact ⟨behind, rfl, rfl⟩
    · obtain ⟨b, bytes, hbytes⟩ :=
        List.exists_cons_of_ne_nil (String.utf8EncodeChar_ne_nil (c := c))
      rw [hescaped, hbytes] at h
      obtain ⟨rfl, -⟩ := List.cons.inj h
      cases hd

/-- Escaping characters other than percent signs and hexadecimal digits does not change what a text
stands for, even if it is escaped in part. -/
theorem decodeBytes_flatMap_escapeWhere (hpercent : escapeWhere test '%' = ['%'])
    (hhex : ∀ c, (Text.hexValue? c).isSome → escapeWhere test c = [c]) (text : List Char) :
    decodeBytes (text.flatMap (escapeWhere test)) = decodeBytes text := by
  induction hlength : text.length using Nat.strongRecOn generalizing text with
  | ind length ih =>
    cases text with
    | nil => rfl
    | cons c rest =>
      have hrest : decodeBytes (rest.flatMap (escapeWhere test)) = decodeBytes rest :=
        ih rest.length (by simp [← hlength]) rest rfl
      rw [List.flatMap_cons]
      by_cases hc : c = '%'
      · subst hc
        rw [hpercent, List.singleton_append]
        by_cases hpair : ∃ a b behind, rest = a :: b :: behind ∧ (Text.hexValue? a).isSome ∧
            (Text.hexValue? b).isSome
        · obtain ⟨a, b, behind, rfl, ha, hb⟩ := hpair
          have hbehind : decodeBytes (behind.flatMap (escapeWhere test)) = decodeBytes behind :=
            ih behind.length (by simp [← hlength]; omega) behind rfl
          obtain ⟨high, hhigh⟩ := Option.isSome_iff_exists.mp ha
          obtain ⟨low, hlow⟩ := Option.isSome_iff_exists.mp hb
          rw [List.flatMap_cons, List.flatMap_cons, hhex a ha, hhex b hb]
          simp only [List.singleton_append, decodeBytes, hhigh, hlow, hbehind]
        · have hno : ∀ text : List Char, (∀ a b behind, text = a :: b :: behind →
              (Text.hexValue? a).isSome → (Text.hexValue? b).isSome → False) →
              decodeBytes ('%' :: text) = UInt8.ofNat '%'.toNat :: decodeBytes text := by
            intro text htext
            refine decodeBytes_percent fun a b behind heq => ?_
            by_contra hboth
            rw [not_or, ← ne_eq, ← ne_eq, Option.ne_none_iff_isSome, Option.ne_none_iff_isSome]
              at hboth
            exact htext a b behind heq hboth.1 hboth.2
          rw [hno, hno, hrest]
          · exact fun a b behind heq ha hb => hpair ⟨a, b, behind, heq, ha, hb⟩
          · intro a b behind heq ha hb
            obtain ⟨tail, rfl, htail⟩ := cons_of_flatMap_escapeWhere heq ha
            obtain ⟨behind, rfl, -⟩ := cons_of_flatMap_escapeWhere htail.symm hb
            exact hpair ⟨a, b, behind, rfl, ha, hb⟩
      · rw [decodeBytes_escapeWhere hc, decodeBytes_cons_of_ne hc, hrest]

end Percent

/-! ### Escaping a fragment -/

namespace UriPath

open Percent (escapeWhere)

/-- A fragment escapes no hexadecimal digit. -/
theorem escapeWhere_of_hex (c : Char) (h : (Text.hexValue? c).isSome) :
    escapeWhere escapedInFragment c = [c] := by
  have all : ∀ n ∈ List.range 0x80, (Text.hexValue? (Char.ofNat n)).isSome →
      escapeWhere escapedInFragment (Char.ofNat n) = [Char.ofNat n] := by decide +kernel
  have hbelow : ∀ last : Char, c ≤ last → last.toNat < 0x80 → c.toNat < 0x80 :=
    fun last hle hlast => Nat.lt_of_le_of_lt (UInt32.le_iff_toNat_le.mp hle) hlast
  have hascii : c.toNat < 0x80 := by
    unfold Text.hexValue? at h
    split_ifs at h with hdigit hlower hupper
    · simp only [Char.isDigit, Bool.and_eq_true, decide_eq_true_eq] at hdigit
      exact hbelow '9' hdigit.2 (by decide)
    · exact hbelow 'f' hlower.2 (by decide)
    · exact hbelow 'F' hupper.2 (by decide)
    · cases h
  have hc := all c.toNat (List.mem_range.mpr hascii)
  rw [Char.ofNat_toNat] at hc
  exact hc h

/-- An escaped byte has no slash. -/
theorem slash_not_mem_escapeByte (b : UInt8) : '/' ∉ Percent.escapeByte b := by
  have all : ∀ n ∈ List.range 256, '/' ∉ Percent.escapeByte (UInt8.ofNat n) := by decide +kernel
  simpa using all b.toNat (List.mem_range.mpr b.toNat_lt)

/-- The pieces of an escaped fragment are the escaped pieces. -/
theorem splitWhere_escapeWhere (text : List Char) :
    Text.splitWhere (fun c => c = '/') (text.flatMap (escapeWhere escapedInFragment)) =
      ((Text.splitWhere (fun c => c = '/') text).1.flatMap (escapeWhere escapedInFragment),
        (Text.splitWhere (fun c => c = '/') text).2.map fun piece =>
          piece.flatMap (escapeWhere escapedInFragment)) := by
  induction text with
  | nil => rfl
  | cons c rest ih =>
    rw [List.flatMap_cons]
    by_cases hc : c = '/'
    · subst hc
      have hkept : escapeWhere escapedInFragment '/' = ['/'] := by decide
      rw [hkept, List.singleton_append, Text.splitWhere_separator (by rfl), ih,
        Text.splitWhere_separator (by rfl)]
      rfl
    · have hfree : ∀ d ∈ escapeWhere escapedInFragment c, decide (d = '/') = false := by
        rcases Percent.escapeWhere_cases escapedInFragment c with hkept | ⟨hescaped, -⟩
        · rw [hkept]
          intro d hd
          rw [List.mem_singleton.mp hd, decide_eq_false hc]
        · rw [hescaped]
          intro d hd
          obtain ⟨b, -, hd⟩ := List.mem_flatMap.mp hd
          exact decide_eq_false fun heq => slash_not_mem_escapeByte b (heq ▸ hd)
      have hhead : ∀ rest, Text.splitWhere (fun c => c = '/') (c :: rest) =
          (c :: (Text.splitWhere (fun c => c = '/') rest).1,
            (Text.splitWhere (fun c => c = '/') rest).2) := by
        intro rest
        simp [Text.splitWhere, hc]
      rw [Text.splitWhere_append hfree, ih, hhead, List.flatMap_cons]

end UriPath

open UriPath Percent in
/-- Escaping a piece for a fragment does not change what it is decoded to. -/
theorem Percent.decode?_escapeWhere (piece : List Char) :
    decode? (String.ofList (piece.flatMap (escapeWhere escapedInFragment))) =
      decode? (String.ofList piece) := by
  rw [decode?, decode?, String.toList_ofList, String.toList_ofList,
    decodeBytes_flatMap_escapeWhere (by decide) escapeWhere_of_hex]

namespace Uri

/-- What is left of a reference when it is read as a URI: the text without spaces and control
characters around it and without tabs and line ends in it. -/
def cleaned (text : String) : String :=
  String.ofList (UriPath.withoutBreaks (trim text))

/-- A reference that begins with a number sign is the fragment of the same URI. -/
theorem join_local (base : Uri) {text : String} (h : text.toList.head? = some '#') :
    ∃ rest, cleaned text = String.ofList ('#' :: rest) ∧ base.join text =
      .ok { base with fragment := some (Percent.encodeWhere UriPath.escapedInFragment rest) } := by
  obtain ⟨rest, htext⟩ : ∃ rest, text.toList = '#' :: rest := by
    cases htext : text.toList with
    | nil => rw [htext] at h; cases h
    | cons c rest =>
      rw [htext] at h
      exact ⟨rest, congrArg (· :: rest) (Option.some.inj h)⟩
  -- the number sign is dropped from neither end
  obtain ⟨kept, hkept⟩ : ∃ kept, UriPath.withoutBreaks (trim text) = '#' :: kept := by
    let outer := fun c : Char => decide (c.toNat ≤ 0x20)
    have hsign : ¬outer '#' = true := by decide
    have hend : (rest.reverse ++ ['#']).dropWhile outer =
        rest.reverse.dropWhile outer ++ ['#'] := by
      rw [List.dropWhile_append]
      split_ifs with hnone
      · rw [List.dropWhile_cons_of_neg hsign, List.isEmpty_iff.mp hnone, List.nil_append]
      · rfl
    have htrim : trim text = '#' :: (rest.reverse.dropWhile outer).reverse := by
      show ((text.toList.dropWhile outer).reverse.dropWhile outer).reverse = _
      rw [htext, List.dropWhile_cons_of_neg hsign, List.reverse_cons, hend, List.reverse_append]
      rfl
    rw [htrim]
    exact ⟨_, rfl⟩
  refine ⟨kept, congrArg String.ofList hkept, ?_⟩
  have hscheme : splitScheme? ('#' :: kept) = none := rfl
  have htail : readTail (SchemeKind.ofScheme base.scheme) ('#' :: kept) =
      (none, some (Percent.encodeWhere UriPath.escapedInFragment kept)) := rfl
  unfold join read
  dsimp only
  rw [hkept, hscheme]
  dsimp only
  rw [if_pos (List.head?_cons ..), withTail, htail]

end Uri

/-! ### Reading a fragment as a pointer -/

namespace Pointer

open UriPath (escapedInFragment)
open Percent (escapeWhere)

/-- Only the empty text is decoded to no bytes. -/
theorem eq_nil_of_decodeBytes {text : List Char} (h : Percent.decodeBytes text = []) :
    text = [] := by
  cases text with
  | nil => rfl
  | cons c rest =>
    unfold Percent.decodeBytes at h
    split at h
    · assumption
    · split at h <;> cases h
    · exact absurd (List.append_eq_nil_iff.mp h).1 String.utf8EncodeChar_ne_nil

/-- Only the empty text is unescaped to the empty segment. -/
theorem eq_empty_of_unescape {text : String} (h : unescape text = "") : text = "" := by
  have hchars : ∀ chars : List Char, unescapeChars chars = [] → chars = [] := by
    intro chars hchars
    unfold unescapeChars at hchars
    split at hchars
    · rfl
    · cases hchars
    · cases hchars
    · cases hchars
  apply String.toList_injective
  have hnone := congrArg String.toList h
  rw [unescape, String.toList_ofList] at hnone
  exact hchars _ hnone

/-- Only the empty piece is read as the empty segment. -/
theorem eq_empty_of_decodeSegment {piece : List Char}
    (h : decodeSegment (String.ofList piece) = .ok "") : piece = [] := by
  unfold decodeSegment at h
  cases htext : Percent.decode? (String.ofList piece) with
  | none => rw [htext] at h; cases h
  | some text =>
    rw [htext] at h
    have hnone := eq_empty_of_unescape (Except.ok.inj h)
    subst hnone
    unfold Percent.decode? String.fromUTF8? at htext
    split_ifs at htext with hvalid
    have hbytes : (⟨(Percent.decodeBytes (String.ofList piece).toList).toArray⟩ : ByteArray) =
        "".toByteArray := congrArg String.toByteArray (Option.some.inj htext)
    have hdata := congrArg (fun bytes : ByteArray => bytes.data.toList) hbytes
    rw [String.toList_ofList] at hdata
    exact eq_nil_of_decodeBytes hdata

/-- An escaped piece is read as what it was before it was escaped. -/
theorem decodeSegment_escapeWhere {piece : List Char} {segment : String}
    (h : decodeSegment (String.ofList (piece.flatMap (escapeWhere escapedInFragment))) =
      .ok segment) : decodeSegment (String.ofList piece) = .ok segment := by
  unfold decodeSegment at h ⊢
  rw [Percent.decode?_escapeWhere] at h
  cases htext : Percent.decode? (String.ofList piece) with
  | none => rw [htext] at h; cases h
  | some text => rw [htext] at h; exact h

/-- Escaped pieces are read as what they were before, one by one. -/
theorem mapM_escapeWhere {pieces : List (List Char)} {segments : List String}
    (h : ((pieces.map fun piece => piece.flatMap (escapeWhere escapedInFragment)).mapM
      fun piece => decodeSegment (String.ofList piece)) = .ok segments) :
    (pieces.mapM fun piece => decodeSegment (String.ofList piece)) = .ok segments := by
  induction pieces generalizing segments with
  | nil => exact h
  | cons piece rest ih =>
    rw [List.map_cons, List.mapM_cons] at h
    rw [List.mapM_cons]
    cases hpiece : decodeSegment
      (String.ofList (piece.flatMap (escapeWhere escapedInFragment))) with
    | error error => rw [hpiece] at h; cases h
    | ok segment =>
      rw [hpiece] at h
      rw [decodeSegment_escapeWhere hpiece]
      simp only [bind, Except.bind] at h ⊢
      cases hrest : (rest.map fun piece => piece.flatMap (escapeWhere escapedInFragment)).mapM
          fun piece => decodeSegment (String.ofList piece) with
      | error error => rw [hrest] at h; cases h
      | ok found =>
        rw [hrest] at h
        rw [ih hrest]
        exact h

/-- What a fragment leads along, the text leads along behind a number sign. -/
theorem decode_of_fragment {rest : List Char} {segments : List String}
    (h : decode "" (Percent.encodeWhere escapedInFragment rest) = .ok segments) :
    decode "#" (String.ofList ('#' :: rest)) = .ok segments := by
  unfold decode at h ⊢
  rw [Percent.toList_encodeWhere, UriPath.splitWhere_escapeWhere] at h
  dsimp only at h
  cases hfirst : decodeSegment (String.ofList ((Text.splitWhere (fun c => c = '/') rest).1.flatMap
      (escapeWhere escapedInFragment))) with
  | error error => rw [hfirst] at h; cases h
  | ok first =>
    rw [hfirst] at h
    have hanchor : first = "" := by
      by_contra hne
      simp only [bind, Except.bind, if_pos hne] at h
      cases h
    subst hanchor
    have hnone := eq_empty_of_decodeSegment (decodeSegment_escapeWhere hfirst)
    have hself : decodeSegment "#" = .ok "#" := by decide +kernel
    have hsplit : Text.splitWhere (fun c => c = '/') ('#' :: rest) =
        (['#'], (Text.splitWhere (fun c => c = '/') rest).2) := by
      have hsign : ∀ c ∈ ['#'], decide (c = '/') = false :=
        List.forall_mem_singleton.mpr rfl
      rw [← List.singleton_append, Text.splitWhere_append hsign, hnone]
      rfl
    rw [String.toList_ofList, hsplit]
    have hsign : decodeSegment (String.ofList ['#']) = .ok "#" := hself
    simp only [bind, Except.bind, ne_eq, not_true_eq_false, if_false, hsign] at h ⊢
    exact mapM_escapeWhere h

end Pointer

/-- Read as a pointer, a reference that begins with a number sign names the place that the fragment
of its URI names. -/
theorem SchemaPath.ofPointer_cleaned {base uri : Uri} {text : String}
    (hsign : text.toList.head? = some '#') (hjoin : base.join text = .ok uri)
    {segments : List String}
    (hdecode : Pointer.decode "" (uri.fragment.getD "") = .ok segments) :
    SchemaPath.ofPointer (Uri.cleaned text) = .ok ⟨segments⟩ := by
  obtain ⟨rest, hcleaned, hlocal⟩ := base.join_local hsign
  obtain rfl := Except.ok.inj (hlocal.symm.trans hjoin)
  rw [hcleaned, ofPointer, Pointer.decode_of_fragment hdecode]
  rfl

end SchemaClasses
