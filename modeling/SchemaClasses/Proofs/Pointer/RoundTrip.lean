import SchemaClasses.Flatten.Basic
import SchemaClasses.Proofs.Pointer
import SchemaClasses.Proofs.Tables

/-!
# Which anchors pointers can be read behind

Main statement (`pointers_roundTrip`): behind an anchor the pointers to all paths are read as they
were written if and only if the anchor has no slash and stands for itself when it is read as a
segment. `#` and the empty text are such anchors, so a place is found again from its pointer, and
the object that a flattened table is written as keeps every entry of it, in order, under a key from
which its place is found again.

An anchor goes through the same reading as a segment, which is why both conditions are needed: the
text is cut at the slashes of the anchor as well, and what comes first is decoded before it is
compared. That they are needed shows on the empty path alone, whose pointer is the anchor
(`selfDecoding_of_decode`).

Reading a segment is stated here as it is documented, by two replacements one after the other in
the whole text (`readSegment`). That they come to the same as undoing the escapes from left to
right (`unescape_eq_replace`) rests on the order: no slash that the first one puts in stands where
the second one looks for a zero.
-/

namespace SchemaClasses

/-! ### Replacing words -/

namespace Text

/-- A text with the occurrences of a word replaced, behind some characters that belong to an
occurrence already replaced. -/
def replaceFrom (word new : List Char) : Nat → List Char → List Char
  | _, [] => []
  | behind + 1, _ :: rest => replaceFrom word new behind rest
  | 0, c :: rest =>
    if word.isPrefixOf (c :: rest) then new ++ replaceFrom word new (word.length - 1) rest
    else c :: replaceFrom word new 0 rest

/-- A text with each occurrence of a word replaced; occurrences are found from left to right and
do not overlap. -/
def replace (word new text : String) : String :=
  String.ofList (replaceFrom word.toList new.toList 0 text.toList)

/-- Replacing a single character is replacing it wherever it stands. -/
theorem replaceFrom_singleton (c : Char) (new text : List Char) :
    replaceFrom [c] new 0 text = text.flatMap fun d => if c = d then new else [d] := by
  induction text with
  | nil => rfl
  | cons d rest ih =>
    rw [List.flatMap_cons, ← ih, replaceFrom]
    by_cases h : c = d
    · simp [List.isPrefixOf, h]
    · simp [List.isPrefixOf, h]

section Pair

variable {a b c : Char} {new rest : List Char}

/-- A pair at the front is replaced, and what follows is read on behind it. -/
theorem replaceFrom_pair_self :
    replaceFrom [a, b] new 0 (a :: b :: rest) = new ++ replaceFrom [a, b] new 0 rest := by
  simp [replaceFrom, List.isPrefixOf]

/-- A character stays that begins no occurrence. -/
theorem replaceFrom_pair_cons (h : a = c → rest.head? ≠ some b) :
    replaceFrom [a, b] new 0 (c :: rest) = c :: replaceFrom [a, b] new 0 rest := by
  rw [replaceFrom, if_neg]
  intro hstart
  cases rest with
  | nil => simp [List.isPrefixOf] at hstart
  | cons d rest =>
    obtain ⟨rfl, rfl⟩ : a = c ∧ b = d := by simpa [List.isPrefixOf] using hstart
    exact h rfl rfl

end Pair

/-- A character that a replacement does not put in stood first before. -/
theorem head?_replaceFrom_pair {a b d e : Char} {text : List Char}
    (h : (replaceFrom [a, b] [d] 0 text).head? = some e) (hne : d ≠ e) : text.head? = some e := by
  cases text with
  | nil => exact h
  | cons c rest =>
    rw [replaceFrom] at h
    split_ifs at h
    · exact absurd (Option.some.inj h) hne
    · exact h

/-- The first piece has no separator. -/
theorem not_mem_splitWhere_fst (separator : Char) (text : List Char) :
    separator ∉ (splitWhere (fun c => c = separator) text).1 := by
  induction text with
  | nil => exact List.not_mem_nil
  | cons c rest ih =>
    by_cases h : c = separator
    · rw [splitWhere_separator (by simp [h])]
      exact List.not_mem_nil
    · have hfront : ∀ d ∈ [c], decide (d = separator) = false := by simpa using h
      have hcons : splitWhere (fun c => c = separator) (c :: rest) = _ :=
        splitWhere_append hfront rest
      rw [hcons]
      simpa [Ne.symm h] using ih

end Text

/-! ### Segments as they are documented -/

namespace Pointer

/-- Escaping replaces the tildes first, so that those it puts before the digits stay. -/
theorem escape_eq_replace (segment : String) :
    escape segment = Text.replace "/" "~1" (Text.replace "~" "~0" segment) := by
  have each : ∀ c, escapeChar c = (if '~' = c then ['~', '0'] else [c]).flatMap fun d =>
      if '/' = d then ['~', '1'] else [d] := by
    intro c
    unfold escapeChar
    by_cases htilde : c = '~'
    · subst htilde
      decide
    · rw [if_neg htilde, if_neg (Ne.symm htilde), List.flatMap_singleton]
      by_cases hslash : c = '/'
      · rw [if_pos hslash, if_pos hslash.symm]
      · rw [if_neg hslash, if_neg (Ne.symm hslash)]
  have both : Text.replace "/" "~1" (Text.replace "~" "~0" segment) =
      String.ofList (Text.replaceFrom ['/'] ['~', '1'] 0
        (Text.replaceFrom ['~'] ['~', '0'] 0 segment.toList)) := by
    simp [Text.replace]
  rw [both, Text.replaceFrom_singleton, Text.replaceFrom_singleton, List.flatMap_assoc]
  exact congrArg String.ofList (List.flatMap_congr fun c _ => each c)

/-- Undoing the escapes from left to right is replacing `~1` in the whole text and then `~0`. -/
theorem unescapeChars_eq_replaceFrom (text : List Char) :
    unescapeChars text =
      Text.replaceFrom ['~', '0'] ['~'] 0 (Text.replaceFrom ['~', '1'] ['/'] 0 text) := by
  fun_induction unescapeChars text with
  | case1 => rfl
  | case2 rest ih =>
    have first : Text.replaceFrom ['~', '1'] ['/'] 0 ('~' :: '0' :: rest) =
        '~' :: '0' :: Text.replaceFrom ['~', '1'] ['/'] 0 rest := by
      rw [Text.replaceFrom_pair_cons (by simp), Text.replaceFrom_pair_cons (by simp)]
    rw [first, Text.replaceFrom_pair_self, List.singleton_append, ih]
  | case3 rest ih =>
    rw [Text.replaceFrom_pair_self, List.singleton_append, Text.replaceFrom_pair_cons (by simp), ih]
  | case4 c rest hzero hone ih =>
    -- A tilde here is followed by neither digit, also once slashes have been put in behind it.
    have first : '~' = c → rest.head? ≠ some '1' := by
      rintro rfl hhead
      obtain ⟨rest, rfl⟩ := List.head?_eq_some_iff.mp hhead
      exact hone rest rfl rfl
    have second : '~' = c → (Text.replaceFrom ['~', '1'] ['/'] 0 rest).head? ≠ some '0' := by
      rintro rfl hhead
      have hrest := Text.head?_replaceFrom_pair hhead (by decide)
      obtain ⟨rest, rfl⟩ := List.head?_eq_some_iff.mp hrest
      exact hzero rest rfl rfl
    rw [Text.replaceFrom_pair_cons first, Text.replaceFrom_pair_cons second, ih]

/-- Undoing the escapes is replacing `~1` by a slash and then `~0` by a tilde. -/
theorem unescape_eq_replace (segment : String) :
    unescape segment = Text.replace "~0" "~" (Text.replace "~1" "/" segment) := by
  rw [unescape, unescapeChars_eq_replaceFrom]
  simp [Text.replace]

/-- The segment that a piece of a pointer stands for, if its bytes are UTF-8: its percent-encoding
undone, then each `~1` replaced by a slash, then each `~0` by a tilde. -/
def readSegment (piece : String) : Option String :=
  (Percent.decode? piece).map fun text => Text.replace "~0" "~" (Text.replace "~1" "/" text)

/-- A piece of a pointer stands for a segment as `readSegment` says, and is refused otherwise. -/
theorem decodeSegment_eq_ok_iff {piece segment : String} :
    decodeSegment piece = .ok segment ↔ readSegment piece = some segment := by
  unfold decodeSegment readSegment
  cases Percent.decode? piece with
  | none => simp
  | some text => simp [unescape_eq_replace]

/-! ### Anchors -/

/-- Of what stands behind an anchor, nothing is read as the empty path but the anchor itself. -/
theorem selfDecoding_of_decode {anchor : String} (h : decode anchor anchor = .ok []) :
    '/' ∉ anchor.toList ∧ decodeSegment anchor = .ok anchor := by
  have hslash := Text.not_mem_splitWhere_fst '/' anchor.toList
  have htext := Text.append_joinBehind_splitWhere '/' anchor.toList
  unfold decode at h
  generalize Text.splitWhere (fun c => c = '/') anchor.toList = split at h hslash htext
  obtain ⟨first, pieces⟩ := split
  cases hfirst : decodeSegment (String.ofList first) with
  | error e => simp [hfirst, bind, Except.bind] at h
  | ok actual =>
    by_cases hsame : actual = anchor
    · cases pieces with
      | nil =>
        have hwhole : first = anchor.toList := by simpa [Text.joinBehind] using htext
        rw [hwhole, String.ofList_toList] at hfirst
        exact ⟨hwhole ▸ hslash, hsame ▸ hfirst⟩
      | cons piece pieces =>
        simp only [hfirst, hsame, List.mapM_cons, bind, Except.bind, pure, Except.pure, ne_eq,
          not_true_eq_false, if_false] at h
        split at h <;> (try split at h) <;> cases h
    · simp [hfirst, hsame, bind, Except.bind, throw, throwThe, MonadExceptOf.throw] at h

/-- The anchors behind which all pointers are read as they were written. -/
theorem decode_encode_iff (anchor : String) :
    (∀ segments, decode anchor (encode anchor segments) = .ok segments) ↔
      '/' ∉ anchor.toList ∧ readSegment anchor = some anchor := by
  rw [← decodeSegment_eq_ok_iff]
  exact ⟨fun h => selfDecoding_of_decode (h []), fun h => decode_encode h.1 h.2⟩

end Pointer

/-! ### Flattened tables as objects -/

namespace FlatSchemas

/-- Different places have different pointers. -/
theorem nodup_keys_written {schemas : FlatSchemas} (hnodup : (Assoc.keys schemas).Nodup) :
    (Assoc.keys (schemas.map fun entry => (entry.1.toPointer, Json.obj entry.2))).Nodup := by
  have hpointers := hnodup.map SchemaPath.toPointer_injective
  simpa [Assoc.keys, Function.comp_def] using hpointers

/-- No entry of a table takes the place of another one when the table is written. -/
theorem toJson_eq {schemas : FlatSchemas} (hnodup : (Assoc.keys schemas).Nodup) :
    schemas.toJson = .obj (schemas.map fun entry => (entry.1.toPointer, .obj entry.2)) := by
  rw [toJson, Assoc.ofList_of_nodup (nodup_keys_written hnodup)]

end FlatSchemas

/-- Pointers are read back behind exactly the anchors that have no slash and stand for themselves
as segments. The number sign and the empty text are among them; so a place is found again from its
pointer, and a flattened table is written as an object with the same number of entries in the same
order, where each key leads to the place of the entry that stands there. -/
theorem pointers_roundTrip :
    (∀ anchor : String,
      (∀ segments, Pointer.decode anchor (Pointer.encode anchor segments) = .ok segments) ↔
        '/' ∉ anchor.toList ∧ Pointer.readSegment anchor = some anchor) ∧
    (∀ anchor ∈ ["#", ""], ∀ segments,
      Pointer.decode anchor (Pointer.encode anchor segments) = .ok segments) ∧
    (∀ path : SchemaPath, SchemaPath.ofPointer path.toPointer = .ok path) ∧
    ∀ schemas : FlatSchemas, (Assoc.keys schemas).Nodup →
      ∃ entries, schemas.toJson = .obj entries ∧ (Assoc.keys entries).Nodup ∧
        List.Forall₂ (fun entry written => SchemaPath.ofPointer written.1 = .ok entry.1 ∧
          written.2 = .obj entry.2) schemas entries := by
  refine ⟨Pointer.decode_encode_iff, ?_, SchemaPath.ofPointer_toPointer, fun schemas hnodup => ?_⟩
  · have own : ∀ anchor ∈ ["#", ""],
        '/' ∉ anchor.toList ∧ Pointer.readSegment anchor = some anchor := by decide +kernel
    exact fun anchor hanchor => (Pointer.decode_encode_iff anchor).mpr (own anchor hanchor)
  · refine ⟨_, FlatSchemas.toJson_eq hnodup, FlatSchemas.nodup_keys_written hnodup, ?_⟩
    rw [List.forall₂_map_right_iff, List.forall₂_same]
    exact fun entry _ => ⟨SchemaPath.ofPointer_toPointer entry.1, rfl⟩

/-- A table of two places, of which one ends in a segment that looks like an escape. -/
theorem pointers_roundTrip_two_places :
    (Assoc.keys [((⟨["a/b", "~1", ""]⟩ : SchemaPath), ([] : Entries)),
      (⟨["%20"]⟩, [("type", .str "object")])]).Nodup ∧
    ∃ entries, FlatSchemas.toJson [(⟨["a/b", "~1", ""]⟩, []),
        (⟨["%20"]⟩, [("type", .str "object")])] = .obj entries ∧ (Assoc.keys entries).Nodup ∧
      List.Forall₂ (fun entry written => SchemaPath.ofPointer written.1 = .ok entry.1 ∧
        written.2 = .obj entry.2)
        [(⟨["a/b", "~1", ""]⟩, []), (⟨["%20"]⟩, [("type", .str "object")])] entries :=
  ⟨by decide, pointers_roundTrip.2.2.2 _ (by decide)⟩

end SchemaClasses
