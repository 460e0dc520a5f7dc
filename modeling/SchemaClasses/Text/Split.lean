/-!
# Cutting a text into pieces

A text is cut at each character that satisfies a test; the character itself belongs to no piece.
There is always at least one piece, so `splitWhere` gives the first one and the others. No piece
has a character that satisfies the test, and with single separators between them the pieces make
up the text again.
-/

namespace SchemaClasses.Text

/-- The pieces of a text between the characters that satisfy a test: the first one, and the
others. -/
def splitWhere (test : Char → Bool) : List Char → List Char × List (List Char)
  | [] => ([], [])
  | c :: rest =>
    let (piece, pieces) := splitWhere test rest
    if test c then ([], piece :: pieces) else (c :: piece, pieces)

/-- All pieces of a text between the occurrences of a character. -/
def splitAt (separator : Char) (text : List Char) : List (List Char) :=
  let (piece, pieces) := splitWhere (fun c => c = separator) text
  piece :: pieces

/-- Pieces with a separator before each of them. -/
def joinBehind (separator : Char) (pieces : List (List Char)) : List Char :=
  pieces.flatMap fun piece => separator :: piece

/-- A separator in front splits off an empty piece. -/
theorem splitWhere_separator {test : Char → Bool} {c : Char} (h : test c = true)
    (rest : List Char) :
    splitWhere test (c :: rest) = ([], (splitWhere test rest).1 :: (splitWhere test rest).2) := by
  simp [splitWhere, h]

/-- Characters that do not satisfy the test stay together in front. -/
theorem splitWhere_append {test : Char → Bool} {front : List Char}
    (h : ∀ c ∈ front, test c = false) (rest : List Char) :
    splitWhere test (front ++ rest) =
      (front ++ (splitWhere test rest).1, (splitWhere test rest).2) := by
  induction front with
  | nil => rfl
  | cons c front ih =>
    have hc : test c = false := h c List.mem_cons_self
    have hrest := ih fun d hd => h d (List.mem_cons_of_mem _ hd)
    simp [splitWhere, hc, hrest]

/-- The pieces between the occurrences of a character make up the text. -/
theorem append_joinBehind_splitWhere (separator : Char) (text : List Char) :
    (splitWhere (fun c => c = separator) text).1 ++
      joinBehind separator (splitWhere (fun c => c = separator) text).2 = text := by
  induction text with
  | nil => rfl
  | cons c rest ih =>
    by_cases h : c = separator
    · simp only [splitWhere, h, decide_true, if_true, joinBehind, List.flatMap_cons,
        List.nil_append, List.cons_append]
      exact congrArg (separator :: ·) ih
    · simpa [splitWhere, h] using ih

/-- Pieces without separator are found again. -/
theorem splitWhere_joinBehind {separator : Char} {front : List Char} {pieces : List (List Char)}
    (hfront : separator ∉ front) (h : ∀ piece ∈ pieces, separator ∉ piece) :
    splitWhere (fun c => c = separator) (front ++ joinBehind separator pieces) =
      (front, pieces) := by
  have free : ∀ text : List Char, separator ∉ text →
      ∀ c ∈ text, decide (c = separator) = false := by
    intro text htext c hc
    simpa using fun he : c = separator => htext (he ▸ hc)
  induction pieces generalizing front with
  | nil => simpa [joinBehind, splitWhere] using splitWhere_append (free front hfront) []
  | cons piece pieces ih =>
    have hpiece := ih (h piece List.mem_cons_self) fun p hp => h p (List.mem_cons_of_mem _ hp)
    rw [splitWhere_append (free front hfront)]
    simp only [joinBehind, List.flatMap_cons, List.cons_append] at hpiece ⊢
    rw [splitWhere_separator (by simp), hpiece]
    simp

end SchemaClasses.Text
