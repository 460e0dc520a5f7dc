import SchemaClasses.Text.Digits

/-!
# Punycode

A label of a domain name that is not ASCII is written in ASCII: its ASCII characters first, then,
in increasing order of the others, the distances between them as numbers of base 36 whose digits
have thresholds that adapt to the distances seen so far. `encode` writes a label and `decode?`
reads one.
-/

namespace SchemaClasses.Punycode

/-- A digit of base 36: the letters first, then the decimal digits. -/
def digit (n : Nat) : Char :=
  if n < 26 then Char.ofNat ('a'.toNat + n) else Char.ofNat ('0'.toNat + (n - 26))

/-- The threshold of a digit whose weight is at position `k`, between 1 and 26. -/
def threshold (k bias : Nat) : Nat :=
  max 1 (min 26 (k - bias))

/-- Divides by 35 until at most 455 is left, adding 36 to the bias each time. -/
def reduce (delta bias : Nat) : Nat × Nat :=
  if 455 < delta then reduce (delta / 35) (bias + 36) else (delta, bias)
termination_by delta
decreasing_by exact Nat.div_lt_self (by omega) (by omega)

/-- The bias after a distance, given how many characters have been written and whether it was the
first distance. -/
def adapt (delta written : Nat) (first : Bool) : Nat :=
  let delta := if first then delta / 700 else delta / 2
  let (delta, bias) := reduce (delta + delta / written) 0
  bias + 36 * delta / (delta + 38)

/-- The digits of a distance. -/
def digits (bias k n : Nat) : List Char :=
  let t := threshold k bias
  if n < t then [digit n]
  else digit (t + (n - t) % (36 - t)) :: digits bias (k + 36) ((n - t) / (36 - t))
termination_by n
decreasing_by
  have h : 1 ≤ threshold k bias := Nat.le_max_left _ _
  exact Nat.lt_of_le_of_lt (Nat.div_le_self _ _) (by omega)

/-- What has been written, and the state of the distances. -/
structure State where
  /-- The characters written so far, backwards. -/
  output : List Char
  /-- The distance since the last character written. -/
  delta : Nat
  /-- The bias of the thresholds. -/
  bias : Nat
  /-- How many characters of the label have been written. -/
  written : Nat

/-- Passes over one character of the label while the characters of one code point are written. -/
def pass (basic code : Nat) (state : State) (c : Char) : State :=
  if c.toNat < code then { state with delta := state.delta + 1 }
  else if c.toNat = code then
    { output := (digits state.bias 36 state.delta).reverse ++ state.output
      delta := 0
      bias := adapt state.delta (state.written + 1) (state.written = basic)
      written := state.written + 1 }
  else state

/-- Writes the characters of the given code points, in increasing order, from some code point
on. -/
def writeCodes (label : List Char) (basic : Nat) : Nat → State → List Nat → State
  | _, state, [] => state
  | from', state, code :: rest =>
    let moved := { state with delta := state.delta + (code - from') * (state.written + 1) }
    let passed := label.foldl (pass basic code) moved
    writeCodes label basic (code + 1) { passed with delta := passed.delta + 1 } rest

/-- Puts a number into an increasing list. -/
def insertSorted (n : Nat) : List Nat → List Nat
  | [] => [n]
  | m :: rest => if n < m then n :: m :: rest else if n = m then m :: rest
      else m :: insertSorted n rest

/-- The label in ASCII. -/
def encode (label : List Char) : List Char :=
  let basic := label.filter fun c => c.toNat < 0x80
  let codes := ((label.map Char.toNat).filter fun n => 0x80 ≤ n).foldr insertSorted []
  let start : State :=
    { output := if basic.isEmpty then [] else '-' :: basic.reverse
      delta := 0, bias := 72, written := basic.length }
  (writeCodes label basic.length 0x80 start codes).output.reverse

example : String.ofList (encode ['b', 'ü', 'c', 'h', 'e', 'r']) = "bcher-kva" := by
  decide +kernel

/-! ## Reading -/

/-- The value of a digit of base 36. -/
def digitValue? (c : Char) : Option Nat :=
  if 'a' ≤ c ∧ c ≤ 'z' then some (c.toNat - 'a'.toNat)
  else if c.isDigit then some (26 + Text.digitValue c)
  else none

/-- Weights and distances have at most 32 bits. -/
def bound : Nat := Nat.pow 2 32

/-- Reads the digits of a distance, from the one at position `k` on, and adds it to a number. The
first digit below its threshold is the last one. -/
def readDistance? (bias : Nat) : Nat → Nat → Nat → List Char → Option (Nat × List Char)
  | _, _, _, [] => none
  | k, weight, sum, c :: rest =>
    match digitValue? c with
    | none => none
    | some digit =>
      let t := threshold k bias
      let sum := sum + digit * weight
      let next := weight * (36 - t)
      if bound ≤ sum then none
      else if digit < t then some (sum, rest)
      else if bound ≤ next then none
      else readDistance? bias (k + 36) next sum rest

/-- Reading a distance uses up at least one character. -/
theorem length_readDistance?_lt {bias k weight sum : Nat} {text : List Char}
    {found : Nat × List Char} (h : readDistance? bias k weight sum text = some found) :
    found.2.length < text.length := by
  fun_induction readDistance? bias k weight sum text with
  | case1 => simp at h
  | case2 => simp at h
  | case3 => simp at h
  | case4 => simp only [Option.some.injEq] at h; simp [← h]
  | case5 => simp at h
  | case6 _ _ _ _ _ _ _ _ _ _ _ _ _ ih => exact Nat.lt_succ_of_lt (ih h)

/-- Reads distances and puts a character at each place that they lead to: `place` is behind the
last character put in, and `code` is its code point. -/
def insertCodes? (code place bias : Nat) (label : List Char) (text : List Char) :
    Option (List Char) :=
  if text.isEmpty then some label
  else
    match _h : readDistance? bias 36 1 place text with
    | none => none
    | some (sum, rest) =>
      let count := label.length + 1
      let next := code + sum / count
      let here := sum % count
      if next.isValidChar then
        insertCodes? next (here + 1) (adapt (sum - place) count (place = 0))
          (label.insertIdx here (Char.ofNat next)) rest
      else none
termination_by text.length
decreasing_by exact length_readDistance?_lt _h

/-- The label that a text stands for. What is before its last hyphen, if anything is, are the
ASCII characters of the label. -/
def decode? (text : List Char) : Option (List Char) :=
  let behind := (text.reverse.takeWhile fun c => c ≠ '-').length
  let basic := text.take (text.length - behind - 1)
  let distances := if basic.isEmpty then text else text.drop (text.length - behind)
  if basic.all fun c => c.toNat < 0x80 then insertCodes? 0x80 0 72 basic distances else none

example : (decode? "bcher-kva".toList).map String.ofList = some "bücher" := by decide +kernel

end SchemaClasses.Punycode
