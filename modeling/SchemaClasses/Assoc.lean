/-!
# Association lists in the order of insertion

A table is a list of entries `(key, value)`. Looking a key up finds its first entry, inserting
under a known key replaces the value where it stands, and inserting under a new key appends, so a
table built by `insert` alone holds each key once and lists the keys in the order in which they
first came. Objects, the flattened schemas, the class names and the graph of references are all
such tables, because the order of their entries shows in what the library prints.

Removal comes in two kinds. `erase` closes the gap and keeps the order of what is left;
`swapErase` fills the hole with the last entry.
-/

namespace SchemaClasses.Assoc

universe u v

variable {κ : Type u} {α : Type v} [DecidableEq κ]

/-- The value of the first entry with this key. -/
def find? : List (κ × α) → κ → Option α
  | [], _ => none
  | (k, a) :: rest, key => if k = key then some a else find? rest key

/-- Whether some entry has this key. -/
def contains (table : List (κ × α)) (key : κ) : Bool :=
  (find? table key).isSome

/-- The keys, in order. -/
def keys (table : List (κ × α)) : List κ :=
  table.map Prod.fst

/-- The values, in order. -/
def values (table : List (κ × α)) : List α :=
  table.map Prod.snd

/-- Puts a value under a key: in place if the key is known, else at the end. -/
def insert : List (κ × α) → κ → α → List (κ × α)
  | [], key, value => [(key, value)]
  | (k, a) :: rest, key, value =>
    if k = key then (key, value) :: rest else (k, a) :: insert rest key value

/-- Removes the first entry with this key and keeps the order of the others. -/
def erase : List (κ × α) → κ → List (κ × α)
  | [], _ => []
  | (k, a) :: rest, key => if k = key then rest else (k, a) :: erase rest key

/-- Puts an entry in the place of the first entry with this key. -/
def replaceEntry : List (κ × α) → κ → κ × α → List (κ × α)
  | [], _, _ => []
  | (k, a) :: rest, key, entry =>
    if k = key then entry :: rest else (k, a) :: replaceEntry rest key entry

/-- Removes the first entry with this key and moves the last entry into its place. -/
def swapErase (table : List (κ × α)) (key : κ) : List (κ × α) :=
  match table.getLast? with
  | none => []
  | some last =>
    if last.1 = key then table.dropLast else
      if contains table key then replaceEntry table.dropLast key last else table

/-- The table that inserts these entries one after the other. -/
def ofList (entries : List (κ × α)) : List (κ × α) :=
  entries.foldl (fun table entry => insert table entry.1 entry.2) []

/-! ## What the operations do to a look-up -/

/-- Nothing is found in an empty table. -/
@[simp] theorem find?_nil (key : κ) : find? ([] : List (κ × α)) key = none := rfl

/-- What has been put under a key is found there. -/
@[simp] theorem find?_insert_self (table : List (κ × α)) (key : κ) (value : α) :
    find? (insert table key value) key = some value := by
  induction table with
  | nil => simp [insert, find?]
  | cons entry rest ih =>
    by_cases h : entry.1 = key
    · simp [insert, find?, h]
    · simp [insert, find?, h, ih]

/-- Putting a value under a key leaves what is found under the others. -/
theorem find?_insert_of_ne (table : List (κ × α)) {key other : κ} (value : α) (h : key ≠ other) :
    find? (insert table key value) other = find? table other := by
  induction table with
  | nil => simp [insert, find?, h]
  | cons entry rest ih =>
    by_cases hk : entry.1 = key
    · have hne : entry.1 ≠ other := fun he => h (hk.symm.trans he)
      simp [insert, find?, hk, h]
    · rw [insert, if_neg hk, find?, find?, ih]

/-- The keys of a table are those that it contains. -/
theorem mem_keys_iff_contains (table : List (κ × α)) (key : κ) :
    key ∈ keys table ↔ contains table key = true := by
  induction table with
  | nil => simp [keys, contains]
  | cons entry rest ih =>
    by_cases h : entry.1 = key
    · simp [keys, contains, find?, h]
    · have : key ≠ entry.1 := fun he => h he.symm
      simpa [keys, contains, find?, h, this] using ih

/-- Inserting keeps the keys and appends the new one, if it is new. -/
theorem keys_insert (table : List (κ × α)) (key : κ) (value : α) :
    keys (insert table key value) =
      if contains table key then keys table else keys table ++ [key] := by
  induction table with
  | nil => simp [keys, insert, contains]
  | cons entry rest ih =>
    by_cases h : entry.1 = key
    · simp [keys, insert, contains, find?, h]
    · simp only [keys, contains] at ih
      simp only [keys, insert, contains, find?, h, if_false, List.map_cons]
      rw [ih]
      by_cases hc : (find? rest key).isSome = true <;> simp [hc]

end SchemaClasses.Assoc
