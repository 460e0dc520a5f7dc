import SchemaClasses.Text.Percent
import SchemaClasses.Text.Split
import SchemaClasses.Uri.Basic
import SchemaClasses.Uri.Domain

/-!
# Reading hosts

The host of a scheme that is known to name hosts is unescaped first. In brackets it is an address
of eight pieces, else it is brought to the ASCII form of a domain name. If its last part is a number
then, it is an address of four bytes, each part of which may be written in decimal, octal or
hexadecimal, and the last part of which fills the bytes that are left.

The host of any other scheme is an address in brackets or a text, of which only control characters
are escaped.
-/

namespace SchemaClasses.Host

/-- The value of a text of digits in some base. -/
def numberIn (radix : Nat) (digits : List Char) : Nat :=
  digits.foldl (fun n c => n * radix + (Text.hexValue? c).getD 0) 0

/-- Whether a text has digits of some base only. -/
def isNumberIn (radix : Nat) (digits : List Char) : Bool :=
  digits.all fun c => (Text.hexValue? c).any fun n => n < radix

/-! ## Addresses of four bytes -/

/-- The value of a part of an address: hexadecimal behind `0x`, octal behind another zero. -/
def ipv4Part? (part : List Char) : Option Nat :=
  let (radix, digits) := match part with
    | '0' :: 'x' :: rest => (16, rest)
    | '0' :: 'X' :: rest => (16, rest)
    | '0' :: c :: rest => (8, c :: rest)
    | rest => (10, rest)
  if part.isEmpty || !isNumberIn radix digits then none else some (numberIn radix digits)

/-- The parts of a host between its dots, without an empty last one. -/
def dottedParts (name : List Char) : List (List Char) :=
  let parts := Text.splitAt '.' name
  if 1 < parts.length ∧ parts.getLast? = some [] then parts.dropLast else parts

/-- Whether the last part of a host is a number, so that the host has to be an address. -/
def endsInNumber (name : List Char) : Bool :=
  match (dottedParts name).getLast? with
  | some last => (!last.isEmpty && last.all Char.isDigit) || (ipv4Part? last).isSome
  | none => false

/-- The address with some parts: all but the last are bytes, the last fills the rest. -/
def ipv4OfParts? (parts : List Nat) : Option Nat :=
  match parts.getLast? with
  | none => none
  | some last =>
    let front := parts.dropLast
    let bound := Nat.pow 256 (4 - front.length)
    if 4 < parts.length ∨ bound ≤ last ∨ front.any (fun n => 255 < n) then none
    else some (front.foldl (fun n part => n * 256 + part) 0 * bound + last)

/-- Reads an address of four bytes. -/
def ofIpv4 (name : List Char) : Except UriError Host :=
  match ((dottedParts name).mapM ipv4Part?).bind ipv4OfParts? with
  | some address => .ok (ipv4 address)
  | none => .error .invalidIpv4

/-! ## Addresses of eight pieces -/

/-- The value of a piece: one to four hexadecimal digits. -/
def ipv6Piece? (piece : List Char) : Option Nat :=
  if piece.isEmpty || 4 < piece.length || !isNumberIn 16 piece then none
  else some (numberIn 16 piece)

/-- The value of a byte in decimal without leading zeros. -/
def byte? (part : List Char) : Option Nat :=
  if part.isEmpty || 3 < part.length || !part.all Char.isDigit ||
      (part.head? = some '0' && 1 < part.length) then none
  else if numberIn 10 part < 256 then some (numberIn 10 part) else none

/-- The pieces of a part of an address between colons; the last one may be written as four
bytes. -/
def ipv6Pieces? : List (List Char) → Option (List Nat)
  | [] => some []
  | [last] =>
    if last.contains '.' then
      match (Text.splitAt '.' last).mapM byte? with
      | some [a, b, c, d] => some [a * 256 + b, c * 256 + d]
      | _ => none
    else (ipv6Piece? last).map fun piece => [piece]
  | piece :: rest => do
    let first ← ipv6Piece? piece
    let others ← ipv6Pieces? rest
    return first :: others

/-- Splits a text at its first two adjacent colons. -/
def splitDoubleColon : List Char → Option (List Char × List Char)
  | [] => none
  | ':' :: ':' :: rest => some ([], rest)
  | c :: rest => (splitDoubleColon rest).map fun (front, back) => (c :: front, back)

/-- The pieces of a text between colons, none if it is empty. -/
def colonParts (text : List Char) : List (List Char) :=
  if text.isEmpty then [] else Text.splitAt ':' text

/-- Reads an address of eight pieces, of which a run may be left out between two colons. -/
def ofIpv6 (text : List Char) : Except UriError Host :=
  let pieces? := match splitDoubleColon text with
    | none => (ipv6Pieces? (colonParts text)).filter fun pieces => pieces.length = 8
    | some (front, back) => do
      let left ← ipv6Pieces? (colonParts front)
      let right ← ipv6Pieces? (colonParts back)
      if front.contains '.' || 8 ≤ left.length + right.length then none
      else some (left ++ List.replicate (8 - left.length - right.length) 0 ++ right)
  match pieces? with
  | some pieces => .ok (ipv6 pieces)
  | none => .error .invalidIpv6

/-- Reads an address in brackets, the first of which has been read. -/
def ofBracketed (text : List Char) : Except UriError Host :=
  if text.getLast? = some ']' then ofIpv6 text.dropLast else .error .invalidIpv6

/-! ## Names -/

/-- Reads the host of a scheme that is known to name hosts. -/
def ofSpecial (text : List Char) : Except UriError Host :=
  match text with
  | '[' :: rest => ofBracketed rest
  | _ =>
    match (Percent.decode? (String.ofList text)).bind fun name => Domain.toAscii? name.toList with
    | none => .error .invalidDomain
    | some name =>
      if name.isEmpty then .error .emptyHost
      else if endsInNumber name then ofIpv4 name
      else .ok (domain (String.ofList name))

/-- Whether the host of an unknown scheme may not have a character. -/
def isForbiddenPlain (c : Char) : Bool :=
  ['\x00', '\t', '\n', '\r', ' ', '#', '/', ':', '<', '>', '?', '@', '[', '\\', ']', '^',
    '|'].contains c

/-- Reads the host of an unknown scheme. -/
def ofPlain (text : List Char) : Except UriError Host :=
  match text with
  | '[' :: rest => ofBracketed rest
  | _ =>
    if text.any isForbiddenPlain then .error .invalidHostCharacter
    else .ok (domain (Percent.encodeWhere (fun c => c.toNat < 0x20 || c = '\x7f') text))

end SchemaClasses.Host
