import TxScope.Bytes
import TxScope.Text.Quoted
import TxScope.Text.Utf8

/-!
# Hexadecimal text

Each byte is two digits, high half first. `encode` writes lower case; `decode` takes either case
and names the first defect: an odd length before any character, then the first byte that is no
digit.
-/

namespace TxScope.Hex

/-- Why a text is not hexadecimal. Positions count the bytes of its UTF-8 form. -/
inductive Error where
  | oddLength
  | invalidDigit (value : UInt8) (index : Nat)
  deriving DecidableEq, Repr

def Error.message : Error → String
  | .oddLength => "Odd number of digits"
  | .invalidDigit value index =>
    s!"Invalid character {Text.quoteByte value} at position {index}"

/-- The two lower-case digits of a byte. -/
def digits (b : UInt8) : List Char := [Nat.digitChar (b.toNat / 16), Nat.digitChar (b.toNat % 16)]

def encodeChars (bs : Bytes) : List Char := bs.flatMap digits

def encode (bs : Bytes) : String := String.ofList (encodeChars bs)

/-- A byte as a number in hexadecimal, filled up with zeros to two digits. -/
def byteText (b : UInt8) : String :=
  let ds := Nat.toDigits 16 b.toNat
  String.ofList (List.replicate (2 - ds.length) '0' ++ ds)

/-- The value of a digit, given as the byte that stands for it. -/
def digitValue? (b : UInt8) : Option Nat :=
  if 0x30 ≤ b ∧ b ≤ 0x39 then some (b.toNat - 0x30)
  else if 0x61 ≤ b ∧ b ≤ 0x66 then some (b.toNat - 0x61 + 10)
  else if 0x41 ≤ b ∧ b ≤ 0x46 then some (b.toNat - 0x41 + 10)
  else none

/-- The value of the digit at position `index`. -/
def digitAt (index : Nat) (b : UInt8) : Except Error Nat :=
  match digitValue? b with
  | some v => .ok v
  | none => .error (.invalidDigit b index)

/-- Reads digit pairs; the first one stands at position `index`. -/
def decodePairs : (index : Nat) → Bytes → Except Error Bytes
  | index, high :: low :: rest => do
    let h ← digitAt index high
    let l ← digitAt (index + 1) low
    let bs ← decodePairs (index + 2) rest
    return UInt8.ofNat (16 * h + l) :: bs
  | _, [] => .ok []
  | _, [_] => .error .oddLength

/-- Reads the UTF-8 form of a text. -/
def decodeUtf8 (text : Bytes) : Except Error Bytes :=
  if text.length % 2 = 1 then .error .oddLength else decodePairs 0 text

def decode (text : String) : Except Error Bytes := decodeUtf8 (Text.utf8 text)

end TxScope.Hex
