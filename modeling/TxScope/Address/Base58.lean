import TxScope.Digest

/-!
# Base58 with a checksum

A byte string is written as a number in base 58; each zero byte in front, which the number does not
show, becomes a digit `1`. Addresses carry the first four bytes of a double SHA-256 at the end.

`encode` writes the number that all bytes spell. `encodeInTurn` knows no number: it takes the bytes
in one after the other and keeps the digits of what it has seen.
-/

namespace TxScope.Base58

/-- The digits. Zero, capital o, capital i and small l are left out, for they look alike. -/
def alphabet : List Char := "123456789ABCDEFGHJKLMNPQRSTUVWXYZabcdefghijkmnopqrstuvwxyz".toList

/-- The digits of a number, least significant first. -/
def digits (n : Nat) : List Nat :=
  if h : n = 0 then [] else n % 58 :: digits (n / 58)
termination_by n
decreasing_by omega

def symbol (digit : Nat) : Char := alphabet.getD digit '1'

/-- The number of zero bytes in front. -/
def leadingZeros (bs : Bytes) : Nat := (bs.takeWhile (· == 0)).length

def encodeChars (bs : Bytes) : List Char :=
  List.replicate (leadingZeros bs) '1' ++ (digits (bigEndian bs)).reverse.map symbol

def encode (bs : Bytes) : String := String.ofList (encodeChars bs)

/-- Multiplies a number by 256 and adds `carry`, digit by digit, least significant first. -/
def takeIn : List Nat → Nat → List Nat
  | [], carry => digits carry
  | d :: ds, carry => (256 * d + carry) % 58 :: takeIn ds ((256 * d + carry) / 58)

def encodeInTurn (bs : Bytes) : String :=
  let number := bs.foldl (fun ds b => takeIn ds b.toNat) []
  String.ofList (List.replicate (leadingZeros bs) '1' ++ number.reverse.map symbol)

/-- Version, payload and the first four bytes of their double SHA-256. -/
def checked (version : UInt8) (payload : Bytes) : Bytes :=
  version :: payload ++ (Hash256.ofMessage (version :: payload)).bytes.take 4

def encodeChecked (version : UInt8) (payload : Bytes) : String := encode (checked version payload)

end TxScope.Base58
