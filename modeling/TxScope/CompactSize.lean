import TxScope.Reader

/-!
# Compact sizes

A length below 253 is one byte. A longer one is a marker byte and two, four or eight bytes, least
significant first. Writing takes the shortest form; reading takes any of the four, also for a
number that a shorter form could hold.
-/

namespace TxScope.CompactSize

/-- How many bytes follow the first one. -/
def payloadWidth (first : UInt8) : Nat :=
  if first = 0xfd then 2 else if first = 0xfe then 4 else if first = 0xff then 8 else 0

/-- The shortest form of a number below 2^64. -/
def encode (n : Nat) : Bytes :=
  if n < 0xfd then [UInt8.ofNat n]
  else if n < 0x10000 then 0xfd :: toLittleEndian 2 n
  else if n < 0x100000000 then 0xfe :: toLittleEndian 4 n
  else 0xff :: toLittleEndian 8 n

def read : Reader Truncated Nat := do
  let first ← Reader.uint8
  if payloadWidth first = 0 then return first.toNat else Reader.number (payloadWidth first)

/-- A compact size and that many bytes. When the bytes are short the cursor goes back to the start
of the size; when the size itself is short it stays where the size broke off. -/
def readPrefixed : Reader Truncated Bytes := fun c =>
  match read c with
  | (.error e, c') => (.error e, c')
  | (.ok n, c') =>
    match Reader.bytes n c' with
    | (.ok bs, c'') => (.ok bs, c'')
    | (.error e, _) => (.error e, c)

end TxScope.CompactSize
