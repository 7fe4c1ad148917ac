import TxScope.Bytes

/-!
# Bech32 and Bech32m

A readable part, the digit `1`, data in symbols of five bits and a checksum of six symbols. Witness
programs of version 0 take the checksum constant of Bech32, later versions that of Bech32m.
-/

namespace TxScope.Bech32

def alphabet : List Char := "qpzry9x8gf2tvdw0s3jn54khce6mua7l".toList

def symbol (value : UInt8) : Char := alphabet.getD value.toNat 'q'

/-- The bits of a byte, highest first. -/
def bits (b : UInt8) : List Bool := [7, 6, 5, 4, 3, 2, 1, 0].map fun i => b.toNat.testBit i

/-- The number that a few bits spell, highest first. -/
def valueOfBits (bs : List Bool) : UInt8 := bs.foldl (fun v b => 2 * v + if b then 1 else 0) 0

/-- Groups of five bits; the last group is filled up with zeros. -/
def groups : List Bool → List UInt8
  | a :: b :: c :: d :: e :: rest => valueOfBits [a, b, c, d, e] :: groups rest
  | [] => []
  | short => [valueOfBits (short ++ List.replicate (5 - short.length) false)]

/-- Bytes as symbols of five bits. -/
def regroup (bs : Bytes) : List UInt8 := groups (bs.flatMap bits)

/-- What each bit that leaves the five highest of the checksum adds back. -/
def generator : List UInt32 := [0x3b6a57b2, 0x26508e6d, 0x1ea119fa, 0x3d4233dd, 0x2a1462b3]

def checksumStep (sum : UInt32) (value : UInt8) : UInt32 :=
  let top := sum >>> 25
  let shifted := ((sum &&& 0x1ffffff) <<< 5) ^^^ value.toUInt32
  ((List.range 5).zip generator).foldl
    (fun s (i, g) => if top.toNat.testBit i then s ^^^ g else s) shifted

def checksumOf (values : List UInt8) : UInt32 := values.foldl checksumStep 1

/-- The readable part as the checksum sees it: high bits, a zero, low bits. -/
def expand (readable : List Char) : List UInt8 :=
  readable.map (fun c => UInt8.ofNat (c.toNat / 32)) ++ 0 ::
    readable.map fun c => UInt8.ofNat (c.toNat % 32)

/-- The constant that the checksum is taken against. -/
def constantFor (version : Nat) : UInt32 := if version = 0 then 1 else 0x2bc830a3

/-- The six symbols that make the checksum of the whole come out as the constant. -/
def checksum (constant : UInt32) (readable : List Char) (data : List UInt8) : List UInt8 :=
  let sum := checksumOf (expand readable ++ data ++ List.replicate 6 0) ^^^ constant
  [(25 : UInt32), 20, 15, 10, 5, 0].map fun k => ((sum >>> k) &&& 31).toUInt8

/-- The address of a witness program. -/
def encodeProgram (readable : String) (version : Nat) (program : Bytes) : String :=
  let data := UInt8.ofNat version :: regroup program
  let sum := checksum (constantFor version) readable.toList data
  readable ++ "1" ++ String.ofList ((data ++ sum).map symbol)

end TxScope.Bech32
