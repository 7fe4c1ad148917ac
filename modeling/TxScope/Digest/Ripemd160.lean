import TxScope.Bytes

/-!
# RIPEMD-160

Two lines of eighty turns run over each block of sixteen words, with their own order of the words,
rotations and constants. Their results are added, crosswise, to the five words of the state.
-/

namespace TxScope.Ripemd160

structure State where
  a : UInt32
  b : UInt32
  c : UInt32
  d : UInt32
  e : UInt32
  deriving DecidableEq, Repr

def initial : State := ⟨0x67452301, 0xefcdab89, 0x98badcfe, 0x10325476, 0xc3d2e1f0⟩

/-- The word of the block that each turn of the left line takes. -/
def leftWords : List Nat :=
  [0, 1, 2, 3, 4, 5, 6, 7, 8, 9, 10, 11, 12, 13, 14, 15,
   7, 4, 13, 1, 10, 6, 15, 3, 12, 0, 9, 5, 2, 14, 11, 8,
   3, 10, 14, 4, 9, 15, 8, 1, 2, 7, 0, 6, 13, 11, 5, 12,
   1, 9, 11, 10, 0, 8, 12, 4, 13, 3, 7, 15, 14, 5, 6, 2,
   4, 0, 5, 9, 7, 12, 2, 10, 14, 1, 3, 8, 11, 6, 15, 13]

def rightWords : List Nat :=
  [5, 14, 7, 0, 9, 2, 11, 4, 13, 6, 15, 8, 1, 10, 3, 12,
   6, 11, 3, 7, 0, 13, 5, 10, 14, 15, 8, 12, 4, 9, 1, 2,
   15, 5, 1, 3, 7, 14, 6, 9, 11, 8, 12, 2, 10, 0, 4, 13,
   8, 6, 4, 1, 3, 11, 15, 0, 5, 12, 2, 13, 9, 7, 10, 14,
   12, 15, 10, 4, 1, 5, 8, 7, 6, 2, 13, 14, 0, 3, 9, 11]

/-- The rotation of each turn of the left line. -/
def leftRotations : List UInt32 :=
  [11, 14, 15, 12, 5, 8, 7, 9, 11, 13, 14, 15, 6, 7, 9, 8,
   7, 6, 8, 13, 11, 9, 7, 15, 7, 12, 15, 9, 11, 7, 13, 12,
   11, 13, 6, 7, 14, 9, 13, 15, 14, 8, 13, 6, 5, 12, 7, 5,
   11, 12, 14, 15, 14, 15, 9, 8, 9, 14, 5, 6, 8, 6, 5, 12,
   9, 15, 5, 11, 6, 8, 13, 12, 5, 12, 13, 14, 11, 8, 5, 6]

def rightRotations : List UInt32 :=
  [8, 9, 9, 11, 13, 15, 15, 5, 7, 7, 8, 11, 14, 14, 12, 6,
   9, 13, 15, 7, 12, 8, 9, 11, 7, 7, 12, 7, 6, 15, 13, 11,
   9, 7, 15, 11, 8, 6, 6, 14, 12, 13, 5, 14, 13, 13, 7, 5,
   15, 5, 8, 11, 14, 14, 6, 14, 6, 9, 12, 9, 12, 5, 15, 8,
   8, 5, 12, 9, 12, 5, 14, 6, 8, 13, 6, 5, 15, 13, 11, 11]

/-- The constant of each round of sixteen turns of the left line. -/
def leftConstants : List UInt32 := [0, 0x5a827999, 0x6ed9eba1, 0x8f1bbcdc, 0xa953fd4e]

def rightConstants : List UInt32 := [0x50a28be6, 0x5c4dd124, 0x6d703ef3, 0x7a6d76e9, 0]

/-- The mixing function of each round; the right line takes them in the opposite order. -/
def mix (round : Nat) (x y z : UInt32) : UInt32 :=
  match round with
  | 0 => x ^^^ y ^^^ z
  | 1 => (x &&& y) ||| (~~~x &&& z)
  | 2 => (x ||| ~~~y) ^^^ z
  | 3 => (x &&& z) ||| (y &&& ~~~z)
  | _ => x ^^^ (y ||| ~~~z)

def rotateLeft (x k : UInt32) : UInt32 := (x <<< k) ||| (x >>> (32 - k))

/-- What one turn of a line is made of. -/
structure Turn where
  round : Nat
  word : UInt32
  rotation : UInt32
  constant : UInt32

def turn (s : State) (t : Turn) : State :=
  let sum := s.a + mix t.round s.b s.c s.d + t.word + t.constant
  ⟨s.e, rotateLeft sum t.rotation + s.e, s.b, rotateLeft s.c 10, s.d⟩

/-- The words of a block, in groups of four bytes, least significant first. -/
def words : Bytes → List UInt32
  | a :: b :: c :: d :: rest => UInt32.ofNat (littleEndian [a, b, c, d]) :: words rest
  | _ => []

/-- The eighty turns of a line. `mixer` names the mixing function of each round. -/
def turns (mixer : Nat → Nat) (order : List Nat) (rotations constants block : List UInt32) :
    List Turn :=
  ((List.range 80).zip (order.zip rotations)).map fun (i, w, k) =>
    ⟨mixer (i / 16), block.getD w 0, k, constants.getD (i / 16) 0⟩

def absorb (s : State) (block : Bytes) : State :=
  let ws := words block
  let l := (turns id leftWords leftRotations leftConstants ws).foldl turn s
  let r := (turns (4 - ·) rightWords rightRotations rightConstants ws).foldl turn s
  ⟨s.b + l.c + r.d, s.c + l.d + r.e, s.d + l.e + r.a, s.e + l.a + r.b, s.a + l.b + r.c⟩

/-- The number of zero bytes that, after the byte 0x80, leave room for eight bytes of length in the
last block. -/
def paddingZeros (length : Nat) : Nat := (119 - length % 64) % 64

def pad (message : Bytes) : Bytes :=
  message ++ 0x80 :: List.replicate (paddingZeros message.length) 0 ++
    toLittleEndian 8 (8 * message.length)

/-- Absorbs `n` blocks of 64 bytes. -/
def absorbBlocks : (n : Nat) → Bytes → State → State
  | 0, _, s => s
  | n + 1, bs, s => absorbBlocks n (bs.drop 64) (absorb s (bs.take 64))

def State.bytes (s : State) : Bytes :=
  [s.a, s.b, s.c, s.d, s.e].flatMap fun w => toLittleEndian 4 w.toNat

/-- The 20 bytes of the digest. -/
def hash (message : Bytes) : Bytes :=
  let padded := pad message
  (absorbBlocks (padded.length / 64) padded initial).bytes

theorem hash_length (message : Bytes) : (hash message).length = 20 := by
  simp [hash, State.bytes, toLittleEndian_length]

end TxScope.Ripemd160
