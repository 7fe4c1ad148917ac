import TxScope.Cursor

/-!
# Reads

A `Reader` takes a cursor to a value, or to the reason why there is none, and to the cursor after
it. A failed read says where it stopped too: a read in several steps keeps the steps that went well.
-/

namespace TxScope

def Reader (ε α : Type) := Cursor → Except ε α × Cursor

namespace Reader

variable {ε ε' α β : Type}

instance : Monad (Reader ε) where
  pure x := fun c => (.ok x, c)
  bind read next := fun c =>
    match read c with
    | (.ok x, c') => next x c'
    | (.error e, c') => (.error e, c')

/-- The same read, with its failure put in other words. -/
def mapError (f : ε → ε') (read : Reader ε α) : Reader ε' α := fun c =>
  match read c with
  | (.ok x, c') => (.ok x, c')
  | (.error e, c') => (.error (f e), c')

/-- The position of the next byte. -/
def position : Reader ε Nat := fun c => (.ok c.position, c)

/-- Whether the next bytes are the given ones; stays in place. -/
def lookingAt (bs : Bytes) : Reader ε Bool := fun c => (.ok (c.peek bs.length == some bs), c)

/-- The next `n` bytes. -/
def bytes (n : Nat) : Reader Truncated Bytes := fun c =>
  if n ≤ c.remaining then (.ok (c.rest.take n), c.advance n) else (.error (c.shortage n), c)

/-- The number that the next `width` bytes spell, least significant byte first. -/
def number (width : Nat) : Reader Truncated Nat := littleEndian <$> bytes width

def uint8 : Reader Truncated UInt8 := UInt8.ofNat <$> number 1

def uint16 : Reader Truncated UInt16 := UInt16.ofNat <$> number 2

def uint32 : Reader Truncated UInt32 := UInt32.ofNat <$> number 4

def uint64 : Reader Truncated UInt64 := UInt64.ofNat <$> number 8

/-- A signed word in two's complement. -/
def int32 : Reader Truncated Int32 := UInt32.toInt32 <$> uint32

end Reader

inductive ByteOrder where
  | little
  | big
  deriving DecidableEq, Repr

/-- Why a number of a chosen width was not read. -/
inductive NumberError where
  | invalidWidth (width : Nat)
  | truncated (shortage : Truncated)
  deriving DecidableEq, Repr

def NumberError.message : NumberError → String
  | .invalidWidth width => s!"integer width {width} is outside 1..=8"
  | .truncated shortage => shortage.message

def ByteOrder.value : ByteOrder → Bytes → Nat
  | .little => littleEndian
  | .big => bigEndian

/-- A number of one to eight bytes. Any other width is refused in place. -/
def Reader.numberOf (width : Nat) (order : ByteOrder) : Reader NumberError Nat :=
  if 1 ≤ width ∧ width ≤ 8 then (order.value <$> bytes width).mapError .truncated
  else fun c => (.error (.invalidWidth width), c)

end TxScope
