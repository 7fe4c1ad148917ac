import TxScope.Buffer
import TxScope.Reader

/-!
# Reads that keep a record of their loops

A number of elements that the bytes declare starts a loop: room is made for the elements, and one
after the other is read. The number may be forged, so the room is what the bytes that remain can
hold, and the first element that is not there ends the loop.

A `Recorder` is a reader that keeps a record of its loops: what was declared, how many bytes
remained, what room the buffer had before and after, and what every round did.
-/

namespace TxScope

/-- The numbers of elements that a transaction declares. -/
inductive LoopSite where
  | inputs
  | outputs
  /-- The items in the witness of an input. -/
  | witness (input : Nat)
  deriving DecidableEq, Repr

/-- One round of a loop: the cursor before it and after it, and whether an element was read. -/
structure Round where
  before : Cursor
  after : Cursor
  succeeded : Bool
  deriving DecidableEq, Repr

/-- A loop that was run. -/
structure CountedLoop where
  site : LoopSite
  /-- The declared number of elements. -/
  count : Nat
  /-- The bytes that an element has at least. -/
  smallest : Nat
  start : Cursor
  /-- The room in the buffer before the first element is read. -/
  room : Nat
  /-- The room in the buffer when the loop has ended. -/
  finalRoom : Nat
  rounds : List Round
  completed : Bool
  deriving DecidableEq, Repr

/-- A read, and the loops that were run in it. -/
def Recorder (ε α : Type) := Cursor → (Except ε α × Cursor) × List CountedLoop

namespace Recorder

variable {ε ε' α β : Type}

instance : Monad (Recorder ε) where
  pure x := fun c => ((.ok x, c), [])
  bind read next := fun c =>
    match read c with
    | ((.ok x, c'), loops) => ((next x c').1, loops ++ (next x c').2)
    | ((.error e, c'), loops) => ((.error e, c'), loops)

/-- A reader has no loops. -/
instance : MonadLift (Reader ε) (Recorder ε) where
  monadLift read := fun c => (read c, [])

/-- The read without its record. -/
def plain (read : Recorder ε α) : Reader ε α := fun c => (read c).1

def mapError (f : ε → ε') (read : Recorder ε α) : Recorder ε' α := fun c =>
  (read.plain.mapError f c, (read c).2)

/-- How many elements of at least `smallest` bytes to make room for when `count` are declared and
`available` bytes remain. -/
def roomFor (count available smallest : Nat) : Nat := min count (available / smallest)

/-- A buffer after a loop: why the loop broke off, if it did, and what its rounds were. -/
structure Filled (ε α : Type) where
  failure? : Option ε
  buffer : Buffer α
  cursor : Cursor
  rounds : List Round

def Filled.outcome (f : Filled ε α) : Except ε (List α) :=
  match f.failure? with
  | some e => .error e
  | none => .ok f.buffer.toList

/-- Reads `count` more elements into a buffer; the next one has number `index`. The first that is
not there ends the loop. -/
def fill (element : Nat → Reader ε α) : (count index : Nat) → Buffer α → Cursor → Filled ε α
  | 0, _, buffer, c => ⟨none, buffer, c, []⟩
  | count + 1, index, buffer, c =>
    match element index c with
    | (.error e, c') => ⟨some e, buffer, c', [⟨c, c', false⟩]⟩
    | (.ok x, c') =>
      let filled := fill element count (index + 1) (buffer.push x) c'
      { filled with rounds := ⟨c, c', true⟩ :: filled.rounds }

/-- Reads `count` elements of at least `smallest` bytes each, numbered from zero. -/
def counted (site : LoopSite) (count smallest : Nat) (element : Nat → Reader ε α) :
    Recorder ε (List α) := fun c =>
  let buffer := Buffer.reserve (roomFor count c.remaining smallest)
  let filled := fill element count 0 buffer c
  ((filled.outcome, filled.cursor),
    [{ site, count, smallest, start := c, room := buffer.room, finalRoom := filled.buffer.room,
       rounds := filled.rounds, completed := filled.failure?.isNone }])

end Recorder

end TxScope
