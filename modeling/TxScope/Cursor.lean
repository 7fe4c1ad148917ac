import TxScope.Bytes

/-!
# A place in a byte string

A `Cursor` holds the bytes still to be read and how many were read before them. Every read looks
at the bytes that remain first, so a short buffer gives a `Truncated`, never a made-up value.
-/

namespace TxScope

/-- A read wanted `needed` bytes at `offset` and only `remaining` were there. -/
structure Truncated where
  offset : Nat
  needed : Nat
  remaining : Nat
  deriving DecidableEq, Repr

def Truncated.message (t : Truncated) : String :=
  s!"needed {t.needed} bytes at offset {t.offset}, only {t.remaining} remaining"

structure Cursor where
  position : Nat
  rest : Bytes
  deriving DecidableEq, Repr

namespace Cursor

/-- The start of a byte string. -/
def start (bs : Bytes) : Cursor := ⟨0, bs⟩

def remaining (c : Cursor) : Nat := c.rest.length

def atEnd (c : Cursor) : Bool := c.rest.isEmpty

/-- The next `n` bytes, if there are as many. -/
def peek (c : Cursor) (n : Nat) : Option Bytes :=
  if n ≤ c.remaining then some (c.rest.take n) else none

/-- The cursor `n` bytes further on. -/
def advance (c : Cursor) (n : Nat) : Cursor := ⟨c.position + n, c.rest.drop n⟩

/-- The report on a read of `n` bytes that are not there. -/
def shortage (c : Cursor) (n : Nat) : Truncated := ⟨c.position, n, c.remaining⟩

end Cursor

end TxScope
