import TxScope.Digest.Ripemd160
import TxScope.Digest.Sha256
import TxScope.Text.Hex

/-!
# Identifiers and short hashes

A transaction is named by the double SHA-256 of its bytes. The hash is kept as it is computed and
sent; people read and write it with its bytes reversed. Keys and scripts are named by the shorter
`hash160`.
-/

namespace TxScope

/-- Thirty-two bytes of hash, in the order in which they are sent. -/
structure Hash256 where
  bytes : Bytes
  size_eq : bytes.length = 32
  deriving DecidableEq

namespace Hash256

/-- The text by which the hash is known: its bytes in reverse, in hexadecimal. -/
def display (h : Hash256) : String := Hex.encode h.bytes.reverse

/-- The hash as references to a transaction write it: one byte after the other, from the last one
to the first. -/
def reference (h : Hash256) : String :=
  h.bytes.reverse.foldl (fun text b => text ++ Hex.byteText b) ""

/-- The double SHA-256 of a byte string. -/
def ofMessage (message : Bytes) : Hash256 :=
  ⟨Sha256.hash (Sha256.hash message), Sha256.hash_length _⟩

/-- The hash that a byte string is, if it has the right length. -/
def ofBytes? (bs : Bytes) : Option Hash256 :=
  if h : bs.length = 32 then some ⟨bs, h⟩ else none

end Hash256

/-- RIPEMD-160 over SHA-256. -/
def hash160 (message : Bytes) : Bytes := Ripemd160.hash (Sha256.hash message)

end TxScope
