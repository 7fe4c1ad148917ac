import TxScope.Address.Base58
import TxScope.Address.Bech32
import TxScope.Address.Network
import TxScope.Script.Template

/-!
# Addresses

An address names what an output pays to: the hash of a key, the hash of a script, or a witness
program with its version. Its text begins with the version byte or the readable part of its network.
-/

namespace TxScope

inductive Address where
  | keyHash (hash : Bytes)
  | scriptHash (hash : Bytes)
  | witness (version : Nat) (program : Bytes)
  deriving DecidableEq, Repr

namespace Address

/-- What stands in front of the hash of a key. -/
def keyHashMark : Network → UInt8
  | .mainnet => 0
  | .testnet | .signet | .regtest => 111

/-- What stands in front of the hash of a script. -/
def scriptHashMark : Network → UInt8
  | .mainnet => 5
  | .testnet | .signet | .regtest => 196

def text (network : Network) : Address → String
  | .keyHash hash => Base58.encodeInTurn (Base58.checked (keyHashMark network) hash)
  | .scriptHash hash => Base58.encodeInTurn (Base58.checked (scriptHashMark network) hash)
  | .witness version program => Bech32.encodeProgram network.readablePart version program

/-- The version that an opcode stands for at the start of a witness program. -/
def witnessVersion? (op : UInt8) : Option Nat :=
  if op = Script.op0 then some 0
  else if 0x51 ≤ op ∧ op ≤ 0x60 then some (op.toNat - 0x50)
  else none

/-- Reads a script that is a version and one direct push of 2 to 40 bytes. Programs of version 0
have 20 or 32. -/
def ofWitnessScript? : Bytes → Option Address
  | op :: size :: program =>
    match witnessVersion? op with
    | none => none
    | some version =>
      if size.toNat = program.length ∧ 2 ≤ program.length ∧ program.length ≤ 40 ∧
          (version = 0 → program.length = 20 ∨ program.length = 32) then
        some (.witness version program)
      else none
  | _ => none

/-- The address that a script pays to, read off the script alone. -/
def ofScript? (script : Bytes) : Option Address :=
  if Script.Template.p2pkh.accepts script then some (.keyHash (slice script 3 23))
  else if Script.Template.p2sh.accepts script then some (.scriptHash (slice script 2 22))
  else ofWitnessScript? script

end Address

end TxScope
