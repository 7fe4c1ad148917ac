import TxScope.Script.Opcode

/-!
# Output templates with an address

The five standard forms of output script whose bytes determine an address.
-/

namespace TxScope.Script

inductive Template where
  | p2pkh
  | p2sh
  | p2wpkh
  | p2wsh
  | p2tr
  deriving DecidableEq, Repr

namespace Template

def name : Template → String
  | .p2pkh => "P2PKH"
  | .p2sh => "P2SH"
  | .p2wpkh => "P2WPKH"
  | .p2wsh => "P2WSH"
  | .p2tr => "P2TR"

/-- All templates, in the order in which a script of no known form is tried against them. -/
def all : List Template := [.p2pkh, .p2sh, .p2wpkh, .p2wsh, .p2tr]

/-- The length of the scripts of a template. -/
def length : Template → Nat
  | .p2pkh => 25
  | .p2sh => 23
  | .p2wpkh => 22
  | .p2wsh => 34
  | .p2tr => 34

/-- The bytes in front of the hash, program or key. -/
def opening : Template → Bytes
  | .p2pkh => [opDup, opHash160, 20]
  | .p2sh => [opHash160, 20]
  | .p2wpkh => [op0, 20]
  | .p2wsh => [op0, 32]
  | .p2tr => [op1, 32]

/-- The bytes after it. -/
def closing : Template → Bytes
  | .p2pkh => [opEqualVerify, opCheckSig]
  | .p2sh => [opEqual]
  | _ => []

/-- Whether a script has the length and the fixed bytes of the template. -/
def accepts (t : Template) (script : Bytes) : Bool :=
  script.length == t.length && t.opening.isPrefixOf script && t.closing.isSuffixOf script

end Template

end TxScope.Script
