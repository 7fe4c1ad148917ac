import TxScope.Address.Basic
import TxScope.Address.Curve

/-!
# Address codecs

A `Codec` turns the bytes found in an output into the text of an address, one function for each
kind of output, and can be asked for the address of a whole script. `Codec.standard` is the usual
one; any other can take its place. It writes hashes itself, behind the version byte of the network,
and witness programs and whole scripts by way of an `Address`.
-/

namespace TxScope

/-- Why bytes have no address. -/
inductive CodecError where
  | badLength (expected actual : Nat)
  | invalidPublicKey (reason : String)
  | invalidXOnlyKey (reason : String)
  | templateMismatch (template : String)
  deriving DecidableEq, Repr

namespace CodecError

def message : CodecError → String
  | .badLength expected actual => s!"expected {expected} bytes, got {actual}"
  | .invalidPublicKey reason => s!"invalid public key: {reason}"
  | .invalidXOnlyKey reason => s!"invalid x-only public key: {reason}"
  | .templateMismatch template => s!"script does not match the {template} template"

def kind : CodecError → String
  | .badLength _ _ => "bad_length"
  | .invalidPublicKey _ => "invalid_public_key"
  | .invalidXOnlyKey _ => "invalid_xonly_key"
  | .templateMismatch _ => "template_mismatch"

end CodecError

/-- The text of an address, or why there is none. -/
abbrev Encoder := Bytes → Network → Except CodecError String

structure Codec where
  /-- The hash of a key, 20 bytes. -/
  keyHash : Encoder
  /-- The hash of a script, 20 bytes. -/
  scriptHash : Encoder
  /-- A witness program of version 0, 20 or 32 bytes. -/
  witnessV0 : Encoder
  /-- The output key of version 1, which has to be on the curve. -/
  taproot : Encoder
  /-- A witness program of version 1 as it stands. -/
  witnessV1 : Encoder
  /-- A public key, shown as the output that pays to its hash. -/
  publicKey : Encoder
  /-- The address of a script that follows the template. -/
  probe : Script.Template → Bytes → Network → Option String

namespace Codec

/-- A hash of 20 bytes behind a version byte. -/
def encodeHash (version : Network → UInt8) : Encoder := fun hash network =>
  if hash.length = 20 then .ok (Base58.encodeChecked (version network) hash)
  else .error (.badLength 20 hash.length)

def encodeWitnessV0 : Encoder := fun program network =>
  if program.length = 20 ∨ program.length = 32 then .ok ((Address.witness 0 program).text network)
  else .error (.badLength 32 program.length)

def encodeTaproot : Encoder := fun key network =>
  if key.length ≠ 32 then .error (.badLength 32 key.length)
  else if Curve.isXOnlyKey key then .ok ((Address.witness 1 key).text network)
  else .error (.invalidXOnlyKey "malformed public key")

def encodeWitnessV1 : Encoder := fun program network =>
  if 2 ≤ program.length ∧ program.length ≤ 40 then .ok ((Address.witness 1 program).text network)
  else .error (.badLength 32 program.length)

def encodePublicKey : Encoder := fun key network =>
  match Curve.checkKey key with
  | .ok _ => .ok (Base58.encodeChecked network.keyHashVersion (hash160 key))
  | .error e => .error (.invalidPublicKey e.message)

def probeTemplate (t : Script.Template) (script : Bytes) (network : Network) : Option String :=
  if t.accepts script then (Address.ofScript? script).map (Address.text network) else none

def standard : Codec where
  keyHash := encodeHash Network.keyHashVersion
  scriptHash := encodeHash Network.scriptHashVersion
  witnessV0 := encodeWitnessV0
  taproot := encodeTaproot
  witnessV1 := encodeWitnessV1
  publicKey := encodePublicKey
  probe := probeTemplate

end Codec

end TxScope
