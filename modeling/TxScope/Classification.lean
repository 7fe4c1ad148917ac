import TxScope.Address.Codec
import TxScope.Script.Shape

/-!
# What an output is

The type of an output follows from the shape of its script; the codec adds the address. A codec
that refuses leaves the type as it is and is quoted in the description. Two cases ask the codec
twice: a taproot key off the curve is shown as a plain witness program, and a script of no known
shape is tried against each template.
-/

namespace TxScope

inductive OutputType where
  | p2pkh
  | p2sh
  | p2wpkh
  | p2wsh
  | p2tr
  | p2pk
  | p2ms
  | opReturn
  | unknown
  | invalid
  | error
  deriving DecidableEq, Repr

namespace OutputType

def name : OutputType → String
  | .p2pkh => "P2PKH"
  | .p2sh => "P2SH"
  | .p2wpkh => "P2WPKH"
  | .p2wsh => "P2WSH"
  | .p2tr => "P2TR"
  | .p2pk => "P2PK"
  | .p2ms => "P2MS"
  | .opReturn => "OP_RETURN"
  | .unknown => "UNKNOWN"
  | .invalid => "INVALID"
  | .error => "ERROR"

def description : OutputType → String
  | .p2pkh => "Pay-to-Public-Key-Hash"
  | .p2sh => "Pay-to-Script-Hash"
  | .p2wpkh => "Segwit Pay-to-Public-Key-Hash"
  | .p2wsh => "Segwit Pay-to-Script-Hash"
  | .p2tr => "Taproot output (Pay-to-Taproot)"
  | .p2pk => "Pay-to-Public-Key"
  | .p2ms => "Multisig"
  | .opReturn => "OP_RETURN data output (Null Data)"
  | .unknown => "Unrecognized script type"
  | .invalid => "Invalid script"
  | .error => "Parse error"

end OutputType

structure Classification where
  type : OutputType
  address : Option String
  description : String
  /-- The payload of a data output. -/
  data : Option Bytes
  deriving DecidableEq, Repr

namespace Classification

/-- An output of a type, with nothing else to say about it. -/
def plain (type : OutputType) : Classification :=
  { type, address := none, description := type.description, data := none }

/-- A remark behind the description. -/
def noted (c : Classification) (note : String) : Classification :=
  { c with description := s!"{c.description} ({note})" }

/-- The sentence about a read of `size` bytes at `offset` that a script of `length` bytes does not
hold. -/
def outsideMessage (size offset length : Nat) : String :=
  s!"read of {size} bytes at offset {offset} is outside a {length}-byte script"

/-- A type with the address the codec made, or with its refusal. -/
def withAddress (type : OutputType) : Except CodecError String → Classification
  | .ok address => { plain type with address }
  | .error e => (plain type).noted s!"address unavailable: {e.message}"

/-- A script of no known shape: the first template for which the codec has an address. -/
def probed (script : Bytes) (codec : Codec) (network : Network) : Classification :=
  match Script.Template.all.findSome? fun t => codec.probe t script network with
  | some address =>
    { plain .unknown with address, description := "Unknown script type (address extracted)" }
  | none => plain .unknown

def ofTaproot (script key : Bytes) (codec : Codec) (network : Network) : Classification :=
  match codec.taproot key network with
  | .ok address => { plain .p2tr with address }
  | .error _ =>
    match codec.witnessV1 key network with
    | .ok address => { plain .p2tr with address }.noted "derived"
    | .error _ => probed script codec network

def ofPublicKey (key : Bytes) (codec : Codec) (network : Network) : Classification :=
  match codec.publicKey key network with
  | .ok address => { plain .p2pk with address }.noted "address shown as equivalent P2PKH"
  | .error _ => (plain .p2pk).noted "address could not be extracted"

def ofScript (script : Bytes) (codec : Codec) (network : Network) : Classification :=
  match Script.Shape.ofScript script with
  | .empty => plain .invalid
  | .data payload => { plain .opReturn with data := payload }
  | .cutData length => (plain .error).noted (outsideMessage 2 2 length)
  | .keyHash hash => withAddress .p2pkh (codec.keyHash hash network)
  | .scriptHash hash => withAddress .p2sh (codec.scriptHash hash network)
  | .witnessKeyHash program => withAddress .p2wpkh (codec.witnessV0 program network)
  | .witnessScriptHash program => withAddress .p2wsh (codec.witnessV0 program network)
  | .taproot key => ofTaproot script key codec network
  | .publicKey key => ofPublicKey key codec network
  | .multisig => plain .p2ms
  | .other => probed script codec network

end Classification

end TxScope
