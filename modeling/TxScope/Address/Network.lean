/-!
# Networks

The network decides the version bytes and the readable part of addresses. The three test networks
share their version bytes.
-/

namespace TxScope

inductive Network where
  | mainnet
  | testnet
  | signet
  | regtest
  deriving DecidableEq, Repr

namespace Network

def name : Network → String
  | .mainnet => "mainnet"
  | .testnet => "testnet"
  | .signet => "signet"
  | .regtest => "regtest"

/-- The network of exactly this name. -/
def ofName? : String → Option Network
  | "mainnet" => some .mainnet
  | "testnet" => some .testnet
  | "signet" => some .signet
  | "regtest" => some .regtest
  | _ => none

/-- A name in lower case; letters outside ASCII stay. -/
def lowerCase (text : String) : String := text.map Char.toLower

/-- The network a person asks for: a name or a short name, in any case. -/
def ofText? (text : String) : Option Network :=
  match lowerCase text with
  | "bitcoin" | "main" => some .mainnet
  | "test" => some .testnet
  | other => ofName? other

/-- The sentence about a text that names no network. -/
def unknownMessage (text : String) : String := s!"unknown network: {lowerCase text}"

/-- The version byte of addresses that pay to a key hash. -/
def keyHashVersion : Network → UInt8
  | .mainnet => 0x00
  | _ => 0x6f

/-- The version byte of addresses that pay to a script hash. -/
def scriptHashVersion : Network → UInt8
  | .mainnet => 0x05
  | _ => 0xc4

/-- The readable part of addresses that pay to a witness program. -/
def readablePart : Network → String
  | .mainnet => "bc"
  | .testnet => "tb"
  | .signet => "tb"
  | .regtest => "bcrt"

end Network

end TxScope
