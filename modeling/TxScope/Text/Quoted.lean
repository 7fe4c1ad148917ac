/-!
# Characters and text as diagnostics show them

A diagnostic names a character between single quotes. The characters with a short escape take it,
the other ones without a visible form are given by number.
-/

namespace TxScope.Text

/-- The byte values that have a visible form when read as a character of Latin-1. -/
def isVisible (value : UInt8) : Bool :=
  (0x20 ≤ value && value ≤ 0x7e) || (0xa1 ≤ value && value != 0xad)

/-- A number in lower-case hexadecimal, without leading zeros. -/
def hexadecimal (n : Nat) : String := String.ofList (Nat.toDigits 16 n)

/-- The character with the given value, in single quotes. -/
def quoteByte (value : UInt8) : String :=
  let shown :=
    match value with
    | 0x00 => "\\0"
    | 0x09 => "\\t"
    | 0x0a => "\\n"
    | 0x0d => "\\r"
    | 0x27 => "\\'"
    | 0x5c => "\\\\"
    | v => if isVisible v then String.singleton (Char.ofNat v.toNat)
           else "\\u\x7b" ++ hexadecimal v.toNat ++ "\x7d"
  "'" ++ shown ++ "'"

end TxScope.Text
