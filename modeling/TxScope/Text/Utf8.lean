import TxScope.Bytes

/-!
# Text as UTF-8

Lengths and positions of text are counted in the bytes of its UTF-8 form. Bytes that come from
outside may be no such form; a reader can still take them one by one, each as a character.
-/

namespace TxScope.Text

/-- The UTF-8 form of a list of characters. -/
def utf8OfChars (cs : List Char) : Bytes := cs.flatMap String.utf8EncodeChar

def utf8 (text : String) : Bytes := utf8OfChars text.toList

/-- The text with this UTF-8 form. -/
def ofUtf8? (bs : Bytes) : Option String := String.fromUTF8? bs.toByteArray

/-- One character for each byte. -/
def byteChars (bs : Bytes) : List Char := bs.map Char.ofUInt8

/-- The characters that fill exactly the first `size` bytes and the ones after them; `none` if
`size` is past the end or inside a character. -/
def splitAtByte? : List Char → Nat → Option (List Char × List Char)
  | cs, 0 => some ([], cs)
  | [], _ + 1 => none
  | c :: cs, size + 1 =>
    if c.utf8Size ≤ size + 1 then
      (splitAtByte? cs (size + 1 - c.utf8Size)).map fun (a, b) => (c :: a, b)
    else none

/-- Text cut down to `size` bytes, with three points to mark the cut. Text that is not longer, or
that has no character boundary there, stays whole. -/
def excerpt (text : String) (size : Nat) : String :=
  match splitAtByte? text.toList size with
  | some (kept, _ :: _) => String.ofList kept ++ "..."
  | _ => text

end TxScope.Text
