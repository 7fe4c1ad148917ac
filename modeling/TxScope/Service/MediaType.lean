/-!
# Media types

`type/subtype`, parameters after semicolons. The part of the subtype behind its last plus sign is
the suffix and names the format that the subtype is written in.
-/

namespace TxScope

structure MediaType where
  main : List Char
  sub : List Char
  suffix : Option (List Char)
  deriving DecidableEq, Repr

namespace MediaType

/-- The characters that names are made of. -/
def isTokenChar (c : Char) : Bool :=
  c.isAlphanum || "!#$%&'*+-.^_`|~".toList.contains c

/-- The characters between quotes: all of ASCII that is printed, and the space. -/
def isQuotedChar (c : Char) : Bool := c.toNat > 31 && c.toNat < 127

/-- What follows a quoted value: spaces, and the next parameter behind a semicolon. -/
def afterQuoted : List Char → Option (List Char)
  | [] => some []
  | ' ' :: cs => afterQuoted cs
  | ';' :: cs => some cs
  | _ => none

/-- What follows the value of a parameter. A quoted value has at least one character. -/
def afterValue? : List Char → Option (List Char)
  | '"' :: c :: cs =>
    let rest := cs.dropWhile fun d => d != '"' && isQuotedChar d
    match rest with
    | '"' :: rest => if isQuotedChar c then afterQuoted rest else none
    | _ => none
  | cs =>
    match cs.dropWhile isTokenChar with
    | [] => some []
    | ';' :: rest => if (cs.takeWhile isTokenChar).isEmpty then none else some rest
    | _ => none

/-- What follows one parameter, which is a name, an equals sign and a value. -/
def afterParameter? (cs : List Char) : Option (List Char) :=
  match cs.dropWhile isTokenChar with
  | '=' :: value => if (cs.takeWhile isTokenChar).isEmpty then none else afterValue? value
  | _ => none

/-- Whether the text behind the first semicolon is a list of parameters. Every parameter takes at
least one character, so the fuel is the length of the text. -/
def areParameters : (fuel : Nat) → List Char → Bool
  | 0, cs => cs.isEmpty
  | fuel + 1, cs =>
    match cs.dropWhile (· == ' ') with
    | [] => true
    | cs =>
      match afterParameter? cs with
      | some rest => areParameters fuel rest
      | none => false

/-- Cuts at the last plus sign that is not the first character. -/
def splitSuffix (name : List Char) : List Char × Option (List Char) :=
  let suffix := (name.reverse.takeWhile (· != '+')).reverse
  let before := name.length - suffix.length - 1
  if suffix.length < name.length ∧ 0 < before then (name.take before, some suffix)
  else (name, none)

/-- Reads a media type; its names come out in lower case. -/
def ofText? (text : String) : Option MediaType :=
  let cs := text.toList
  match cs.dropWhile isTokenChar with
  | '/' :: rest =>
    let main := cs.takeWhile isTokenChar
    let sub := rest.takeWhile isTokenChar
    let parameters :=
      match rest.dropWhile isTokenChar with
      | [] => true
      | ';' :: ps => !sub.isEmpty && areParameters (ps.length + 1) ps
      | _ => false
    if main.isEmpty || !parameters then none
    else
      let (sub, suffix) := splitSuffix (sub.map Char.toLower)
      some ⟨main.map Char.toLower, sub, suffix⟩
  | _ => none

/-- `application/json`, or any application format that is written in JSON. -/
def isJson (m : MediaType) : Bool :=
  m.main == "application".toList &&
    (m.sub == "json".toList || m.suffix == some "json".toList)

end MediaType

end TxScope
