import Mathlib.Data.String.Basic
import TxScope.Proofs.HexText
import TxScope.Service.Router

/-!
# A request sent and read

A request written as JSON is read back from the bytes of it (`HexRequest.ofBytes_body`), whatever
characters its text is made of: each is escaped on its own, and what is read for it is its UTF-8
form (`JsonText.stringBytes_escapeChar`). So the service sees the request that was posted to it, as
long as the body is not too long (`Service.readBody_post`).
-/

namespace TxScope

namespace Text

theorem ofUtf8?_utf8OfChars (cs : List Char) :
    ofUtf8? (utf8OfChars cs) = some (String.ofList cs) :=
  dif_pos ⟨cs, rfl⟩

theorem length_utf8 (text : String) : (utf8 text).length = text.utf8ByteSize := by
  have hbytes : text.toByteArray = (utf8 text).toByteArray := by
    rw [utf8, utf8OfChars, ← List.utf8Encode, ← String.toByteArray_ofList, String.ofList_toList]
  rw [← String.size_toByteArray, hbytes, List.size_toByteArray]

theorem toUInt8_ofUInt8 (b : UInt8) : (Char.ofUInt8 b).toUInt8 = b := UInt8.toUInt8_toUInt32 b

theorem toNat_ofUInt8 (b : UInt8) : (Char.ofUInt8 b).toNat = b.toNat := UInt8.toNat_toUInt32 b

theorem byteChars_ascii {c : Char} (h : c.toNat < 128) :
    byteChars (String.utf8EncodeChar c) = [c] := by
  have hall : ∀ n < 128, byteChars (String.utf8EncodeChar (Char.ofNat n)) = [Char.ofNat n] := by
    decide
  have hc := hall c.toNat h
  rwa [Char.ofNat_toNat] at hc

theorem le_of_mem_utf8EncodeChar {c : Char} (h : ¬ c.toNat < 128) :
    ∀ b ∈ String.utf8EncodeChar c, 128 ≤ b.toNat := by
  have hval : c.val.toNat = c.toNat := rfl
  rw [String.utf8EncodeChar, hval]
  simp only [if_neg (show ¬ c.toNat ≤ 127 by omega)]
  split_ifs <;> simp <;> omega

/-- Characters as they are read, byte by byte. -/
def unitsOf (cs : List Char) : List Char := byteChars (utf8OfChars cs)

theorem unitsOf_append (cs ds : List Char) : unitsOf (cs ++ ds) = unitsOf cs ++ unitsOf ds := by
  simp [unitsOf, utf8OfChars, byteChars]

theorem unitsOf_singleton {c : Char} (h : c.toNat < 128) : unitsOf [c] = [c] := by
  rw [unitsOf, utf8OfChars, List.flatMap_singleton, byteChars_ascii h]

theorem unitsOf_cons {c : Char} (h : c.toNat < 128) (cs : List Char) :
    unitsOf (c :: cs) = c :: unitsOf cs := by
  rw [← List.singleton_append, unitsOf_append, unitsOf_singleton h]
  rfl

end Text

namespace JsonText

open Text (unitsOf byteChars utf8OfChars)

theorem codeUnit?_control : ∀ n < 0x20,
    codeUnit? '0' '0' (Json.hexDigit (n / 16)) (Json.hexDigit n) = some n := by
  decide

theorem unitsOf_control : ∀ n < 0x20,
    unitsOf ['\\', 'u', '0', '0', Json.hexDigit (n / 16), Json.hexDigit n] =
      ['\\', 'u', '0', '0', Json.hexDigit (n / 16), Json.hexDigit n] := by
  decide

/-- An escape that is no surrogate is read alone, also in front of another one: no pair begins with
it. -/
theorem stringBytes_codeUnit {a b c d : Char} {n : Nat} (h : codeUnit? a b c d = some n)
    (hn : n < 0xd800) (rest : List Char) :
    stringBytes ('\\' :: 'u' :: a :: b :: c :: d :: rest) =
      (stringBytes rest).map fun (s, rest) =>
        (String.utf8EncodeChar (Char.ofNat n) ++ s, rest) := by
  have hhigh : isHighSurrogate n = false := by simp [isHighSurrogate]; omega
  have hlow : isLowSurrogate n = false := by simp [isLowSurrogate]; omega
  rw [stringBytes.eq_def]
  split <;> grind

theorem stringBytes_simple {e c : Char} (he : e ≠ 'u') (h : simpleEscape? e = some c)
    (rest : List Char) : stringBytes ('\\' :: e :: rest) =
      (stringBytes rest).map fun (s, rest) => (c.toUInt8 :: s, rest) := by
  rw [stringBytes.eq_def]
  split <;> grind

/-- The character stands for itself in a string. -/
def IsPlain (c : Char) : Prop := 0x20 ≤ c.toNat ∧ c ≠ '"' ∧ c ≠ '\\'

theorem stringBytes_plain {bs : Bytes} (h : ∀ b ∈ bs, IsPlain (Char.ofUInt8 b))
    (rest : List Char) : stringBytes (byteChars bs ++ rest) =
      (stringBytes rest).map fun (s, rest) => (bs ++ s, rest) := by
  induction bs with
  | nil => cases hrest : stringBytes rest <;> simp [byteChars, hrest, Except.map]
  | cons b bs ih =>
    obtain ⟨⟨hsize, hquote, hslash⟩, hbs⟩ := List.forall_mem_cons.1 h
    have hcons : stringBytes (Char.ofUInt8 b :: (byteChars bs ++ rest)) =
        (stringBytes (byteChars bs ++ rest)).map fun (s, rest) => (b :: s, rest) := by
      have hbyte := Text.toUInt8_ofUInt8 b
      rw [stringBytes.eq_def]
      split <;> grind
    rw [byteChars, List.map_cons, List.cons_append, ← byteChars, hcons, ih hbs]
    cases stringBytes rest <;> rfl

/-- Longer forms have no bytes in ASCII, so nothing in them ends the string or escapes. -/
theorem isPlain_of_mem {c : Char} (h : IsPlain c) :
    ∀ b ∈ String.utf8EncodeChar c, IsPlain (Char.ofUInt8 b) := by
  intro b hb
  by_cases hc : c.toNat < 128
  · have hmem := List.mem_map_of_mem (f := Char.ofUInt8) hb
    rw [← byteChars, Text.byteChars_ascii hc, List.mem_singleton] at hmem
    rwa [hmem]
  · have hle := Text.le_of_mem_utf8EncodeChar hc b hb
    rw [← Text.toNat_ofUInt8] at hle
    refine ⟨by omega, ?_, ?_⟩ <;> rintro heq <;> rw [heq] at hle <;> exact absurd hle (by decide)

theorem stringBytes_escapeChar (c : Char) (rest : List Char) :
    stringBytes (unitsOf (Json.escapeChar c) ++ rest) =
      (stringBytes rest).map fun (s, rest) => (String.utf8EncodeChar c ++ s, rest) := by
  unfold Json.escapeChar
  split
  iterate 7 exact stringBytes_simple (by decide) rfl rest
  split_ifs with hc
  · have h := stringBytes_codeUnit (codeUnit?_control c.toNat hc) (by omega) rest
    rw [Char.ofNat_toNat] at h
    rw [unitsOf_control c.toNat hc]
    exact h
  · have hplain : IsPlain c := ⟨Nat.not_lt.1 hc, by assumption, by assumption⟩
    rw [unitsOf, utf8OfChars, List.flatMap_singleton]
    exact stringBytes_plain (isPlain_of_mem hplain) rest

theorem stringBytes_quoted (s rest : List Char) :
    stringBytes (unitsOf (s.flatMap Json.escapeChar) ++ '"' :: rest) =
      .ok (utf8OfChars s, rest) := by
  induction s with
  | nil =>
    rw [List.flatMap_nil]
    exact stringBytes.eq_2 rest
  | cons c s ih =>
    rw [List.flatMap_cons, Text.unitsOf_append, List.append_assoc, stringBytes_escapeChar, ih]
    rfl

/-- A quoted text is read back, up to its closing quote. -/
theorem stringTail_quoted (s : String) (rest : List Char) :
    stringTail (unitsOf (s.toList.flatMap Json.escapeChar) ++ '"' :: rest) = .ok (s, rest) := by
  rw [stringTail, stringBytes_quoted]
  simp only [bind, Except.bind, Text.ofUtf8?_utf8OfChars, String.ofList_toList]
  rfl

theorem skipSpaces_cons {c : Char} (h : isSpace c = false) (rest : List Char) :
    skipSpaces (c :: rest) = c :: rest := by
  simp [skipSpaces, h]

/-- A text between quotes, with what follows it. -/
def quoted (s : String) (rest : List Char) : List Char :=
  '"' :: (s.toList.flatMap Json.escapeChar ++ '"' :: rest)

theorem unitsOf_quoted (s : String) (rest : List Char) : unitsOf (quoted s rest) =
    '"' :: (unitsOf (s.toList.flatMap Json.escapeChar) ++ '"' :: unitsOf rest) := by
  have hquote : '"'.toNat < 128 := by decide
  rw [quoted, Text.unitsOf_cons hquote, Text.unitsOf_append, Text.unitsOf_cons hquote]

theorem string_quoted (s : String) (rest : List Char) :
    string (unitsOf (quoted s rest)) = .ok (s, unitsOf rest) := by
  rw [string, unitsOf_quoted, skipSpaces_cons rfl]
  exact stringTail_quoted s _

theorem toList_quote (s : String) : (Json.quote s).toList = quoted s [] := by
  simp [Json.quote, quoted]

theorem quoted_append (s : String) (rest more : List Char) :
    quoted s rest ++ more = quoted s (rest ++ more) := by
  simp [quoted]

end JsonText

namespace HexRequest

open JsonText
open Text (unitsOf)

/-- A request as it is sent. -/
def toJson (request : HexRequest) : Json :=
  .object (("hex", .text request.hex) ::
    Json.optional "network" (request.network.map fun n => .text n.name))

theorem networkName_quoted (n : Network) (rest : List Char) :
    networkName (unitsOf (quoted n.name rest)) = .ok (n, unitsOf rest) := by
  simp only [networkName, string_quoted, bind, Except.bind]
  cases n <;> rfl

theorem optionalNetwork_quoted (n : Network) (rest : List Char) :
    optionalNetwork (unitsOf (quoted n.name rest)) = .ok (some n, unitsOf rest) := by
  have h := networkName_quoted n rest
  rw [unitsOf_quoted] at h
  rw [optionalNetwork, unitsOf_quoted, skipSpaces_cons rfl]
  change (networkValue _ >>= _) = _
  rw [networkValue, skipSpaces_cons rfl]
  simp only [h]
  rfl

theorem colon_unitsOf (rest : List Char) : colon (unitsOf (':' :: rest)) = .ok (unitsOf rest) := by
  rw [Text.unitsOf_cons (by decide)]
  rfl

theorem member_hex (network : Option (Option Network)) (hex : String) (rest : List Char) :
    member ⟨none, network⟩ "hex" (unitsOf (':' :: quoted hex rest)) =
      .ok (⟨some hex, network⟩, unitsOf rest) := by
  simp [member, colon_unitsOf, string_quoted, bind, Except.bind, pure, Except.pure]

theorem member_network (hex : Option String) (n : Network) (rest : List Char) :
    member ⟨hex, none⟩ "network" (unitsOf (':' :: quoted n.name rest)) =
      .ok (⟨hex, some (some n)⟩, unitsOf rest) := by
  simp [member, colon_unitsOf, optionalNetwork_quoted, bind, Except.bind, pure, Except.pure]

theorem members_first (fuel : Nat) (d : Draft) (key : String) (rest : List Char) :
    members (fuel + 1) true d (unitsOf (quoted key rest)) = (do
      let (d, rest) ← member d key (unitsOf rest)
      members fuel false d rest) := by
  rw [members, unitsOf_quoted, skipSpaces_cons rfl]
  simp [bind, Except.bind, stringTail_quoted]

theorem members_next (fuel : Nat) (d : Draft) (key : String) (rest : List Char) :
    members (fuel + 1) false d (unitsOf (',' :: quoted key rest)) = (do
      let (d, rest) ← member d key (unitsOf rest)
      members fuel false d rest) := by
  rw [members, Text.unitsOf_cons (by decide), unitsOf_quoted, skipSpaces_cons rfl]
  simp only [bind, Except.bind, Bool.false_eq_true, if_false, stringTail_quoted,
    skipSpaces_cons (c := '"') rfl]

theorem members_end (fuel : Nat) (hex : String) (network : Option (Option Network))
    (rest : List Char) : members (fuel + 1) false ⟨some hex, network⟩ (unitsOf ('\x7d' :: rest)) =
      .ok (⟨hex, network.getD none⟩, unitsOf rest) := by
  rw [members, Text.unitsOf_cons (by decide), skipSpaces_cons rfl]
  rfl

/-- The members of a request behind the first, and the end of it. -/
def behindHex : Option Network → List Char
  | none => ['\x7d']
  | some n => ',' :: quoted "network" (':' :: quoted n.name ['\x7d'])

theorem toList_compact (request : HexRequest) : request.toJson.compact.toList =
    '\x7b' :: quoted "hex" (':' :: quoted request.hex (behindHex request.network)) := by
  cases hn : request.network with
  | none =>
    have hparts : ",".intercalate (Json.compactMembers [("hex", .text request.hex)]) =
        Json.quote "hex" ++ ":" ++ Json.quote request.hex := rfl
    simp only [toJson, hn, Json.compact, Option.map_none, Json.optional, hparts, behindHex,
      String.toList_append, toList_quote]
    simp [quoted_append]
  | some n =>
    have hparts : ",".intercalate (Json.compactMembers
        [("hex", .text request.hex), ("network", .text n.name)]) =
        Json.quote "hex" ++ ":" ++ Json.quote request.hex ++ "," ++
          (Json.quote "network" ++ ":" ++ Json.quote n.name) := rfl
    simp only [toJson, hn, Json.compact, Option.map_some, Json.optional, hparts, behindHex,
      String.toList_append, toList_quote]
    simp [quoted_append]

/-- The body that a request is sent in. -/
def body (request : HexRequest) : Bytes := Text.utf8 request.toJson.compact

/-- A request is read back from its body. -/
theorem ofBytes_body (request : HexRequest) : ofBytes request.body = .ok request := by
  obtain ⟨hex, network⟩ := request
  have hunits : Text.byteChars (body ⟨hex, network⟩) =
      '\x7b' :: unitsOf (quoted "hex" (':' :: quoted hex (behindHex network))) := by
    rw [body, Text.utf8, toList_compact, ← unitsOf, Text.unitsOf_cons (by decide)]
  rw [ofBytes, hunits, skipSpaces_cons rfl]
  have hlength :
      3 ≤ (unitsOf (quoted "hex" (':' :: quoted hex (behindHex network)))).length + 1 := by
    rw [unitsOf_quoted, List.length_cons, List.length_append, List.length_cons]
    omega
  obtain ⟨fuel, hfuel⟩ := Nat.exists_eq_add_of_le' hlength
  simp only [hfuel, members_first, member_hex]
  cases network with
  | none =>
    simp only [behindHex, bind, Except.bind, members_end]
    rfl
  | some n =>
    simp only [behindHex, bind, Except.bind, members_next, member_network, members_end]
    rfl

end HexRequest

/-! ## The size of a body -/

namespace HexRequest

open JsonText

/-- The body of the request is not too long. -/
def Fits (request : HexRequest) : Prop :=
  request.toJson.compact.utf8ByteSize ≤ Service.bodyLimit

theorem length_le_utf8Len : ∀ cs : List Char, cs.length ≤ String.utf8Len cs
  | [] => Nat.zero_le _
  | c :: cs => by
    have ih := length_le_utf8Len cs
    have hc := c.utf8Size_pos
    rw [List.length_cons, String.utf8Len_cons]
    omega

theorem length_le_flatMap_escapeChar (cs : List Char) :
    cs.length ≤ (cs.flatMap Json.escapeChar).length := by
  induction cs with
  | nil => exact Nat.zero_le _
  | cons c cs ih =>
    have hc : 1 ≤ (Json.escapeChar c).length := by
      unfold Json.escapeChar
      split <;> try split_ifs
      all_goals simp
    rw [List.flatMap_cons, List.length_append, List.length_cons]
    omega

/-- A body has more bytes than its text has characters. -/
theorem not_fits {request : HexRequest} (h : Service.bodyLimit ≤ request.hex.length) :
    ¬ request.Fits := by
  have hbody := length_le_utf8Len request.toJson.compact.toList
  have hhex := length_le_flatMap_escapeChar request.hex.toList
  rw [← String.utf8ByteSize_ofList, String.ofList_toList, request.toList_compact] at hbody
  simp only [quoted, List.length_cons, List.length_append] at hbody
  rw [String.length_toList] at hhex
  rw [Fits]
  omega

theorem escapeChar_digitChar : ∀ n < 16, Json.escapeChar (Nat.digitChar n) = [Nat.digitChar n] ∧
    (Nat.digitChar n).utf8Size = 1 := by
  decide

theorem flatMap_escapeChar_encodeChars : ∀ bs : Bytes,
    (Hex.encodeChars bs).flatMap Json.escapeChar = Hex.encodeChars bs ∧
      String.utf8Len (Hex.encodeChars bs) = 2 * bs.length
  | [] => ⟨rfl, rfl⟩
  | b :: bs => by
    have hlt := b.toNat_lt
    obtain ⟨hhigh, hhighSize⟩ := escapeChar_digitChar (b.toNat / 16) (by omega)
    obtain ⟨hlow, hlowSize⟩ := escapeChar_digitChar (b.toNat % 16) (by omega)
    obtain ⟨hchars, hsize⟩ := flatMap_escapeChar_encodeChars bs
    have hcons : Hex.encodeChars (b :: bs) =
        Nat.digitChar (b.toNat / 16) :: Nat.digitChar (b.toNat % 16) :: Hex.encodeChars bs := rfl
    constructor
    · rw [hcons, List.flatMap_cons, List.flatMap_cons, hhigh, hlow, hchars]
      rfl
    · rw [hcons, String.utf8Len_cons, String.utf8Len_cons, hsize, hhighSize, hlowSize,
        List.length_cons]
      omega

/-- Digits are sent as they are, so a body has two bytes for each byte that they spell. -/
theorem fits_encode {bs : Bytes} (n : Network) (h : 2 * bs.length + 30 ≤ Service.bodyLimit) :
    Fits ⟨Hex.encode bs, some n⟩ := by
  obtain ⟨hchars, hsize⟩ := flatMap_escapeChar_encodeChars bs
  have hname : String.utf8Len (behindHex (some n)) ≤ 21 := by
    cases n <;> decide
  have hbody : (toJson ⟨Hex.encode bs, some n⟩).compact.toList =
      "\x7b\"hex\":\"".toList ++ Hex.encodeChars bs ++ '"' :: behindHex (some n) := by
    rw [toList_compact]
    simp only [quoted, Hex.encode, String.toList_ofList, hchars]
    rfl
  have hstart : String.utf8Len "\x7b\"hex\":\"".toList = 8 := rfl
  have hquote : ('"').utf8Size = 1 := rfl
  rw [Fits, ← String.ofList_toList (s := (toJson _).compact), String.utf8ByteSize_ofList, hbody,
    String.utf8Len_append, String.utf8Len_append, String.utf8Len_cons, hsize]
  omega

end HexRequest

/-! ## Requests that are posted -/

/-- A request for a path, sent as JSON. -/
def Request.post (path : String) (request : HexRequest) : Request :=
  ⟨"POST", path, [("content-type", "application/json")], request.body⟩

def Route.path : Route → String
  | .decode => "/api/v1/decode"
  | .script => "/api/v1/script"
  | .health => "/health"
  | .metrics => "/metrics"

theorem Route.ofPath?_target (route : Route) (request : HexRequest) :
    ofPath? (Request.post route.path request).target = some route := by
  have htarget : (Request.post route.path request).target = route.path := by
    cases route <;> simp [Request.target, Request.post, behindHost?, path]
  rw [htarget]
  cases route <;> rfl

namespace Service

variable (path : String) {request : HexRequest}

theorem mediaType_post : (((Request.post path request).header? "content-type").bind
    MediaType.ofText?).map MediaType.isJson = some true := by
  have hlower : "content-type".map Char.toLower = "content-type" := by
    rw [← String.toList_inj, String.toList_map]
    decide
  have hheader : (Request.post path request).header? "content-type" = some "application/json" := by
    simp [Request.header?, Request.post, hlower]
  rw [hheader]
  rfl

theorem length_body (request : HexRequest) :
    (Request.post path request).body.length = request.toJson.compact.utf8ByteSize :=
  Text.length_utf8 _

theorem readBody_post (h : request.Fits) : readBody (.post path request) = .ok request := by
  have hlength : ¬ bodyLimit < (Request.post path request).body.length := by
    rw [length_body]
    exact Nat.not_lt.2 h
  have hrequest : HexRequest.ofBytes (Request.post path request).body = .ok request :=
    request.ofBytes_body
  simp only [readBody, mediaType_post, Option.getD_some, if_true, if_neg hlength, hrequest]

theorem readBody_post_long (h : ¬ request.Fits) :
    readBody (.post path request) = .error (.refusal 413 "the body is too long") := by
  have hlength : bodyLimit < (Request.post path request).body.length := by
    rw [length_body]
    exact Nat.not_le.1 h
  simp only [readBody, mediaType_post, Option.getD_some, if_true, if_pos hlength]

end Service

end TxScope
