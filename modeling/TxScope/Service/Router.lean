import TxScope.Counters
import TxScope.Report.Json
import TxScope.Service.HexRequest
import TxScope.Service.MediaType

/-!
# The web service

Four paths: two that read a transaction or a script sent to them, the state of health, and the
counters. `Service.respond` answers one request; only reading a transaction changes the counters.
Every answer may be used by pages from anywhere.
-/

namespace TxScope

/-- A request. Its body is what was sent, in UTF-8 or not. -/
structure Request where
  method : String
  /-- A path, or a whole address with its scheme, and a query behind it. -/
  path : String
  headers : List (String × String)
  body : Bytes

/-- An answer. Headers that only tell the length of the body, or the date, are left out. -/
structure Response where
  status : Nat
  headers : List (String × String)
  body : String
  deriving DecidableEq, Repr

/-- The value of a header; names do not depend on case. -/
def Request.header? (r : Request) (name : String) : Option String :=
  (r.headers.find? fun (n, _) => n.map Char.toLower == name).map Prod.snd

/-- What follows the scheme and the host of a whole address. -/
def behindHost? : List Char → Option (List Char)
  | ':' :: '/' :: '/' :: cs => some (cs.dropWhile fun c => c != '/' && c != '?' && c != '#')
  | '/' :: _ | [] => none
  | _ :: cs => behindHost? cs

/-- The path alone, without query and fragment. -/
def Request.target (r : Request) : String :=
  let cs := r.path.toList
  String.ofList (((behindHost? cs).getD cs).takeWhile fun c => c != '?' && c != '#')

namespace Response

/-- What every answer carries. -/
def shared : List (String × String) := [("access-control-allow-origin", "*")]

def json (status : Nat) (body : Json) : Response :=
  ⟨status, ("content-type", "application/json") :: shared, body.compact⟩

/-- A refusal in the service's own words. -/
def failure (message : String) : Response :=
  json 400 (.object [("error", .object [("message", .text message)])])

/-- A body that is no request. -/
def refusal (status : Nat) (reason : String) : Response :=
  ⟨status, ("content-type", "text/plain; charset=utf-8") :: shared, reason⟩

def metrics (text : String) : Response :=
  ⟨200, ("content-type", "text/plain; version=0.0.4") :: shared, text⟩

def notFound : Response := ⟨404, shared, ""⟩

def methodNotAllowed (allowed : String) : Response := ⟨405, ("allow", allowed) :: shared, ""⟩

/-- The answer to the question what is allowed from another site. -/
def preflight (allowed : Option String) : Response :=
  ⟨200,
   (allowed.map fun a => ("allow", a)).toList ++
     [("access-control-allow-methods", "*"), ("access-control-allow-headers", "*")] ++ shared,
   ""⟩

/-- The same answer, without its body. -/
def headOnly (r : Response) : Response := { r with body := "" }

end Response

inductive Route where
  | decode
  | script
  | health
  | metrics
  deriving DecidableEq, Repr

namespace Route

/-- The route of exactly this path. -/
def ofPath? : String → Option Route
  | "/api/v1/decode" => some .decode
  | "/api/v1/script" => some .script
  | "/health" => some .health
  | "/metrics" => some .metrics
  | _ => none

/-- The methods a route answers to. -/
def allowed : Route → String
  | .decode | .script => "POST"
  | .health | .metrics => "GET,HEAD"

end Route

/-- What the answers depend on besides the request. -/
structure Service where
  network : Network
  codec : Codec
  identifier : Identifier

namespace Service

def standard (network : Network) : Service := ⟨network, .standard, .standard⟩

def version : String := "0.1.0"

/-- The most bytes that a body may have. -/
def bodyLimit : Nat := 2097152

/-- The request in a body that is declared as JSON and not too long, or the refusal of it. -/
def readBody (r : Request) : Except Response HexRequest :=
  let mediaType := (r.header? "content-type").bind MediaType.ofText?
  if (mediaType.map MediaType.isJson).getD false then
    if bodyLimit < r.body.length then .error (.refusal 413 "the body is too long")
    else
      match HexRequest.ofBytes r.body with
      | .ok request => .ok request
      | .error .malformed => .error (.refusal 400 "the body is not JSON")
      | .error .mismatch => .error (.refusal 422 "the body is not a request with hex text")
  else .error (.refusal 415 "the body has to be JSON")

/-- The report that a request asks for. -/
def report (s : Service) (request : HexRequest) : Except DecodeError Report :=
  Report.ofHex s.codec s.identifier (request.network.getD s.network) request.hex

def answerDecode (result : Except DecodeError Report) : Response :=
  match result with
  | .ok report => .json 200 report.toJson
  | .error e => .failure e.message

/-- Tokens and classification of a script. The empty script is one. -/
def answerScript (s : Service) (request : HexRequest) : Response :=
  match Hex.decode (Text.trim request.hex) with
  | .error e => .failure s!"invalid script hex: {e.message}"
  | .ok script =>
    let tokens := Script.disassemble script
    let network := request.network.getD s.network
    .json 200 <| .object
      [("hex", .text (Hex.encode script)),
       ("asm", .text (Script.renderTokens tokens)),
       ("tokens", .list (tokens.map fun t => .text t.text)),
       ("classification", (Classification.ofScript script s.codec network).toJson)]

def answerHealth (s : Service) : Response :=
  .json 200 <| .object
    [("status", .text "ok"), ("network", .text s.network.name), ("version", .text version)]

/-- The answer of a route to a method that it takes. -/
def answer (s : Service) (route : Route) (r : Request) (counters : Counters) :
    Response × Counters :=
  match route with
  | .health => (s.answerHealth, counters)
  | .metrics => (.metrics counters.text, counters)
  | .script =>
    match readBody r with
    | .error refusal => (refusal, counters)
    | .ok request => (s.answerScript request, counters)
  | .decode =>
    match readBody r with
    | .error refusal => (refusal, counters)
    | .ok request =>
      let result := s.report request
      (answerDecode result, counters.record result)

/-- Answers one request. -/
def respond (s : Service) (r : Request) (counters : Counters) : Response × Counters :=
  let route := Route.ofPath? r.target
  if r.method = "OPTIONS" then (.preflight (route.map Route.allowed), counters)
  else
    match route with
    | none => (.notFound, counters)
    | some route =>
      match route.allowed, r.method with
      | "POST", "POST" => s.answer route r counters
      | "GET,HEAD", "GET" => s.answer route r counters
      | "GET,HEAD", "HEAD" =>
        let (response, counters) := s.answer route r counters
        (response.headOnly, counters)
      | allowed, _ => (.methodNotAllowed allowed, counters)

/-- Answers requests in turn. -/
def respondAll (s : Service) : List Request → Counters → List Response × Counters
  | [], counters => ([], counters)
  | r :: rs, counters =>
    let (response, counters) := s.respond r counters
    let (responses, counters) := s.respondAll rs counters
    (response :: responses, counters)

end Service

end TxScope
