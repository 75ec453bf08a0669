import Mips32.Json.Encoding
import Mips32.Service.Framework
import Mips32.Service.Target
import Mips32.Text.Latin

/-!
# A framework

The framework that the service runs with: which requests can be made at all, which bodies count as
JSON, which texts fit into a header, which hosts are none, and which origin a response allows. What
it does for the resources is `http`; the rest comes before and behind them.
-/

namespace Mips32.Service

/-- What a request holds beside its method and its target. The headers are those beside the content
type. -/
structure Payload where
  contentType : Option Text
  headers : List (Text × Text)
  body : List UInt8

/-- A request. -/
structure Request extends Payload where
  method : Text
  target : Target

/-- A response as it is sent. -/
structure Delivery extends Response where
  allowedOrigin : Option Text

/-! ## Headers -/

/-- Whether a text can stand in a header. -/
def fitsHeader (s : Text) : Bool :=
  !s.contains '\r' && !s.contains '\n'

/-- What is said about a text that cannot stand in a header. -/
def newlineMessage : Text :=
  "Header values must not contain newline characters.".text

/-- The name of a header as it is compared: in capitals, with a low line for each hyphen. -/
def headerName (name : Text) : Text :=
  (Text.capitalised name).map fun c => if c = .char '-' then .char '_' else c

/-- The value of a header. The values of a header that is there more than once are one list. -/
def Payload.header? (p : Payload) (name : String) : Option Text :=
  match (p.headers.filter fun h => headerName h.1 == headerName name.text).map (·.2) with
  | [] => none
  | values => some ([.char ',', .char ' '].intercalate values)

/-! ## Hosts -/

/-- The number that a scheme stands for, as it may be written behind a host. -/
def schemeNumber (scheme : Text) : Text :=
  if [[], "http".text, "ws".text].contains scheme then ":80".text
  else if ["https".text, "wss".text].contains scheme then ":443".text
  else []

/-- The host that a request is for: that of the header, if there is one, or of the target, without
the number that the scheme stands for. A host in other than plain characters counts as none. -/
def Request.host (r : Request) : Text :=
  let named := (r.header? "Host").getD r.target.host
  let host := Text.dropEnding (schemeNumber r.target.scheme) named
  if Authority.isPlain host then host else []

/-- Accepts the host of a request if it can be shown to a reader. -/
def Request.checkHost (r : Request) : Except Authority.Error Unit := do
  Authority.check r.host
  Authority.check (← (Authority.ofText r.host).renderShown)

/-- Whether the host of a request, up to a colon, is a host name. -/
def Request.hasHostName (r : Request) : Bool :=
  (HostName.encode ((Text.lower r.host).takeWhile (· != .char ':'))).isOk

/-! ## Making requests -/

/-- Why a request cannot be made. -/
inductive RequestError where
  /-- The target or the host header names an authority that is none. -/
  | authority (error : Authority.Error)
  /-- A header has a newline in it. -/
  | newline
  deriving DecidableEq, Repr

def RequestError.message : RequestError → Text
  | .authority error => error.message
  | .newline => newlineMessage

/-- Makes a request. -/
def Request.make (method target : Text) (contentType : Option Text) (headers : List (Text × Text))
    (body : List UInt8) : Except RequestError Request := do
  let target ← (Target.ofText target).mapError .authority
  if contentType.all fitsHeader && headers.all (fitsHeader ·.2) then
    let request : Request := ⟨⟨contentType, headers, body⟩, method, target⟩
    request.checkHost.mapError .authority
    return request
  else throw .newline

/-! ## Media types -/

/-- Drops the spaces and tabs at both ends. -/
def trimValue (s : Text) : Text :=
  let isOuter (c : CodePoint) : Bool := c == ' ' || c == '\t'
  ((s.dropWhile isOuter).reverse.dropWhile isOuter).reverse

/-- The media type in front of the parameters of a content type, in lower case. -/
def mediaType (contentType : Text) : Text :=
  Text.lower (trimValue (contentType.takeWhile (· != .char ';')))

/-- Whether a media type is that of JSON or of a format that is written in JSON. -/
def isJsonType (t : Text) : Bool :=
  t == jsonType || ("application/".text.isPrefixOf t && "+json".text.isSuffixOf t)

/-! ## Bodies -/

/-- Whether the body of a request counts as JSON. -/
def Payload.hasJson (p : Payload) : Bool :=
  p.contentType.any fun t => isJsonType (mediaType t)

/-- An item of a header that is a list, without quotes around it and in lower case. -/
def listItem (s : Text) : Text :=
  let item := Text.lower (Text.trim s)
  if 2 ≤ item.length && item.head? == some (.char '"') && item.getLast? == some (.char '"') then
    item.tail.dropLast
  else item

/-- Whether a request is to be sent in chunks. -/
def Payload.isChunked (p : Payload) : Bool :=
  (((p.header? "Transfer-Encoding").getD []).splitOn (.char ',')).any (listItem · == "chunked".text)

/-- The length that a request names for its body. -/
def Payload.namedLength (p : Payload) : Int :=
  match p.headers.find? fun h => Text.lower h.1 == "content-length".text with
  | none => 0
  | some h => (Numeral.readDecimal h.2).toOption.getD 0

/-- Whether a request names a length, but has no body. The length of a body that is there is
counted, and that of a body in chunks is not known. -/
def Payload.isCutShort (p : Payload) : Bool :=
  p.body.isEmpty && !p.isChunked && 0 < p.namedLength

/-- Reads the body, if it counts as JSON. What is sent in chunks is not read, a request without the
body that it names is given up, and brackets may be nested to a depth. -/
def Payload.json (depth : Nat) (p : Payload) : Except Raised (Option Json) :=
  if !p.hasJson then .ok none
  else if p.isCutShort then .error (.abort 400)
  else if p.isChunked then .ok none
  else
    match Json.readOctets depth p.body with
    | .ok value => .ok (some value)
    | .error .malformed => .ok none
    | .error .tooDeep => .error .internal

/-- What the framework does for the resources. -/
def http (depth : Nat) : Framework Payload where
  json := Payload.json depth
  headerFault value := if fitsHeader value then none else some newlineMessage

/-! ## Protocols -/

/-- Whether a request is to open a two-way connection. -/
def Request.opensSocket (r : Request) : Bool :=
  let options := ((r.header? "Connection").getD []).splitOn (.char ',')
  r.target.scheme == "ws".text || r.target.scheme == "wss".text ||
    (options.any (fun o => Text.trim (Text.lower o) == "upgrade".text) &&
      (r.header? "Upgrade").map Text.lower == some "websocket".text)

/-! ## Origins -/

/-- The origin that may use the service from a browser. -/
def trustedOrigin : Text :=
  "http://localhost:3000".text

/-- The origin that a response allows. Only answers below `/api` allow one, and for that the path is
decoded once more: the trusted origin as the request spells it, in any letter case, or as it is
spelled here if the request names none. -/
def Request.allowedOrigin (r : Request) : Option Text :=
  if "/api".text.isPrefixOf (Text.Percent.decode r.target.rooted) then
    match r.header? "Origin" with
    | none | some [] => some trustedOrigin
    | some origin => if Text.folded origin = trustedOrigin then some origin else none
  else none

end Mips32.Service
