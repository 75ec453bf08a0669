import Mips32.Service.Handler
import Mips32.Service.Http

/-!
# The service in its framework

Where a request leads: the four resources have paths and methods, and every other request is
answered by a page. The answer of a resource is sent on with the origin that may see it.
-/

namespace Mips32.Service

/-! ## Resources -/

/-- What a path names. -/
inductive Resource where
  | index
  | ping
  | assemble
  | exportListing
  /-- A file that the service would hand out; it has none. -/
  | file
  deriving DecidableEq, Repr

/-- Whether the path of a file, from the directory of the files on, can name one. -/
def isFileName : Text → Bool
  | [] => false
  | c :: r => c != '/' && !r.contains '\n'

/-- The resource at a path. -/
def Resource.at? (path : Text) : Option Resource :=
  if path = [.char '/'] then some .index
  else if path = "/api/ping".text then some .ping
  else if path = "/api/assemble".text then some .assemble
  else if path = "/api/export/listing".text then some .exportListing
  else if (Text.dropPrefix? "/static/".text path).any isFileName then some .file
  else none

/-- The method of a resource, beside the methods that ask about it. -/
def Resource.method : Resource → Text
  | .assemble | .exportListing => "POST".text
  | _ => "GET".text

/-- Whether a resource takes a method. -/
def Resource.accepts (r : Resource) (method : Text) : Bool :=
  method == r.method || method == "OPTIONS".text ||
    (method == "HEAD".text && r.method == "GET".text)

/-- The answer of a resource in its own method. -/
def Resource.respond (depth : Nat) (configured : Json) (r : Request) : Resource → Response
  | .index => handleIndex
  | .ping => handlePing
  | .assemble => Framework.send (handleAssemble (http depth) configured r.toPayload)
  | .exportListing => Framework.send (handleExportListing (http depth) configured r.toPayload)
  | .file => page 404

/-- The path with each run of slashes in it as one slash. -/
def mergeSlashes : Text → Text
  | [] => []
  | '/' :: '/' :: r => mergeSlashes (.char '/' :: r)
  | c :: r => c :: mergeSlashes r

/-- Where a path leads: to a resource, on to another path with a resource, or nowhere. -/
inductive Destination where
  | resource (found : Resource)
  | redirect (found : Resource)
  | nowhere
  deriving DecidableEq, Repr

/-- Where a request leads. The empty path leads on to the index, for the methods that the index
takes; a path with runs of slashes leads on to the one with single slashes, if something is there.
-/
def Destination.of (r : Request) (method : Text) : Destination :=
  if r.target.path = [] then
    if Resource.index.accepts method && !r.opensSocket then .redirect .index else .nowhere
  else
    match Resource.at? r.target.rooted with
    | some found => .resource found
    | none =>
      match Resource.at? (mergeSlashes r.target.rooted) with
      | some found => .redirect found
      | none => .nowhere

/-- The answer of a resource that takes the method. -/
def Resource.respondTo (depth : Nat) (configured : Json) (r : Request) (method : Text)
    (resource : Resource) : Response :=
  if method = "OPTIONS".text then page 200
  else
    let response := resource.respond depth configured r
    if r.method = "HEAD".text then { response with body := .empty } else response

/-- The answer to a request, before an origin is allowed. Methods may be written in any letter case.
No resource opens a two-way connection. -/
def route (depth : Nat) (configured : Json) (r : Request) : Response :=
  let method := Text.capitalised r.method
  if !r.hasHostName then page 400
  else
    match Destination.of r method with
    | .nowhere => page 404
    | .resource resource =>
      if !resource.accepts method then page 405
      else if r.opensSocket then page 400
      else resource.respondTo depth configured r method
    | .redirect resource =>
      if !resource.accepts method then page 405
      else if r.opensSocket then page 400
      else page 308

/-- Answers a request, in whose body brackets may be nested to a depth. -/
def respond (depth : Nat) (configured : Json) (r : Request) : Delivery :=
  ⟨route depth configured r, r.allowedOrigin⟩

end Mips32.Service
