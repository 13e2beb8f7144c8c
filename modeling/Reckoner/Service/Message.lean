import Reckoner.Package.Bodies
import Reckoner.Package.Requests
import Reckoner.Service.Failure

/-!
# Requests and responses

What the service is sent and what it answers. A response with a body for programs is JSON and says
whether the request succeeded. Any other response has no body that a program could read.
-/

set_option autoImplicit false

namespace Reckoner.Service

/-- A request; without a body there is no content type either. -/
structure Request where
  method : String
  target : String
  body : Body := []
  contentType : Option String := none
  deriving Repr, DecidableEq

/-- A header of several lines, which no request can carry. -/
structure BrokenHeader where
  text : String
  deriving Repr, DecidableEq

def BrokenHeader.message (_ : BrokenHeader) : String :=
  "Header values must not contain newline characters."

/-- A request with a body, and with the type of its content if there is one. -/
def Request.withBody (method target body : String) (contentType : Option String) :
    Except BrokenHeader Request :=
  match contentType.filter fun text => text.toList.any fun c => c = '\n' || c = '\r' with
  | some text => .error ⟨text⟩
  | none => .ok ⟨method, target, body, contentType⟩

def Request.isJson (request : Request) : Bool :=
  isJsonType request.contentType

/-- The two types of content that the service answers with. -/
inductive ContentType where
  | json
  | page
  deriving Repr, DecidableEq

def ContentType.name : ContentType → String
  | json => "application/json"
  | page => "text/html; charset=utf-8"

/-- A response; its content is absent if it is no JSON. -/
structure Response where
  status : Int
  contentType : ContentType
  content : Option Json.Foreign
  deriving Repr

namespace Response

/-- The content of a response, if it is a value of characters. -/
def body (response : Response) : Option Json :=
  response.content.bind Json.native?

def success (status : Int) (data : Json) : Response :=
  ⟨status, .json, some (.object [("success", .bool true), ("data", data.foreign)])⟩

def failure (failure : Failure) : Response :=
  ⟨failure.status, .json, some (.object [("success", .bool false), ("error", failure.toJson)])⟩

/-- A response of which only the status counts. -/
def bare (status : Int) : Response :=
  ⟨status, .page, none⟩

/-- The response without its content. -/
def withoutContent (response : Response) : Response :=
  { response with content := none }

/-- The levels that it takes to write a response. -/
def levels (response : Response) : Nat :=
  response.content.elim 0 Json.levels

/-- The headers of a response. They forbid a browser to guess the type of content, to show the
response in a frame, to load anything for it, or to tell where a request came from. -/
def headers (response : Response) : List (String × String) :=
  [("Content-Type", response.contentType.name), ("X-Content-Type-Options", "nosniff"),
    ("X-Frame-Options", "DENY"),
    ("Content-Security-Policy", "default-src 'none'; frame-ancestors 'none'"),
    ("Referrer-Policy", "no-referrer")]

end Response

end Reckoner.Service
