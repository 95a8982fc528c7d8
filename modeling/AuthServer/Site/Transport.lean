import AuthServer.Http.Response
import AuthServer.Json.Reader
import AuthServer.Text.Form

/-!
# Requests and responses over HTTP

An HTTP request becomes parameters: the query, and the body if it is a form
or a JSON object. A parameter that occurs twice is an error. A response
becomes status, headers and body; headers that HTTP cannot carry are dropped.
-/

namespace AuthServer.Site

open Json

structure HttpRequest where
  method : String
  path : String
  query : List UInt8
  /-- The content type header, empty if there is none. -/
  contentType : String
  body : List UInt8

/-- Where a URI has its query: between the first `?` and the first `#`. -/
def splitUri (uri : String) : String × String :=
  let cs := uri.toList.takeWhile (· ≠ '#')
  (String.ofList (cs.takeWhile (· ≠ '?')), String.ofList ((cs.dropWhile (· ≠ '?')).drop 1))

namespace HttpRequest

def ofUri (method uri contentType : String) (body : List UInt8) : HttpRequest :=
  let (path, query) := splitUri uri
  ⟨method, path, Text.Utf8.bytes query, contentType, body⟩

def duplicate (what : String) : OAuthError :=
  .invalidRequest ("Duplicate " ++ what ++ " parameters are not allowed")

/-- Decoded pairs as parameters, unless a name occurs twice. -/
def addPairs (what : String) : Params → List (String × String) → Except OAuthError Params
  | p, [] => .ok p
  | p, (k, v) :: rest => if p.has k then .error (duplicate what) else addPairs what (p ++ [(k, .str v)]) rest

def pairs (what : String) (bs : List UInt8) : Except OAuthError Params :=
  addPairs what [] (Text.Form.decode bs)

def notAnObject : OAuthError := .invalidRequest "Request body must be a JSON object"

def jsonObject (bs : List UInt8) : Except OAuthError Params :=
  match (Text.Utf8.decode? bs).bind readChars? with
  | some (.obj members) => .ok members
  | _ => .error notAnObject

/-- Printable ASCII and the tab. -/
def isPlain (c : Char) : Bool := c = '\t' || (0x20 ≤ c.toNat && c.toNat < 0x7F)

/-- The media type: what stands before the first `;`, trimmed. A header with
other characters than plain ones names none. -/
def mediaType (r : HttpRequest) : String :=
  if r.contentType.toList.all isPlain then
    Text.trimmed (String.ofList (r.contentType.toList.takeWhile (· ≠ ';')))
  else ""

def queryParams (r : HttpRequest) : Except OAuthError Params := pairs "query" r.query

/-- Absent for a body that is neither a form nor JSON. -/
def bodyParams (r : HttpRequest) : Except OAuthError (Option Params) :=
  if r.mediaType = "application/x-www-form-urlencoded" then (pairs "form" r.body).map some
  else if r.mediaType = "application/json" then (jsonObject r.body).map some
  else .ok none

/-- The request as the endpoints see it, without session and principal. -/
def read (r : HttpRequest) : Except OAuthError Request := do
  let query ← r.queryParams
  let body ← r.bodyParams
  return { Request.empty with query, body }

end HttpRequest

structure HttpAnswer where
  status : Nat
  headers : List (String × String)
  body : String
  deriving DecidableEq, Repr

namespace HttpAnswer

/-- The characters of a header name. -/
def isNameChar (c : Char) : Bool :=
  ('a' ≤ c && c ≤ 'z') || ('A' ≤ c && c ≤ 'Z') || ('0' ≤ c && c ≤ '9') ||
    "!#$%&'*+-.^_\x60|~".toList.contains c

def isName (s : String) : Bool := !s.isEmpty && s.toList.all isNameChar

/-- No control character but the tab. -/
def isHeaderValue (s : String) : Bool :=
  s.toList.all fun c => c = '\t' || (0x20 ≤ c.toNat && c.toNat ≠ 0x7F)

def header? (a : HttpAnswer) (name : String) : Option String := Entries.value? a.headers name

/-- Header names are written in lower case. -/
def ofResponse {σ : Type} (r : Response σ) : HttpAnswer where
  status := OAuthError.httpStatus r.status
  headers :=
    (r.headers.filter fun (n, v) => isName n && isHeaderValue v).map fun (n, v) => (Text.lowered n, v)
  body := r.body.getD ""

/-- An error as the whole answer. -/
def ofError (e : OAuthError) : HttpAnswer where
  status := OAuthError.httpStatus e.status
  headers := ("content-type", "application/json") ::
    (e.challenge?.map fun c => ("www-authenticate", c)).toList
  body := paramsText e.members

end HttpAnswer

/-- Runs the finish hooks, then makes the answer; what a hook fails with is not told. -/
def send {σ : Type} : Step (Visit σ) HttpAnswer := do
  let _ ← Visit.finish.attempt
  Step.gets fun v => .ofResponse v.response

end AuthServer.Site
