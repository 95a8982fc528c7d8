import AuthServer.Json.Value

/-!
# Protocol errors

An error carries its code, a description, the part of the server it belongs
to, and the HTTP status it is answered with. `members` is its form on the wire.
-/

namespace AuthServer

inductive ErrorKind where
  /-- A malformed request outside any transaction. -/
  | badRequest
  /-- No usable session or transaction. -/
  | forbidden
  | authorization
  | token
  /-- Everything else, failing callbacks included. -/
  | server
  deriving DecidableEq, Repr, Inhabited

def ErrorKind.name : ErrorKind → String
  | badRequest => "bad_request"
  | forbidden => "forbidden"
  | authorization => "authorization"
  | token => "token"
  | server => "server"

structure OAuthError where
  kind : ErrorKind
  code : String
  description : Option String
  uri : Option String
  status : Nat
  deriving DecidableEq, Repr, Inhabited

namespace OAuthError

/-- The status of an error code at the authorization endpoint. -/
def authorizationStatus (code : String) : Nat :=
  if code = "invalid_request" ∨ code = "invalid_scope" then 400
  else if code = "unauthorized_client" ∨ code = "access_denied" then 403
  else if code = "unsupported_response_type" ∨ code = "unsupported_response_mode" then 501
  else if code = "temporarily_unavailable" then 503
  else 500

/-- The status of an error code at the token endpoint. -/
def tokenStatus (code : String) : Nat :=
  if code = "invalid_request" ∨ code = "invalid_scope" then 400
  else if code = "invalid_client" then 401
  else if code = "invalid_grant" ∨ code = "unauthorized_client" then 403
  else if code = "unsupported_grant_type" then 501
  else 500

def authorization (description code : String) : OAuthError :=
  ⟨.authorization, code, some description, none, authorizationStatus code⟩

def token (description code : String) : OAuthError :=
  ⟨.token, code, some description, none, tokenStatus code⟩

def badRequest (description : String) : OAuthError :=
  ⟨.badRequest, "invalid_request", some description, none, 400⟩

def forbidden (description : String) : OAuthError :=
  ⟨.forbidden, "access_denied", some description, none, 403⟩

def server (description : String) : OAuthError :=
  ⟨.server, "server_error", some description, none, 500⟩

def invalidRequest (description : String) : OAuthError := authorization description "invalid_request"

def unauthorizedClient : OAuthError := authorization "Unauthorized client" "unauthorized_client"

def accessDenied (description : String) : OAuthError := authorization description "access_denied"

def unsupportedResponseType (type : String) : OAuthError :=
  authorization ("Unsupported response type: " ++ type) "unsupported_response_type"

def unsupportedResponseMode (mode : String) : OAuthError :=
  authorization ("Unsupported response mode: " ++ mode) "unsupported_response_mode"

def unsupportedGrantType (type : String) : OAuthError :=
  token ("Unsupported grant type: " ++ type) "unsupported_grant_type"

def invalidGrant (description : String) : OAuthError := token description "invalid_grant"

/-- What a crashed callback is reported as; nothing of the crash is told. -/
def crashed : OAuthError := server "Internal server error"

/-- The description, or the code where there is none. -/
def message (e : OAuthError) : String := e.description.getD e.code

/-- The error on the wire: code, description and uri, the last two where present. -/
def members (e : OAuthError) : Params :=
  ("error", .str e.code) ::
    ((e.description.map fun d => ("error_description", .str d)).toList ++
      (e.uri.map fun u => ("error_uri", .str u)).toList)

/-! ## In an HTTP answer -/

/-- A status that HTTP has no place for is answered as 500. -/
def httpStatus (status : Nat) : Nat := if 100 ≤ status ∧ status ≤ 999 then status else 500

/-- The challenge sent with a failed client authentication. -/
def challenge : String := "Basic realm=\"Clients\""

def challenge? (e : OAuthError) : Option String := if e.status = 401 then some challenge else none

end OAuthError

end AuthServer
