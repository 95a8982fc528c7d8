import AuthServer.Dispatch
import AuthServer.Exchange.Issued
import AuthServer.Grant.Param

/-!
# Bundled exchanges

The four grant types of the token endpoint. Each reads its parameters from
the parsed body, asks the host to issue, and writes the tokens; a host that
issues nothing refuses the grant.
-/

namespace AuthServer.Exchange

open Json

variable {σ : Type}

structure Options where
  userProperty : String
  separators : List String

def Options.standard : Options := ⟨"user", standardSeparators⟩

abbrev Issue (σ ρ : Type) := ρ → Step σ (Option Issued)

def bodyNotParsed : OAuthError := .server "Token request body was not parsed by the host"

/-- An exchange that issues on request of a host callback; `refused` describes a refusal. -/
def issuing {ρ : Type} (read : Request → Params → Except OAuthError ρ) (refused : String)
    (issue : Issue σ ρ) : Exchange σ := fun req => do
  match req.body with
  | none => .fail bodyNotParsed
  | some body =>
    let request ← Step.ofExcept (read req body)
    match ← Step.inReply (issue request) with
    | none => .fail (.invalidGrant refused)
    | some issued =>
      Step.onResponse issued.write
      pure .done

/-! ## Authorization code -/

structure CodeRequest where
  client : Option Value
  code : String
  redirectUri : Option String
  body : Params

def CodeRequest.read (o : Options) (req : Request) (body : Params) : Except OAuthError CodeRequest := do
  let code ← EndpointKind.token.required "code" (body.value? "code")
  let redirectUri ← EndpointKind.token.optional "redirect_uri" (body.value? "redirect_uri")
  return ⟨req.principal? o.userProperty, code, redirectUri, body⟩

def authorizationCode (o : Options) (issue : Issue σ CodeRequest) : Exchange σ :=
  issuing (CodeRequest.read o) "Invalid authorization code" issue

/-! ## Client credentials -/

structure ClientRequest where
  client : Option Value
  scope : Option (List String)
  body : Params

def ClientRequest.read (o : Options) (req : Request) (body : Params) :
    Except OAuthError ClientRequest := do
  let scope ← EndpointKind.token.scope o.separators (body.value? "scope")
  return ⟨req.principal? o.userProperty, scope, body⟩

def clientCredentials (o : Options) (issue : Issue σ ClientRequest) : Exchange σ :=
  issuing (ClientRequest.read o) "Invalid client credentials" issue

/-! ## Resource owner password -/

structure PasswordRequest where
  client : Option Value
  username : String
  password : String
  scope : Option (List String)
  body : Params

def PasswordRequest.read (o : Options) (req : Request) (body : Params) :
    Except OAuthError PasswordRequest := do
  let username ← EndpointKind.token.required "username" (body.value? "username")
  let password ← EndpointKind.token.required "password" (body.value? "password")
  let scope ← EndpointKind.token.scope o.separators (body.value? "scope")
  return ⟨req.principal? o.userProperty, username, password, scope, body⟩

def password (o : Options) (issue : Issue σ PasswordRequest) : Exchange σ :=
  issuing (PasswordRequest.read o) "Invalid resource owner credentials" issue

/-! ## Refresh token -/

structure RefreshRequest where
  client : Option Value
  refreshToken : String
  scope : Option (List String)
  body : Params

def RefreshRequest.read (o : Options) (req : Request) (body : Params) :
    Except OAuthError RefreshRequest := do
  let refreshToken ← EndpointKind.token.required "refresh_token" (body.value? "refresh_token")
  let scope ← EndpointKind.token.scope o.separators (body.value? "scope")
  return ⟨req.principal? o.userProperty, refreshToken, scope, body⟩

def refreshToken (o : Options) (issue : Issue σ RefreshRequest) : Exchange σ :=
  issuing (RefreshRequest.read o) "Invalid refresh token" issue

end AuthServer.Exchange
