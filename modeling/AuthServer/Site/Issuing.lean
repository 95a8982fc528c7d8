import AuthServer.Exchange.Bundled
import AuthServer.Grant.Bundled
import AuthServer.Registry
import AuthServer.Site.Clients

/-!
# Codes and tokens of the site

The code book holds what each authorization code was issued for until it is
exchanged, once. Tokens are drawn and forgotten.
-/

namespace AuthServer.Site

open Json

structure GrantedCode where
  clientId : String
  redirectUri : Option String
  user : Option Value
  scope : Option (List String)

/-- What the issuing callbacks keep. -/
structure Issuer where
  codes : Entries GrantedCode
  tokens : Supply

namespace Issuer

def lifetimeSeconds : Nat := 3600

def newToken : Step Issuer String :=
  Step.within (·.tokens) (fun i tokens => { i with tokens }) (Supply.draw Supply.tokenLength)

def record (code : String) (g : GrantedCode) : Step Issuer Unit :=
  .modify fun i => { i with codes := i.codes.put code g }

/-- A code is gone once it is asked for. -/
def take (code : String) : Step Issuer (Option GrantedCode) := fun i =>
  (.ok (i.codes.value? code), { i with codes := i.codes.remove code })

/-- How long a token lives, and the scope unless it is empty. -/
def tokenParams (scope : Option (List String)) : Params :=
  ("expires_in", .ofNat lifetimeSeconds) ::
    ((scope.filter (!·.isEmpty)).map fun s => ("scope", Value.str (joined " " s))).toList

def clientIdOf (client : Option Value) : Option String :=
  (client.bind (·.member? "id")).bind Value.asString?

/-- The scope of the decision, or else of the request. -/
def scopeOf (c : Grant.IssueContext) : Option (List String) := c.decision.scope.or c.request.scope

def issueCode (c : Grant.IssueContext) : Step Issuer (Option String) :=
  match clientIdOf c.client with
  | none => pure none
  | some clientId => do
    let code ← newToken
    record code ⟨clientId, c.redirectUri, c.user, scopeOf c⟩
    pure (some code)

def issueToken (c : Grant.IssueContext) : Step Issuer (Option Issued) :=
  if c.client.isNone then pure none
  else do
    let token ← newToken
    pure (some { Issued.ofToken token with params := tokenParams (scopeOf c) })

/-- Only the client that the code was issued to, and only with its redirect URI. -/
def matchesCode (r : Exchange.CodeRequest) (g : GrantedCode) : Bool :=
  clientIdOf r.client = some g.clientId && (r.redirectUri.isNone || r.redirectUri = g.redirectUri)

def exchangeCode (r : Exchange.CodeRequest) : Step Issuer (Option Issued) := do
  match ← take r.code with
  | none => pure none
  | some g =>
    if matchesCode r g then
      let token ← newToken
      let refresh ← newToken
      pure (some ⟨token, some refresh, tokenParams g.scope⟩)
    else pure none

def exchangeCredentials (r : Exchange.ClientRequest) : Step Issuer (Option Issued) :=
  if r.client.isNone then pure none
  else do
    let token ← newToken
    pure (some { Issued.ofToken token with params := tokenParams r.scope })

/-! ## Installation by name -/

def unknownGrant (name : String) : OAuthError := .server ("Unknown grant: " ++ name)

def unknownExchange (name : String) : OAuthError := .server ("Unknown exchange: " ++ name)

def unavailable (name : String) : OAuthError := .server ("Exchange not available in the demo: " ++ name)

def installGrant (s : Server Issuer) (name : String) : Except OAuthError (Server Issuer) :=
  match Registry.standard.grant? name with
  | some .code => .ok (s.addGrant (Grant.code .standard issueCode))
  | some .token => .ok (s.addGrant (Grant.token .standard issueToken))
  | none => .error (unknownGrant name)

def installExchange (s : Server Issuer) (name : String) : Except OAuthError (Server Issuer) :=
  match Registry.standard.exchange? name with
  | some .authorizationCode =>
    .ok (s.addExchange "authorization_code" (Exchange.authorizationCode .standard exchangeCode))
  | some .clientCredentials =>
    .ok (s.addExchange "client_credentials" (Exchange.clientCredentials .standard exchangeCredentials))
  | some _ => .error (unavailable name)
  | none => .error (unknownExchange name)

def install (s : Server Issuer) (grants exchanges : List String) : Except OAuthError (Server Issuer) := do
  exchanges.foldlM installExchange (← grants.foldlM installGrant s)

def standardGrants : List String := ["code", "implicit"]

def standardExchanges : List String := ["authorization_code", "client_credentials"]

end Issuer

end AuthServer.Site
