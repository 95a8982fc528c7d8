import AuthServer.Entries

/-!
# Names of the bundled grants and exchanges

Every name is an entry, aliases included. A name that is both a grant and an
exchange resolves to the grant.
-/

namespace AuthServer

inductive GrantKind where
  | code
  | token
  deriving DecidableEq, Repr

def GrantKind.responseType : GrantKind → String
  | code => "code"
  | token => "token"

inductive ExchangeKind where
  | authorizationCode
  | clientCredentials
  | password
  | refreshToken
  deriving DecidableEq, Repr

def ExchangeKind.grantType : ExchangeKind → String
  | authorizationCode => "authorization_code"
  | clientCredentials => "client_credentials"
  | password => "password"
  | refreshToken => "refresh_token"

inductive Plugin where
  | grant (kind : GrantKind)
  | exchange (kind : ExchangeKind)
  deriving DecidableEq, Repr

def Plugin.name : Plugin → String
  | grant kind => "grant:" ++ kind.responseType
  | exchange kind => "exchange:" ++ kind.grantType

structure Registry where
  grants : Entries GrantKind
  exchanges : Entries ExchangeKind
  deriving DecidableEq, Repr

namespace Registry

def standard : Registry where
  grants := [("code", .code), ("token", .token), ("authorization_code", .code), ("implicit", .token)]
  exchanges :=
    [("authorization_code", .authorizationCode), ("client_credentials", .clientCredentials),
     ("password", .password), ("refresh_token", .refreshToken), ("code", .authorizationCode)]

/-- Another name for a grant, in place of what the name stood for. -/
def aliasGrant (r : Registry) (name : String) (kind : GrantKind) : Registry :=
  { r with grants := r.grants.put name kind }

def aliasExchange (r : Registry) (name : String) (kind : ExchangeKind) : Registry :=
  { r with exchanges := r.exchanges.put name kind }

def grant? (r : Registry) (name : String) : Option GrantKind := r.grants.value? name

def exchange? (r : Registry) (name : String) : Option ExchangeKind := r.exchanges.value? name

def resolve? (r : Registry) (name : String) : Option Plugin :=
  ((r.grant? name).map .grant).or ((r.exchange? name).map .exchange)

/-- The names in order of their code points. -/
def grantNames (r : Registry) : List String := r.grants.keys.mergeSort (· ≤ ·)

def exchangeNames (r : Registry) : List String := r.exchanges.keys.mergeSort (· ≤ ·)

end Registry

end AuthServer
