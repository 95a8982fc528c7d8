import AuthServer.Http.Response
import AuthServer.Json.Merge

/-!
# Issued tokens

An access token with what goes along, and the response that carries it.
-/

namespace AuthServer

open Json

structure Issued where
  accessToken : String
  refreshToken : Option String
  params : Params
  deriving Inhabited, Repr

namespace Issued

def ofToken (accessToken : String) : Issued := ⟨accessToken, none, []⟩

/-- A token without a type is a bearer token. -/
def withType (p : Params) : Params := if p.has "token_type" then p else p.put "token_type" (.str "Bearer")

/-- The tokens first, then the other parameters merged in. -/
def members (i : Issued) : Params :=
  let tokens := ("access_token", Value.str i.accessToken) ::
    (i.refreshToken.map fun t => ("refresh_token", Value.str t)).toList
  withType (merge tokens i.params)

/-- Never cached. -/
def write {σ : Type} (i : Issued) (r : Response σ) : Response σ :=
  ((r.sendJson 200 (.obj i.members)).setHeader "Cache-Control" "no-store").setHeader "Pragma"
    "no-cache"

end Issued

end AuthServer
