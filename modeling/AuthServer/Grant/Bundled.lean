import AuthServer.Exchange.Issued
import AuthServer.Grant.Basic

/-!
# Bundled grants

The authorization code grant answers in the query, the implicit grant in the
fragment, unless the request asks for another mode. The implicit grant hands
out no refresh token.
-/

namespace AuthServer.Grant

open Json

variable {σ : Type}

def codeParams (code : String) : Params := [("code", .str code)]

def code (o : Options σ) (issue : IssueContext → Step σ (Option String)) : Grant σ :=
  redirecting "code" "query" o issue codeParams

def tokenParams (i : Issued) : Params :=
  Issued.withType (merge [("access_token", .str i.accessToken)] i.params)

def token (o : Options σ) (issue : IssueContext → Step σ (Option Issued)) : Grant σ :=
  redirecting "token" "fragment" o issue tokenParams

end AuthServer.Grant
