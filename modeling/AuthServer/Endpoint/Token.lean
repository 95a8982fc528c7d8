import AuthServer.Endpoint.Response

/-!
# The token endpoint

The exchanges registered for the body's `grant_type` run until one answers.
-/

namespace AuthServer.Server

variable {σ : Type}

def runToken (s : Server σ) : Step (Visit σ) Unit := do
  let req ← Step.gets (·.request)
  let grantType := req.bodyText? "grant_type"
  match ← Step.asReply (s.dispatcher.exchange grantType req) with
  | .done => s.count (·.countExchange (grantType.getD ""))
  | .next => .fail (.unsupportedGrantType (grantType.getD ""))

def token (s : Server σ) : Step (Visit σ) Unit := s.counted s.runToken

end AuthServer.Server
