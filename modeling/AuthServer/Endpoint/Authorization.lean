import AuthServer.Endpoint.Response

/-!
# The authorization endpoint

Parses the request, validates the client, and then answers at once or stores
the transaction for a later decision. An error leaves the transaction built
so far on the request, so that it can still be sent to the client.
-/

namespace AuthServer

/-- How an endpoint ended when it did not fail. -/
inductive Outcome where
  /-- The transaction is stored; the resource owner has to be asked. -/
  | pending (id : String)
  | responded
  deriving DecidableEq, Repr, Inhabited

structure AuthorizationCallbacks (σ : Type) where
  validate : Validate σ
  immediate : Option (Immediate σ)
  completion : Completion σ

namespace Server

variable {σ : Type}

/-- On an error the transaction is kept on the request; a crash leaves the request alone. -/
def keeping {α : Type} (t : Transaction) (x : Step (Visit σ) α) : Step (Visit σ) α :=
  x.onError fun _ => setTransaction t

def responseType (req : Request) : Except OAuthError TypeSet :=
  match ((req.text? "response_type").map TypeSet.parse).filter (!·.isEmpty) with
  | some type => .ok type
  | none => .error (.invalidRequest "Missing required parameter: response_type")

/-- Stores a transaction that waits for a decision. -/
def suspend (s : Server σ) (t : Transaction) : Step (Visit σ) Outcome := do
  let id ← keeping t (s.storeNew t)
  setTransaction (t.persisted id)
  s.count (·.countStarted)
  pure (.pending id)

/-- Answers with the fields of an allowing verdict. -/
def grantAtOnce (s : Server σ) (t : Transaction) (fields : Params) (completion : Completion σ) :
    Step (Visit σ) Outcome := do
  let t ← keeping t (Step.ofExcept (t.decide (.withFields true fields)))
  setTransaction t
  s.count (·.countDecision true)
  s.respond completion
  pure .responded

/-- The request as a transaction; a type that no parser is registered for is refused. -/
def newTransaction (s : Server σ) : Step (Visit σ) Transaction := do
  let req ← Step.gets (·.request)
  let type ← Step.ofExcept (responseType req)
  let parsed ← Step.asHost (s.dispatcher.parse type req)
  if !parsed.recognized then .fail (.unsupportedResponseType type.display)
  else
    pure { Transaction.ofRequest parsed.request with user := req.principal? s.options.userProperty }

/-- Has the client validated. -/
def validateClient (c : AuthorizationCallbacks σ) (t : Transaction) : Step (Visit σ) Transaction := do
  let v ← keeping t (Step.asHost (c.validate t.request).guarded)
  let t := t.validated v.client v.redirectUri v.webOrigin
  if v.client.isNone then keeping t (.fail .unauthorizedClient)
  else
    let locals ← Step.gets (·.response.locals)
    pure (t.mergeLocals locals)

/-- Asks for an immediate decision. -/
def tryAtOnce (s : Server σ) (immediate : Immediate σ) (completion : Completion σ) (t : Transaction) :
    Step (Visit σ) Outcome := do
  let verdict ← keeping t (Step.asHost (immediate t).guarded)
  let t := t.mergeLocals verdict.locals
  if verdict.allow then s.grantAtOnce t (verdict.info.getD []) completion
  else s.suspend (t.withInfo verdict.info)

def runAuthorization (s : Server σ) (c : AuthorizationCallbacks σ) : Step (Visit σ) Outcome := do
  let t ← s.newTransaction
  let t ← validateClient c t
  match c.immediate with
  | none => s.suspend t
  | some immediate => s.tryAtOnce immediate c.completion t

def authorize (s : Server σ) (c : AuthorizationCallbacks σ) : Step (Visit σ) Outcome :=
  s.counted (s.runAuthorization c)

end Server

end AuthServer
