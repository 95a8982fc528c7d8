import AuthServer.Endpoint.Response

/-!
# The decision endpoint

Records what the resource owner said, arms the removal of the stored
transaction, and answers. The transaction is allowed unless the cancel field
of the body is true; a parsed `allow` counts before it.
-/

namespace AuthServer.Server

open Json

variable {σ : Type}

structure DecisionCallbacks (σ : Type) where
  parse : Option (ParseDecision σ)
  completion : Completion σ

def noBody : OAuthError := .server "Decision requires a parsed request body."

def decisionInput (c : DecisionCallbacks σ) (req : Request) : Step (Visit σ) DecisionInput :=
  match c.parse with
  | some parse => Step.asHost (parse req).guarded
  | none => pure .nothing

/-- Whether the input and the body allow access. -/
def allows (o : DecisionOptions) (body : Params) (input : DecisionInput) : Bool :=
  match input.fields.value? "allow" with
  | some v => v.isTruthy
  | none => !Value.truthy? (body.value? o.cancelField)

/-- Records what the resource owner said. -/
def recordDecision (s : Server σ) (o : DecisionOptions) (c : DecisionCallbacks σ) :
    Step (Visit σ) Unit := do
  let req ← Step.gets (·.request)
  match req.body with
  | none => .fail noBody
  | some body =>
    let t ← theTransaction
    let input ← decisionInput c req
    let allow := allows o body input
    let t := (← Step.gets (s.renewed t)).mergeLocals input.locals
    setTransaction t
    let t ← Step.ofExcept (t.decide (.withFields allow input.fields))
    setTransaction t
    s.count (·.countDecision allow)

def runDecision (s : Server σ) (o : DecisionOptions) (c : DecisionCallbacks σ) :
    Step (Visit σ) Unit := do
  s.recordDecision o c
  s.armRemoval
  s.respond c.completion

def decide (s : Server σ) (o : DecisionOptions) (c : DecisionCallbacks σ) : Step (Visit σ) Unit :=
  s.counted (s.runDecision o c)

end AuthServer.Server
