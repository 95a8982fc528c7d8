import AuthServer.Server

/-!
# Answering a transaction

The steps that the endpoints share: setting the transaction of the request,
running the responders, arming the removal of the stored copy.
-/

namespace AuthServer.Server

variable {σ : Type}

def missingTransaction : OAuthError :=
  .server
    "OAuth 2.0 transaction support is required. Load the transaction before this endpoint."

def setTransaction (t : Transaction) : Step (Visit σ) Unit := .modify (·.holding t)

def theTransaction : Step (Visit σ) Transaction := do
  match ← Step.gets (·.request.transaction) with
  | some t => pure t
  | none => .fail missingTransaction

/-- The transaction `t` with the principal and the locals of the visit at hand. -/
def renewed (s : Server σ) (t : Transaction) (v : Visit σ) : Transaction :=
  { t with user := v.request.principal? s.options.userProperty }.mergeLocals v.response.locals

/-- The responders' answer; no responder for the type is an error. -/
def respond (s : Server σ) (complete : Completion σ) : Step (Visit σ) Unit := do
  let t ← theTransaction
  match ← Step.asReply (s.dispatcher.respond t complete) with
  | .done => setTransaction t.responded
  | .next => .fail (.unsupportedResponseType t.request.type.display)

/-- Arms the removal of the request's transaction. -/
def arm (s : Server σ) (v : Visit σ) : Visit σ :=
  match v.request.transaction with
  | none => v
  | some t =>
    match t.id with
    | none => v
    | some id =>
      if t.removalArmed then v
      else
        let armed := v.holding t.armRemoval
        if v.response.hasHook FinishHook.removalKey then armed
        else { armed with response := v.response.addHook (.removal s.store s.options id) }

/-- A stored transaction is removed once its answer is written. Armed once. -/
def armRemoval (s : Server σ) : Step (Visit σ) Unit := .modify s.arm

end AuthServer.Server
