import AuthServer.AuthorizationRequest
import AuthServer.Error

/-!
# Transactions

One authorization request on its way through the server: parsed, its client
validated, stored while the resource owner is asked, decided once, answered.
-/

namespace AuthServer

open Json

inductive Phase where
  | parsed
  | clientValidated
  | persisted
  | decided
  | responded
  deriving DecidableEq, Repr, Inhabited

def Phase.rank : Phase → Nat
  | parsed => 0
  | clientValidated => 1
  | persisted => 2
  | decided => 3
  | responded => 4

structure Transaction where
  id : Option String
  client : Option Value
  redirectUri : Option String
  webOrigin : Option String
  request : AuthorizationRequest
  user : Option Value
  decision : Option Decision
  info : Option Params
  locals : Option Params
  phase : Phase
  /-- A finish hook will remove the stored copy. -/
  removalArmed : Bool
  deriving Inhabited, Repr

namespace Transaction

def ofRequest (r : AuthorizationRequest) : Transaction :=
  ⟨none, none, none, none, r, none, none, none, none, .parsed, false⟩

def validated (t : Transaction) (client : Option Value) (redirectUri webOrigin : Option String) :
    Transaction :=
  { t with client, redirectUri, webOrigin, phase := .clientValidated }

/-- Stored, or loaded, under `id`. A later phase stays. -/
def persisted (t : Transaction) (id : String) : Transaction :=
  { t with
    id := some id
    phase := if t.phase.rank < Phase.persisted.rank then .persisted else t.phase }

def alreadyDecided : OAuthError := .server "OAuth 2.0 transaction has already been decided"

/-- A transaction is decided once. -/
def decide (t : Transaction) (d : Decision) : Except OAuthError Transaction :=
  match t.decision with
  | some _ => .error alreadyDecided
  | none => .ok { t with decision := some d, phase := .decided }

def responded (t : Transaction) : Transaction := { t with phase := .responded }

def withInfo (t : Transaction) (info : Option Params) : Transaction := { t with info }

def mergeLocals (t : Transaction) (locals : Option Params) : Transaction :=
  { t with locals := mergeOption t.locals locals }

def armRemoval (t : Transaction) : Transaction := { t with removalArmed := true }

def disarmRemoval (t : Transaction) : Transaction := { t with removalArmed := false }

end Transaction

end AuthServer
