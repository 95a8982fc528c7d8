/-!
# Settings of the endpoints
-/

namespace AuthServer

structure TransactionOptions where
  /-- The parameter that carries the transaction id. -/
  field : String
  /-- Where the session keeps transactions. -/
  sessionKey : String
  /-- Random bytes of a session id, two digits each. -/
  idLength : Nat
  /-- The property of a request that holds the principal. -/
  userProperty : String
  deriving DecidableEq, Repr

def TransactionOptions.standard : TransactionOptions := ⟨"transaction_id", "authorize", 8, "user"⟩

structure DecisionOptions where
  /-- The body field whose truth denies access. -/
  cancelField : String
  deriving DecidableEq, Repr

def DecisionOptions.standard : DecisionOptions := ⟨"cancel"⟩

inductive ErrorMode where
  /-- A JSON body with the status of the error. -/
  | direct
  /-- A redirect back to the client. -/
  | indirect
  deriving DecidableEq, Repr, Inhabited

def ErrorMode.name : ErrorMode → String
  | direct => "direct"
  | indirect => "indirect"

structure ErrorOptions where
  mode : ErrorMode
  /-- The response types whose errors travel in the fragment. -/
  fragment : List String
  deriving DecidableEq, Repr

def ErrorOptions.standard : ErrorOptions := ⟨.direct, ["token"]⟩

end AuthServer
