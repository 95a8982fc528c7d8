import AuthServer.Store.Basic
import AuthServer.Transaction.Record

/-!
# Transactions in the session

One object under the session key holds the pending transactions as records,
by id. Id, phase and armed removal stay outside the record; the client is
kept in its stored form.
-/

namespace AuthServer.Store

open Json

variable {σ : Type}

def sessionRequired : OAuthError :=
  .server
    "OAuth 2.0 transaction support requires a session. Install session middleware before the authorization endpoints."

def noTransactions : OAuthError :=
  .forbidden "Unable to load OAuth 2.0 transactions from session"

/-- The pending transactions in a session. -/
def pending? (session : Params) (key : String) : Option Params :=
  (session.value? key).bind Value.asObject?

/-- Anything under the key that is no object gives way. -/
def putRecord (session : Params) (key id : String) (record : Value) : Params :=
  session.put key (.obj (((pending? session key).getD []).put id record))

def removeRecord (session : Params) (key id : String) : Params :=
  match pending? session key with
  | some records => session.put key (.obj (records.swapRemove id))
  | none => session

def theSession : Step (Access σ) Params := do
  match ← Step.gets (·.request.session) with
  | some session => pure session
  | none => .fail sessionRequired

def setSession (session : Params) : Step (Access σ) Unit :=
  .modify fun a => { a with request := { a.request with session := some session } }

/-- Puts a record under an id. -/
def shelve (o : TransactionOptions) (record : Value) (id : String) : Step (Access σ) String := do
  setSession (putRecord (← theSession) o.sessionKey id record)
  pure id

def recordOf (c : ClientForms σ) (t : Transaction) : Step (Access σ) Value := do
  match t.client with
  | some client =>
    let stored ← Step.onHost (c.write client)
    pure { t with id := none, client := some stored }.toValue
  | none => pure { t with id := none }.toValue

/-- The transaction of a record, its client still in stored form. -/
def ofRecord (record : Value) : Except OAuthError Transaction :=
  match Transaction.ofValue record with
  | .ok t => .ok t
  | .error e => .error (.server e.message)

def session : Store σ where
  load c o := do
    let held ← theSession
    match pending? held o.sessionKey with
    | none => .fail noTransactions
    | some records =>
      let id ← Step.ofExcept (idParam o (← Step.gets (·.request)))
      match records.value? id with
      | none => .fail (unknownId id)
      | some record =>
        let t ← Step.ofExcept (ofRecord record)
        let client ←
          match t.client with
          | some stored => Step.onHost (c.read stored)
          | none => pure none
        pure ({ t with client }.persisted id)
  store c o t := do
    let _ ← theSession
    let record ← recordOf c t
    shelve o record (← Step.onSupply (Supply.draw o.idLength))
  update c o id t := do
    shelve o (← recordOf c t) id
  remove o id := do
    setSession (removeRecord (← theSession) o.sessionKey id)
  inSession := true

end AuthServer.Store
