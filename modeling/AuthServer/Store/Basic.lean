import AuthServer.Options
import AuthServer.Store.ClientForms
import AuthServer.Store.World

/-!
# Transaction stores

The four operations a server needs. A session store finds the id on the
request itself and keeps clients in their stored form; a keyed store is given
the id and keeps transactions as they are. `keyed` makes the second kind fit.
-/

namespace AuthServer

open Json

structure Store (σ : Type) where
  /-- The transaction that the request names; without a client if that was deauthorized. -/
  load : ClientForms σ → TransactionOptions → Step (Access σ) Transaction
  store : ClientForms σ → TransactionOptions → Transaction → Step (Access σ) String
  update : ClientForms σ → TransactionOptions → String → Transaction → Step (Access σ) String
  /-- Removing an id that is gone succeeds. -/
  remove : TransactionOptions → String → Step (Access σ) Unit
  inSession : Bool

namespace Store

variable {σ : Type}

def missingId (field : String) : OAuthError :=
  .badRequest ("Missing required parameter: " ++ field)

def unknownId (id : String) : OAuthError :=
  .forbidden ("Unable to load OAuth 2.0 transaction: " ++ id)

/-- The id that a request carries in query or body; never empty. -/
def idParam (o : TransactionOptions) (r : Request) : Except OAuthError String :=
  match (r.text? o.field).filter (· ≠ "") with
  | some id => .ok id
  | none => .error (missingId o.field)

/-- A store addressed by id. -/
structure Keyed (σ : Type) where
  load : String → Step (Access σ) (Option Transaction)
  store : Transaction → Step (Access σ) String
  update : String → Transaction → Step (Access σ) String
  remove : String → Step (Access σ) Unit

def keyed (k : Keyed σ) : Store σ where
  load _ o := do
    let id ← Step.ofExcept (idParam o (← Step.gets (·.request)))
    match ← k.load id with
    | some t => pure (t.persisted id)
    | none => .fail (unknownId id)
  store _ _ t := k.store t
  update _ _ id t := k.update id t
  remove _ id := k.remove id
  inSession := false

/-- A store under watch: the same answers. Of an id the watcher sees the first
eight characters only, of a client nothing. -/
def observed (_backend : String) (s : Store σ) : Store σ := s

end Store

end AuthServer
