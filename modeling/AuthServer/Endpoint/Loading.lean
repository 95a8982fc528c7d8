import AuthServer.Endpoint.Response

/-!
# Loading a transaction

Puts the transaction that the request names on the request. One that is
there already stays. A transaction whose client was deauthorized meanwhile is
removed from the store.
-/

namespace AuthServer.Server

variable {σ : Type}

/-- Removes without reporting an error. -/
def removeQuietly (s : Server σ) (id : String) : Step (Visit σ) Unit := do
  match ← (s.remove id).attempt with
  | .error .crash => Step.crash
  | _ => pure ()

def loadTransaction (s : Server σ) : Step (Visit σ) Unit := do
  match ← Step.gets (·.request.transaction) with
  | some _ => pure ()
  | none =>
    s.counted do
      let t ← s.load
      if t.client.isSome then setTransaction t
      else
        if let some id := t.id then s.removeQuietly id
        .fail .unauthorizedClient

end AuthServer.Server
