import AuthServer.Dispatch

/-!
# Servers

The registered handlers and client forms, one transaction store, and the
settings. A metered server counts into the metrics of its world.
-/

namespace AuthServer

variable {σ : Type}

structure Server (σ : Type) where
  dispatcher : Dispatcher σ
  clients : ClientForms σ
  store : Store σ
  options : TransactionOptions
  metered : Bool

/-- A grant for one response type: up to one handler per phase. -/
structure Grant (σ : Type) where
  name : String
  request : Option (RequestParser σ)
  response : Option (Responder σ)
  error : Option (ErrorResponder σ)

namespace Server

def ofStore (store : Store σ) : Server σ := ⟨.empty, .none, store, .standard, false⟩

/-- Registers the phases of a grant for a response type. -/
def addGrantAs (s : Server σ) (type : String) (g : Grant σ) : Server σ :=
  let d := s.dispatcher
  let d := match g.request with
    | some p => d.addParser type p
    | none => d
  let d := match g.response with
    | some r => d.addResponder type r
    | none => d
  let d := match g.error with
    | some r => d.addErrorResponder type r
    | none => d
  { s with dispatcher := d }

def addGrant (s : Server σ) (g : Grant σ) : Server σ := s.addGrantAs g.name g

def addExchange (s : Server σ) (grantType : String) (x : Exchange σ) : Server σ :=
  { s with dispatcher := s.dispatcher.addExchange grantType x }

def addClientWriter (s : Server σ) (link : Json.Value → Step σ (Link Json.Value)) : Server σ :=
  { s with clients := { s.clients with writers := s.clients.writers ++ [link] } }

def addClientReader (s : Server σ) (link : Json.Value → Step σ (Link (Option Json.Value))) :
    Server σ :=
  { s with clients := { s.clients with readers := s.clients.readers ++ [link] } }

/-! ## The store, on a visit -/

def load (s : Server σ) : Step (Visit σ) Transaction :=
  Step.asAccess (s.store.load s.clients s.options)

def storeNew (s : Server σ) (t : Transaction) : Step (Visit σ) String :=
  Step.asAccess (s.store.store s.clients s.options t)

def storeAgain (s : Server σ) (id : String) (t : Transaction) : Step (Visit σ) String :=
  Step.asAccess (s.store.update s.clients s.options id t)

def remove (s : Server σ) (id : String) : Step (Visit σ) Unit :=
  Step.asAccess (s.store.remove s.options id)

/-! ## Counting -/

def tally (s : Server σ) (f : Metrics → Metrics) (v : Visit σ) : Visit σ :=
  if s.metered then v.withMetrics (f v.world.metrics) else v

def count (s : Server σ) (f : Metrics → Metrics) : Step (Visit σ) Unit := .modify (s.tally f)

def countError (s : Server σ) (e : OAuthError) : Step (Visit σ) Unit := s.count (·.countError e.kind)

/-- An endpoint call; the error it returns is counted. -/
def counted {α : Type} (s : Server σ) (x : Step (Visit σ) α) : Step (Visit σ) α :=
  x.onError s.countError

end Server

end AuthServer
