import AuthServer.Json.Writer
import AuthServer.Store.Basic
import AuthServer.Text.Blank

/-!
# Responses

An outbound response, and the hooks to run once it is written and about to be
sent. Header names are compared without regard to ASCII case; the spelling
and place of the first setting stay.
-/

namespace AuthServer

open Json

/-- Runs when a written response is finished. -/
inductive FinishHook (σ : Type) where
  /-- Removes a transaction from the store it came from. A failed removal is no error. -/
  | removal (store : Store σ) (options : TransactionOptions) (id : String)
  | host (key : Option String) (action : Step (Request × σ) Unit)

def FinishHook.removalKey : String := "oauth2.remove_transaction"

def FinishHook.key {σ : Type} : FinishHook σ → Option String
  | removal .. => some removalKey
  | host key _ => key

structure Response (σ : Type) where
  status : Nat
  headers : List (String × String)
  body : Option String
  written : Bool
  finished : Bool
  /-- Data of the host that the endpoints merge into the transaction. -/
  locals : Option Params
  hooks : List (FinishHook σ)

namespace Response

variable {σ : Type}

def empty : Response σ := ⟨200, [], none, false, false, none, []⟩

def headerIn (headers : List (String × String)) (name : String) : Option String :=
  (headers.find? fun h => Text.sameName h.1 name).map (·.2)

def header? (r : Response σ) (name : String) : Option String := headerIn r.headers name

def setHeaderIn (name value : String) : List (String × String) → List (String × String)
  | [] => [(name, value)]
  | (n, v) :: rest =>
    if Text.sameName n name then (n, value) :: rest else (n, v) :: setHeaderIn name value rest

def setHeader (r : Response σ) (name value : String) : Response σ :=
  { r with headers := setHeaderIn name value r.headers }

def setStatus (r : Response σ) (status : Nat) : Response σ := { r with status }

def redirect (r : Response σ) (location : String) : Response σ :=
  { (r.setStatus 302).setHeader "Location" location with written := true }

def sendJson (r : Response σ) (status : Nat) (body : Value) : Response σ :=
  { (r.setStatus status).setHeader "Content-Type" "application/json" with
    body := some body.text
    written := true }

/-- Leaves the headers alone. -/
def sendText (r : Response σ) (status : Nat) (body : String) : Response σ :=
  { r with status, body := some body, written := true }

def addHook (r : Response σ) (hook : FinishHook σ) : Response σ :=
  { r with hooks := r.hooks ++ [hook] }

def hasHook (r : Response σ) (key : String) : Bool := r.hooks.any fun h => h.key = some key

end Response

/-- What a responder works on. -/
structure Reply (σ : Type) where
  response : Response σ
  host : σ

/-- One request, the response to it, and the world. -/
structure Visit (σ : Type) where
  request : Request
  response : Response σ
  world : World σ

namespace Visit

variable {σ : Type}

def withHost (v : Visit σ) (host : σ) : Visit σ := { v with world := { v.world with host } }

/-- The part of a visit that responders work on. -/
def reply (v : Visit σ) : Reply σ := ⟨v.response, v.world.host⟩

def withReply (v : Visit σ) (r : Reply σ) : Visit σ := { v.withHost r.host with response := r.response }

/-- The part of a visit that stores work on. -/
def access (v : Visit σ) : Access σ := ⟨v.request, v.world⟩

def withAccess (v : Visit σ) (a : Access σ) : Visit σ := { v with request := a.request, world := a.world }

/-- The request carries the transaction `t`. -/
def holding (v : Visit σ) (t : Transaction) : Visit σ :=
  { v with request := { v.request with transaction := some t } }

def withMetrics (v : Visit σ) (metrics : Metrics) : Visit σ :=
  { v with world := { v.world with metrics } }

end Visit

namespace Step

variable {σ α : Type}

/-- Runs a callback of the host. -/
def asHost (x : Step σ α) : Step (Visit σ) α := within (·.world.host) Visit.withHost x

def asReply (x : Step (Reply σ) α) : Step (Visit σ) α := within Visit.reply Visit.withReply x

def asAccess (x : Step (Access σ) α) : Step (Visit σ) α := within Visit.access Visit.withAccess x

/-- Runs on the request and the state of the host. -/
def asRequest (x : Step (Request × σ) α) : Step (Visit σ) α :=
  within (fun v => (v.request, v.world.host)) (fun v p => { v.withHost p.2 with request := p.1 }) x

@[simp] theorem run_asHost (x : Step σ α) (v : Visit σ) :
    (asHost x).run v = ((x.run v.world.host).1, v.withHost (x.run v.world.host).2) := rfl

@[simp] theorem run_asReply (x : Step (Reply σ) α) (v : Visit σ) :
    (asReply x).run v = ((x.run v.reply).1, v.withReply (x.run v.reply).2) := rfl

@[simp] theorem run_asAccess (x : Step (Access σ) α) (v : Visit σ) :
    (asAccess x).run v = ((x.run v.access).1, v.withAccess (x.run v.access).2) := rfl

/-- A callback inside a responder. -/
def inReply (x : Step σ α) : Step (Reply σ) α := within (·.host) (fun r host => { r with host }) x

def onResponse (f : Response σ → Response σ) : Step (Reply σ) Unit :=
  modify fun r => { r with response := f r.response }

end Step

namespace Visit

variable {σ : Type}

/-! ## Finishing -/

def runHook : FinishHook σ → Step (Visit σ) Unit
  | .removal store options id => do
    match ← (Step.asAccess (store.remove options id)).attempt with
    | .error .crash => Step.crash
    | _ => pure ()
  | .host _ action => Step.asRequest action

/-- Runs all hooks in order; the first error, if any. -/
def runHooks : List (FinishHook σ) → Step (Visit σ) (Option OAuthError)
  | [] => pure none
  | hook :: rest => do
    match ← (runHook hook).attempt with
    | .ok _ => runHooks rest
    | .error (.error e) => do
      let _ ← runHooks rest
      pure (some e)
    | .error .crash => Step.crash

/-- Hooks run at the first finish of a written response, never again. -/
def finish : Step (Visit σ) Unit := do
  let r ← Step.gets (·.response)
  if r.finished || !r.written then pure ()
  else
    Step.modify fun v => { v with response := { v.response with finished := true, hooks := [] } }
    match ← runHooks r.hooks with
    | none => pure ()
    | some e => .fail e

end Visit

end AuthServer
