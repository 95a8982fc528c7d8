import AuthServer.Callback

/-!
# Handler pipelines

Handlers in order of registration, each for one type or for all. Parsers of a
request all contribute; responders and exchanges run until one is done; error
responders may hand on an error of their own.
-/

namespace AuthServer

open Json

variable {σ : Type}

/-- What a handler did. -/
inductive Flow where
  /-- The answer is made; the pipeline stops. -/
  | done
  /-- Left to the next handler. -/
  | next
  deriving DecidableEq, Repr, Inhabited

abbrev RequestParser (σ : Type) := Request → Step σ Params

abbrev Responder (σ : Type) := Transaction → Completion σ → Step (Reply σ) Flow

abbrev ErrorResponder (σ : Type) := OAuthError → Transaction → Step (Reply σ) Flow

abbrev Exchange (σ : Type) := Request → Step (Reply σ) Flow

/-- A handler and the response type it is registered for; none means every type. -/
structure Layer (η : Type) where
  type : Option TypeSet
  handler : η

def wildcard : String := "*"

namespace Layer

variable {η : Type}

def ofType (type : String) (handler : η) : Layer η :=
  ⟨if type = wildcard then none else some (TypeSet.parse type), handler⟩

def appliesTo (l : Layer η) (type : TypeSet) : Bool := l.type.all (·.equalTo type)

/-- The handlers for a type, in order. -/
def applicable (layers : List (Layer η)) (type : TypeSet) : List (Layer η) :=
  layers.filter (·.appliesTo type)

end Layer

/-- An exchange and the grant type it is registered for; none means every type. -/
structure ExchangeLayer (σ : Type) where
  grantType : Option String
  exchange : Exchange σ

def ExchangeLayer.appliesTo (l : ExchangeLayer σ) (grantType : Option String) : Bool :=
  match l.grantType with
  | none => true
  | some g => grantType = some g

structure Dispatcher (σ : Type) where
  parsers : List (Layer (RequestParser σ))
  responders : List (Layer (Responder σ))
  errorResponders : List (Layer (ErrorResponder σ))
  exchanges : List (ExchangeLayer σ)

/-- What the parsers made of a request. -/
structure Parsed where
  request : AuthorizationRequest
  /-- A parser for exactly this type took part. -/
  recognized : Bool

namespace Dispatcher

def empty : Dispatcher σ := ⟨[], [], [], []⟩

def addParser (d : Dispatcher σ) (type : String) (p : RequestParser σ) : Dispatcher σ :=
  { d with parsers := d.parsers ++ [.ofType type p] }

def addResponder (d : Dispatcher σ) (type : String) (r : Responder σ) : Dispatcher σ :=
  { d with responders := d.responders ++ [.ofType type r] }

def addErrorResponder (d : Dispatcher σ) (type : String) (r : ErrorResponder σ) : Dispatcher σ :=
  { d with errorResponders := d.errorResponders ++ [.ofType type r] }

def addExchange (d : Dispatcher σ) (grantType : String) (x : Exchange σ) : Dispatcher σ :=
  { d with exchanges := d.exchanges ++ [⟨if grantType = wildcard then none else some grantType, x⟩] }

/-! ## Runs -/

/-- Merges the fields of the parsers; the first error ends it. -/
def parseWith (req : Request) : List (Layer (RequestParser σ)) → Parsed → Step σ Parsed
  | [], p => pure p
  | l :: rest, p => do
    let fields ← (l.handler req).guarded
    parseWith req rest ⟨p.request.merge fields, p.recognized || l.type.isSome⟩

def parse (d : Dispatcher σ) (type : TypeSet) (req : Request) : Step σ Parsed :=
  parseWith req (Layer.applicable d.parsers type) ⟨.ofType type, false⟩

/-- Runs until one is done. -/
def firstDone {s : Type} : List (Step s Flow) → Step s Flow
  | [] => pure .next
  | x :: rest => do
    match ← x.guarded with
    | .done => pure .done
    | .next => firstDone rest

def respond (d : Dispatcher σ) (t : Transaction) (complete : Completion σ) : Step (Reply σ) Flow :=
  firstDone ((Layer.applicable d.responders t.request.type).map fun l => l.handler t complete)

/-- The error in play is the one given, or the last that a handler failed with. -/
def respondErrorWith (t : Transaction) :
    List (Layer (ErrorResponder σ)) → OAuthError → Step (Reply σ) Unit
  | [], e => .fail e
  | l :: rest, e => do
    match ← (l.handler e t).attempt with
    | .ok .done => pure ()
    | .ok .next => respondErrorWith t rest e
    | .error f => respondErrorWith t rest f.report

def respondError (d : Dispatcher σ) (e : OAuthError) (t : Transaction) : Step (Reply σ) Unit :=
  respondErrorWith t (Layer.applicable d.errorResponders t.request.type) e

def exchange (d : Dispatcher σ) (grantType : Option String) (req : Request) : Step (Reply σ) Flow :=
  firstDone ((d.exchanges.filter (·.appliesTo grantType)).map fun l => l.exchange req)

end Dispatcher

end AuthServer
