import AuthServer.Http.Response

/-!
# Callbacks of the host

What the host answers when the endpoints ask: is this client valid, can the
request be decided at once, what did the resource owner say, may the answer
go out. Callbacks act on the state of the host only. Each may take the whole
record or only the arguments it needs.
-/

namespace AuthServer

open Json

variable {σ : Type}

/-! ## Validation of a client -/

structure Validated where
  /-- Absent for a client that is not authorized. -/
  client : Option Value
  /-- Errors may go there even without a client. -/
  redirectUri : Option String
  webOrigin : Option String

abbrev Validate (σ : Type) := AuthorizationRequest → Step σ Validated

namespace Validate

def ofClient (f : Option String → Option String → Step σ Validated) : Validate σ :=
  fun r => f r.clientId r.redirectUri

def ofClientScope (f : Option String → Option String → Option (List String) → Step σ Validated) :
    Validate σ :=
  fun r => f r.clientId r.redirectUri r.scope

def ofClientScopeType
    (f : Option String → Option String → Option (List String) → TypeSet → Step σ Validated) :
    Validate σ :=
  fun r => f r.clientId r.redirectUri r.scope r.type

end Validate

/-! ## Decision without asking -/

structure Verdict where
  allow : Bool
  /-- Fields of the decision on allow, kept with the transaction otherwise. -/
  info : Option Params
  locals : Option Params

abbrev Immediate (σ : Type) := Transaction → Step σ Verdict

/-- What an immediate decision may look at, the transaction apart. -/
structure Applicant where
  client : Option Value
  user : Option Value
  scope : Option (List String)
  type : TypeSet
  request : AuthorizationRequest
  locals : Option Params

def Transaction.applicant (t : Transaction) : Applicant :=
  ⟨t.client, t.user, t.request.scope, t.request.type, t.request, t.locals⟩

namespace Immediate

def ofClientUser (f : Option Value → Option Value → Step σ Verdict) : Immediate σ :=
  fun t => f t.client t.user

def ofClientUserScope
    (f : Option Value → Option Value → Option (List String) → Step σ Verdict) : Immediate σ :=
  fun t => f t.client t.user t.request.scope

def ofApplicant (f : Applicant → Step σ Verdict) : Immediate σ := fun t => f t.applicant

end Immediate

/-! ## The resource owner's answer -/

structure DecisionInput where
  /-- An `allow` among them overrides the cancel field. -/
  fields : Params
  locals : Option Params

def DecisionInput.nothing : DecisionInput := ⟨[], none⟩

abbrev ParseDecision (σ : Type) := Request → Step σ DecisionInput

/-! ## Completion -/

abbrev Complete (σ : Type) := Transaction → Step σ Unit

/-- What a responder calls before it answers: the host's callback, if there is one. -/
structure Completion (σ : Type) where
  callback : Option (Complete σ)

def Completion.none : Completion σ := ⟨Option.none⟩

def Completion.run (c : Completion σ) (t : Transaction) : Step σ Unit :=
  match c.callback with
  | some callback => (callback t).guarded
  | Option.none => pure ()

end AuthServer
