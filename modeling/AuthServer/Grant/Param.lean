import AuthServer.Error
import AuthServer.Text.Blank

/-!
# Parameters of a request

Checks shared by grants and exchanges. A malformed parameter is reported by
the endpoint that reads it.
-/

namespace AuthServer

open Json

inductive EndpointKind where
  | authorization
  | token
  deriving DecidableEq, Repr

namespace EndpointKind

def invalidRequest : EndpointKind → String → OAuthError
  | authorization, description => .invalidRequest description
  | token, description => .token description "invalid_request"

def notText (e : EndpointKind) (name : String) : OAuthError :=
  e.invalidRequest ("Invalid parameter: " ++ name ++ " must be a string")

def missing (e : EndpointKind) (name : String) : OAuthError :=
  e.invalidRequest ("Missing required parameter: " ++ name)

/-- A parameter that is a text when it is there; null is absent. -/
def optional (e : EndpointKind) (name : String) : Option Value → Except OAuthError (Option String)
  | none => .ok none
  | some .null => .ok none
  | some (.str s) => .ok (some s)
  | some _ => .error (e.notText name)

/-- A text that is not empty. -/
def required (e : EndpointKind) (name : String) (v : Option Value) : Except OAuthError String := do
  match (← e.optional name v).filter (· ≠ "") with
  | some s => .ok s
  | none => .error (e.missing name)

end EndpointKind

/-- The characters of all separators separate. -/
def isSeparator (separators : List String) (c : Char) : Bool :=
  separators.any fun s => s.toList.contains c

def splitScope (separators : List String) (s : String) : List String :=
  (Text.runs (isSeparator separators) s.toList).map String.ofList

def EndpointKind.scope (e : EndpointKind) (separators : List String) (v : Option Value) :
    Except OAuthError (Option (List String)) := do
  return (← e.optional "scope" v).map (splitScope separators)

def standardSeparators : List String := [" "]

end AuthServer
