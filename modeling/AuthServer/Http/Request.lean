import AuthServer.Transaction.Basic

/-!
# Requests

An inbound request: parameters, the session where the host has one, the
authenticated principal, and the transaction that the endpoints work on.
-/

namespace AuthServer

open Json

structure Request where
  query : Params
  /-- Absent when the body was not parsed. -/
  body : Option Params
  session : Option Params
  user : Option Value
  attributes : Params
  transaction : Option Transaction
  deriving Inhabited

namespace Request

def empty : Request := ⟨[], none, none, none, [], none⟩

def bodyValue? (r : Request) (name : String) : Option Value := r.body.bind (·.value? name)

/-- The query comes before the body, also with a null. -/
def param? (r : Request) (name : String) : Option Value :=
  (r.query.value? name).or (r.bodyValue? name)

def text? (r : Request) (name : String) : Option String := (r.param? name).bind Value.asString?

def bodyText? (r : Request) (name : String) : Option String :=
  (r.bodyValue? name).bind Value.asString?

/-- The user for the property `user`, an attribute for any other. -/
def principal? (r : Request) (property : String) : Option Value :=
  if property = "user" then r.user else r.attributes.value? property

end Request

end AuthServer
