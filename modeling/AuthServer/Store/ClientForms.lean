import AuthServer.Step

/-!
# Stored forms of a client

How a client is written into a session record and found again. Links are
tried in order. A link that matches with null or false decides differently
in the two directions: writing goes on, reading takes the client as
deauthorized.
-/

namespace AuthServer

open Json

inductive Link (α : Type) where
  | matched (a : α)
  | skip
  | failed (e : OAuthError)

structure ClientForms (σ : Type) where
  writers : List (Value → Step σ (Link Value))
  /-- A match with nothing is a deauthorized client. -/
  readers : List (Value → Step σ (Link (Option Value)))

namespace ClientForms

variable {σ : Type}

def none : ClientForms σ := ⟨[], []⟩

/-- Neither null nor false. -/
def isPresent : Value → Bool
  | .null => false
  | .bool false => false
  | _ => true

def noWriter : OAuthError :=
  .server "Failed to serialize client. Register serialization function using serialize_client()."

def noReader : OAuthError :=
  .server
    "Failed to deserialize client. Register deserialization function using deserialize_client()."

def writeWith (client : Value) : List (Value → Step σ (Link Value)) → Step σ Value
  | [] => .fail noWriter
  | link :: rest => do
    match ← (link client).guarded with
    | .matched v => if isPresent v then pure v else writeWith client rest
    | .skip => writeWith client rest
    | .failed e => .fail e

def readWith (stored : Value) : List (Value → Step σ (Link (Option Value))) → Step σ (Option Value)
  | [] => .fail noReader
  | link :: rest => do
    match ← (link stored).guarded with
    | .matched v => pure (v.filter isPresent)
    | .skip => readWith stored rest
    | .failed e => .fail e

def write (c : ClientForms σ) (client : Value) : Step σ Value := writeWith client c.writers

/-- Nothing for a deauthorized client. -/
def read (c : ClientForms σ) (stored : Value) : Step σ (Option Value) := readWith stored c.readers

end ClientForms

end AuthServer
