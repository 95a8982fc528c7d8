import AuthServer.Transaction.Basic

/-!
# Transaction records

A transaction as a JSON object and back. Absent members are left out, the
client alone is always written; phase and armed removal are not part of a
record. A member that is null reads as absent.
-/

namespace AuthServer

open Json

namespace Transaction

def optional {α : Type} (name : String) (write : α → Value) : Option α → Params
  | none => []
  | some a => [(name, write a)]

def members (t : Transaction) : Params :=
  optional "transactionID" .str t.id ++
  [("client", t.client.getD .null)] ++
  optional "redirectURI" .str t.redirectUri ++
  optional "webOrigin" .str t.webOrigin ++
  [("req", .obj t.request.members)] ++
  optional "user" (fun u => u) t.user ++
  optional "res" (fun d => .obj d.members) t.decision ++
  optional "info" .obj t.info ++
  optional "locals" .obj t.locals

def toValue (t : Transaction) : Value := .obj t.members

/-! ## Reading -/

/-- The members read so far; the request is the one that must be there. -/
structure Draft where
  request : Option AuthorizationRequest
  rest : Transaction
  deriving Inhabited

def Draft.empty : Draft := ⟨none, ofRequest default⟩

def memberNames : List String :=
  ["transactionID", "client", "redirectURI", "webOrigin", "req", "user", "res", "info", "locals"]

def readMember (d : Draft) (name : String) (v : Value) : Decoded Draft :=
  let t := d.rest
  if name = "transactionID" then do
    return { d with rest := { t with id := ← v.toOption Value.toText } }
  else if name = "client" then do
    return { d with rest := { t with client := ← v.toOption .ok } }
  else if name = "redirectURI" then do
    return { d with rest := { t with redirectUri := ← v.toOption Value.toText } }
  else if name = "webOrigin" then do
    return { d with rest := { t with webOrigin := ← v.toOption Value.toText } }
  else if name = "req" then do
    return { d with request := some (← AuthorizationRequest.ofValue v) }
  else if name = "user" then do
    return { d with rest := { t with user := ← v.toOption .ok } }
  else if name = "res" then do
    return { d with rest := { t with decision := ← v.toOption Decision.ofValue } }
  else if name = "info" then do
    return { d with rest := { t with info := ← v.toOption Value.toParams } }
  else if name = "locals" then do
    return { d with rest := { t with locals := ← v.toOption Value.toParams } }
  else .ok d

def ofValue (v : Value) : Decoded Transaction := do
  let d ← readRecord "Transaction" memberNames ["req"] ["req"] Draft.empty readMember v
  match d.request with
  | some r => .ok { d.rest with request := r }
  | none => .error (.missing "req")

end Transaction

/-- An error read from the wire belongs to the server and has status 500. -/
def OAuthError.ofValue (v : Value) : Decoded OAuthError :=
  readRecord "OAuth2Error" ["error", "error_description", "error_uri"]
    ["error"] ["error", "error_description", "error_uri"] ⟨.server, "", none, none, 500⟩
    (fun e name v =>
      if name = "error" then do return { e with code := ← v.toText }
      else if name = "error_description" then do
        return { e with description := ← v.toOption Value.toText }
      else do return { e with uri := ← v.toOption Value.toText })
    v

end AuthServer
