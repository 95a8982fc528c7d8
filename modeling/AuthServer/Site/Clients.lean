import AuthServer.Server

/-!
# Registered clients

The directory of a site: who the clients are, where they may be sent, and
with which secret they authenticate. Grants and exchanges see a client's id
and name only.
-/

namespace AuthServer.Site

open Json

structure Client where
  id : String
  secret : String
  name : String
  redirectUris : List String
  deriving DecidableEq, Repr

/-- What grants and exchanges see. -/
def Client.toValue (c : Client) : Value := .obj [("id", .str c.id), ("name", .str c.name)]

abbrev Directory := Entries Client

namespace Directory

/-- Of clients with one id the last counts. -/
def ofList (cs : List Client) : Directory := cs.foldl (fun d c => d.put c.id c) []

def standard : Directory :=
  ofList [⟨"demo-client", "demo-secret", "Demo Client", ["http://localhost:3000/callback"]⟩]

def authenticate (d : Directory) (id secret : String) : Option Client :=
  (d.value? id).filter (·.secret = secret)

def invalidRedirect : OAuthError := .invalidRequest "Invalid redirect_uri"

def noRedirect : OAuthError := .invalidRequest "Client has no registered redirect_uri"

/-- A registered URI, or the first one if none is given. -/
def redirectUri (c : Client) : Option String → Except OAuthError String
  | some uri => if c.redirectUris.contains uri then .ok uri else .error invalidRedirect
  | none =>
    match c.redirectUris.head? with
    | some uri => .ok uri
    | none => .error noRedirect

def validate {σ : Type} (d : Directory) : Validate σ :=
  Validate.ofClient fun id uri =>
    match id.bind d.value? with
    | none => pure ⟨none, none, none⟩
    | some client => do
      let uri ← Step.ofExcept (redirectUri client uri)
      pure ⟨some client.toValue, some uri, none⟩

/-! ## Clients in session records -/

/-- Only the id is kept. -/
def writeId {σ : Type} (client : Value) : Step σ (Link Value) :=
  match client.member? "id" with
  | some id => pure (.matched id)
  | none => pure .skip

/-- A client that left the directory is deauthorized. -/
def readId {σ : Type} (d : Directory) (stored : Value) : Step σ (Link (Option Value)) :=
  match stored with
  | .str id => pure (.matched ((d.value? id).map Client.toValue))
  | _ => pure .skip

end Directory

end AuthServer.Site
