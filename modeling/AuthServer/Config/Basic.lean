import AuthServer.Options
import AuthServer.Store.Memory
import AuthServer.Store.Session

/-!
# Configuration

The settings of a server, what they select, and the check that they can be
used. A store kind or error mode is named without regard to ASCII case and to
blanks around it.
-/

namespace AuthServer

inductive StoreKind where
  | session
  | memory
  deriving DecidableEq, Repr, Inhabited

def StoreKind.parse (s : String) : Except String StoreKind :=
  let name := Text.lowered (Text.trimmed s)
  if name = "session" then .ok .session
  else if name = "memory" then .ok .memory
  else .error ("Unknown transaction store: " ++ name)

def ErrorMode.parse (s : String) : Except String ErrorMode :=
  let name := Text.lowered (Text.trimmed s)
  if name = "direct" then .ok .direct
  else if name = "indirect" then .ok .indirect
  else .error ("Unknown error mode: " ++ name)

structure Config where
  host : String
  port : Nat
  store : String
  transactions : TransactionOptions
  /-- The lifetime of transactions in memory, in seconds. -/
  lifetime : Option Nat
  decision : DecisionOptions
  errorMode : String
  fragment : List String
  /-- The session section, and in it the key that signs the session cookie. -/
  session : Option (Option String)
  serviceName : String
  deriving DecidableEq, Repr

namespace Config

def standard : Config where
  host := "127.0.0.1"
  port := 8080
  store := "session"
  transactions := .standard
  lifetime := none
  decision := .standard
  errorMode := "direct"
  fragment := ErrorOptions.standard.fragment
  session := none
  serviceName := "rust_oauth2_toolkit"

def storeKind (c : Config) : Except String StoreKind := StoreKind.parse c.store

def modeOfErrors (c : Config) : Except String ErrorMode := ErrorMode.parse c.errorMode

/-- An unknown mode counts as direct. -/
def errorOptions (c : Config) : ErrorOptions where
  mode :=
    match c.modeOfErrors with
    | .ok mode => mode
    | .error _ => .direct
  fragment := c.fragment

def sessionKey? (c : Config) : Option String := c.session.join

/-! ## Validation -/

/-- The fewest bytes of a key that signs cookies. -/
def keyLength : Nat := 64

def validate (c : Config) : Except String Unit := do
  if c.transactions.idLength = 0 then throw "transactions.id_length must be at least 1"
  if c.transactions.field = "" then throw "transactions.transaction_field must not be empty"
  let _ ← c.modeOfErrors
  let kind ← c.storeKind
  if kind = .session ∧ c.transactions.sessionKey = "" then
    throw "transactions.session_key must not be empty for the session store"
  match c.sessionKey? with
  | some key =>
    if key.utf8ByteSize < keyLength then
      throw ("session.key must be at least 64 bytes long (current: " ++ toString key.utf8ByteSize ++
        " bytes)")
  | none => pure ()

/-! ## What the settings select -/

def mask : String := "***MASKED***"

/-- Fit for a log: secrets are masked. -/
def sanitized (c : Config) : Config := { c with session := c.session.map fun key => key.map fun _ => mask }

/-- The configured key, if cookies can be signed with it. -/
def signingKey? (c : Config) : Option String := c.sessionKey?.filter (keyLength ≤ ·.utf8ByteSize)

end Config

namespace Store

variable {σ : Type}

/-- The store of a kind, under watch; a memory is told by its number. -/
def ofKind (number : Nat) (lifetime : Option Nat) : StoreKind → Store σ
  | .session => observed "session" session
  | .memory => observed "memory" (memory number lifetime)

/-- The store that a configuration names. -/
def ofConfig (number : Nat) (c : Config) : Except OAuthError (Store σ) :=
  match c.storeKind with
  | .ok kind => .ok (ofKind number c.lifetime kind)
  | .error message => .error (.server message)

end Store

end AuthServer
