import AuthServer.Config.Basic
import AuthServer.Json.Number

/-!
# Reading a configuration

A document is a tree of sections. How its sections and leaves are read
differs by its source and is given as a `Conversion`; absent members keep
their standard value.
-/

namespace AuthServer.Config

open Json

structure Conversion where
  /-- The members of a section, given the names it may have. -/
  members? : List String → Value → Option Params
  /-- The members of a section none of which a list may leave out. -/
  allMembers? : List String → Value → Option Params
  text? : Value → Option String
  /-- A number below a limit. -/
  nat? : Nat → Value → Option Nat
  texts? : Value → Option (List String)

/-- Reads one member over a standard value; fails only if it is there and wrong. -/
def member {α : Type} (p : Params) (name : String) (read : Value → Option α) (standard : α) : Option α :=
  match p.value? name with
  | none => some standard
  | some v => read v

/-- Reads a member that null makes absent. -/
def optional {α : Type} (p : Params) (name : String) (read : Value → Option α) : Option (Option α) :=
  match p.value? name with
  | none => some none
  | some .null => some none
  | some v => (read v).map some

def membersOf (c : Conversion) (p : Params) (name : String) (names : List String) : Option Params :=
  member p name (c.members? names) []

def port16 : Nat := 65536

def read (c : Conversion) (v : Value) : Option Config := do
  let root ← c.members? ["server", "transactions", "decision", "errors", "session", "telemetry"] v
  let server ← membersOf c root "server" ["host", "port"]
  let transactions ← membersOf c root "transactions"
    ["store", "transaction_field", "session_key", "id_length", "user_property", "ttl_seconds"]
  let decision ← membersOf c root "decision" ["cancel_field"]
  let errors ← membersOf c root "errors" ["mode", "fragment"]
  let session ← optional root "session" fun v => do
    let session ← c.allMembers? ["key"] v
    optional session "key" c.text?
  let telemetry ← membersOf c root "telemetry" ["service_name"]
  let d := standard
  let o := d.transactions
  return {
    host := ← member server "host" c.text? d.host
    port := ← member server "port" (c.nat? port16) d.port
    store := ← member transactions "store" c.text? d.store
    transactions := {
      field := ← member transactions "transaction_field" c.text? o.field
      sessionKey := ← member transactions "session_key" c.text? o.sessionKey
      idLength := ← member transactions "id_length" (c.nat? word64) o.idLength
      userProperty := ← member transactions "user_property" c.text? o.userProperty
    }
    lifetime := ← optional transactions "ttl_seconds" (c.nat? word64)
    decision := { cancelField := ← member decision "cancel_field" c.text? d.decision.cancelField }
    errorMode := ← member errors "mode" c.text? d.errorMode
    fragment := ← member errors "fragment" c.texts? d.fragment
    session := session
    serviceName := ← member telemetry "service_name" c.text? d.serviceName
  }

/-! ## Strict documents -/

def natBelow (limit : Nat) : Value → Option Nat
  | .int i => if 0 ≤ i ∧ i.toNat < limit then some i.toNat else none
  | _ => none

/-- The members of an object, or a list of their values in order. -/
def listed (enough : Nat → Nat → Bool) (names : List String) : Value → Option Params
  | .obj members => some members
  | .arr items => if enough items.length names.length then some (names.zip items) else none
  | _ => none

/-- Values have the type of their member; a section may be a list. -/
def strict : Conversion where
  members? := listed (· ≤ ·)
  allMembers? := listed (· = ·)
  text? := Value.asString?
  nat? := natBelow
  texts? v := v.asArray?.bind (·.mapM Value.asString?)

def ofJson? (v : Value) : Option Config := read strict v

/-! ## Converting documents: numbers and texts stand for each other -/

def digitsOnly (s : List Char) : Bool := !s.isEmpty && s.all isDigit

/-- A decimal number below a limit, with an optional plus sign. -/
def decimalBelow (limit : Nat) (s : String) : Option Nat :=
  let ds := match s.toList with
    | '+' :: ds => ds
    | ds => ds
  if digitsOnly ds && decimalNat ds < limit then some (decimalNat ds) else none

def looseText? : Value → Option String
  | .str s => some s
  | .int i => some (toString i)
  | .bool b => some (if b then "true" else "false")
  | .float x => some x.text
  | _ => none

def converting : Conversion where
  members? _ v := v.asObject?
  allMembers? _ v := v.asObject?
  text? := looseText?
  nat? limit
    | .str s => decimalBelow limit s
    | v => natBelow limit v
  texts? v := v.asArray?.bind (·.mapM looseText?)

end AuthServer.Config
