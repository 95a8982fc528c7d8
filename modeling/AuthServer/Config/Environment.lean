import AuthServer.Config.Reading

/-!
# Configuration from the environment

Two ways. Nested: variables `OAUTH2__SECTION__MEMBER` in any case form a
document whose leaves are texts. Flat: one variable per setting, anything
unset or malformed keeps its standard value.
-/

namespace AuthServer.Config

open Json

abbrev Environment := Entries String

/-! ## Nested variables -/

/-- Cuts at every double underscore and every dot. -/
def segments : List Char → List (List Char)
  | [] => [[]]
  | '_' :: '_' :: rest => [] :: segments rest
  | '.' :: rest => [] :: segments rest
  | c :: rest =>
    match segments rest with
    | [] => [[c]]
    | s :: more => (c :: s) :: more

/-- Puts a leaf at a path; what was in the way is replaced. -/
def putPath (p : Params) (leaf : Value) : List String → Params
  | [] => p
  | [k] => p.put k leaf
  | k :: rest =>
    let inner := match p.value? k with
      | some (.obj members) => members
      | _ => []
    p.put k (.obj (putPath inner leaf rest))

/-- What the names of nested variables start with. -/
def stem : List Char := "oauth2__".toList

/-- The path of a variable, in lower case. -/
def pathOf (name : String) : Option (List String) :=
  let cs := (Text.lowered name).toList
  if stem.isPrefixOf cs then some ((segments (cs.drop stem.length)).map String.ofList) else none

def nested (env : Environment) : Value :=
  .obj (env.foldl (fun p (name, v) =>
    match pathOf name with
    | some path => putPath p (.str v) path
    | none => p) [])

/-- A switch counts as one or zero; a number is taken modulo the limit. -/
def switchOrNat (limit : Nat) (s : String) : Option Nat :=
  let word := Text.lowered s
  if word = "true" ∨ word = "on" ∨ word = "yes" then some 1
  else if word = "false" ∨ word = "off" ∨ word = "no" then some 0
  else (decimalBelow word64 s).map (· % limit)

def leaves : Conversion where
  members? _ v := v.asObject?
  allMembers? _ v := v.asObject?
  text? := Value.asString?
  nat? limit v := v.asString?.bind (switchOrNat limit)
  texts? _ := none

def ofNested? (env : Environment) : Option Config := read leaves (nested env)

/-! ## Flat variables -/

/-- The items between commas, trimmed, empty ones dropped. -/
def splitList (s : String) : List String :=
  (((Text.pieces (· = ',') s.toList).map fun cs => Text.trimmed (String.ofList cs)).filter (· ≠ ""))

def fragmentVariable : String := "OAUTH2_ERRORS_FRAGMENT"

def ofFlat (env : Environment) : Config :=
  let text (name : String) (d : String) : String := (env.value? name).getD d
  let nat? (name : String) (limit : Nat) : Option Nat := (env.value? name).bind (decimalBelow limit)
  let d := standard
  let o := d.transactions
  { host := text "OAUTH2_SERVER_HOST" d.host
    port := (nat? "OAUTH2_SERVER_PORT" port16).getD d.port
    store := text "OAUTH2_TRANSACTIONS_STORE" d.store
    transactions := {
      field := text "OAUTH2_TRANSACTIONS_FIELD" o.field
      sessionKey := text "OAUTH2_TRANSACTIONS_SESSION_KEY" o.sessionKey
      idLength := (nat? "OAUTH2_TRANSACTIONS_ID_LENGTH" word64).getD o.idLength
      userProperty := text "OAUTH2_TRANSACTIONS_USER_PROPERTY" o.userProperty
    }
    lifetime := nat? "OAUTH2_TRANSACTIONS_TTL_SECONDS" word64
    decision := { cancelField := text "OAUTH2_DECISION_CANCEL_FIELD" d.decision.cancelField }
    errorMode := text "OAUTH2_ERRORS_MODE" d.errorMode
    fragment := ((env.value? fragmentVariable).map splitList).getD d.fragment
    session := (env.value? "OAUTH2_SESSION_KEY").map some
    serviceName := text "OAUTH2_SERVICE_NAME" (text "OTEL_SERVICE_NAME" d.serviceName) }

end AuthServer.Config
