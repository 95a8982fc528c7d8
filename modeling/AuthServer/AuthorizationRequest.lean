import AuthServer.Json.Decode
import AuthServer.TypeSet

/-!
# Authorization requests

The requested type, fixed from the start, and the fields that the parsers of
the type contribute. `Decision` is the resource owner's answer to a request.
-/

namespace AuthServer

open Json

/-- A scope is a list, or a text of words; items that are no texts are passed over. -/
def scopeOf : Option Value → Option (List String)
  | some (.str s) => some (Text.words s)
  | some (.arr items) => some (items.filterMap Value.asString?)
  | _ => none

structure AuthorizationRequest where
  type : TypeSet
  fields : Params
  deriving Inhabited, Repr

namespace AuthorizationRequest

def ofType (type : TypeSet) : AuthorizationRequest := ⟨type, []⟩

/-- Deep merge of fields; a `type` among them is dropped. -/
def merge (r : AuthorizationRequest) (fields : Params) : AuthorizationRequest :=
  { r with fields := Json.merge r.fields (fields.swapRemove "type") }

/-- Sets a field other than `type`. -/
def insert (r : AuthorizationRequest) (key : String) (v : Value) : AuthorizationRequest :=
  if key = "type" then r else { r with fields := r.fields.put key v }

def clientId (r : AuthorizationRequest) : Option String := r.fields.string? "client_id"

def redirectUri (r : AuthorizationRequest) : Option String := r.fields.string? "redirect_uri"

def state (r : AuthorizationRequest) : Option String := r.fields.string? "state"

def responseMode (r : AuthorizationRequest) : Option String := r.fields.string? "response_mode"

def scope (r : AuthorizationRequest) : Option (List String) := scopeOf (r.fields.value? "scope")

/-! ## Wire form: the type beside the fields -/

def members (r : AuthorizationRequest) : Params := ("type", .str r.type.display) :: r.fields

end AuthorizationRequest

namespace TypeSet

/-- A text of words, or the list of tokens. -/
def ofValue : Value → Decoded TypeSet
  | .str s => .ok (parse s)
  | .arr items =>
    match items.mapM Value.asString? with
    | some tokens => .ok ⟨tokens⟩
    | none => .error .noTypeSet
  | _ => .error .noTypeSet

end TypeSet

def AuthorizationRequest.ofValue : Value → Decoded AuthorizationRequest
  | .obj members =>
    match Entries.value? members "type" with
    | none => .error (.missing "type")
    | some t => do return ⟨← TypeSet.ofValue t, members.filter (·.1 ≠ "type")⟩
  | v => .error (.mismatch v (.record "AuthorizationRequest"))

/-- The resource owner's answer, with fields of the grant's own. -/
structure Decision where
  allow : Bool
  fields : Params
  deriving Inhabited, Repr

namespace Decision

/-- An `allow` among the fields is dropped. -/
def withFields (allow : Bool) (fields : Params) : Decision := ⟨allow, fields.swapRemove "allow"⟩

def scope (d : Decision) : Option (List String) := scopeOf (d.fields.value? "scope")

def members (d : Decision) : Params := ("allow", .bool d.allow) :: d.fields

def ofValue : Value → Decoded Decision
  | .obj members =>
    match Entries.value? members "allow" with
    | none => .error (.missing "allow")
    | some a => do return ⟨← a.toBool, members.filter (·.1 ≠ "allow")⟩
  | v => .error (.mismatch v (.record "AuthorizationResponse"))

end Decision

end AuthServer
