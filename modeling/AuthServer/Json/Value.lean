import AuthServer.Entries
import AuthServer.Decimal.Shortest

/-!
# JSON values

Numbers are integers where an integer of 64 bits holds them, doubles
otherwise. Objects keep their members in order; `Params` is the object as a
map, the form in which requests, sessions and transactions carry it.
-/

namespace AuthServer

open Decimal

namespace Json

inductive Value where
  | null
  | bool (b : Bool)
  | int (i : Int)
  | float (x : Binary64)
  | str (s : String)
  | arr (items : List Value)
  | obj (members : List (String × Value))
  deriving Inhabited, Repr

end Json

open Json

abbrev Params := Entries Value

namespace Json.Value

def asString? : Value → Option String
  | .str s => some s
  | _ => none

def asObject? : Value → Option Params
  | .obj members => some members
  | _ => none

def asArray? : Value → Option (List Value)
  | .arr items => some items
  | _ => none

def asBool? : Value → Option Bool
  | .bool b => some b
  | _ => none

/-- A member of an object. -/
def member? (v : Value) (key : String) : Option Value :=
  v.asObject?.bind fun members => members.value? key

/-- What a form field counts as: null, false, zero and the empty text are false. -/
def isTruthy : Value → Bool
  | .null => false
  | .bool b => b
  | .int i => i ≠ 0
  | .float x => !x.isZero
  | .str s => s ≠ ""
  | .arr _ => true
  | .obj _ => true

/-- Absence is false. -/
def truthy? (v : Option Value) : Bool := v.any isTruthy

def ofNat (n : Nat) : Value := .int n

def ofOption {α : Type} (f : α → Value) : Option α → Value
  | none => .null
  | some a => f a

def ofStrings (ss : List String) : Value := .arr (ss.map .str)

end Json.Value

namespace Params

def string? (p : Params) (key : String) : Option String :=
  (p.value? key).bind Value.asString?

end Params

end AuthServer
