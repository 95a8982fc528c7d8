import AuthServer.Config.Environment
import AuthServer.Config.Hocon.Document

/-!
# Substitutions in HOCON documents

A substitution stands for a plain value of the document or, failing that, for a
variable of the environment. An optional one that finds neither stands for what
it was put over, or for nothing.
-/

namespace AuthServer.Config.Hocon

open Json

def at? (members : Entries Node) : List String → Option Node
  | [] => none
  | [k] => members.value? k
  | k :: rest =>
    match members.value? k with
    | some (.obj inner) => at? inner rest
    | _ => none

/-- A plain value of the document, or a variable of the environment. -/
def lookup (root : Entries Node) (env : Environment) (path : String) : Option Value :=
  match at? root (keyPath path) with
  | some (.value v) => some v
  | _ => (env.value? path).map .str

mutual

/-- The value of a node: nothing if it is absent, a failure if it has to be there. -/
def resolve (root : Entries Node) (env : Environment) : Node → Option (Option Value)
  | .value v => some (some v)
  | .list items => (resolveItems root env items).map fun vs => some (.arr vs)
  | .obj members => (resolveMembers root env members).map fun ms => some (.obj ms)
  | .substitution path optional before =>
    match lookup root env path with
    | some v => some (some v)
    | none =>
      if optional then
        match before with
        | some n => resolve root env n
        | none => some none
      else none

def resolveItems (root : Entries Node) (env : Environment) : List Node → Option (List Value)
  | [] => some []
  | n :: rest => do
    let v ← resolve root env n
    let vs ← resolveItems root env rest
    return v.toList ++ vs

def resolveMembers (root : Entries Node) (env : Environment) :
    List (String × Node) → Option (List (String × Value))
  | [] => some []
  | (k, n) :: rest => do
    let v ← resolve root env n
    let vs ← resolveMembers root env rest
    return (v.map fun v => (k, v)).toList ++ vs

end

end AuthServer.Config.Hocon
