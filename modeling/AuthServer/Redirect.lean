import AuthServer.Json.Writer
import AuthServer.Text.Percent

/-!
# Parameters on a redirect URI

Pairs `name=value` between `&`, percent-encoded: null is left out, a list
repeats the name, texts stand as they are and other values as JSON. The pairs
are added to the query or take the place of the fragment.
-/

namespace AuthServer.Redirect

open Json

def valueText : Value → String
  | .str s => s
  | v => v.text

/-- The pairs of one parameter. -/
def pairsOf (name : String) : Value → List (String × String)
  | .null => []
  | .arr items => items.map fun v => (name, valueText v)
  | v => [(name, valueText v)]

def pairs (p : Params) : List (String × String) := p.flatMap fun (name, v) => pairsOf name v

def encodePair (name value : String) : String := Text.Percent.encode name ++ "=" ++ Text.Percent.encode value

def encode (p : Params) : String := joined "&" ((pairs p).map fun (name, v) => encodePair name v)

/-- The part before the first `#`, and what follows it. -/
def splitFragment (uri : String) : String × Option String :=
  let cs := uri.toList
  (String.ofList (cs.takeWhile (· ≠ '#')),
    match cs.dropWhile (· ≠ '#') with
    | [] => none
    | _ :: fragment => some (String.ofList fragment))

/-- What stands between a base and the pairs added to its query. -/
def separator (base : String) : String :=
  let cs := base.toList
  if !cs.contains '?' then "?"
  else if cs.getLast? = some '?' ∨ cs.getLast? = some '&' then ""
  else "&"

/-- Adds to the query; an existing query and the fragment stay. -/
def appendQuery (uri : String) (p : Params) : String :=
  if (pairs p).isEmpty then uri
  else
    let (base, fragment) := splitFragment uri
    base ++ separator base ++ encode p ++
      match fragment with
      | none => ""
      | some f => "#" ++ f

def replaceFragment (uri : String) (p : Params) : String := (splitFragment uri).1 ++ "#" ++ encode p

end AuthServer.Redirect
