import AuthServer.Config.Hocon.Token
import AuthServer.Entries

/-!
# HOCON documents

The notation is JSON with the braces of the root, quotes and commas left out,
`=` for the colon, dotted keys and comments. Objects under one key merge, other
values replace what was there; an optional substitution falls back on it.
-/

namespace AuthServer.Config.Hocon

open Json

/-! ## Nodes -/

inductive Node where
  | value (v : Value)
  | list (items : List Node)
  | obj (members : List (String × Node))
  /-- A value from elsewhere; `before` is what it falls back on. -/
  | substitution (path : String) (optional : Bool) (before : Option Node)

mutual

/-- Members put over others. -/
def mergeMembers (old : Entries Node) : List (String × Node) → Entries Node
  | [] => old
  | (k, v) :: rest => mergeMembers (old.put k (layered (old.value? k) v)) rest

/-- What a key holds after a second definition. -/
def layered (old : Option Node) : Node → Node
  | .obj new =>
    match old with
    | some (.obj members) => .obj (mergeMembers members new)
    | _ => .obj new
  | .substitution path true _ => .substitution path true old
  | n => n

end

def putPath (members : Entries Node) (leaf : Node) : List String → Entries Node
  | [] =>
    match leaf with
    | .obj new => mergeMembers members new
    | _ => members
  | [k] => members.put k (layered (members.value? k) leaf)
  | k :: rest =>
    let inner := match members.value? k with
      | some (.obj inner) => inner
      | _ => []
    members.put k (.obj (putPath inner leaf rest))

def bareNode (s : String) : Node :=
  if s = "true" then .value (.bool true)
  else if s = "false" then .value (.bool false)
  else if s = "null" then .value .null
  else .value ((number? s.toList).getD (.str s))

def substitutionNode (text : String) : Node :=
  match text.toList with
  | '?' :: path => .substitution (Text.trimmed (String.ofList path)) true none
  | path => .substitution (Text.trimmed (String.ofList path)) false none

def keyPath (s : String) : List String :=
  (Text.pieces (· = '.') s.toList).map fun cs => Text.trimmed (String.ofList cs)

/-! ## Containers -/

/-- An open container; the items of a list backwards. -/
inductive Frame where
  | obj (members : Entries Node) (path : List String)
  | list (items : List Node)

inductive Expect where
  | key
  | assign
  | value
  | separator
  | item
  | itemSeparator
  deriving DecidableEq, Repr

structure Reading where
  stack : List Frame
  expect : Expect

/-- Puts a finished value where it belongs. -/
def Reading.fill (stack : List Frame) (n : Node) : Option Reading :=
  match stack with
  | .obj members path :: outer => some ⟨.obj (putPath members n path) [] :: outer, .separator⟩
  | .list items :: outer => some ⟨.list (n :: items) :: outer, .itemSeparator⟩
  | [] => none

def Reading.step (r : Reading) (t : Token) : Option Reading :=
  match r.expect, t, r.stack with
  | .key, .quoted k, .obj members _ :: outer => some ⟨.obj members [k] :: outer, .assign⟩
  | .key, .bare k, .obj members _ :: outer => some ⟨.obj members (keyPath k) :: outer, .assign⟩
  | .key, .newline, _ => some r
  -- the braces of the root
  | .key, .openObj, [.obj [] []] => some ⟨.obj [] [] :: r.stack, .key⟩
  | .key, .closeObj, .obj members _ :: outer => Reading.fill outer (.obj members)
  | .separator, .closeObj, .obj members _ :: outer => Reading.fill outer (.obj members)
  | .separator, .comma, _ => some { r with expect := .key }
  | .separator, .newline, _ => some { r with expect := .key }
  | .assign, .assign, _ => some { r with expect := .value }
  | .assign, .openObj, stack => some ⟨.obj [] [] :: stack, .key⟩
  | .item, .closeList, .list items :: outer => Reading.fill outer (.list items.reverse)
  | .itemSeparator, .closeList, .list items :: outer => Reading.fill outer (.list items.reverse)
  | .itemSeparator, .comma, _ => some { r with expect := .item }
  | .itemSeparator, .newline, _ => some { r with expect := .item }
  | e, t, stack =>
    if e = .value ∨ e = .item then
      match t with
      | .newline => some r
      | .openObj => some ⟨.obj [] [] :: stack, .key⟩
      | .openList => some ⟨.list [] :: stack, .item⟩
      | .quoted s => Reading.fill stack (.value (.str s))
      | .bare s => Reading.fill stack (bareNode s)
      | .substitution path => Reading.fill stack (substitutionNode path)
      | _ => none
    else none

def document? (cs : List Char) : Option (Entries Node) := do
  let ts ← tokens? cs
  let r ← ts.foldlM Reading.step ⟨[.obj [] []], .key⟩
  match r.expect, r.stack with
  | .key, [.obj members _] => some members
  | .separator, [.obj members _] => some members
  | _, _ => none

end AuthServer.Config.Hocon
