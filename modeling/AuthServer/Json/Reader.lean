import AuthServer.Json.Token

/-!
# Reading JSON text

One pass over the characters: the lexer cuts them into tokens, a stack of open
containers takes the tokens up. Containers nest at most 127 deep. Of members
with one name the last value counts, at the place of the first.
-/

namespace AuthServer.Json

/-! ## Containers -/

/-- An open container; the members of an object in order, the items of an array backwards. -/
inductive Frame where
  | arr (items : List Value)
  | obj (members : Params) (key : String)

/-- What may come next. -/
inductive Expect where
  | value
  | valueOrClose
  | key
  | keyOrClose
  | colon
  | commaOrClose
  | nothing
  deriving DecidableEq, Repr

structure Reading where
  stack : List Frame
  expect : Expect
  result : Value

def Reading.start : Reading := ⟨[], .value, .null⟩

def depthLimit : Nat := 127

/-- Puts a finished value where it belongs. -/
def Reading.fill (r : Reading) (v : Value) : Reading :=
  match r.stack with
  | [] => ⟨[], .nothing, v⟩
  | .arr items :: outer => ⟨.arr (v :: items) :: outer, .commaOrClose, .null⟩
  | .obj members key :: outer => ⟨.obj (members.put key v) key :: outer, .commaOrClose, .null⟩

def Reading.enter (r : Reading) (f : Frame) (e : Expect) : Option Reading :=
  if r.stack.length < depthLimit then some ⟨f :: r.stack, e, .null⟩ else none

def wantsValue (e : Expect) : Bool := e = .value || e = .valueOrClose

def Reading.step (r : Reading) (t : Token) : Option Reading :=
  match t, r.stack with
  | .scalar v, stack =>
    if wantsValue r.expect then some (r.fill v)
    else if r.expect = .key ∨ r.expect = .keyOrClose then
      match v, stack with
      | .str key, .obj members _ :: outer => some ⟨.obj members key :: outer, .colon, .null⟩
      | _, _ => none
    else none
  | .openArr, _ => if wantsValue r.expect then r.enter (.arr []) .valueOrClose else none
  | .openObj, _ => if wantsValue r.expect then r.enter (.obj [] "") .keyOrClose else none
  | .closeArr, .arr items :: outer =>
    if r.expect = .valueOrClose ∨ r.expect = .commaOrClose then
      some (Reading.fill ⟨outer, .value, .null⟩ (.arr items.reverse))
    else none
  | .closeObj, .obj members _ :: outer =>
    if r.expect = .keyOrClose ∨ r.expect = .commaOrClose then
      some (Reading.fill ⟨outer, .value, .null⟩ (.obj members))
    else none
  | .colon, _ => if r.expect = .colon then some { r with expect := .value } else none
  | .comma, .arr _ :: _ => if r.expect = .commaOrClose then some { r with expect := .value } else none
  | .comma, .obj _ _ :: _ => if r.expect = .commaOrClose then some { r with expect := .key } else none
  | _, _ => none

/-- One character: lexer first, then the containers. -/
def readChar (state : Lexing × Reading) (c : Char) : Option (Lexing × Reading) := do
  let (s, ts) ← state.1.step c
  let r ← ts.foldlM Reading.step state.2
  return (s, r)

def readChars? (cs : List Char) : Option Value := do
  -- a final space ends a bare word
  let (s, r) ← (cs ++ [' ']).foldlM readChar (.between, .start)
  match s, r.expect with
  | .between, .nothing => some r.result
  | _, _ => none

def Value.ofText? (text : String) : Option Value := readChars? text.toList

end AuthServer.Json
