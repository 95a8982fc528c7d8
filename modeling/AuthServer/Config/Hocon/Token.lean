import AuthServer.Json.Token
import AuthServer.Text.Blank

/-!
# Tokens of HOCON text

Punctuation, quoted and bare text, and `${NAME}` for a value defined
elsewhere. Line ends count as tokens, comments and other blanks do not. Quoted
text has the escapes of JSON; bare text runs up to the next punctuation.
-/

namespace AuthServer.Config.Hocon

inductive Token where
  | openObj
  | closeObj
  | openList
  | closeList
  | comma
  | newline
  | assign
  | quoted (s : String)
  | bare (s : String)
  | substitution (path : String)
  deriving DecidableEq, Repr

/-- What the lexer is inside of; texts are kept backwards. -/
inductive Lexing where
  | between
  | bare (text : List Char)
  | quoted (inner : Json.Lexing)
  | comment
  | dollar
  | substitution (text : List Char)

def punctuation? (c : Char) : Option Token :=
  if c = '\x7b' then some .openObj
  else if c = '\x7d' then some .closeObj
  else if c = '[' then some .openList
  else if c = ']' then some .closeList
  else if c = ',' then some .comma
  else if c = '\n' then some .newline
  else if c = '=' ∨ c = ':' then some .assign
  else none

/-- The token of bare text, trimmed. -/
def bareToken (text : List Char) : List Token :=
  let s := Text.trimmed (String.ofList text.reverse)
  if s = "" then [] else [.bare s]

/-- A character outside quotes, comments and bare text. -/
def betweenStep (c : Char) : Lexing × List Token :=
  match punctuation? c with
  | some t => (.between, [t])
  | none =>
    if c = '"' then (.quoted (.string []), [])
    else if c = '#' then (.comment, [])
    else if c = '$' then (.dollar, [])
    else if Text.isBlank c then (.between, [])
    else (.bare [c], [])

def Lexing.step : Lexing → Char → Option (Lexing × List Token)
  | .between, c => some (betweenStep c)
  | .bare text, c =>
    if c = '/' ∧ text.head? = some '/' then some (.comment, bareToken text.tail)
    else if (punctuation? c).isSome || c = '"' || c = '#' || c = '$' then
      let (s, ts) := betweenStep c
      some (s, bareToken text ++ ts)
    else some (.bare (c :: text), [])
  | .quoted inner, c =>
    match inner.step c with
    | none => none
    | some (_, [.scalar (.str s)]) => some (.between, [.quoted s])
    | some (inner, _) => some (.quoted inner, [])
  | .comment, c => if c = '\n' then some (.between, [.newline]) else some (.comment, [])
  | .dollar, c => if c = '\x7b' then some (.substitution [], []) else none
  | .substitution text, c =>
    if c = '\x7d' then some (.between, [.substitution (String.ofList text.reverse)])
    else some (.substitution (c :: text), [])

def tokens? (cs : List Char) : Option (List Token) := do
  let (s, ts) ← (cs ++ ['\n']).foldlM
    (fun (s, ts) c => do
      let (s, more) ← s.step c
      return (s, ts ++ more))
    (Lexing.between, [])
  match s with
  | .between => some ts
  | _ => none

end AuthServer.Config.Hocon
