/-!
# Text inside a page

The five characters with a meaning in markup, written as entities.
-/

namespace AuthServer.Text.Html

def entity? (c : Char) : Option String :=
  if c = '&' then some "&amp;"
  else if c = '<' then some "&lt;"
  else if c = '>' then some "&gt;"
  else if c = '"' then some "&quot;"
  else if c = '\'' then some "&#39;"
  else none

def escapeChar (c : Char) : List Char :=
  match entity? c with
  | some e => e.toList
  | none => [c]

def escapeChars (cs : List Char) : List Char := cs.flatMap escapeChar

def escape (s : String) : String := String.ofList (escapeChars s.toList)

end AuthServer.Text.Html
