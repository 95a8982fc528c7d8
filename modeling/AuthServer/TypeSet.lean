import AuthServer.Json.Writer
import AuthServer.Text.Blank

/-!
# Type sets

A response type such as `code id_token` is a list of tokens compared without
regard to order. The order is kept for display.
-/

namespace AuthServer

structure TypeSet where
  tokens : List String
  deriving DecidableEq, Repr, Inhabited

namespace TypeSet

/-- The words of a text. -/
def parse (s : String) : TypeSet := ⟨Text.words s⟩

def isEmpty (t : TypeSet) : Bool := t.tokens.isEmpty

def contains (t : TypeSet) (token : String) : Bool := t.tokens.any (· = token)

def containsAny (t : TypeSet) (tokens : List String) : Bool := tokens.any t.contains

/-- Equally many tokens, and each one in the other set. -/
def equalTo (a b : TypeSet) : Bool :=
  a.tokens.length = b.tokens.length && b.tokens.all a.contains && a.tokens.all b.contains

def display (t : TypeSet) : String := Json.joined " " t.tokens

end TypeSet

end AuthServer
