import AuthServer.Json.Number

/-!
# Tokens of JSON text

A lexer that takes one character at a time. A bare word or number ends before
the first blank, quote or punctuation. A `\u` escape of a high surrogate needs
its low half behind it.
-/

namespace AuthServer.Json

inductive Token where
  | openObj
  | closeObj
  | openArr
  | closeArr
  | colon
  | comma
  | scalar (v : Value)

/-- What the lexer is inside of; texts are kept backwards. -/
inductive Lexing where
  | between
  | bare (text : List Char)
  | string (text : List Char)
  | escape (text : List Char)
  /-- Inside a `\u` escape, after a high surrogate if `high` holds one. -/
  | unicode (text : List Char) (high : Option Nat) (left : Nat) (code : Nat)
  /-- After a high surrogate: a backslash has to follow, then a `u`. -/
  | surrogate (text : List Char) (high : Nat) (backslash : Bool)

def isSpace (c : Char) : Bool := c = ' ' || c = '\t' || c = '\n' || c = '\r'

def bareValue? (cs : List Char) : Option Value :=
  if cs = "true".toList then some (.bool true)
  else if cs = "false".toList then some (.bool false)
  else if cs = "null".toList then some .null
  else number? cs

def hexValue? (c : Char) : Option Nat :=
  if '0' ≤ c ∧ c ≤ '9' then some (c.toNat - 0x30)
  else if 'a' ≤ c ∧ c ≤ 'f' then some (c.toNat - 0x57)
  else if 'A' ≤ c ∧ c ≤ 'F' then some (c.toNat - 0x37)
  else none

def unescape? (c : Char) : Option Char :=
  if c = '"' ∨ c = '\\' ∨ c = '/' then some c
  else if c = 'b' then some '\x08'
  else if c = 'f' then some '\x0c'
  else if c = 'n' then some '\n'
  else if c = 'r' then some '\r'
  else if c = 't' then some '\t'
  else none

def punctuation? (c : Char) : Option Token :=
  if c = '\x7b' then some .openObj
  else if c = '\x7d' then some .closeObj
  else if c = '[' then some .openArr
  else if c = ']' then some .closeArr
  else if c = ':' then some .colon
  else if c = ',' then some .comma
  else none

/-- The state after the four digits of an escape. -/
def afterCode (text : List Char) (high : Option Nat) (code : Nat) : Option Lexing :=
  match high with
  | some h =>
    if 0xDC00 ≤ code ∧ code ≤ 0xDFFF then
      some (.string (Char.ofNat (0x10000 + (h - 0xD800) * 0x400 + (code - 0xDC00)) :: text))
    else none
  | none =>
    if 0xD800 ≤ code ∧ code ≤ 0xDBFF then some (.surrogate text code false)
    else if 0xDC00 ≤ code ∧ code ≤ 0xDFFF then none
    else some (.string (Char.ofNat code :: text))

/-- A character outside strings and bare words. -/
def betweenStep (c : Char) : Option (Lexing × List Token) :=
  if isSpace c then some (.between, [])
  else if c = '"' then some (.string [], [])
  else
    match punctuation? c with
    | some t => some (.between, [t])
    | none => some (.bare [c], [])

def Lexing.step (s : Lexing) (c : Char) : Option (Lexing × List Token) :=
  match s with
  | .between => betweenStep c
  | .bare text =>
    if isSpace c || c = '"' || (punctuation? c).isSome then do
      let v ← bareValue? text.reverse
      let (s, ts) ← betweenStep c
      return (s, .scalar v :: ts)
    else some (.bare (c :: text), [])
  | .string text =>
    if c = '"' then some (.between, [.scalar (.str (String.ofList text.reverse))])
    else if c = '\\' then some (.escape text, [])
    else if c.toNat < 0x20 then none
    else some (.string (c :: text), [])
  | .escape text =>
    if c = 'u' then some (.unicode text none 4 0, [])
    else (unescape? c).map fun d => (.string (d :: text), [])
  | .unicode text high left code => do
    let d ← hexValue? c
    if left ≤ 1 then
      let s ← afterCode text high (16 * code + d)
      return (s, [])
    else return (.unicode text high (left - 1) (16 * code + d), [])
  | .surrogate text high backslash =>
    if backslash then if c = 'u' then some (.unicode text (some high) 4 0, []) else none
    else if c = '\\' then some (.surrogate text high true, []) else none

end AuthServer.Json
