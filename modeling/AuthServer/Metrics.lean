import AuthServer.Error
import AuthServer.Json.Writer

/-!
# Counters

What a server counts, and the text exposition of the counts: families by
name, samples by label, families with a label only where a sample exists.
-/

namespace AuthServer

abbrev Counts := Entries Nat

def Counts.count (c : Counts) (label : String) : Nat := (c.value? label).getD 0

def Counts.increment (c : Counts) (label : String) : Counts := c.put label (Counts.count c label + 1)

structure Metrics where
  started : Nat
  resumed : Nat
  decisions : Counts
  exchanges : Counts
  errors : Counts
  deriving DecidableEq, Repr, Inhabited

namespace Metrics

def zero : Metrics := ⟨0, 0, [], [], []⟩

def countStarted (m : Metrics) : Metrics := { m with started := m.started + 1 }

def countResumed (m : Metrics) : Metrics := { m with resumed := m.resumed + 1 }

def outcome (allow : Bool) : String := if allow then "allow" else "deny"

def countDecision (m : Metrics) (allow : Bool) : Metrics :=
  { m with decisions := Counts.increment m.decisions (outcome allow) }

def countExchange (m : Metrics) (grantType : String) : Metrics :=
  { m with exchanges := Counts.increment m.exchanges grantType }

def countError (m : Metrics) (kind : ErrorKind) : Metrics :=
  { m with errors := Counts.increment m.errors kind.name }

/-! ## Text exposition -/

def escapeLabel (label : String) : String :=
  String.ofList (label.toList.flatMap fun c =>
    if c = '\\' then ['\\', '\\']
    else if c = '"' then ['\\', '"']
    else if c = '\n' then ['\\', 'n']
    else [c])

structure Family where
  name : String
  help : String
  samples : List (String × Nat)

def plain (name help : String) (n : Nat) : Family := ⟨name, help, [(name, n)]⟩

def byLabel (name help label : String) (counts : Counts) : Family :=
  let sorted := counts.mergeSort fun a b => a.1 ≤ b.1
  ⟨name, help, sorted.map fun (value, n) =>
    (name ++ "\x7b" ++ label ++ "=\"" ++ escapeLabel value ++ "\"\x7d", n)⟩

def families (m : Metrics) : List Family :=
  [byLabel "oauth2_decisions_total" "Authorization decisions by outcome" "outcome" m.decisions,
   byLabel "oauth2_errors_total" "Errors surfaced by kind" "kind" m.errors,
   byLabel "oauth2_exchanges_total" "Token exchanges by grant type" "grant_type" m.exchanges,
   plain "oauth2_transactions_resumed_total" "Persisted transactions resumed" m.resumed,
   plain "oauth2_transactions_started_total"
     "Authorization transactions persisted to await a decision" m.started]

def Family.text (f : Family) : String :=
  "# HELP " ++ f.name ++ " " ++ f.help ++ "\n# TYPE " ++ f.name ++ " counter\n" ++
    String.join (f.samples.map fun (sample, n) => sample ++ " " ++ toString n ++ "\n")

def exposition (m : Metrics) : String :=
  String.join ((m.families.filter fun f => !f.samples.isEmpty).map Family.text)

end Metrics

end AuthServer
