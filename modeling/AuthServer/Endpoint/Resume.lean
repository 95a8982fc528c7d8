import AuthServer.Endpoint.Authorization

/-!
# Resuming a stored transaction

Asks for an immediate decision again. On allow the transaction is answered
and its removal armed; otherwise it is stored again with the new info.
-/

namespace AuthServer.Server

variable {σ : Type}

/-- Records the fields of an allowing verdict and answers; the stored copy goes with the answer. -/
def grantStored (s : Server σ) (t : Transaction) (fields : Params) (completion : Completion σ) :
    Step (Visit σ) Outcome := do
  let t ← Step.ofExcept (t.decide (.withFields true fields))
  setTransaction t
  s.count (·.countDecision true)
  s.armRemoval
  s.respond completion
  pure .responded

/-- Stores under the id that the transaction has, or under a new one. -/
def putBack (s : Server σ) (t : Transaction) : Step (Visit σ) String :=
  match t.id with
  | some id => s.storeAgain id t
  | none => s.storeNew t

/-- Stores again what is stored already. -/
def suspendAgain (s : Server σ) (t : Transaction) : Step (Visit σ) Outcome := do
  setTransaction t
  let id ← s.putBack t
  setTransaction (t.persisted id)
  pure (.pending id)

def runResume (s : Server σ) (immediate : Immediate σ) (completion : Completion σ) :
    Step (Visit σ) Outcome := do
  let t ← Step.gets (s.renewed (← theTransaction))
  setTransaction t
  s.count (·.countResumed)
  let verdict ← Step.asHost (immediate t).guarded
  let t := t.mergeLocals verdict.locals
  setTransaction t
  if verdict.allow then s.grantStored t (verdict.info.getD []) completion
  else s.suspendAgain (t.withInfo verdict.info)

def resume (s : Server σ) (immediate : Immediate σ) (completion : Completion σ) :
    Step (Visit σ) Outcome :=
  s.counted (s.runResume immediate completion)

end AuthServer.Server
