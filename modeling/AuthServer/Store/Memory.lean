import AuthServer.Store.Basic

/-!
# Transactions in memory

Kept as they are under an id of 32 digits. An entry whose lifetime is over is
stale: it cannot be loaded, and the next write drops it.
-/

namespace AuthServer.Store

variable {σ : Type}

/-- Tells what is stale. Only the host has a clock. -/
structure Expiry (σ : Type) where
  stale : σ → String → Bool

/-- With no seconds at all an entry is stale as soon as it is written. Any more outlast the run. -/
def Expiry.ofSeconds (seconds : Nat) : Expiry σ := ⟨fun _ _ => seconds == 0⟩

/-- An entry is kept for good, or until it is stale. -/
abbrev Lifetime (σ : Type) := Option (Expiry σ)

instance : Coe (Option Nat) (Lifetime σ) := ⟨Option.map Expiry.ofSeconds⟩

/-- What a store finds: the entries that are not stale. -/
def kept (lifetime : Lifetime σ) (host : σ) (m : Memory) : Memory :=
  match lifetime with
  | none => m
  | some expiry => m.filter fun e => !expiry.stale host e.1

def putMemory (number : Nat) (lifetime : Lifetime σ) (id : String) (t : Transaction) :
    Step (Access σ) Unit :=
  .modify fun a =>
    let m := kept lifetime a.world.host (a.world.memories number)
    { a with world := a.world.setMemory number (m.put id t) }

def memoryKeyed (number : Nat) (lifetime : Lifetime σ) : Keyed σ where
  load id := Step.gets fun a => (kept lifetime a.world.host (a.world.memories number)).value? id
  store t := do
    let id ← Step.onSupply (Supply.draw Supply.tokenLength)
    putMemory number lifetime id t
    pure id
  update id t := do
    putMemory number lifetime id t
    pure id
  remove id := .modify fun a =>
    { a with world := a.world.setMemory number ((a.world.memories number).remove id) }

def memory (number : Nat) (lifetime : Lifetime σ) : Store σ := keyed (memoryKeyed number lifetime)

end AuthServer.Store
