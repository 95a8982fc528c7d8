import AuthServer.Http.Request
import AuthServer.Metrics
import AuthServer.Step

/-!
# The world of a server

What outlives a request: the transactions kept in memory, the supply of ids,
the counters, and the state of the host, which only its callbacks touch. One
world may hold the memories of several servers, told apart by number.
-/

namespace AuthServer

/-- A stream of random bytes and how many of them are used up. -/
structure Supply where
  byte : Nat → UInt8
  used : Nat

namespace Supply

def hexByte (b : UInt8) : List Char := [Json.lowerHex (b.toNat / 16), Json.lowerHex (b.toNat % 16)]

/-- The next `n` bytes, two hexadecimal digits each. -/
def peek (s : Supply) (n : Nat) : String :=
  String.ofList ((List.range n).flatMap fun i => hexByte (s.byte (s.used + i)))

def skip (s : Supply) (n : Nat) : Supply := { s with used := s.used + n }

/-- The bytes of a token, and of an id in memory. -/
def tokenLength : Nat := 16

def draw (n : Nat) : Step Supply String := fun s => (.ok (s.peek n), s.skip n)

@[simp] theorem run_draw (n : Nat) (s : Supply) : (draw n).run s = (.ok (s.peek n), s.skip n) := rfl

end Supply

abbrev Memory := Entries Transaction

structure World (σ : Type) where
  memories : Nat → Memory
  ids : Supply
  metrics : Metrics
  host : σ

namespace World

variable {σ : Type}

def setMemory (w : World σ) (number : Nat) (m : Memory) : World σ :=
  { w with memories := fun n => if n = number then m else w.memories n }

@[simp] theorem memories_setMemory (w : World σ) (number : Nat) (m : Memory) :
    (w.setMemory number m).memories number = m := by
  simp [setMemory]

theorem memories_setMemory_ne (w : World σ) {number n : Nat} (m : Memory) (h : n ≠ number) :
    (w.setMemory number m).memories n = w.memories n := by
  simp [setMemory, h]

end World

/-- What a store works on: the request, for its session, and the world. -/
structure Access (σ : Type) where
  request : Request
  world : World σ

namespace Access

variable {σ : Type}

def withIds (a : Access σ) (ids : Supply) : Access σ := { a with world := { a.world with ids } }

def withHost (a : Access σ) (host : σ) : Access σ := { a with world := { a.world with host } }

end Access

namespace Step

variable {σ α : Type}

def onSupply (x : Step Supply α) : Step (Access σ) α := within (·.world.ids) Access.withIds x

/-- Runs a callback of the host. -/
def onHost (x : Step σ α) : Step (Access σ) α := within (·.world.host) Access.withHost x

@[simp] theorem run_onSupply (x : Step Supply α) (a : Access σ) :
    (onSupply x).run a = ((x.run a.world.ids).1, a.withIds (x.run a.world.ids).2) := rfl

@[simp] theorem run_onHost (x : Step σ α) (a : Access σ) :
    (onHost x).run a = ((x.run a.world.host).1, a.withHost (x.run a.world.host).2) := rfl

end Step

end AuthServer
