import AuthServer.Error

/-!
# Steps

A step acts on a state and either gives a value or stops with a fault. What
it did to the state stays in both cases. Faults are errors of the protocol
and crashes of callbacks; `guarded` reports a crash as a server error.
-/

namespace AuthServer

inductive Fault where
  | error (e : OAuthError)
  | crash
  deriving DecidableEq, Repr, Inhabited

/-- The error that a fault is reported as. -/
def Fault.report : Fault → OAuthError
  | error e => e
  | crash => OAuthError.crashed

def Step (s α : Type) : Type := s → Except Fault α × s

namespace Step

variable {s t α β : Type}

def run (x : Step s α) (st : s) : Except Fault α × s := x st

instance : Monad (Step s) where
  pure a := fun st => (.ok a, st)
  bind x f := fun st =>
    match x st with
    | (.ok a, st') => f a st'
    | (.error e, st') => (.error e, st')

@[simp] theorem run_pure (a : α) (st : s) : (pure a : Step s α).run st = (.ok a, st) := rfl

theorem run_bind (x : Step s α) (f : α → Step s β) (st : s) :
    (x >>= f).run st =
      match x.run st with
      | (.ok a, st') => (f a).run st'
      | (.error e, st') => (.error e, st') := rfl

theorem run_map (f : α → β) (x : Step s α) (st : s) :
    (f <$> x).run st = ((x.run st).1.map f, (x.run st).2) := by
  show (x >>= fun a => pure (f a)).run st = _
  rw [run_bind]
  rcases x.run st with ⟨_ | _, _⟩ <;> rfl

def fault (e : Fault) : Step s α := fun st => (.error e, st)

def fail (e : OAuthError) : Step s α := fault (.error e)

def crash : Step s α := fault .crash

def ofExcept : Except OAuthError α → Step s α
  | .ok a => pure a
  | .error e => fail e

def get : Step s s := fun st => (.ok st, st)

def gets (f : s → α) : Step s α := fun st => (.ok (f st), st)

def modify (f : s → s) : Step s Unit := fun st => (.ok (), f st)

/-- The outcome of a step, a fault included. -/
def attempt (x : Step s α) : Step s (Except Fault α) := fun st =>
  let (r, st') := x st
  (.ok r, st')

/-- A crash becomes a server error. -/
def guarded (x : Step s α) : Step s α := fun st =>
  match x st with
  | (.error e, st') => (.error (.error e.report), st')
  | r => r

/-- Runs on a part of the state. -/
def within (part : s → t) (put : s → t → s) (x : Step t α) : Step s α := fun st =>
  let (r, st') := x (part st)
  (r, put st st')

/-- Runs `recover` on an error, which then goes on; crashes pass by. -/
def onError (x : Step s α) (recover : OAuthError → Step s Unit) : Step s α := fun st =>
  match x st with
  | (.error (.error e), st') =>
    match recover e st' with
    | (.ok _, st'') => (.error (.error e), st'')
    | (.error e', st'') => (.error e', st'')
  | r => r

@[simp] theorem run_fail (e : OAuthError) (st : s) :
    (fail e : Step s α).run st = (.error (.error e), st) := rfl

@[simp] theorem run_gets (f : s → α) (st : s) : (gets f).run st = (.ok (f st), st) := rfl

@[simp] theorem run_modify (f : s → s) (st : s) : (modify f).run st = (.ok (), f st) := rfl

@[simp] theorem run_attempt (x : Step s α) (st : s) :
    (attempt x).run st = (.ok (x.run st).1, (x.run st).2) := rfl

@[simp] theorem run_within (part : s → t) (put : s → t → s) (x : Step t α) (st : s) :
    (within part put x).run st = ((x.run (part st)).1, put st (x.run (part st)).2) := rfl

theorem run_guarded (x : Step s α) (st : s) :
    (guarded x).run st = ((x.run st).1.mapError fun e => .error e.report, (x.run st).2) := by
  simp only [run, guarded]
  rcases x st with ⟨_ | _, _⟩ <;> rfl

/-- A guarded step never crashes. -/
theorem guarded_ne_crash (x : Step s α) (st : s) : ((guarded x).run st).1 ≠ .error .crash := by
  rw [run_guarded]
  rcases (x.run st).1 with _ | _ <;> exact nofun

@[simp] theorem run_modify_bind (f : s → s) (g : Unit → Step s α) (st : s) :
    (modify f >>= g).run st = (g ()).run (f st) := rfl

@[simp] theorem run_gets_bind (f : s → t) (g : t → Step s α) (st : s) :
    (gets f >>= g).run st = (g (f st)).run st := rfl

/-- A composed step goes on where its first part ends, or stops there. -/
theorem bind_cases {x : Step s α} {f : α → Step s β} {st st' : s} {r : Except Fault β}
    (h : (x >>= f).run st = (r, st')) :
    (∃ a st₁, x.run st = (.ok a, st₁) ∧ (f a).run st₁ = (r, st')) ∨
      ∃ e, x.run st = (.error e, st') ∧ r = .error e := by
  rw [run_bind] at h
  rcases hx : x.run st with ⟨e | a, st₁⟩ <;> rw [hx] at h
  · cases h; exact .inr ⟨e, rfl, rfl⟩
  · exact .inl ⟨a, st₁, rfl, h⟩

theorem map_cases {f : α → β} {x : Step s α} {st st' : s} {r : Except Fault β}
    (h : (f <$> x).run st = (r, st')) : ∃ r₁, x.run st = (r₁, st') ∧ r = r₁.map f := by
  rw [run_map, Prod.mk.injEq] at h
  obtain ⟨rfl, rfl⟩ := h
  exact ⟨_, rfl, rfl⟩

/-- Recovery changes the state of an error, not the error. -/
theorem onError_cases {x : Step s α} {recover : OAuthError → Step s Unit} {st st' : s}
    {r : Except Fault α} (put : OAuthError → s → s)
    (hput : ∀ e st₁, (recover e).run st₁ = (.ok (), put e st₁))
    (h : (x.onError recover).run st = (r, st')) :
    (x.run st = (r, st') ∧ ∀ e, r ≠ .error (.error e)) ∨
      ∃ e st₁, x.run st = (.error (.error e), st₁) ∧ r = .error (.error e) ∧ st' = put e st₁ := by
  simp only [run, onError] at h hput ⊢
  rcases hx : x st with ⟨(e | _) | a, st₁⟩ <;> rw [hx] at h <;> simp only at h
  · rw [hput e st₁] at h
    cases h
    exact .inr ⟨e, st₁, rfl, rfl, rfl⟩
  · cases h; exact .inl ⟨rfl, nofun⟩
  · cases h; exact .inl ⟨rfl, nofun⟩

instance : LawfulMonad (Step s) :=
  LawfulMonad.mk' _
    (fun x => by
      funext st
      show (match x st with | (.ok a, st') => (.ok a, st') | (.error e, st') => (.error e, st')) = x st
      rcases x st with ⟨_ | _, _⟩ <;> rfl)
    (fun _ _ => rfl)
    (fun x f g => by
      funext st
      simp only [bind]
      rcases x st with ⟨_ | _, _⟩ <;> rfl)

end Step

end AuthServer
