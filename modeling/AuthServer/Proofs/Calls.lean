import AuthServer.Proofs.Traffic

/-!
# Calls in a row

Calls on the pairs of a traffic, one after another. What held before them and
does not hold after them was lost in one of them.
-/

namespace AuthServer

variable {σ : Type}

/-- A call whose renderer, if it has one, keeps `P` by all of its modes. -/
def Call.Keeps (P : Response σ → Prop) : Call σ → Prop
  | renderError renderer _ => ∀ m ∈ renderer.modes, ∀ t p,
    (m.2.render t p).Keeps fun reply => P reply.response
  | _ => True

namespace Traffic

variable {s : Server σ} {T : Traffic σ}

theorem visit_call_self (i : Nat) (c : Call σ) :
    (T.call s i c).2.visit i = ((c.run s).run (T.visit i)).2 :=
  visit_put T i _

/-- A call on another pair changes the world alone. -/
theorem visit_call_ne {i j : Nat} (h : j ≠ i) (c : Call σ) :
    (T.call s i c).2.visit j = { T.visit j with world := ((c.run s).run (T.visit i)).2.world } :=
  visit_put_ne T h _

/-- What holds of every visit after a call: of the visit of the call, and of any other one in the
world that the call left. -/
theorem forall_visit_call {P : Nat → Visit σ → Prop} {i : Nat} {c : Call σ}
    (hself : P i ((c.run s).run (T.visit i)).2)
    (hother : ∀ j, j ≠ i → P j { T.visit j with world := ((c.run s).run (T.visit i)).2.world })
    (j : Nat) : P j ((T.call s i c).2.visit j) := by
  by_cases hj : j = i
  · rw [hj, visit_call_self]
    exact hself
  · rw [visit_call_ne hj]
    exact hother j hj

/-- The traffic after the calls. -/
def after (T : Traffic σ) (s : Server σ) : List (Nat × Call σ) → Traffic σ
  | [] => T
  | (i, c) :: rest => after (T.call s i c).2 s rest

theorem after_append (before rest : List (Nat × Call σ)) :
    T.after s (before ++ rest) = (T.after s before).after s rest := by
  induction before generalizing T with
  | nil => rfl
  | cons call before ih => exact ih

theorem after_concat (before : List (Nat × Call σ)) (i : Nat) (c : Call σ) :
    T.after s (before ++ [(i, c)]) = ((T.after s before).call s i c).2 :=
  after_append before [(i, c)]

/-- The call in which `P` is lost. -/
theorem lost_in_call {P : Traffic σ → Prop} {calls : List (Nat × Call σ)} (h : P T)
    (hlost : ¬ P (T.after s calls)) :
    ∃ before i c rest, calls = before ++ (i, c) :: rest ∧
      P (T.after s before) ∧ ¬ P ((T.after s before).call s i c).2 := by
  induction calls generalizing T with
  | nil => exact absurd h hlost
  | cons call calls ih =>
    obtain ⟨i, c⟩ := call
    by_cases hnext : P (T.call s i c).2
    · obtain ⟨before, j, c', rest, rfl, hbefore, hafter⟩ := ih hnext hlost
      exact ⟨(i, c) :: before, j, c', rest, rfl, hbefore, hafter⟩
    · exact ⟨[], i, c, calls, rfl, h, hnext⟩

end Traffic

end AuthServer
