import AuthServer.Dispatch

/-!
# Handlers in turn

Handlers are tried one after the other, each on the state that the one before
it left. Most pipelines stop at the first answer that is decisive: what comes
after it is never tried.
-/

namespace AuthServer

variable {η s α β : Type}

/-- A handler that was tried, and what it answered or failed with. -/
structure Trial (η α : Type) where
  handler : η
  answer : Except Fault α

/-- From one state to another by these trials and nothing else. -/
inductive InTurn (run : η → Step s α) : s → List (Trial η α) → s → Prop where
  | nil (st : s) : InTurn run st [] st
  | cons {h : η} {answer : Except Fault α} {st st₁ st' : s} {rest : List (Trial η α)} :
    (run h).run st = (answer, st₁) → InTurn run st₁ rest st' →
    InTurn run st (⟨h, answer⟩ :: rest) st'

theorem InTurn.single {run : η → Step s α} {h : η} {answer : Except Fault α} {st st' : s}
    (hrun : (run h).run st = (answer, st')) : InTurn run st [⟨h, answer⟩] st' :=
  .cons hrun (.nil st')

/-- One more at the end. -/
theorem InTurn.concat_iff {run : η → Step s α} {trials : List (Trial η α)} {h : η}
    {answer : Except Fault α} {st st' : s} :
    InTurn run st (trials ++ [⟨h, answer⟩]) st' ↔
      ∃ st₁, InTurn run st trials st₁ ∧ (run h).run st₁ = (answer, st') := by
  constructor
  · intro hturn
    induction trials generalizing st with
    | nil =>
      cases hturn with
      | cons hrun hnil =>
        cases hnil
        exact ⟨st, .nil st, hrun⟩
    | cons x rest ih =>
      cases hturn with
      | cons hfirst hturn =>
        obtain ⟨st₁, hrest, hrun⟩ := ih hturn
        exact ⟨st₁, .cons hfirst hrest, hrun⟩
  · rintro ⟨st₁, hturn, hrun⟩
    induction hturn with
    | nil => exact .single hrun
    | cons hfirst _ ih => exact .cons hfirst (ih hrun)

/-- What a trial tells of was run. -/
theorem InTurn.run_of_mem {run : η → Step s α} {trials : List (Trial η α)} {t : Trial η α} {st st' : s}
    (hturn : InTurn run st trials st') (ht : t ∈ trials) : ∃ st₁, ((run t.handler).run st₁).1 = t.answer := by
  induction hturn with
  | nil => cases ht
  | @cons h answer st _ _ rest hrun _ ih =>
    rcases List.mem_cons.1 ht with rfl | ht
    · exact ⟨st, congrArg Prod.fst hrun⟩
    · exact ih ht

/-- The first handler whose answer has a verdict decides; without one it is `otherwise`. -/
inductive FirstDecisive (run : η → Step s α) (verdict : Except Fault α → Option β) (otherwise : β)
    (handlers : List η) (st : s) : β → s → Prop where
  | decided {earlier : List (Trial η α)} {h : η} {later : List η} {answer : Except Fault α} {b : β}
    {st' : s} :
    InTurn run st (earlier ++ [⟨h, answer⟩]) st' →
    handlers = earlier.map Trial.handler ++ h :: later →
    (∀ t ∈ earlier, verdict t.answer = none) → verdict answer = some b →
    FirstDecisive run verdict otherwise handlers st b st'
  | undecided {trials : List (Trial η α)} {st' : s} :
    InTurn run st trials st' → handlers = trials.map Trial.handler →
    (∀ t ∈ trials, verdict t.answer = none) →
    FirstDecisive run verdict otherwise handlers st otherwise st'

namespace FirstDecisive

variable {run : η → Step s α} {verdict : Except Fault α → Option β} {otherwise b b' : β} {h : η}
  {rest handlers : List η} {answer : Except Fault α} {st st₁ st' st'' : s}

theorem nil (st : s) : FirstDecisive run verdict otherwise [] st otherwise st :=
  .undecided (.nil st) rfl fun _ => nofun

theorem here (hrun : (run h).run st = (answer, st')) (hb : verdict answer = some b) :
    FirstDecisive run verdict otherwise (h :: rest) st b st' := by
  have hturn : InTurn run st ([] ++ [⟨h, answer⟩]) st' := .single hrun
  exact .decided hturn rfl (fun _ => nofun) hb

theorem later (hrun : (run h).run st = (answer, st₁)) (hnone : verdict answer = none)
    (hrest : FirstDecisive run verdict otherwise rest st₁ b st') :
    FirstDecisive run verdict otherwise (h :: rest) st b st' := by
  have hall : ∀ trials : List (Trial η α), (∀ t ∈ trials, verdict t.answer = none) →
      ∀ t ∈ ⟨h, answer⟩ :: trials, verdict t.answer = none :=
    fun _ htrials => List.forall_mem_cons.2 ⟨hnone, htrials⟩
  cases hrest with
  | @decided earlier h₁ _ answer₁ _ _ hturn hrest hearlier hb =>
    have hturn : InTurn run st ((⟨h, answer⟩ :: earlier) ++ [⟨h₁, answer₁⟩]) st' := .cons hrun hturn
    exact .decided hturn (by rw [hrest]; rfl) (hall _ hearlier) hb
  | undecided hturn hrest htrials =>
    exact .undecided (.cons hrun hturn) (by rw [hrest]; rfl) (hall _ htrials)

/-- The first handler is always tried. -/
theorem cons_cases (hfirst : FirstDecisive run verdict otherwise (h :: rest) st b st') :
    ∃ answer st₁, (run h).run st = (answer, st₁) ∧
      ((verdict answer = some b ∧ st' = st₁) ∨
        verdict answer = none ∧ FirstDecisive run verdict otherwise rest st₁ b st') := by
  cases hfirst with
  | @decided earlier _ _ _ _ _ hturn hhandlers hearlier hb =>
    rcases earlier with _ | ⟨⟨h₁, answer₁⟩, earlier⟩
    · obtain ⟨rfl, -⟩ := List.cons.inj hhandlers
      cases hturn with
      | cons hrun hnil =>
        cases hnil
        exact ⟨_, _, hrun, .inl ⟨hb, rfl⟩⟩
    · obtain ⟨rfl, hrest⟩ := List.cons.inj hhandlers
      obtain ⟨hfirst, hearlier⟩ := List.forall_mem_cons.1 hearlier
      cases hturn with
      | cons hrun hturn => exact ⟨_, _, hrun, .inr ⟨hfirst, .decided hturn hrest hearlier hb⟩⟩
  | @undecided trials _ hturn hhandlers htrials =>
    rcases trials with _ | ⟨⟨h₁, answer₁⟩, trials⟩
    · cases hhandlers
    · obtain ⟨rfl, hrest⟩ := List.cons.inj hhandlers
      obtain ⟨hfirst, htrials⟩ := List.forall_mem_cons.1 htrials
      cases hturn with
      | cons hrun hturn => exact ⟨_, _, hrun, .inr ⟨hfirst, .undecided hturn hrest htrials⟩⟩

theorem nil_cases (hfirst : FirstDecisive run verdict otherwise [] st b st') :
    b = otherwise ∧ st' = st := by
  cases hfirst with
  | @decided earlier _ _ _ _ _ _ hhandlers =>
    cases earlier <;> cases hhandlers
  | @undecided trials _ hturn hhandlers =>
    cases trials with
    | nil =>
      cases hturn
      exact ⟨rfl, rfl⟩
    | cons => cases hhandlers

/-- Handlers, state and verdicts leave no choice. -/
theorem unique (h₁ : FirstDecisive run verdict otherwise handlers st b st')
    (h₂ : FirstDecisive run verdict otherwise handlers st b' st'') : b = b' ∧ st' = st'' := by
  induction handlers generalizing st with
  | nil =>
    obtain ⟨rfl, rfl⟩ := h₁.nil_cases
    obtain ⟨rfl, rfl⟩ := h₂.nil_cases
    exact ⟨rfl, rfl⟩
  | cons h rest ih =>
    obtain ⟨answer, st₁, hrun, hend₁⟩ := h₁.cons_cases
    obtain ⟨_, _, hrun₂, hend₂⟩ := h₂.cons_cases
    rw [hrun] at hrun₂
    cases hrun₂
    rcases hend₁ with ⟨hb, rfl⟩ | ⟨hnone, hrest⟩ <;> rcases hend₂ with ⟨hb', rfl⟩ | ⟨hnone', hrest'⟩
    · rw [hb] at hb'
      cases hb'
      exact ⟨rfl, rfl⟩
    · rw [hb] at hnone'
      cases hnone'
    · rw [hnone] at hb'
      cases hb'
    · exact ih hrest hrest'

/-- Where no verdict is `otherwise`, that comes of a row of answers without a verdict alone. -/
theorem eq_otherwise_iff (hfirst : FirstDecisive run verdict otherwise handlers st b st')
    (hother : ∀ answer, verdict answer ≠ some otherwise) :
    b = otherwise ↔ ∃ trials, InTurn run st trials st' ∧
      handlers = trials.map Trial.handler ∧ ∀ t ∈ trials, verdict t.answer = none := by
  constructor
  · rintro rfl
    cases hfirst with
    | decided _ _ _ hb => exact absurd hb (hother _)
    | undecided hturn hhandlers htrials => exact ⟨_, hturn, hhandlers, htrials⟩
  · rintro ⟨trials, hturn, hhandlers, htrials⟩
    exact (hfirst.unique (.undecided hturn hhandlers htrials)).1

end FirstDecisive

/-! ## Pipelines of responders and exchanges -/

/-- Done and failing are decisive; a crash counts as a server error. -/
def Flow.verdict : Except Fault Flow → Option (Except Fault Flow)
  | .ok .next => none
  | .ok .done => some (.ok .done)
  | .error f => some (.error (.error f.report))

theorem Flow.verdict_eq_none_iff {answer : Except Fault Flow} :
    verdict answer = none ↔ answer = .ok .next := by
  rcases answer with _ | _ | _ <;> simp [verdict]

theorem Flow.verdict_ne_next (answer : Except Fault Flow) : verdict answer ≠ some (.ok .next) := by
  rcases answer with _ | _ | _ <;> simp [verdict]

theorem Dispatcher.firstDone_firstDecisive (run : η → Step s Flow) (handlers : List η) (st : s) :
    FirstDecisive run Flow.verdict (.ok .next) handlers st ((firstDone (handlers.map run)).run st).1
      ((firstDone (handlers.map run)).run st).2 := by
  induction handlers generalizing st with
  | nil => exact .nil st
  | cons h rest ih =>
    rw [List.map_cons, firstDone, Step.run_bind, Step.run_guarded]
    rcases hrun : (run h).run st with ⟨f | _ | _, st₁⟩
    · exact .here hrun rfl
    · exact .here hrun rfl
    · exact .later hrun rfl (ih st₁)

end AuthServer
