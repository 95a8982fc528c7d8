import AuthServer.Proofs.Endpoint.Finish
import AuthServer.Proofs.Pipelines
import AuthServer.Store.Session

/-!
# Finish hooks run once

Whatever is done to a response, its hooks run in the first finish after a
write: all that are installed by then, in order, also after one that failed.
The first error is the result. Any other finish does nothing.
-/

namespace AuthServer

open Json

variable {σ : Type}

/-- What can be done to a response. Any request and world may be at hand when it is finished. -/
inductive ResponseCall (σ : Type) where
  | setStatus (status : Nat)
  | setHeader (name value : String)
  | redirect (location : String)
  | sendJson (status : Nat) (body : Value)
  | sendText (status : Nat) (body : String)
  | addHook (hook : FinishHook σ)
  | finish (request : Request) (world : World σ)

namespace ResponseCall

def apply (r : Response σ) : ResponseCall σ → Response σ
  | setStatus status => r.setStatus status
  | setHeader name value => r.setHeader name value
  | redirect location => r.redirect location
  | sendJson status body => r.sendJson status body
  | sendText status body => r.sendText status body
  | addHook hook => r.addHook hook
  | finish request world => (Visit.finish.run ⟨request, r, world⟩).2.response

def writes : ResponseCall σ → Bool
  | redirect _ | sendJson .. | sendText .. => true
  | _ => false

def finishes : ResponseCall σ → Bool
  | finish .. => true
  | _ => false

def hook? : ResponseCall σ → Option (FinishHook σ)
  | addHook hook => some hook
  | _ => none

/-- The hooks that the calls install, in order. -/
def installed (calls : List (ResponseCall σ)) : List (FinishHook σ) := calls.filterMap hook?

/-- One of the calls writes. -/
def Written (calls : List (ResponseCall σ)) : Prop := ∃ c ∈ calls, c.writes = true

/-- One of the calls finishes a written response. -/
def Sealed (calls : List (ResponseCall σ)) : Prop :=
  ∃ before c rest, calls = before ++ c :: rest ∧ c.finishes = true ∧ Written before

/-- The response is written, and not finished since. -/
def Due (calls : List (ResponseCall σ)) : Prop := Written calls ∧ ¬ Sealed calls

section History

variable {calls : List (ResponseCall σ)} {c : ResponseCall σ}

theorem installed_concat : installed (calls ++ [c]) = installed calls ++ c.hook?.toList := by
  rw [installed, List.filterMap_append]
  cases h : c.hook? <;> simp [installed, h]

theorem written_concat : Written (calls ++ [c]) ↔ Written calls ∨ c.writes = true := by
  simp only [Written, List.mem_append, List.mem_singleton, or_and_right, exists_or, exists_eq_left]

theorem not_sealed_nil : ¬ Sealed ([] : List (ResponseCall σ)) := by
  rintro ⟨before, c, rest, hsplit, -⟩
  simp at hsplit

theorem sealed_concat :
    Sealed (calls ++ [c]) ↔ Sealed calls ∨ c.finishes = true ∧ Written calls := by
  constructor
  · rintro ⟨before, d, rest, hsplit, hfinishes, hwritten⟩
    rcases List.eq_nil_or_concat rest with rfl | ⟨rest, e, rfl⟩
    · obtain ⟨rfl, hd⟩ := List.append_inj' hsplit rfl
      cases hd
      exact .inr ⟨hfinishes, hwritten⟩
    · rw [List.concat_eq_append, ← List.cons_append, ← List.append_assoc] at hsplit
      obtain ⟨rfl, -⟩ := List.append_inj' hsplit rfl
      exact .inl ⟨before, d, rest, rfl, hfinishes, hwritten⟩
  · rintro (⟨before, d, rest, rfl, hfinishes, hwritten⟩ | ⟨hfinishes, hwritten⟩)
    · exact ⟨before, d, rest ++ [c], by simp, hfinishes, hwritten⟩
    · exact ⟨calls, c, [], rfl, hfinishes, hwritten⟩

end History

end ResponseCall

/-! ## What hooks answer -/

namespace FinishHook

/-- The error of the first hook that failed. -/
def firstError (trials : List (Trial (FinishHook σ) Unit)) : Option OAuthError :=
  (trials.filterMap Trial.failure?).head?.map Fault.report

/-- What a finish answers, given the first error of its hooks. -/
def answer : Option OAuthError → Except Fault Unit
  | none => .ok ()
  | some e => .error (.error e)

end FinishHook

namespace Visit

open FinishHook

/-- All hooks run in order, each one once, or they run up to one that crashes. -/
inductive HooksRun (hooks : List (FinishHook σ)) (v : Visit σ) :
    Except Fault (Option OAuthError) → Visit σ → Prop where
  | all {trials : List (Trial (FinishHook σ) Unit)} {v' : Visit σ} :
    InTurn runHook v trials v' → hooks = trials.map Trial.handler →
    (∀ t ∈ trials, t.answer ≠ .error .crash) → HooksRun hooks v (.ok (firstError trials)) v'
  | crashed {earlier : List (Trial (FinishHook σ) Unit)} {hook : FinishHook σ}
    {later : List (FinishHook σ)} {v' : Visit σ} :
    InTurn runHook v (earlier ++ [⟨hook, .error .crash⟩]) v' →
    hooks = earlier.map Trial.handler ++ hook :: later →
    (∀ t ∈ earlier, t.answer ≠ .error .crash) → HooksRun hooks v (.error .crash) v'

namespace HooksRun

variable {hook : FinishHook σ} {rest : List (FinishHook σ)} {v v₁ v' : Visit σ}

theorem here (hrun : (runHook hook).run v = (.error .crash, v')) :
    HooksRun (hook :: rest) v (.error .crash) v' := by
  have hturn : InTurn runHook v ([] ++ [⟨hook, .error .crash⟩]) v' := .single hrun
  exact .crashed hturn rfl fun _ => nofun

/-- An error of the first hook comes before those of the rest. -/
theorem later {a : Except Fault Unit} {r : Except Fault (Option OAuthError)}
    (hrun : (runHook hook).run v = (a, v₁)) (ha : a ≠ .error .crash) (hrest : HooksRun rest v₁ r v') :
    HooksRun (hook :: rest) v (r.map fun e => firstError [⟨hook, a⟩] <|> e) v' := by
  have hall : ∀ trials : List (Trial (FinishHook σ) Unit), (∀ t ∈ trials, t.answer ≠ .error .crash) →
      ∀ t ∈ ⟨hook, a⟩ :: trials, t.answer ≠ .error .crash :=
    fun _ htrials => List.forall_mem_cons.2 ⟨ha, htrials⟩
  cases hrest with
  | @all trials _ hturn hrest htrials =>
    have hfirst : (firstError [⟨hook, a⟩] <|> firstError trials) = firstError (⟨hook, a⟩ :: trials) := by
      cases a <;> rfl
    rw [Except.map, hfirst]
    exact .all (.cons hrun hturn) (by rw [hrest]; rfl) (hall _ htrials)
  | @crashed earlier h _ _ hturn hrest hearlier =>
    have hturn : InTurn runHook v ((⟨hook, a⟩ :: earlier) ++ [⟨h, .error .crash⟩]) v' := .cons hrun hturn
    exact .crashed hturn (by rw [hrest]; rfl) (hall _ hearlier)

end HooksRun

variable {v : Visit σ}

theorem runHooks_hooksRun (hooks : List (FinishHook σ)) (v : Visit σ) :
    HooksRun hooks v ((runHooks hooks).run v).1 ((runHooks hooks).run v).2 := by
  induction hooks generalizing v with
  | nil => exact .all (.nil v) rfl fun _ => nofun
  | cons hook rest ih =>
    rw [runHooks, Step.run_bind, Step.run_attempt]
    rcases hrun : (runHook hook).run v with ⟨(e | _) | _, v₁⟩
    · have hlater := (ih v₁).later hrun nofun
      show HooksRun _ _ ((runHooks rest >>= fun _ => pure (some e)).run v₁).1
        ((runHooks rest >>= fun _ => pure (some e)).run v₁).2
      rw [Step.run_bind]
      rcases hrest : (runHooks rest).run v₁ with ⟨_ | _, _⟩ <;> rw [hrest] at hlater <;> exact hlater
    · exact .here hrun
    · have hlater := (ih v₁).later hrun nofun
      show HooksRun _ _ ((runHooks rest).run v₁).1 ((runHooks rest).run v₁).2
      rcases hrest : (runHooks rest).run v₁ with ⟨_ | _, _⟩ <;> rw [hrest] at hlater <;> exact hlater

theorem finish_of_idle (hidle : (v.response.finished || !v.response.written) = true) :
    finish.run v = (.ok (), v) := by
  rw [finish, Step.run_gets_bind, if_pos hidle, Step.run_pure]

theorem finish_of_due (hdue : (v.response.finished || !v.response.written) = false) :
    finish.run v = (((runHooks v.response.hooks).run v.closed).1.bind answer,
      ((runHooks v.response.hooks).run v.closed).2) := by
  rw [finish, Step.run_gets_bind, if_neg (by rw [hdue]; exact Bool.false_ne_true), Step.run_modify_bind,
    Step.run_bind]
  rcases hrun : (runHooks v.response.hooks).run v.closed with ⟨_ | _ | _, _⟩ <;>
    simp only [closed] at hrun <;> rw [hrun] <;> rfl

theorem finish_response (v : Visit σ) :
    (finish.run v).2.response =
      if v.response.finished || !v.response.written then v.response else v.closed.response := by
  rcases hdone : (v.response.finished || !v.response.written) with _ | _
  · rw [finish_of_due hdone]
    exact runHooks_response v.response.hooks v.closed.response v.closed rfl
  · rw [finish_of_idle hdone]
    rfl

/-- Whatever the store says, the removal hook tells of no error. A crash passes. -/
theorem runHook_removal (store : Store σ) (options : TransactionOptions) (id : String) (v : Visit σ) :
    ((runHook (.removal store options id)).run v).1 = .ok () ∨
      ((runHook (.removal store options id)).run v).1 = .error .crash ∧
        ((store.remove options id).run v.access).1 = .error .crash := by
  rw [runHook, Step.run_bind, Step.run_attempt, Step.run_asAccess]
  rcases ((store.remove options id).run v.access).1 with (_ | _) | _
  · exact .inl rfl
  · exact .inr ⟨rfl, rfl⟩
  · exact .inl rfl

end Visit

/-! ## What hooks call -/

/-- What a hook is there for: it calls the store's removal, or the host. -/
def FinishHook.call : FinishHook σ → Step (Visit σ) Unit
  | removal store options id => Step.asAccess (store.remove options id)
  | host _ action => Step.asRequest action

namespace Visit

/-- Running a hook is making its call, but that a removal that fails is kept quiet. -/
theorem runHook_call (hook : FinishHook σ) (v : Visit σ) :
    ((runHook hook).run v).2 = (hook.call.run v).2 ∧
      (((runHook hook).run v).1 = .error .crash ↔ (hook.call.run v).1 = .error .crash) := by
  cases hook with
  | host key action => exact ⟨rfl, Iff.rfl⟩
  | removal store options id =>
    rw [runHook, Step.run_bind, Step.run_attempt, FinishHook.call, Step.run_asAccess]
    rcases ((store.remove options id).run v.access).1 with (_ | _) | _
    · exact ⟨rfl, by simp⟩
    · exact ⟨rfl, Iff.rfl⟩
    · exact ⟨rfl, by simp⟩

/-- All hooks make their calls in order, each one once, or they do so up to one that crashes. -/
inductive HooksCalled (hooks : List (FinishHook σ)) (v : Visit σ) :
    List (Trial (FinishHook σ) Unit) → Visit σ → Prop where
  | all {trials : List (Trial (FinishHook σ) Unit)} {v' : Visit σ} :
    InTurn FinishHook.call v trials v' → hooks = trials.map Trial.handler →
    (∀ t ∈ trials, t.answer ≠ .error .crash) → HooksCalled hooks v trials v'
  | crashed {earlier : List (Trial (FinishHook σ) Unit)} {hook : FinishHook σ}
    {later : List (FinishHook σ)} {v' : Visit σ} :
    InTurn FinishHook.call v (earlier ++ [⟨hook, .error .crash⟩]) v' →
    hooks = earlier.map Trial.handler ++ hook :: later →
    (∀ t ∈ earlier, t.answer ≠ .error .crash) →
    HooksCalled hooks v (earlier ++ [⟨hook, .error .crash⟩]) v'

variable {v v' : Visit σ}

/-- The runs of hooks are calls of the same hooks. -/
theorem calls_of_runs {trials : List (Trial (FinishHook σ) Unit)} (h : InTurn runHook v trials v')
    (htrials : ∀ t ∈ trials, t.answer ≠ .error .crash) :
    ∃ calls, InTurn FinishHook.call v calls v' ∧ calls.map Trial.handler = trials.map Trial.handler ∧
      ∀ t ∈ calls, t.answer ≠ .error .crash := by
  induction h with
  | nil v => exact ⟨[], .nil v, rfl, fun _ => nofun⟩
  | @cons hook answer v v₁ v' rest hrun hturn ih =>
    obtain ⟨ha, hrest⟩ := List.forall_mem_cons.1 htrials
    obtain ⟨calls, hcalls, hhandlers, hanswers⟩ := ih hrest
    obtain ⟨hstate, hcrash⟩ := runHook_call hook v
    rw [hrun] at hstate hcrash
    obtain rfl : v₁ = (hook.call.run v).2 := hstate
    exact ⟨⟨hook, (hook.call.run v).1⟩ :: calls, .cons rfl hcalls, by rw [List.map_cons, hhandlers]; rfl,
      List.forall_mem_cons.2 ⟨fun hcall => ha (hcrash.2 hcall), hanswers⟩⟩

theorem HooksRun.called {hooks : List (FinishHook σ)} {r : Except Fault (Option OAuthError)}
    (h : HooksRun hooks v r v') : ∃ calls, HooksCalled hooks v calls v' := by
  cases h with
  | all hturn hhooks htrials =>
    obtain ⟨calls, hcalls, hhandlers, hanswers⟩ := calls_of_runs hturn htrials
    exact ⟨calls, .all hcalls (by rw [hhooks, hhandlers]) hanswers⟩
  | @crashed earlier hook later _ hturn hhooks hearlier =>
    obtain ⟨v₁, hturn, hrun⟩ := InTurn.concat_iff.1 hturn
    obtain ⟨calls, hcalls, hhandlers, hanswers⟩ := calls_of_runs hturn hearlier
    obtain ⟨hstate, hcrash⟩ := runHook_call hook v₁
    rw [hrun] at hstate hcrash
    have hcall : hook.call.run v₁ = (.error .crash, v') := Prod.ext (hcrash.1 rfl) hstate.symm
    exact ⟨calls ++ [⟨hook, .error .crash⟩], .crashed (InTurn.concat_iff.2 ⟨v₁, hcalls, hcall⟩)
      (by rw [hhooks, hhandlers]) hanswers⟩

end Visit

namespace ResponseCall

open Visit

/-! ## Along the calls -/

/-- The response shows what was done to it. Hooks stay until it is finished. -/
structure Shows (calls : List (ResponseCall σ)) (r : Response σ) : Prop where
  written : r.written = true ↔ Written calls
  finished : r.finished = true ↔ Sealed calls
  hooks : r.finished = false → r.hooks = installed calls

variable {before calls : List (ResponseCall σ)} {r : Response σ}

theorem apply_written (r : Response σ) (c : ResponseCall σ) :
    (c.apply r).written = (r.written || c.writes) := by
  cases c with
  | finish request world =>
    rw [apply, finish_response]
    split <;> simp [writes, closed]
  | _ => simp [apply, writes, Response.setStatus, Response.setHeader, Response.redirect,
      Response.sendJson, Response.sendText, Response.addHook]

theorem apply_finished (r : Response σ) (c : ResponseCall σ) :
    (c.apply r).finished = (r.finished || c.finishes && r.written) := by
  cases c with
  | finish request world =>
    rw [apply, finish_response]
    rcases hf : r.finished with _ | _ <;> rcases hw : r.written with _ | _ <;> simp [finishes, closed, hf, hw]
  | _ => simp [apply, finishes, Response.setStatus, Response.setHeader, Response.redirect,
      Response.sendJson, Response.sendText, Response.addHook]

theorem apply_hooks (r : Response σ) (c : ResponseCall σ) (h : (c.apply r).finished = false) :
    (c.apply r).hooks = r.hooks ++ c.hook?.toList := by
  cases c with
  | finish request world =>
    rw [apply, finish_response] at h ⊢
    split <;> simp_all [hook?, closed]
  | addHook hook => rfl
  | _ => exact (List.append_nil _).symm

theorem shows_nil : Shows [] (Response.empty : Response σ) :=
  ⟨by simp [Response.empty, Written], by simp [Response.empty, not_sealed_nil], fun _ => rfl⟩

theorem Shows.apply (h : Shows calls r) (c : ResponseCall σ) : Shows (calls ++ [c]) (c.apply r) where
  written := by rw [apply_written, Bool.or_eq_true, h.written, written_concat]
  finished := by
    rw [apply_finished, Bool.or_eq_true, Bool.and_eq_true, h.finished, h.written, sealed_concat]
  hooks hfinished := by
    have hbefore : r.finished = false := by
      rw [apply_finished, Bool.or_eq_false_iff] at hfinished
      exact hfinished.1
    rw [apply_hooks r c hfinished, h.hooks hbefore, installed_concat]

theorem Shows.foldl (h : Shows before r) (calls : List (ResponseCall σ)) :
    Shows (before ++ calls) (calls.foldl ResponseCall.apply r) := by
  induction calls generalizing before r with
  | nil =>
    rw [List.append_nil]
    exact h
  | cons c rest ih =>
    rw [List.append_cons]
    exact ih (h.apply c)

end ResponseCall

/-- The response after the calls. -/
def Response.ofCalls (calls : List (ResponseCall σ)) : Response σ :=
  calls.foldl ResponseCall.apply .empty

namespace Visit

open ResponseCall FinishHook

/-- An error comes from a hook of the host. -/
theorem HooksRun.of_host {hooks : List (FinishHook σ)} {v v' : Visit σ}
    {r : Except Fault (Option OAuthError)} {e : OAuthError} (h : HooksRun hooks v r v')
    (hr : r.bind answer = .error (.error e)) :
    ∃ key action w, .host key action ∈ hooks ∧
      ((runHook (.host key action)).run w).1 = .error (.error e) := by
  cases h with
  | crashed => cases hr
  | @all trials _ hturn hhooks htrials =>
    have hfirst : firstError trials = some e := by
      rcases hfirst : firstError trials with _ | e' <;> rw [hfirst] at hr <;> cases hr
      rfl
    obtain ⟨f, hhead, rfl⟩ := Option.map_eq_some_iff.1 hfirst
    obtain ⟨⟨hook, a⟩, ht, hfailure⟩ := List.mem_filterMap.1 (List.mem_of_head? hhead)
    obtain ⟨w, hrun⟩ := hturn.run_of_mem ht
    have hcrash : a ≠ .error .crash := htrials _ ht
    rcases a with (e | _) | _ <;> cases hfailure
    · cases hook with
      | removal store options id =>
        rcases runHook_removal store options id w with hok | ⟨hok, -⟩ <;> rw [hok] at hrun <;> cases hrun
      | host key action =>
        exact ⟨key, action, w, hhooks ▸ List.mem_map.2 ⟨_, ht, rfl⟩, hrun⟩
    · exact absurd rfl hcrash

/-- The hooks run when that is due. -/
theorem due_iff {calls : List (ResponseCall σ)} {r : Response σ} (h : Shows calls r) :
    Due calls ↔ (r.finished || !r.written) = false := by
  rw [Bool.or_eq_false_iff, Bool.not_eq_false', h.written, Bool.eq_false_iff, Ne, h.finished, Due,
    and_comm]

/-- What comes of a finish in `v`, after the calls. -/
structure FinishesOnce (calls : List (ResponseCall σ)) (v : Visit σ) : Prop where
  /-- All hooks run, and the first error among theirs is the result. -/
  due : Due calls → ∃ first,
    HooksRun (installed calls) v.closed first (finish.run v).2 ∧ (finish.run v).1 = first.bind answer
  /-- What is called afterwards makes no finish due again. -/
  once : Due calls → ∀ request world rest, ¬ Due (calls ++ .finish request world :: rest)
  idle : ¬ Due calls → finish.run v = (.ok (), v)
  of_host : ∀ e, (finish.run v).1 = .error (.error e) → ∃ key action w,
    .host key action ∈ installed calls ∧ ((runHook (.host key action)).run w).1 = .error (.error e)

theorem finishesOnce_of_shows {calls : List (ResponseCall σ)} {v : Visit σ}
    (hshows : Shows calls v.response) : FinishesOnce calls v := by
  have hdue : Due calls → ∃ first,
      HooksRun (installed calls) v.closed first (finish.run v).2 ∧
        (finish.run v).1 = first.bind answer := by
    intro h
    have hfinished : v.response.finished = false :=
      Bool.eq_false_iff.2 fun hfinished => h.2 (hshows.finished.1 hfinished)
    rw [finish_of_due ((due_iff hshows).1 h), hshows.hooks hfinished]
    exact ⟨_, runHooks_hooksRun _ _, rfl⟩
  have honce : Due calls → ∀ request world rest, ¬ Due (calls ++ .finish request world :: rest) :=
    fun h request world rest hagain => hagain.2 ⟨calls, _, rest, rfl, rfl, h.1⟩
  have hidle : ¬ Due calls → finish.run v = (.ok (), v) := by
    rw [due_iff hshows, Bool.not_eq_false]
    exact finish_of_idle
  refine ⟨hdue, honce, hidle, fun e he => ?_⟩
  by_cases h : Due calls
  · obtain ⟨first, hran, hresult⟩ := hdue h
    exact hran.of_host (hresult.symm.trans he)
  · rw [hidle h] at he
    cases he

/-- Hooks run once, and a removal that fails fails no response. -/
theorem hooks_run_once :
    (∀ (calls : List (ResponseCall σ)) (request : Request) (world : World σ),
      FinishesOnce calls ⟨request, .ofCalls calls, world⟩) ∧
      ∀ (store : Store σ) (options : TransactionOptions) (id : String) (v : Visit σ),
        ((runHook (.removal store options id)).run v).1 = .ok () ∨
          ((runHook (.removal store options id)).run v).1 = .error .crash ∧
            ((store.remove options id).run v.access).1 = .error .crash :=
  ⟨fun calls _ _ => finishesOnce_of_shows (shows_nil.foldl calls), runHook_removal⟩

/-! ## Hooks that note their runs -/

/-- Leaves its name with the host, and fails with it if it is to. -/
def signing (name : String) (fails : Bool) : FinishHook (List String) :=
  .host none do
    .modify fun p => (p.1, p.2 ++ [name])
    if fails then .fail (.server name) else pure ()

def unsigned : World (List String) := ⟨fun _ => [], ⟨fun _ => 0, 0⟩, .zero, []⟩

/-- Finished too early, then written. The removal fails as well, since there is no session. -/
def signed : List (ResponseCall (List String)) :=
  [.addHook (signing "a" false), .finish .empty unsigned, .addHook (.removal Store.session .standard "7f"),
    .setStatus 400, .addHook (signing "b" true), .redirect "https://c1.example/cb",
    .addHook (signing "c" true), .addHook (signing "d" false)]

theorem signed_finishesOnce :
    FinishesOnce signed ⟨.empty, .ofCalls signed, unsigned⟩ ∧ Due signed ∧
      (finish.run ⟨.empty, .ofCalls signed, unsigned⟩).1 = .error (.error (.server "b")) ∧
      (finish.run ⟨.empty, .ofCalls signed, unsigned⟩).2.world.host = ["a", "b", "c", "d"] := by
  have honce : FinishesOnce signed ⟨.empty, .ofCalls signed, unsigned⟩ :=
    hooks_run_once.1 signed .empty unsigned
  have hdue : Due signed := (due_iff (shows_nil.foldl signed)).2 rfl
  exact ⟨honce, hdue, rfl, rfl⟩

end Visit

end AuthServer
