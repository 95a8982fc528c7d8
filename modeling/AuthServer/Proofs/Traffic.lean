import AuthServer.Endpoint.Decision
import AuthServer.Endpoint.Loading
import AuthServer.Endpoint.Resume
import AuthServer.Endpoint.Token
import AuthServer.Proofs.Keeping
import AuthServer.Proofs.Store.Shelf

/-!
# Traffic

Any number of requests, each with its response, over one world. A call runs
one endpoint on one of these pairs; what other calls do to other pairs may come
before it and after it in any order.
-/

namespace AuthServer

open Json

variable {σ : Type}

/-! ## Calls -/

inductive Call (σ : Type) where
  | authorize (c : AuthorizationCallbacks σ)
  | load
  | resume (immediate : Immediate σ) (completion : Completion σ)
  | decide (o : DecisionOptions) (c : Server.DecisionCallbacks σ)
  | redirectError (e : OAuthError)
  | renderError (renderer : ErrorRenderer σ) (e : OAuthError)
  | token
  | finish

namespace Call

/-- Runs a call; only an authorization and a resumption tell how they ended. -/
def run (s : Server σ) : Call σ → Step (Visit σ) (Option Outcome)
  | authorize c => some <$> s.authorize c
  | load => (fun _ => none) <$> s.loadTransaction
  | resume immediate completion => some <$> s.resume immediate completion
  | decide o c => (fun _ => none) <$> s.decide o c
  | redirectError e => (fun _ => none) <$> s.redirectError e
  | renderError renderer e => (fun _ => none) <$> renderer.render e
  | token => (fun _ => none) <$> s.token
  | finish => (fun _ => none) <$> Visit.finish

end Call

structure Traffic (σ : Type) where
  pairs : Nat → Request × Response σ
  world : World σ

namespace Traffic

def visit (T : Traffic σ) (i : Nat) : Visit σ := ⟨(T.pairs i).1, (T.pairs i).2, T.world⟩

def put (T : Traffic σ) (i : Nat) (v : Visit σ) : Traffic σ :=
  ⟨Function.update T.pairs i (v.request, v.response), v.world⟩

@[simp] theorem visit_put (T : Traffic σ) (i : Nat) (v : Visit σ) : (T.put i v).visit i = v := by
  simp [put, visit]

theorem visit_put_ne (T : Traffic σ) {i j : Nat} (h : j ≠ i) (v : Visit σ) :
    (T.put i v).visit j = { T.visit j with world := v.world } := by
  simp [put, visit, h]

def call (T : Traffic σ) (s : Server σ) (i : Nat) (c : Call σ) : Except Fault (Option Outcome) × Traffic σ :=
  (((c.run s).run (T.visit i)).1, T.put i ((c.run s).run (T.visit i)).2)

end Traffic

/-! ## Hooks -/

/-- A hook of the host that leaves the session alone. -/
def FinishHook.Quiet : FinishHook σ → Prop
  | removal .. => False
  | host _ action => ∀ p, (action.run p).2.1.session = p.1.session

/-- The ids that hooks remove. -/
def removals (hooks : List (FinishHook σ)) : List String :=
  hooks.filterMap fun
    | .removal _ _ id => some id
    | .host .. => none

/-- All hooks are quiet, but for one at most that removes a transaction of the server's store. -/
structure Response.Orderly (s : Server σ) (r : Response σ) : Prop where
  hooks : ∀ h ∈ r.hooks, h.Quiet ∨ ∃ id, h = .removal s.store s.options id
  single : (removals r.hooks).length ≤ 1

theorem Response.Orderly.of_hooks {s : Server σ} {r r' : Response σ} (h : r.Orderly s)
    (hhooks : r'.hooks = r.hooks) : r'.Orderly s :=
  ⟨by rw [hhooks]; exact h.hooks, by rw [hhooks]; exact h.single⟩

theorem Response.orderly_of_nil {s : Server σ} {r : Response σ} (h : r.hooks = []) : r.Orderly s :=
  ⟨by rw [h]; exact nofun, by rw [h]; exact Nat.zero_le 1⟩

theorem removals_append (hooks hooks' : List (FinishHook σ)) :
    removals (hooks ++ hooks') = removals hooks ++ removals hooks' :=
  List.filterMap_append

theorem removals_eq_nil {hooks : List (FinishHook σ)}
    (h : ∀ store options id, .removal store options id ∉ hooks) : removals hooks = [] := by
  rw [removals, List.filterMap_eq_nil_iff]
  intro hook hmem
  cases hook with
  | removal store options id => exact absurd hmem (h store options id)
  | host => rfl

theorem removals_of_quiet {hooks : List (FinishHook σ)} (h : ∀ hook ∈ hooks, hook.Quiet) :
    removals hooks = [] :=
  removals_eq_nil fun _ _ _ hmem => h _ hmem

/-- Without the key of a removal there is no removal. -/
theorem removals_of_hasHook {r : Response σ} (h : r.hasHook FinishHook.removalKey = false) :
    removals r.hooks = [] := by
  refine removals_eq_nil fun store options id hmem => ?_
  have hkey := List.any_eq_false.1 h _ hmem
  simp [FinishHook.key] at hkey

/-- A call whose renderer, if it has one, keeps responses orderly by all of its modes. -/
def Call.Orderly (s : Server σ) : Call σ → Prop
  | renderError renderer _ => ∀ m ∈ renderer.modes, ∀ t p,
    (m.2.render t p).Keeps fun reply => reply.response.Orderly s
  | _ => True

/-! ## Runs -/

/-- The traffic that a server may see. The host receives requests and works on them between the
calls: it leaves sessions alone and adds only quiet hooks. -/
inductive Reachable (s : Server σ) : Traffic σ → Prop where
  | start {T : Traffic σ} :
    (∀ i, (T.pairs i).1.Distinct s.options.sessionKey ∧ (T.pairs i).2.hooks = []) → Reachable s T
  | arrive {T : Traffic σ} {request : Request} {response : Response σ} (i : Nat) :
    Reachable s T → request.Distinct s.options.sessionKey → response.hooks = [] →
    Reachable s (T.put i ⟨request, response, T.world⟩)
  | work {T : Traffic σ} {request : Request} {response : Response σ} {hooks : List (FinishHook σ)}
    (i : Nat) (host : σ) :
    Reachable s T → request.session = (T.pairs i).1.session →
    response.hooks = (T.pairs i).2.hooks ++ hooks → (∀ hook ∈ hooks, hook.Quiet) →
    Reachable s (T.put i ⟨request, response, { T.world with host }⟩)
  | call {T : Traffic σ} {c : Call σ} (i : Nat) :
    Reachable s T → c.Orderly s → Reachable s (T.call s i c).2

end AuthServer
