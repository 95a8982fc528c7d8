import AuthServer.Endpoint.Authorization
import AuthServer.Proofs.Bundled
import AuthServer.Store.Memory

/-!
# Asking for a grant

The journal of an issuing callback is the list of the contexts that it was
asked about. Bundled responders ask about allowed transactions only, and the
responder that asked is the last to be run.
-/

namespace AuthServer

open Json Grant

variable {σ : Type} {journal : σ → List IssueContext}

/-! ## Callbacks with a journal -/

namespace Grant

/-- The callback puts each context on the journal. -/
def Noting {α : Type} (journal : σ → List IssueContext) (issue : IssueContext → Step σ (Option α)) :
    Prop :=
  ∀ c host, journal ((issue c).run host).2 = journal host ++ [c]

/-- A bundled grant with the built-in modes, its callback with `P`. -/
inductive Issuing (P : ∀ {α : Type}, (IssueContext → Step σ (Option α)) → Prop) : Grant σ → Prop where
  | code {o : Options σ} {issue : IssueContext → Step σ (Option String)} :
    o.modes.BuiltIn → P issue → Issuing P (Grant.code o issue)
  | token {o : Options σ} {issue : IssueContext → Step σ (Option Issued)} :
    o.modes.BuiltIn → P issue → Issuing P (Grant.token o issue)

theorem Issuing.responder {P : ∀ {α : Type}, (IssueContext → Step σ (Option α)) → Prop}
    {g : Grant σ} (hg : g.Issuing P) {handler : Responder σ} (h : g.response = some handler) :
    ∃ (α : Type) (modes : ResponseModes σ) (defaultMode : String)
      (issue : IssueContext → Step σ (Option α)) (params : α → Params),
      modes.BuiltIn ∧ P issue ∧ handler = Grant.responder modes defaultMode issue params := by
  cases hg with
  | code hm hissue =>
    obtain rfl := Option.some.inj h
    exact ⟨_, _, _, _, _, hm, hissue, rfl⟩
  | token hm hissue =>
    obtain rfl := Option.some.inj h
    exact ⟨_, _, _, _, _, hm, hissue, rfl⟩

theorem Issuing.bundled {P : ∀ {α : Type}, (IssueContext → Step σ (Option α)) → Prop} {g : Grant σ}
    (hg : g.Issuing P) : g.Bundled := by
  cases hg with
  | code hm => exact .code hm
  | token hm => exact .token hm

end Grant

/-- Every responder is that of a bundled grant with a callback that has `P`. -/
def Server.Issues (s : Server σ) (P : ∀ {α : Type}, (IssueContext → Step σ (Option α)) → Prop) :
    Prop :=
  ∀ l ∈ s.dispatcher.responders, ∃ g : Grant σ, g.Issuing P ∧ g.response = some l.handler

/-- A callback of the host that asks for no grant. -/
def Step.Silent {α : Type} (journal : σ → List IssueContext) (x : Step σ α) : Prop :=
  ∀ host, journal (x.run host).2 = journal host

theorem Step.Silent.guarded {α : Type} {x : Step σ α} (h : x.Silent journal) :
    x.guarded.Silent journal := by
  intro host
  rw [run_guarded]
  exact h host

/-! ## How a bundled responder ends -/

/-- The two ways to put parameters on a redirect URI. -/
def Redirect.Placing (place : String → Params → String) : Prop :=
  place = Redirect.appendQuery ∨ place = Redirect.replaceFragment

theorem ResponseMode.placing_of_builtIn {mode : ResponseMode σ} (h : mode = .query ∨ mode = .fragment) :
    ∃ place, Redirect.Placing place ∧ mode = .redirecting place := by
  rcases h with rfl | rfl
  · exact ⟨_, .inl rfl, rfl⟩
  · exact ⟨_, .inr rfl, rfl⟩

theorem ResponseModes.BuiltIn.selected {modes : ResponseModes σ} (hm : modes.BuiltIn)
    {requested : Option String} {default : String} {mode : ResponseMode σ}
    (h : modes.select requested default = .ok mode) :
    ∃ place, Redirect.Placing place ∧ mode = .redirecting place :=
  ResponseMode.placing_of_builtIn (hm _ (Entries.mem_of_value? (select_ok h)))

theorem ResponseMode.run_validate (place : String → Params → String) (t : Transaction)
    (reply : Reply σ) :
    (Step.inReply ((redirecting place).validate t)).run reply =
      ((Step.ofExcept ((redirectUri t).map fun _ => ()) : Step (Reply σ) Unit)).run reply := by
  show (Step.inReply (Step.ofExcept (redirectUri t) >>= fun _ => pure ())).run reply = _
  cases redirectUri t <;> rfl

theorem ResponseMode.run_render {place : String → Params → String} {t : Transaction} {uri : String}
    (h : t.redirectUri = some uri) (p : Params) (reply : Reply σ) :
    ((redirecting place).render t p).run reply =
      (.ok (), { reply with response := reply.response.redirect (place uri p) }) := by
  show (Step.ofExcept (redirectUri t) >>= fun uri => Step.onResponse _).run reply = _
  rw [redirectUri, h]
  rfl

/-- A responder that did not refuse the transaction at once redirects to its URI, after it has
asked the callback if access is allowed. -/
inductive Grant.Answering {α : Type} (issue : IssueContext → Step σ (Option α)) (params : α → Params)
    (complete : Completion σ) (t : Transaction) (reply : Reply σ) :
    Except Fault Flow → Reply σ → Prop where
  | refused (e : OAuthError) : Answering issue params complete t reply (.error (.error e)) reply
  | denied {c : IssueContext} {uri : String} {place : String → Params → String} :
    IssueContext.ofTransaction t = .ok c → c.decision.allow = false →
    t.redirectUri = some uri → Redirect.Placing place →
    Answering issue params complete t reply (.ok .done)
      { reply with response := reply.response.redirect (place uri (deniedParams t)) }
  | failed {c : IssueContext} {e : Fault} {host : σ} :
    IssueContext.ofTransaction t = .ok c → c.decision.allow = true →
    (issue c).run reply.host = (.error e, host) →
    Answering issue params complete t reply (.error e) { reply with host }
  | withheld {c : IssueContext} {host : σ} :
    IssueContext.ofTransaction t = .ok c → c.decision.allow = true →
    (issue c).run reply.host = (.ok none, host) →
    Answering issue params complete t reply (.error (.error Grant.refused)) { reply with host }
  | incomplete {c : IssueContext} {a : α} {e : Fault} {host host' : σ} :
    IssueContext.ofTransaction t = .ok c → c.decision.allow = true →
    (issue c).run reply.host = (.ok (some a), host) → (complete.run t).run host = (.error e, host') →
    Answering issue params complete t reply (.error e) { reply with host := host' }
  | issued {c : IssueContext} {a : α} {uri : String} {place : String → Params → String}
    {host host' : σ} :
    IssueContext.ofTransaction t = .ok c → c.decision.allow = true →
    (issue c).run reply.host = (.ok (some a), host) → (complete.run t).run host = (.ok (), host') →
    t.redirectUri = some uri → Redirect.Placing place →
    Answering issue params complete t reply (.ok .done)
      ⟨reply.response.redirect (place uri (withState (params a) t)), host'⟩

theorem Grant.responder_cases {α : Type} {modes : ResponseModes σ} (hm : modes.BuiltIn)
    {defaultMode : String} {issue : IssueContext → Step σ (Option α)} {params : α → Params}
    {complete : Completion σ} {t : Transaction} {reply reply' : Reply σ} {r : Except Fault Flow}
    (h : (responder modes defaultMode issue params t complete).run reply = (r, reply')) :
    Answering issue params complete t reply r reply' := by
  unfold responder at h
  rcases hmode : modes.select t.request.responseMode defaultMode with e | mode <;> rw [hmode] at h
  · cases h
    exact .refused e
  obtain ⟨place, hplace, rfl⟩ := hm.selected hmode
  simp only [Step.ofExcept, pure_bind] at h
  rw [Step.run_bind, ResponseMode.run_validate, ResponseMode.redirectUri] at h
  rcases huri : t.redirectUri with _ | uri <;> rw [huri] at h
  · cases h
    exact .refused _
  simp only [Except.map, Step.ofExcept, Step.run_pure] at h
  rcases hcontext : IssueContext.ofTransaction t with e | c <;> rw [hcontext] at h
  · cases h
    exact .refused e
  simp only [pure_bind] at h
  rcases hallow : c.decision.allow with _ | _ <;> rw [hallow] at h
  · rw [Bool.not_false, if_pos rfl, Step.run_bind, ResponseMode.run_render huri] at h
    cases h
    exact .denied hcontext hallow huri hplace
  rw [Bool.not_true, if_neg Bool.false_ne_true] at h
  rcases Step.bind_cases h with ⟨issued, reply₁, hissue, h⟩ | ⟨e, hissue, rfl⟩
  · rw [Step.inReply, Step.run_within, Prod.mk.injEq] at hissue
    obtain ⟨hissued, rfl⟩ := hissue
    cases issued with
    | none =>
      cases h
      exact .withheld hcontext hallow (Prod.ext hissued rfl)
    | some a =>
      rcases Step.bind_cases h with ⟨_, reply₂, hcomplete, h⟩ | ⟨e, hcomplete, rfl⟩
      · rw [Step.inReply, Step.run_within, Prod.mk.injEq] at hcomplete
        obtain ⟨hcompleted, rfl⟩ := hcomplete
        rw [Step.run_bind, ResponseMode.run_render huri] at h
        cases h
        exact .issued hcontext hallow (Prod.ext hissued rfl) (Prod.ext hcompleted rfl) huri hplace
      · rw [Step.inReply, Step.run_within, Prod.mk.injEq] at hcomplete
        obtain ⟨hcompleted, rfl⟩ := hcomplete
        exact .incomplete hcontext hallow (Prod.ext hissued rfl) (Prod.ext hcompleted rfl)
  · rw [Step.inReply, Step.run_within, Prod.mk.injEq] at hissue
    obtain ⟨hissued, rfl⟩ := hissue
    exact .failed hcontext hallow (Prod.ext hissued rfl)

/-! ## Questions of a pipeline -/

/-- Between two replies the callback is asked at most once, and only by a handler that ends the
pipeline. -/
inductive Asking (journal : σ → List IssueContext) (reply : Reply σ) (r : Except Fault Flow)
    (reply' : Reply σ) : Prop where
  | spared : journal reply'.host = journal reply.host → Asking journal reply r reply'
  | asked {c : IssueContext} :
    c.decision.allow = true → journal reply'.host = journal reply.host ++ [c] → r ≠ .ok .next →
    Asking journal reply r reply'

theorem Asking.guarded {reply reply' : Reply σ} {r : Except Fault Flow}
    (h : Asking journal reply r reply') :
    Asking journal reply (r.mapError fun e => .error e.report) reply' := by
  cases h with
  | spared hj => exact .spared hj
  | asked hallow hj hr =>
    refine .asked hallow hj ?_
    rcases r with e | f
    · exact nofun
    · exact hr

theorem firstDone_asking {xs : List (Step (Reply σ) Flow)}
    (h : ∀ x ∈ xs, ∀ reply, Asking journal reply (x.run reply).1 (x.run reply).2) (reply : Reply σ) :
    Asking journal reply ((Dispatcher.firstDone xs).run reply).1
      ((Dispatcher.firstDone xs).run reply).2 := by
  induction xs generalizing reply with
  | nil => exact .spared rfl
  | cons x rest ih =>
    obtain ⟨hx, hrest⟩ := List.forall_mem_cons.1 h
    have hfirst := (hx reply).guarded
    unfold Dispatcher.firstDone
    rw [Step.run_bind, Step.run_guarded]
    rcases hr : x.run reply with ⟨e | _ | _, reply₁⟩ <;> rw [hr] at hfirst
    · exact hfirst
    · exact hfirst
    · cases hfirst with
      | asked _ _ hne => exact absurd rfl hne
      | spared hj =>
        rcases ih hrest reply₁ with hj' | ⟨hallow, hj', hne⟩
        · exact .spared (hj'.trans hj)
        · exact .asked hallow (by rw [← hj]; exact hj') hne

section Responder

variable {modes : ResponseModes σ} {α : Type} {issue : IssueContext → Step σ (Option α)}
  {complete : Completion σ} {t : Transaction}

theorem Grant.Answering.asking {params : α → Params} {reply reply' : Reply σ}
    {r : Except Fault Flow} (h : Answering issue params complete t reply r reply')
    (hissue : Noting journal issue) (hcomplete : (complete.run t).Silent journal) :
    Asking journal reply r reply' := by
  have hnoted : ∀ {c r host}, (issue c).run reply.host = (r, host) →
      journal host = journal reply.host ++ [c] := by
    intro c r host hrun
    rw [← hissue c reply.host, hrun]
  have hsilent : ∀ {host host' r}, (complete.run t).run host = (r, host') →
      journal host' = journal host := by
    intro host host' r hrun
    rw [← hcomplete host, hrun]
  cases h with
  | refused => exact .spared rfl
  | denied => exact .spared rfl
  | failed _ hallow hrun => exact .asked hallow (hnoted hrun) nofun
  | withheld _ hallow hrun => exact .asked hallow (hnoted hrun) nofun
  | incomplete _ hallow hrun hcompleted =>
    exact .asked hallow ((hsilent hcompleted).trans (hnoted hrun)) nofun
  | issued _ hallow hrun hcompleted =>
    exact .asked hallow ((hsilent hcompleted).trans (hnoted hrun)) nofun

end Responder

/-- A server of bundled grants asks at most once for an answer. -/
theorem Server.Issues.asking {s : Server σ} (hs : s.Issues (Noting journal)) {t : Transaction}
    {complete : Completion σ} (hcomplete : (complete.run t).Silent journal) (reply : Reply σ) :
    Asking journal reply ((s.dispatcher.respond t complete).run reply).1
      ((s.dispatcher.respond t complete).run reply).2 := by
  refine firstDone_asking (fun x hx reply => ?_) reply
  obtain ⟨l, hl, rfl⟩ := List.mem_map.1 hx
  obtain ⟨g, hg, hhandler⟩ := hs l (List.mem_filter.1 hl).1
  obtain ⟨α, modes, defaultMode, issue, params, hm, hissue, hresponder⟩ := hg.responder hhandler
  rw [hresponder]
  exact (responder_cases hm rfl).asking hissue hcomplete

/-! ## A callback that keeps its journal -/

namespace Server

/-- Notes what it is asked, and issues the same code to everyone. -/
def noteAndIssue : IssueContext → Step (List IssueContext) (Option String) := fun c => do
  Step.modify (· ++ [c])
  pure (some "a1b1c1")

def noting : Server (List IssueContext) :=
  (ofStore (.memory 0 none)).addGrantAs "code" (.code .standard noteAndIssue)

theorem noting_issues
    {P : ∀ {α : Type}, (IssueContext → Step (List IssueContext) (Option α)) → Prop}
    (h : P noteAndIssue) : noting.Issues P := by
  intro l hl
  obtain rfl := List.mem_singleton.1 hl
  exact ⟨.code .standard noteAndIssue, .code ResponseModes.standard_builtIn h, rfl⟩

/-- Every client is `c1`, as for `trusting`. -/
def trustingAll : AuthorizationCallbacks (List IssueContext) :=
  ⟨fun _ => pure ⟨some (.str "c1"), some "https://c1.example/cb", none⟩, none, .none⟩

def askingCode : Visit (List IssueContext) :=
  ⟨codeRequest, .empty, ⟨fun _ => [], ⟨fun _ => 0, 0⟩, .zero, []⟩⟩

end Server

end AuthServer
