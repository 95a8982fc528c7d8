import AuthServer.Grant.Bundled
import AuthServer.Server

/-!
# Two runs side by side

Two steps go together under a relation of states when related states make them end with the same
result, in related states again. The relation goes down whole programs. A callback that is a
function of its arguments goes together with itself whatever the host was like before it.
-/

namespace AuthServer

open Json

namespace Step

variable {s α β : Type} {R : s → s → Prop} {Q Q' : α → Prop} {x y : Step s α}

/-- From `p` and from `q` the steps end with the same result, of which `Q` holds. -/
structure Meets (R : s → s → Prop) (Q : α → Prop) (x y : Step s α) (p q : s) : Prop where
  result : (y.run q).1 = (x.run p).1
  state : R (x.run p).2 (y.run q).2
  value : ∀ a, (x.run p).1 = .ok a → Q a

def Together (R : s → s → Prop) (Q : α → Prop) (x y : Step s α) : Prop :=
  ∀ p q, R p q → Meets R Q x y p q

/-- Whatever the value is. -/
abbrev Any (_ : α) : Prop := True

theorem together_pure {a : α} (h : Q a) : Together R Q (pure a) (pure a) := fun _ _ hR =>
  ⟨rfl, hR, fun _ ha => by cases ha; exact h⟩

theorem together_fail (e : OAuthError) : Together R Q (fail e) (fail e) := fun _ _ hR =>
  ⟨rfl, hR, nofun⟩

theorem together_crash : Together R Q crash crash := fun _ _ hR => ⟨rfl, hR, nofun⟩

theorem together_ofExcept (r : Except OAuthError α) : Together R Any (ofExcept r) (ofExcept r) := by
  cases r with
  | ok a => exact together_pure trivial
  | error e => exact together_fail e

theorem together_modify {f g : s → s} (h : ∀ p q, R p q → R (f p) (g q)) :
    Together R Any (modify f) (modify g) := fun p q hR => ⟨rfl, h p q hR, fun _ _ => trivial⟩

theorem Meets.bind {p q : s} {S : β → Prop} {f g : α → Step s β} (hx : Meets R Q x y p q)
    (hf : ∀ a, Q a → Together R S (f a) (g a)) : Meets R S (x >>= f) (y >>= g) p q := by
  obtain ⟨hresult, hstate, hvalue⟩ := hx
  have hxf := run_bind x f p
  have hyg := run_bind y g q
  rcases hp : x.run p with ⟨e | a, p'⟩ <;> rcases hq : y.run q with ⟨e' | a', q'⟩ <;>
    rw [hp, hq] at hresult hstate <;> rw [hp] at hxf hvalue <;> rw [hq] at hyg <;> cases hresult
  · refine ⟨?_, ?_, ?_⟩ <;> rw [hxf]
    · rw [hyg]
    · rw [hyg]; exact hstate
    · exact nofun
  · have hnext := hf a (hvalue a rfl) p' q' hstate
    refine ⟨?_, ?_, ?_⟩ <;> rw [hxf]
    · rw [hyg]; exact hnext.result
    · rw [hyg]; exact hnext.state
    · exact hnext.value

theorem Together.bind {S : β → Prop} {f g : α → Step s β} (hx : Together R Q x y)
    (hf : ∀ a, Q a → Together R S (f a) (g a)) : Together R S (x >>= f) (y >>= g) :=
  fun p q hR => (hx p q hR).bind hf

/-- What is looked up may differ. -/
theorem together_gets_bind {t : Type} {f : s → t} {g g' : t → Step s α}
    (h : ∀ p q, R p q → Meets R Q (g (f p)) (g' (f q)) p q) :
    Together R Q (gets f >>= g) (gets f >>= g') := fun p q hR =>
  ⟨(h p q hR).result, (h p q hR).state, (h p q hR).value⟩

theorem Together.guarded (hx : Together R Q x y) : Together R Q x.guarded y.guarded := by
  intro p q hR
  obtain ⟨hresult, hstate, hvalue⟩ := hx p q hR
  refine ⟨?_, ?_, fun a ha => hvalue a ?_⟩
  · rw [run_guarded, run_guarded, hresult]
  · rw [run_guarded, run_guarded]
    exact hstate
  · rw [run_guarded] at ha
    rcases hrun : (x.run p).1 with e | b <;> rw [hrun] at ha <;> cases ha
    rfl

theorem Together.attempt (hx : Together R Q x y) :
    Together R (fun r => ∀ a, r = .ok a → Q a) x.attempt y.attempt := by
  intro p q hR
  obtain ⟨hresult, hstate, hvalue⟩ := hx p q hR
  refine ⟨congrArg Except.ok hresult, hstate, fun r hr => ?_⟩
  cases hr
  exact hvalue

theorem onError_eq (x : Step s α) (recover : OAuthError → Step s Unit) :
    x.onError recover = (x.attempt >>= fun
      | .ok a => pure a
      | .error (.error e) => recover e >>= fun _ => fail e
      | .error .crash => crash) := by
  funext p
  show x.onError recover p = Step.run _ p
  rw [run_bind, run_attempt]
  simp only [Step.onError, run]
  rcases x p with ⟨(e | _) | a, p'⟩
  · show _ = (recover e >>= fun _ => fail e).run p'
    rw [run_bind]
    simp only [run]
    rcases recover e p' with ⟨e' | _, p''⟩ <;> rfl
  · rfl
  · rfl

theorem Together.onError {f g : OAuthError → Step s Unit} (hx : Together R Q x y)
    (hf : ∀ e, Together R Any (f e) (g e)) : Together R Q (x.onError f) (y.onError g) := by
  rw [onError_eq, onError_eq]
  refine hx.attempt.bind fun r hr => ?_
  rcases r with (e | _) | a
  · exact (hf e).bind fun _ _ => together_fail e
  · exact together_crash
  · exact together_pure (hr a rfl)

/-! ## Functions of their arguments -/

/-- The result is the same from any state. -/
def Steady (x : Step s α) : Prop := ∀ p q, (x.run q).1 = (x.run p).1

theorem Steady.together (h : x.Steady) : Together (fun _ _ => True) Any x x := fun p q _ =>
  ⟨h p q, trivial, fun _ _ => trivial⟩

theorem Together.steady (h : Together (fun _ _ => True) Any x x) : x.Steady := fun p q =>
  (h p q trivial).result

theorem Steady.guarded (h : x.Steady) : x.guarded.Steady := h.together.guarded.steady

/-! ## Replies -/

section Reply

variable {σ : Type} {hooks : List (FinishHook σ)}

/-- The same response, with these hooks; the hosts may differ. -/
def SameReply (hooks : List (FinishHook σ)) (p q : Reply σ) : Prop :=
  q.response = p.response ∧ p.response.hooks = hooks

theorem together_inReply {x : Step σ α} (h : x.Steady) :
    Together (SameReply hooks) Any (inReply x) (inReply x) := fun p q hR =>
  ⟨h p.host q.host, hR, fun _ _ => trivial⟩

theorem together_onResponse {f : Response σ → Response σ} (hf : ∀ r, (f r).hooks = r.hooks) :
    Together (SameReply hooks) Any (onResponse f) (onResponse f) :=
  together_modify fun _ _ ⟨hresponse, hhooks⟩ => ⟨congrArg f hresponse, (hf _).trans hhooks⟩

end Reply

end Step

open Step

variable {σ : Type} {hooks : List (FinishHook σ)}

/-! ## Clients -/

theorem ClientForms.read_steady {c : ClientForms σ}
    (h : ∀ link ∈ c.readers, ∀ stored, (link stored).Steady) (stored : Value) :
    (c.read stored).Steady := by
  have hread : ∀ links : List (Value → Step σ (Link (Option Value))),
      (∀ link ∈ links, ∀ stored, (link stored).Steady) →
      Together (fun _ _ => True) Any (readWith stored links) (readWith stored links) := by
    intro links hlinks
    induction links with
    | nil => exact together_fail _
    | cons link rest ih =>
      obtain ⟨hlink, hrest⟩ := List.forall_mem_cons.1 hlinks
      refine (hlink stored).guarded.together.bind fun found _ => ?_
      cases found with
      | matched v => exact together_pure trivial
      | skip => exact ih hrest
      | failed e => exact together_fail e
  exact (hread c.readers h).steady

/-! ## Modes and grants -/

/-- Callbacks that are functions of their arguments. What a mode renders may depend on the response
before, not on the host; it leaves the hooks alone. -/
structure ResponseMode.Functional (m : ResponseMode σ) : Prop where
  validate : ∀ t, (m.validate t).Steady
  render : ∀ t p hooks, Together (SameReply hooks) Any (m.render t p) (m.render t p)

theorem ResponseMode.redirecting_functional (place : String → Params → String) :
    (redirecting place : ResponseMode σ).Functional where
  validate t := by
    have htogether : Together (fun _ _ => True) Any ((redirecting place : ResponseMode σ).validate t)
        ((redirecting place).validate t) :=
      (together_ofExcept (redirectUri t)).bind fun _ _ => together_pure trivial
    exact htogether.steady
  render t p hooks := by
    refine (together_ofExcept (redirectUri t)).bind fun uri _ => ?_
    exact together_onResponse fun _ => rfl

theorem ResponseModes.standard_functional : ∀ m ∈ (standard : ResponseModes σ), m.2.Functional := by
  intro m hm
  rcases List.mem_cons.1 hm with rfl | hm
  · exact ResponseMode.redirecting_functional _
  · obtain rfl := List.mem_singleton.1 hm
    exact ResponseMode.redirecting_functional _

def Completion.Functional (c : Completion σ) : Prop :=
  ∀ callback, c.callback = some callback → ∀ t, (callback t).Steady

theorem Completion.Functional.run {c : Completion σ} (h : c.Functional) (t : Transaction) :
    (c.run t).Steady := by
  unfold Completion.run
  cases hc : c.callback with
  | none => exact fun _ _ => rfl
  | some callback => exact (h callback hc t).guarded

namespace Grant

/-- A bundled grant whose callbacks are functions of their arguments. -/
inductive Functional : Grant σ → Prop where
  | code {o : Options σ} {issue : IssueContext → Step σ (Option String)} :
    (∀ m ∈ o.modes, m.2.Functional) → (∀ c, (issue c).Steady) → Functional (Grant.code o issue)
  | token {o : Options σ} {issue : IssueContext → Step σ (Option Issued)} :
    (∀ m ∈ o.modes, m.2.Functional) → (∀ c, (issue c).Steady) → Functional (Grant.token o issue)

theorem responder_together {α : Type} {modes : ResponseModes σ} {defaultMode : String}
    {issue : IssueContext → Step σ (Option α)} {params : α → Params} {complete : Completion σ}
    (hmodes : ∀ m ∈ modes, m.2.Functional) (hissue : ∀ c, (issue c).Steady)
    (hcomplete : complete.Functional) (t : Transaction) :
    Together (SameReply hooks) Any (responder modes defaultMode issue params t complete)
      (responder modes defaultMode issue params t complete) := by
  unfold responder
  rcases hselect : modes.select t.request.responseMode defaultMode with e | mode
  · exact together_fail e
  have hmode : mode.Functional :=
    hmodes _ (Entries.mem_of_value? (ResponseModes.select_ok hselect))
  refine (together_inReply (hmode.validate t)).bind fun _ _ => ?_
  refine (together_ofExcept _).bind fun context _ => ?_
  split
  · exact (hmode.render t _ hooks).bind fun _ _ => together_pure trivial
  · refine (together_inReply (hissue context)).bind fun issued _ => ?_
    cases issued with
    | none => exact together_fail _
    | some issued =>
      refine (together_inReply (hcomplete.run t)).bind fun _ _ => ?_
      exact (hmode.render t _ hooks).bind fun _ _ => together_pure trivial

theorem Functional.together {g : Grant σ} (hg : g.Functional) {handler : Responder σ}
    (h : g.response = some handler) {complete : Completion σ} (hcomplete : complete.Functional)
    (t : Transaction) :
    Together (SameReply hooks) Any (handler t complete) (handler t complete) := by
  cases hg with
  | code hmodes hissue =>
    obtain rfl := Option.some.inj h
    exact responder_together hmodes hissue hcomplete t
  | token hmodes hissue =>
    obtain rfl := Option.some.inj h
    exact responder_together hmodes hissue hcomplete t

end Grant

theorem Dispatcher.firstDone_together {s : Type} {R : s → s → Prop} {xs : List (Step s Flow)}
    (h : ∀ x ∈ xs, Together R Any x x) : Together R Any (firstDone xs) (firstDone xs) := by
  induction xs with
  | nil => exact together_pure trivial
  | cons x rest ih =>
    obtain ⟨hx, hrest⟩ := List.forall_mem_cons.1 h
    refine hx.guarded.bind fun flow _ => ?_
    cases flow with
    | done => exact together_pure trivial
    | next => exact ih hrest

/-- A server of bundled grants whose callbacks are functions of their arguments. -/
structure Server.Functional (s : Server σ) : Prop where
  responders : ∀ l ∈ s.dispatcher.responders, ∃ g : Grant σ, g.Functional ∧ g.response = some l.handler
  readers : ∀ link ∈ s.clients.readers, ∀ stored, (link stored).Steady

theorem Server.Functional.respond {s : Server σ} (hs : s.Functional) {complete : Completion σ}
    (hcomplete : complete.Functional) (t : Transaction) :
    Together (SameReply hooks) Any (s.dispatcher.respond t complete)
      (s.dispatcher.respond t complete) := by
  refine Dispatcher.firstDone_together fun x hx => ?_
  obtain ⟨l, hl, rfl⟩ := List.mem_map.1 hx
  obtain ⟨g, hg, hhandler⟩ := hs.responders l (List.mem_filter.1 hl).1
  exact hg.together hhandler hcomplete t

end AuthServer
