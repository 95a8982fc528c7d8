import AuthServer.Endpoint.Error

/-!
# Steps that keep a property

A handler may do anything to the response it is given. What all handlers of a
server keep, its pipelines keep as well, also where they fail.
-/

namespace AuthServer

namespace Step

variable {s α β : Type} {P : s → Prop}

/-- A state with `P` stays one, also after a fault. -/
def Keeps (x : Step s α) (P : s → Prop) : Prop := ∀ st, P st → P (x.run st).2

theorem Keeps.of_run {x : Step s α} {st st' : s} {r : Except Fault α} (hx : x.Keeps P)
    (h : x.run st = (r, st')) (hst : P st) : P st' := by
  have hkept := hx st hst
  rwa [h] at hkept

theorem keeps_pure (a : α) : (pure a : Step s α).Keeps P := fun _ h => h

theorem keeps_fail (e : OAuthError) : (fail e : Step s α).Keeps P := fun _ h => h

theorem keeps_crash : (crash : Step s α).Keeps P := fun _ h => h

theorem keeps_ofExcept (r : Except OAuthError α) : (ofExcept r : Step s α).Keeps P := by
  cases r with
  | ok a => exact keeps_pure a
  | error e => exact keeps_fail e

theorem keeps_gets {t : Type} (f : s → t) : (gets f).Keeps P := fun _ h => h

theorem keeps_modify {f : s → s} (hf : ∀ st, P st → P (f st)) : (modify f).Keeps P :=
  fun st h => hf st h

theorem Keeps.bind {x : Step s α} {f : α → Step s β} (hx : x.Keeps P) (hf : ∀ a, (f a).Keeps P) :
    (x >>= f).Keeps P := by
  intro st h
  have hst := hx st h
  rw [run_bind]
  rcases hr : x.run st with ⟨e | a, st'⟩ <;> rw [hr] at hst
  · exact hst
  · exact hf a st' hst

theorem Keeps.guarded {x : Step s α} (hx : x.Keeps P) : x.guarded.Keeps P := by
  intro st h
  rw [run_guarded]
  exact hx st h

theorem Keeps.attempt {x : Step s α} (hx : x.Keeps P) : x.attempt.Keeps P := hx

theorem Keeps.onError {x : Step s α} {recover : OAuthError → Step s Unit} (hx : x.Keeps P)
    (hr : ∀ e, (recover e).Keeps P) : (x.onError recover).Keeps P := by
  intro st h
  have hst := hx st h
  have hrecovered := fun e => hr e (x.run st).2 hst
  simp only [run, Step.onError] at hst hrecovered ⊢
  rcases hrun : x st with ⟨(e | _) | a, st'⟩ <;> rw [hrun] at hst hrecovered
  · specialize hrecovered e
    rcases hrun' : recover e st' with ⟨e' | _, st''⟩ <;> rw [hrun'] at hrecovered
    · simpa only [hrun'] using hrecovered
    · simpa only [hrun'] using hrecovered
  · exact hst
  · exact hst

section Reply

variable {σ : Type} {P : Response σ → Prop}

/-- A callback of the host does not see the response. -/
theorem keeps_inReply (x : Step σ α) : (inReply x).Keeps fun reply => P reply.response := fun _ h => h

theorem keeps_onResponse {f : Response σ → Response σ} (hf : ∀ r, P r → P (f r)) :
    (onResponse f).Keeps fun reply => P reply.response := fun _ h => hf _ h

end Reply

end Step

/-! ## Modes that redirect -/

theorem ResponseMode.render_keeps {σ : Type} {P : Response σ → Prop} {t : Transaction} {p : Params}
    {place : String → Params → String}
    (h : ∀ uri, t.redirectUri = some uri → ∀ r, P r → P (r.redirect (place uri p))) :
    ((ResponseMode.redirecting place : ResponseMode σ).render t p).Keeps fun reply =>
      P reply.response := by
  show (Step.ofExcept (redirectUri t) >>= fun uri => Step.onResponse (·.redirect (place uri p))).Keeps _
  unfold redirectUri
  rcases hu : t.redirectUri with _ | uri
  · exact Step.keeps_fail _
  · exact Step.keeps_onResponse (h uri hu)

/-! ## Pipelines -/

namespace Dispatcher

variable {σ : Type}

theorem firstDone_keeps {s : Type} {P : s → Prop} {xs : List (Step s Flow)}
    (h : ∀ x ∈ xs, x.Keeps P) : (firstDone xs).Keeps P := by
  induction xs with
  | nil => exact Step.keeps_pure _
  | cons x rest ih =>
    obtain ⟨hx, hrest⟩ := List.forall_mem_cons.1 h
    refine hx.guarded.bind fun flow => ?_
    cases flow with
    | done => exact Step.keeps_pure _
    | next => exact ih hrest

theorem respondErrorWith_keeps {P : Reply σ → Prop} {t : Transaction}
    {layers : List (Layer (ErrorResponder σ))} (h : ∀ l ∈ layers, ∀ e, (l.handler e t).Keeps P)
    (e : OAuthError) : (respondErrorWith t layers e).Keeps P := by
  induction layers generalizing e with
  | nil => exact Step.keeps_fail e
  | cons l rest ih =>
    obtain ⟨hl, hrest⟩ := List.forall_mem_cons.1 h
    refine (hl e).attempt.bind fun r => ?_
    rcases r with f | _ | _
    · exact ih hrest f.report
    · exact Step.keeps_pure ()
    · exact ih hrest e

theorem respond_keeps {P : Reply σ → Prop} {d : Dispatcher σ} {t : Transaction}
    {complete : Completion σ} (h : ∀ l ∈ d.responders, (l.handler t complete).Keeps P) :
    (d.respond t complete).Keeps P := by
  refine firstDone_keeps fun x hx => ?_
  obtain ⟨l, hl, rfl⟩ := List.mem_map.1 hx
  exact h l (List.mem_filter.1 hl).1

theorem respondError_keeps {P : Reply σ → Prop} {d : Dispatcher σ} {t : Transaction}
    (h : ∀ l ∈ d.errorResponders, ∀ e, (l.handler e t).Keeps P) (e : OAuthError) :
    (d.respondError e t).Keeps P :=
  respondErrorWith_keeps (fun l hl => h l (List.mem_filter.1 hl).1) e

theorem exchange_keeps {P : Reply σ → Prop} {d : Dispatcher σ} {req : Request}
    (h : ∀ l ∈ d.exchanges, (l.exchange req).Keeps P) (grantType : Option String) :
    (d.exchange grantType req).Keeps P := by
  refine firstDone_keeps fun x hx => ?_
  obtain ⟨l, hl, rfl⟩ := List.mem_map.1 hx
  exact h l (List.mem_filter.1 hl).1

/-- The handlers keep a property of the response, whatever they are run on. -/
structure Keeps (d : Dispatcher σ) (P : Response σ → Prop) : Prop where
  responders : ∀ l ∈ d.responders, ∀ t complete,
    (l.handler t complete).Keeps fun reply => P reply.response
  errorResponders : ∀ l ∈ d.errorResponders, ∀ e t, (l.handler e t).Keeps fun reply => P reply.response
  exchanges : ∀ l ∈ d.exchanges, ∀ req, (l.exchange req).Keeps fun reply => P reply.response

end Dispatcher

/-! ## The renderer -/

namespace ErrorRenderer

variable {σ : Type} {P : Reply σ → Prop} {renderer : ErrorRenderer σ}

theorem renderIndirect_keeps {t : Transaction}
    (hmodes : ∀ m ∈ renderer.modes, ∀ p, (m.2.render t p).Keeps P)
    (hquery : ∀ p, (ResponseMode.query.render t p).Keeps P)
    (hfragment : ∀ p, (ResponseMode.fragment.render t p).Keeps P) (e : OAuthError) :
    (renderer.renderIndirect e t).Keeps P := by
  unfold renderIndirect
  split
  · exact Step.keeps_fail e
  · unfold mode?
    split
    · rename_i mode hmode
      split at hmode
      · exact hmodes _ (Entries.mem_of_value? hmode) _
      · cases hmode
        split
        · exact hfragment _
        · exact hquery _
    · exact Step.keeps_fail e

end ErrorRenderer

end AuthServer
