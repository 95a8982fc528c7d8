import AuthServer.Endpoint.Error
import AuthServer.Proofs.Endpoint.Response

/-!
# How an error is told

The removal is armed before any error responder is asked, and stays armed when
all of them leave the error alone.
-/

namespace AuthServer

variable {σ : Type} {v v' : Visit σ}

inductive Server.Redirecting (s : Server σ) (e : OAuthError) (v : Visit σ) :
    Except Fault Unit → Visit σ → Prop where
  | absent : v.request.transaction = none → Redirecting s e v (.error (.error e)) v
  | handed {t : Transaction} {r : Except Fault Unit} {reply : Reply σ} :
    v.request.transaction = some t →
    (s.dispatcher.respondError e t).run (s.arm v).reply = (r, reply) →
    Redirecting s e v r ((s.arm v).withReply reply)

theorem Server.redirectError_cases {s : Server σ} {e : OAuthError} {r : Except Fault Unit}
    (h : (s.redirectError e).run v = (r, v')) : Redirecting s e v r v' := by
  simp only [redirectError, Step.run_gets_bind] at h
  rcases ht : v.request.transaction with _ | t <;> rw [ht] at h
  · cases h
    exact .absent ht
  · rcases Step.bind_cases h with ⟨_, _, hx, h⟩ | ⟨_, hx, -⟩ <;> cases hx
    cases h
    exact .handed ht rfl

inductive ErrorRenderer.Rendering (renderer : ErrorRenderer σ) (e : OAuthError) (v : Visit σ) :
    Except Fault Unit → Visit σ → Prop where
  | direct : renderer.options.mode = .direct →
    Rendering renderer e v (.ok ()) (v.withReply ⟨writeDirect e v.response, v.world.host⟩)
  | absent : renderer.options.mode = .indirect → Rendering renderer e v (.error (.error e)) v
  | indirect {t : Transaction} {r : Except Fault Unit} {reply : Reply σ} :
    renderer.options.mode = .indirect → v.request.transaction = some t →
    (renderer.renderIndirect e t).run v.reply = (r, reply) →
    Rendering renderer e v r (v.withReply reply)

theorem ErrorRenderer.render_cases {renderer : ErrorRenderer σ} {e : OAuthError}
    {r : Except Fault Unit} (h : (renderer.render e).run v = (r, v')) :
    Rendering renderer e v r v' := by
  simp only [render] at h
  cases hm : renderer.options.mode <;> rw [hm] at h
  · cases h
    exact .direct hm
  · simp only [Step.run_gets_bind] at h
    rcases ht : v.request.transaction with _ | t <;> rw [ht] at h <;> cases h
    · exact .absent hm
    · exact .indirect hm ht rfl

end AuthServer
