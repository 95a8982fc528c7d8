import AuthServer.Endpoint.Token
import AuthServer.Proofs.Endpoint.Response

/-!
# How an exchange ends

A token request is left to the exchanges: the request stays as it was.
-/

namespace AuthServer.Server

variable {σ : Type} {s : Server σ} {v v' : Visit σ}

/-- The end of the exchanges' run decides how a token request ends. -/
inductive Exchanging (s : Server σ) (v : Visit σ) : Except Fault Unit → Visit σ → Prop where
  | answered {reply : Reply σ} (metrics : Metrics) :
    (s.dispatcher.exchange (v.request.bodyText? "grant_type") v.request).run v.reply =
      (.ok .done, reply) →
    Exchanging s v (.ok ()) ((v.withReply reply).withMetrics metrics)
  | unsupported {reply : Reply σ} {type : String} (metrics : Metrics) :
    (s.dispatcher.exchange (v.request.bodyText? "grant_type") v.request).run v.reply =
      (.ok .next, reply) →
    Exchanging s v (.error (.error (.unsupportedGrantType type)))
      ((v.withReply reply).withMetrics metrics)
  | failed {e : Fault} {reply : Reply σ} (metrics : Metrics) :
    (s.dispatcher.exchange (v.request.bodyText? "grant_type") v.request).run v.reply =
      (.error e, reply) →
    Exchanging s v (.error e) ((v.withReply reply).withMetrics metrics)

theorem token_exchanging {r : Except Fault Unit} (h : s.token.run v = (r, v')) :
    Exchanging s v r v' := by
  obtain ⟨v₁, m, hx, rfl⟩ := counted_cases h
  unfold runToken at hx
  rw [Step.run_gets_bind, Step.run_bind, Step.run_asReply] at hx
  rcases hrun : (s.dispatcher.exchange (v.request.bodyText? "grant_type") v.request).run v.reply
    with ⟨e | _ | _, reply⟩ <;> simp only [hrun] at hx <;> cases hx
  · exact .failed m hrun
  · have htally : ∀ f, (s.tally f (v.withReply reply)).withMetrics m = (v.withReply reply).withMetrics m := by
      intro f
      unfold tally
      split <;> rfl
    rw [htally]
    exact .answered m hrun
  · exact .unsupported m hrun

theorem token_cases {r : Except Fault Unit} (h : s.token.run v = (r, v')) :
    ∃ flow reply m,
      (s.dispatcher.exchange (v.request.bodyText? "grant_type") v.request).run v.reply =
        (flow, reply) ∧ v' = (v.withReply reply).withMetrics m := by
  cases token_exchanging h with
  | answered m hrun => exact ⟨_, _, m, hrun, rfl⟩
  | unsupported m hrun => exact ⟨_, _, m, hrun, rfl⟩
  | failed m hrun => exact ⟨_, _, m, hrun, rfl⟩

end AuthServer.Server
