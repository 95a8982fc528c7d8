import AuthServer.Proofs.Json.Merge
import AuthServer.Proofs.Minting

/-!
# Refresh tokens in an implicit answer

The implicit grant drops the refresh token that was issued beside an access token. One that stands
among the other parameters is merged into the answer like any of them, and reaches the client.
-/

namespace AuthServer

open Json

variable {σ : Type}

theorem Issued.mem_keys_withType {p : Params} {key : String} (hne : key ≠ "token_type") :
    key ∈ (withType p).keys ↔ key ∈ p.keys := by
  unfold withType
  split
  · exact Iff.rfl
  · simp [Entries.mem_keys_put_iff, hne]

namespace Grant

theorem mem_keys_withState {p : Params} {t : Transaction} {key : String} (hne : key ≠ "state") :
    key ∈ (withState p t).keys ↔ key ∈ p.keys := by
  unfold withState
  split
  · simp [Entries.mem_keys_put_iff, hne]
  · exact Iff.rfl

/-- Other parameters than the two tokens pass, unless they are null. -/
theorem mem_keys_tokenParams {i : Issued} {key : String} (haccess : key ≠ "access_token")
    (htype : key ≠ "token_type") :
    key ∈ (tokenParams i).keys ↔ ∃ v, v ≠ .null ∧ (key, v) ∈ i.params := by
  rw [tokenParams, Issued.mem_keys_withType htype, mem_keys_merge_iff]
  simp [Entries.keys, haccess]

/-- For an allowed transaction, and in any mode, the client is told a refresh token if and only if
one stands among the other parameters of what was issued. -/
theorem refresh_token_told_iff (o : Options σ) (issue : IssueContext → Step σ (Option Issued)) :
    ∃ handler, (token o issue).response = some handler ∧ ∀ t complete reply, ∃ trials,
      InTurn (Stage.run (o.modes.select t.request.responseMode "fragment") issue complete t) reply
        trials ((handler t complete).run reply).2 ∧
      Stopped o.modes "fragment" tokenParams t trials ((handler t complete).run reply).1 ∧
      ∀ d p answer, t.decision = some d → d.allow = true → ⟨.render p, answer⟩ ∈ trials →
        ∃ i, ⟨.issue (.decided t d), .ok (some i)⟩ ∈ trials ∧
          ("refresh_token" ∈ p.keys ↔ ∃ v, v ≠ .null ∧ ("refresh_token", v) ∈ i.params) := by
  refine ⟨_, rfl, fun t complete reply => ?_⟩
  obtain ⟨trials, hturn, hstopped⟩ := responder_stops (Prod.eta _).symm
  refine ⟨trials, hturn, hstopped, fun d p answer hd hallow hrender => ?_⟩
  obtain ⟨i, hissued, -, rfl, -⟩ := hstopped.careful.rendered hd hallow hrender
  refine ⟨i, hissued, ?_⟩
  rw [mem_keys_withState (by decide), mem_keys_tokenParams (by decide) (by decide)]

/-! ## A refresh token among the parameters -/

def riding : IssueContext → Step Unit (Option Issued) := fun _ =>
  pure (some ⟨"xyz", none, [("refresh_token", .str "r1")]⟩)

def grantedToken : Transaction :=
  { Transaction.ofRequest (.ofType ⟨["token"]⟩) with
    redirectUri := some "https://c1.example/cb"
    decision := some ⟨true, []⟩ }

/-- The parameters that are rendered, and where they lead. -/
theorem riding_told :
    ∃ handler p reply, (token .standard riding).response = some handler ∧
      (handler grantedToken .none).run ⟨.empty, ()⟩ = (.ok .done, reply) ∧
      InTurn (Stage.run (.ok .fragment) riding .none grantedToken) ⟨.empty, ()⟩
        [⟨.validate, .ok none⟩,
          ⟨.issue (.decided grantedToken ⟨true, []⟩),
            .ok (some ⟨"xyz", none, [("refresh_token", .str "r1")]⟩)⟩,
          ⟨.complete, .ok none⟩, ⟨.render p, .ok none⟩] reply ∧
      p.string? "refresh_token" = some "r1" ∧
      reply.response.header? "Location" =
        some "https://c1.example/cb#access_token=xyz&refresh_token=r1&token_type=Bearer" := by
  refine ⟨_, [("access_token", .str "xyz"), ("refresh_token", .str "r1"),
    ("token_type", .str "Bearer")], _, rfl, rfl, ?_, rfl, by decide +kernel⟩
  exact .cons rfl (.cons rfl (.cons rfl (.cons rfl (.nil _))))

end Grant

end AuthServer
