import AuthServer.Exchange.Bundled
import AuthServer.Proofs.Endpoint.Authorization
import AuthServer.Proofs.Location

/-!
# What bundled handlers leave alone

The bundled grants and exchanges write a response: its status, its headers and
its body. They neither finish it nor touch its hooks.
-/

namespace AuthServer

open Json

variable {σ : Type}

/-- The hooks and whether it is finished tell if a response has `P`. -/
def Response.Settled (P : Response σ → Prop) : Prop :=
  ∀ r r', r'.hooks = r.hooks → r'.finished = r.finished → P r → P r'

theorem Response.Settled.redirectable {P : Response σ → Prop} (hP : Settled P)
    (uri : Option String) : Redirectable uri P :=
  fun _ _ r _ hr => ⟨hP r _ rfl rfl hr, hP r _ rfl rfl hr⟩

inductive Exchange.Bundled : Exchange σ → Prop where
  | issuing {ρ : Type} {read : Request → Params → Except OAuthError ρ} {refused : String}
    {issue : Issue σ ρ} : Bundled (Exchange.issuing read refused issue)

theorem Exchange.Bundled.keeps {P : Response σ → Prop} (hP : Response.Settled P) {x : Exchange σ}
    (hx : Exchange.Bundled x) (req : Request) : (x req).Keeps fun reply => P reply.response := by
  cases hx with
  | issuing =>
    unfold Exchange.issuing
    rcases req.body with _ | body
    · exact Step.keeps_fail _
    · refine (Step.keeps_ofExcept _).bind fun request => (Step.keeps_inReply _).bind fun issued => ?_
      cases issued with
      | none => exact Step.keeps_fail _
      | some issued =>
        have hwrite : ∀ r, P r → P (issued.write r) := fun r hr => hP r _ rfl rfl hr
        exact (Step.keeps_onResponse hwrite).bind fun _ => Step.keeps_pure _

namespace Server

/-- A server of bundled grants and exchanges keeps what hooks and finish tell. -/
theorem Bundled.keeps {s : Server σ} (hs : s.Bundled)
    (hx : ∀ l ∈ s.dispatcher.exchanges, Exchange.Bundled l.exchange) {P : Response σ → Prop}
    (hP : Response.Settled P) : s.dispatcher.Keeps P where
  responders l hl t complete := by
    obtain ⟨g, hg, hhandler⟩ := hs.responders l hl
    exact hg.response_keeps (hP.redirectable _) hhandler complete
  errorResponders l hl e t := by
    obtain ⟨g, hg, hhandler⟩ := hs.errorResponders l hl
    exact hg.error_keeps (hP.redirectable _) hhandler e
  exchanges l hl req := (hx l hl).keeps hP req

/-! ## One grant -/

/-- A plain server that issues the same code to everyone. -/
def coding (store : Store Unit) : Server Unit :=
  (plain store).addGrantAs "code" (.code .standard fun _ => pure (some "a1b1c1"))

theorem coding_bundled (store : Store Unit) : (coding store).Bundled := by
  have hplain : (plain store).Bundled := ⟨nofun, nofun⟩
  exact hplain.addGrantAs (.code ResponseModes.standard_builtIn) "code"

/-- Asks for a code, to be sent elsewhere. -/
def codeRequest : Request :=
  { Request.empty with
    query := [("response_type", .str "code"), ("client_id", .str "c1"),
      ("redirect_uri", .str "https://elsewhere.example")]
    session := some [] }

/-- The id of sixteen zero bytes. -/
def zeroId : String := "00000000000000000000000000000000"

/-- Names the transaction under that id. -/
def naming : Request :=
  { Request.empty with query := [("transaction_id", .str zeroId)], body := some [], session := some [] }

end Server

end AuthServer
