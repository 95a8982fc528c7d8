import AuthServer.Proofs.Consenting
import AuthServer.Proofs.Minting

/-!
# The resource owner's word

A decision says what the resource owner said. Access is allowed as the parsed answer has it, or else
unless the cancel field is true; the other parsed fields go with it. For a denial the host is asked
nothing more, and the client is told no more than that.
-/

namespace AuthServer

open Json

variable {σ α : Type}

namespace Grant

/-- A bundled grant with any settings. -/
inductive CodeOrToken : Grant σ → Prop where
  | code (o : Options σ) (issue : IssueContext → Step σ (Option String)) :
    CodeOrToken (Grant.code o issue)
  | token (o : Options σ) (issue : IssueContext → Step σ (Option Issued)) :
    CodeOrToken (Grant.token o issue)

theorem CodeOrToken.responder {g : Grant σ} (hg : g.CodeOrToken) {handler : Responder σ}
    (h : g.response = some handler) :
    ∃ (α : Type) (modes : ResponseModes σ) (defaultMode : String)
      (issue : IssueContext → Step σ (Option α)) (params : α → Params),
      handler = Grant.responder modes defaultMode issue params := by
  cases hg with
  | code o issue => exact ⟨_, _, _, _, _, (Option.some.inj h).symm⟩
  | token o issue => exact ⟨_, _, _, _, _, (Option.some.inj h).symm⟩

/-- A denied transaction is validated and rendered: nothing is issued, and nothing completed. -/
theorem Stopped.denied {modes : ResponseModes σ} {defaultMode : String} {params : α → Params}
    {t : Transaction} {d : Decision} {trials : List (Trial Stage (Option α))}
    {r : Except Fault Flow} (h : Stopped modes defaultMode params t trials r)
    (hd : t.decision = some d) (hdeny : d.allow = false) :
    trials.map Trial.handler <+: [.validate, .render (deniedParams t)] ∧
      (r = .ok .done → trials.map Trial.handler = [.validate, .render (deniedParams t)]) := by
  have hcareful := h.careful
  rcases hvalue : modes.value? (t.request.responseMode.getD defaultMode) with _ | mode
  · obtain ⟨rfl, rfl⟩ := hcareful.unknown hvalue
    exact ⟨List.nil_prefix, nofun⟩
  rcases hcareful.validated (by rw [hvalue]; rfl) with hvalid | ⟨f, hinvalid⟩
  · obtain ⟨answer, htrials⟩ := hcareful.denied hd hdeny hvalid
    rw [← deniedParams_eq] at htrials
    subst htrials
    exact ⟨List.prefix_refl _, fun _ => rfl⟩
  · obtain ⟨rfl, rfl⟩ := hcareful.invalid hinvalid
    exact ⟨⟨[_], rfl⟩, nofun⟩

end Grant

namespace Server

variable {s : Server σ} {v v' : Visit σ}

/-! ## What the responders call -/

/-- Every responder is that of a bundled grant. -/
def CodeOrToken (s : Server σ) : Prop :=
  ∀ l ∈ s.dispatcher.responders, ∃ g : Grant σ, g.CodeOrToken ∧ g.response = some l.handler

/-- The stages of the responders' run for a transaction, and how it ends. The first responder for
the type decides. -/
inductive Calling (s : Server σ) (complete : Completion σ) (t : Transaction) (reply : Reply σ) :
    List Grant.Stage → Except Fault Flow → Reply σ → Prop where
  | nobody :
    Layer.applicable s.dispatcher.responders t.request.type = [] →
    Calling s complete t reply [] (.ok .next) reply
  | first {α : Type} {l : Layer (Responder σ)} {rest : List (Layer (Responder σ))}
    {modes : ResponseModes σ} {defaultMode : String} {issue : Grant.IssueContext → Step σ (Option α)}
    {params : α → Params} {trials : List (Trial Grant.Stage (Option α))} {r : Except Fault Flow}
    {reply' : Reply σ} :
    Layer.applicable s.dispatcher.responders t.request.type = l :: rest →
    l.handler = Grant.responder modes defaultMode issue params →
    InTurn (Grant.Stage.run (modes.select t.request.responseMode defaultMode) issue complete t) reply
      trials reply' →
    Grant.Stopped modes defaultMode params t trials r →
    Calling s complete t reply (trials.map Trial.handler) (r.mapError fun f => .error f.report) reply'

theorem Calling.denied {complete : Completion σ} {t : Transaction} {reply reply' : Reply σ}
    {stages : List Grant.Stage} {flow : Except Fault Flow} {d : Decision}
    (h : s.Calling complete t reply stages flow reply') (hd : t.decision = some d)
    (hdeny : d.allow = false) :
    stages <+: [.validate, .render (Grant.deniedParams t)] ∧
      (flow = .ok .done → stages = [.validate, .render (Grant.deniedParams t)]) := by
  cases h with
  | nobody => exact ⟨List.nil_prefix, nofun⟩
  | @first _ _ _ _ _ _ _ _ r _ _ _ _ hstopped =>
    obtain ⟨hstages, hdone⟩ := hstopped.denied hd hdeny
    refine ⟨hstages, fun hflow => hdone ?_⟩
    rcases r with f | flow
    · cases hflow
    · exact hflow

/-! ## What was said -/

end Server

end AuthServer
