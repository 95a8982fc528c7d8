import AuthServer.Grant.Bundled
import AuthServer.Proofs.InTurn

/-!
# The stages of a bundled responder

The mode is validated, a grant is issued, the host completes, the answer is
rendered: a responder goes through these stages and stops at the first that
fails. A transaction that was denied is rendered at once.
-/

namespace AuthServer.Grant

open Json

variable {σ α : Type}

/-- What a responder calls. -/
inductive Stage where
  | validate
  | issue (c : IssueContext)
  | complete
  | render (p : Params)

namespace Stage

/-- The place of a stage among the others. -/
def rank : Stage → Nat
  | validate => 0
  | issue _ => 1
  | complete => 2
  | render _ => 3

/-- A stage in the mode that was selected. Only the second gives something. -/
def run (selected : Except OAuthError (ResponseMode σ)) (issuing : IssueContext → Step σ (Option α))
    (completion : Completion σ) (t : Transaction) : Stage → Step (Reply σ) (Option α)
  | validate => do
    let mode ← Step.ofExcept selected
    Step.inReply (mode.validate t)
    pure none
  | issue c => Step.inReply (issuing c)
  | complete => do
    Step.inReply (completion.run t)
    pure none
  | render p => do
    let mode ← Step.ofExcept selected
    mode.render t p
    pure none

end Stage

/-- What an issuing callback is told of a transaction. -/
def IssueContext.decided (t : Transaction) (d : Decision) : IssueContext :=
  ⟨t.client, t.redirectUri, t.user, d, t.request, t.locals⟩

/-- The stages behind, and the one that is due. -/
inductive Due (params : α → Params) (t : Transaction) :
    List (Trial Stage (Option α)) → Stage → Prop where
  | validate : Due params t [] .validate
  | deny {d : Decision} :
    t.decision = some d → d.allow = false →
    Due params t [⟨.validate, .ok none⟩] (.render (deniedParams t))
  | issue {d : Decision} :
    t.decision = some d → d.allow = true →
    Due params t [⟨.validate, .ok none⟩] (.issue (.decided t d))
  | complete {d : Decision} {a : α} :
    t.decision = some d → d.allow = true →
    Due params t [⟨.validate, .ok none⟩, ⟨.issue (.decided t d), .ok (some a)⟩] .complete
  | answer {d : Decision} {a : α} :
    t.decision = some d → d.allow = true →
    Due params t
      [⟨.validate, .ok none⟩, ⟨.issue (.decided t d), .ok (some a)⟩, ⟨.complete, .ok none⟩]
      (.render (withState (params a) t))

/-- Where a responder stops, and its result. -/
inductive Stopped (modes : ResponseModes σ) (defaultMode : String) (params : α → Params)
    (t : Transaction) : List (Trial Stage (Option α)) → Except Fault Flow → Prop where
  | unknown {e : OAuthError} :
    modes.select t.request.responseMode defaultMode = .error e →
    Stopped modes defaultMode params t [] (.error (.error e))
  | undecided {mode : ResponseMode σ} :
    modes.select t.request.responseMode defaultMode = .ok mode → t.decision = none →
    Stopped modes defaultMode params t [⟨.validate, .ok none⟩] (.error (.error notDecided))
  | failed {mode : ResponseMode σ} {trials : List (Trial Stage (Option α))} {stage : Stage}
    {f : Fault} :
    modes.select t.request.responseMode defaultMode = .ok mode → Due params t trials stage →
    Stopped modes defaultMode params t (trials ++ [⟨stage, .error f⟩]) (.error f)
  | refused {mode : ResponseMode σ} {trials : List (Trial Stage (Option α))} {c : IssueContext} :
    modes.select t.request.responseMode defaultMode = .ok mode → Due params t trials (.issue c) →
    Stopped modes defaultMode params t (trials ++ [⟨.issue c, .ok none⟩]) (.error (.error refused))
  | done {mode : ResponseMode σ} {trials : List (Trial Stage (Option α))} {p : Params} :
    modes.select t.request.responseMode defaultMode = .ok mode → Due params t trials (.render p) →
    Stopped modes defaultMode params t (trials ++ [⟨.render p, .ok none⟩]) (.ok .done)

section

variable {modes : ResponseModes σ} {defaultMode : String} {mode : ResponseMode σ}
  {issue : IssueContext → Step σ (Option α)} {params : α → Params} {complete : Completion σ}
  {t : Transaction} {trials : List (Trial Stage (Option α))} {reply reply₁ reply' : Reply σ}
  {r : Except Fault Flow}

theorem Stage.run_validate {answer : Except Fault Unit}
    (h : (Step.inReply (mode.validate t)).run reply = (answer, reply')) :
    (run (.ok mode) issue complete t .validate).run reply = (answer.map fun _ => none, reply') := by
  show ((fun _ => none) <$> Step.inReply (mode.validate t)).run reply = _
  rw [Step.run_map, h]

theorem Stage.run_complete {answer : Except Fault Unit}
    (h : (Step.inReply (complete.run t)).run reply = (answer, reply')) :
    (run (.ok mode) issue complete t .complete).run reply = (answer.map fun _ => none, reply') := by
  show ((fun _ => none) <$> Step.inReply (complete.run t)).run reply = _
  rw [Step.run_map, h]

theorem Stage.run_render {p : Params} {answer : Except Fault Unit}
    (h : (mode.render t p).run reply = (answer, reply')) :
    (run (.ok mode) issue complete t (.render p)).run reply =
      (answer.map fun _ => none, reply') := by
  show ((fun _ => none) <$> mode.render t p).run reply = _
  rw [Step.run_map, h]

/-- What is rendered is the answer. -/
theorem render_stops (hmode : modes.select t.request.responseMode defaultMode = .ok mode)
    (hturn : InTurn (Stage.run (.ok mode) issue complete t) reply trials reply₁) {p : Params}
    (hdue : Due params t trials (.render p))
    (h : (do mode.render t p; pure Flow.done : Step (Reply σ) Flow).run reply₁ = (r, reply')) :
    ∃ trials, InTurn (Stage.run (.ok mode) issue complete t) reply trials reply' ∧
      Stopped modes defaultMode params t trials r := by
  rcases Step.bind_cases h with ⟨_, _, hrender, h⟩ | ⟨f, hrender, rfl⟩
  · cases h
    exact ⟨_, InTurn.concat_iff.2 ⟨_, hturn, Stage.run_render hrender⟩, .done hmode hdue⟩
  · exact ⟨_, InTurn.concat_iff.2 ⟨_, hturn, Stage.run_render hrender⟩, .failed hmode hdue⟩

/-- A responder goes from stage to stage until it stops. -/
theorem responder_stops
    (h : (responder modes defaultMode issue params t complete).run reply = (r, reply')) :
    ∃ trials,
      InTurn (Stage.run (modes.select t.request.responseMode defaultMode) issue complete t) reply
        trials reply' ∧
      Stopped modes defaultMode params t trials r := by
  unfold responder at h
  rcases hmode : modes.select t.request.responseMode defaultMode with e | mode <;> rw [hmode] at h
  · cases h
    exact ⟨[], .nil reply, .unknown hmode⟩
  simp only [Step.ofExcept, pure_bind] at h
  rw [Step.run_bind] at h
  rcases hvalidate : (Step.inReply (mode.validate t)).run reply with ⟨f | _, reply₁⟩ <;>
    rw [hvalidate] at h
  · cases h
    exact ⟨_, .single (Stage.run_validate hvalidate), .failed hmode .validate⟩
  have hturn : InTurn (Stage.run (.ok mode) issue complete t) reply [⟨.validate, .ok none⟩] reply₁ :=
    .single (Stage.run_validate hvalidate)
  rcases hd : t.decision with _ | d <;> simp only [IssueContext.ofTransaction, hd] at h
  · cases h
    exact ⟨_, hturn, .undecided hmode hd⟩
  rw [pure_bind] at h
  rcases hallow : d.allow with _ | _ <;> rw [hallow] at h
  · exact render_stops hmode hturn (.deny hd hallow) h
  have hissue : Due params t [⟨.validate, .ok none⟩] (.issue (.decided t d)) := .issue hd hallow
  rw [Bool.not_true, if_neg Bool.false_ne_true] at h
  change (Stage.run (.ok mode) issue complete t (.issue (.decided t d)) >>= _).run reply₁ = _ at h
  rcases Step.bind_cases h with ⟨_ | a, reply₂, hissued, h⟩ | ⟨f, hissued, rfl⟩
  · cases h
    exact ⟨_, InTurn.concat_iff.2 ⟨_, hturn, hissued⟩, .refused hmode hissue⟩
  · have hturn := InTurn.concat_iff.2 ⟨_, hturn, hissued⟩
    rcases Step.bind_cases h with ⟨_, reply₃, hcomplete, h⟩ | ⟨f, hcomplete, rfl⟩
    · have hturn := InTurn.concat_iff.2 ⟨_, hturn, Stage.run_complete hcomplete⟩
      exact render_stops hmode hturn (.answer hd hallow) h
    · have hturn := InTurn.concat_iff.2 ⟨_, hturn, Stage.run_complete hcomplete⟩
      exact ⟨_, hturn, .failed hmode (.complete hd hallow)⟩
  · exact ⟨_, InTurn.concat_iff.2 ⟨_, hturn, hissued⟩, .failed hmode hissue⟩

end

end AuthServer.Grant
