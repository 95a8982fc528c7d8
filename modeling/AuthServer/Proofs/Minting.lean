import AuthServer.Proofs.Issuing
import AuthServer.Proofs.Responding

/-!
# Minting what can be delivered

A bundled grant asks for a code or a token only once it knows how to answer,
and answers only once the host has completed. With the built-in modes that
leaves no half-written answer: the response is a redirect, or it is untouched.
-/

namespace AuthServer

open Json

variable {σ α : Type}

theorem InTurn.keeps {η s : Type} {run : η → Step s α} {P : s → Prop} {trials : List (Trial η α)}
    {st st' : s} (hturn : InTurn run st trials st') (h : ∀ x ∈ trials, (run x.handler).Keeps P)
    (hst : P st) : P st' := by
  induction hturn with
  | nil => exact hst
  | cons hrun _ ih =>
    obtain ⟨hfirst, hrest⟩ := List.forall_mem_cons.1 h
    exact ih hrest (hfirst.of_run hrun hst)

namespace Grant

/-- What the stages that were tried and the result of a responder have to do with each other. -/
structure Careful (modes : ResponseModes σ) (defaultMode : String) (params : α → Params)
    (t : Transaction) (trials : List (Trial Stage (Option α))) (r : Except Fault Flow) : Prop where
  /-- Each stage at most once, and none before an earlier one. -/
  ordered : trials.Pairwise fun x y => x.handler.rank < y.handler.rank
  unknown :
    modes.value? (t.request.responseMode.getD defaultMode) = none →
    trials = [] ∧
      r = .error (.error (.unsupportedResponseMode (t.request.responseMode.getD defaultMode)))
  validated :
    (modes.value? (t.request.responseMode.getD defaultMode)).isSome →
    ⟨.validate, .ok none⟩ ∈ trials ∨ ∃ f, ⟨.validate, .error f⟩ ∈ trials
  invalid {f : Fault} :
    ⟨.validate, .error f⟩ ∈ trials → trials = [⟨.validate, .error f⟩] ∧ r = .error f
  /-- No callback is called, and nothing but the refusal is told. -/
  denied {d : Decision} :
    t.decision = some d → d.allow = false → ⟨.validate, .ok none⟩ ∈ trials →
    ∃ answer, trials = [⟨.validate, .ok none⟩,
      ⟨.render (("error", .str "access_denied") ::
        (t.request.state.map fun state => ("state", .str state)).toList), answer⟩]
  /-- Asked for once, as no stage is tried twice. -/
  issued {d : Decision} :
    t.decision = some d → d.allow = true → ⟨.validate, .ok none⟩ ∈ trials →
    ∃ answer, ⟨.issue (.decided t d), answer⟩ ∈ trials
  completed {answer : Except Fault (Option α)} :
    ⟨.complete, answer⟩ ∈ trials → ∃ d a, t.decision = some d ∧ d.allow = true ∧
      ⟨.issue (.decided t d), .ok (some a)⟩ ∈ trials
  rendered {d : Decision} {p : Params} {answer : Except Fault (Option α)} :
    t.decision = some d → d.allow = true → ⟨.render p, answer⟩ ∈ trials →
    ∃ a, ⟨.issue (.decided t d), .ok (some a)⟩ ∈ trials ∧ ⟨.complete, .ok none⟩ ∈ trials ∧
      p = withState (params a) t ∧
      ∀ state, t.request.state = some state → p.value? "state" = some (.str state)
  refused {c : IssueContext} :
    ⟨.issue c, .ok none⟩ ∈ trials →
    ∃ e : OAuthError, r = .error (.error e) ∧ e.code = "access_denied" ∧ e.status = 403
  failed {stage : Stage} {f : Fault} : ⟨stage, .error f⟩ ∈ trials → r = .error f
  /-- Nothing else stops a responder. -/
  stopped {f : Fault} :
    r = .error f → t.decision.isSome →
    (modes.value? (t.request.responseMode.getD defaultMode)).isSome →
    (∃ stage, ⟨stage, .error f⟩ ∈ trials) ∨ ∃ c, ⟨.issue c, .ok none⟩ ∈ trials
  done : r = .ok .done ↔ ∃ p, ⟨.render p, .ok none⟩ ∈ trials
  settled : r ≠ .ok .next

section

variable {modes : ResponseModes σ} {defaultMode : String} {params : α → Params} {t : Transaction}
  {d : Decision} {trials : List (Trial Stage (Option α))} {r : Except Fault Flow}

theorem Stage.rank_le (stage : Stage) : stage.rank ≤ 3 := by
  cases stage <;> simp [rank]

theorem deniedParams_eq (t : Transaction) :
    deniedParams t = ("error", .str "access_denied") ::
      (t.request.state.map fun state => ("state", .str state)).toList := by
  unfold deniedParams field
  cases t.request.state <;> rfl

theorem value?_withState (p : Params) {state : String} (h : t.request.state = some state) :
    (withState p t).value? "state" = some (.str state) := by
  rw [withState, h]
  exact Entries.value?_put_self p "state" _

theorem Due.ordered {stage : Stage} (h : Due params t trials stage) (answer : Except Fault (Option α)) :
    (trials ++ [(⟨stage, answer⟩ : Trial Stage (Option α))]).Pairwise fun x y =>
      x.handler.rank < y.handler.rank := by
  cases h <;> simp [Stage.rank]

theorem Due.validated {stage : Stage} (h : Due params t trials stage) :
    stage = .validate ∨ ⟨.validate, .ok none⟩ ∈ trials := by
  cases h with
  | validate => exact .inl rfl
  | deny | issue | complete | answer => exact .inr List.mem_cons_self

theorem Due.due_of_mem {stage : Stage} (h : Due params t trials stage) {x : Trial Stage (Option α)}
    (hx : x ∈ trials) : ∃ before, before ⊆ trials ∧ Due params t before x.handler := by
  cases h with
  | validate => cases hx
  | deny | issue =>
    obtain rfl := List.mem_singleton.1 hx
    exact ⟨[], List.nil_subset _, .validate⟩
  | complete hd hallow =>
    rcases List.mem_cons.1 hx with rfl | hx
    · exact ⟨[], List.nil_subset _, .validate⟩
    · obtain rfl := List.mem_singleton.1 hx
      exact ⟨_, List.subset_append_left _ _, .issue hd hallow⟩
  | answer hd hallow =>
    rcases List.mem_cons.1 hx with rfl | hx
    · exact ⟨[], List.nil_subset _, .validate⟩
    rcases List.mem_cons.1 hx with rfl | hx
    · exact ⟨_, List.subset_append_left [_] _, .issue hd hallow⟩
    · obtain rfl := List.mem_singleton.1 hx
      exact ⟨_, List.subset_append_left [_, _] _, .complete hd hallow⟩

/-- Nothing is tried before it is due. -/
theorem Stopped.due_of_mem (h : Stopped modes defaultMode params t trials r)
    {x : Trial Stage (Option α)} (hx : x ∈ trials) :
    ∃ before, before ⊆ trials ∧ Due params t before x.handler := by
  cases h with
  | unknown => cases hx
  | undecided =>
    obtain rfl := List.mem_singleton.1 hx
    exact ⟨[], List.nil_subset _, .validate⟩
  | failed _ hdue | refused _ hdue | done _ hdue =>
    rcases List.mem_append.1 hx with hx | hx
    · obtain ⟨before, hsub, hbefore⟩ := hdue.due_of_mem hx
      exact ⟨before, List.Subset.trans hsub (List.subset_append_left _ _), hbefore⟩
    · obtain rfl := List.mem_singleton.1 hx
      exact ⟨_, List.subset_append_left _ _, hdue⟩

theorem Stopped.careful (h : Stopped modes defaultMode params t trials r) :
    Careful modes defaultMode params t trials r where
  ordered := by
    cases h with
    | unknown => exact .nil
    | undecided => exact List.pairwise_singleton _ _
    | failed _ hdue | refused _ hdue | done _ hdue => exact hdue.ordered _
  unknown hvalue := by
    cases h with
    | unknown hmode =>
      obtain ⟨-, rfl⟩ := ResponseModes.select_error hmode
      exact ⟨rfl, rfl⟩
    | undecided hmode | failed hmode | refused hmode | done hmode =>
      rw [ResponseModes.select_ok hmode] at hvalue
      cases hvalue
  validated hvalue := by
    cases h with
    | unknown hmode =>
      rw [(ResponseModes.select_error hmode).1] at hvalue
      cases hvalue
    | undecided => exact .inl List.mem_cons_self
    | failed _ hdue =>
      rcases hdue.validated with rfl | hvalid
      · exact .inr ⟨_, List.mem_append_right _ List.mem_cons_self⟩
      · exact .inl (List.mem_append_left _ hvalid)
    | refused _ hdue | done _ hdue =>
      exact .inl (List.mem_append_left _ (hdue.validated.resolve_left nofun))
  invalid hmem := by
    cases h with
    | unknown => cases hmem
    | undecided => simp at hmem
    | failed _ hdue | refused _ hdue | done _ hdue => cases hdue <;> simp_all
  denied hd hallow hvalid := by
    rw [← deniedParams_eq]
    cases h with
    | unknown => cases hvalid
    | undecided _ hnone => simp_all
    | failed _ hdue | refused _ hdue | done _ hdue => cases hdue <;> simp_all
  issued hd hallow hvalid := by
    cases h with
    | unknown => cases hvalid
    | undecided _ hnone => simp_all
    | failed _ hdue | refused _ hdue | done _ hdue => cases hdue <;> simp_all
  completed hmem := by
    obtain ⟨before, hsub, hdue⟩ := h.due_of_mem hmem
    cases hdue with
    | complete hd hallow =>
      exact ⟨_, _, hd, hallow, hsub (List.mem_cons_of_mem _ List.mem_cons_self)⟩
  rendered hd hallow hmem := by
    obtain ⟨before, hsub, hdue⟩ := h.due_of_mem hmem
    cases hdue with
    | deny hd' hdeny =>
      cases hd.symm.trans hd'
      rw [hdeny] at hallow
      cases hallow
    | answer hd' =>
      cases hd.symm.trans hd'
      refine ⟨_, hsub ?_, hsub ?_, rfl, fun state => value?_withState _⟩
      · exact List.mem_cons_of_mem _ List.mem_cons_self
      · exact List.mem_cons_of_mem _ (List.mem_cons_of_mem _ List.mem_cons_self)
  refused hmem := by
    cases h with
    | unknown => cases hmem
    | undecided => simp at hmem
    | refused => exact ⟨_, rfl, by decide, by decide⟩
    | failed _ hdue | done _ hdue => cases hdue <;> simp_all
  failed hmem := by
    cases h with
    | unknown => cases hmem
    | undecided => simp at hmem
    | failed _ hdue | refused _ hdue | done _ hdue => cases hdue <;> simp_all
  stopped hr hd hvalue := by
    cases h with
    | unknown hmode =>
      rw [(ResponseModes.select_error hmode).1] at hvalue
      cases hvalue
    | undecided _ hnone =>
      rw [hnone] at hd
      cases hd
    | failed =>
      cases hr
      exact .inl ⟨_, List.mem_append_right _ List.mem_cons_self⟩
    | refused => exact .inr ⟨_, List.mem_append_right _ List.mem_cons_self⟩
    | done => cases hr
  done := by
    cases h with
    | unknown => simp
    | undecided => simp
    | failed _ hdue | refused _ hdue | done _ hdue => cases hdue <;> simp_all
  settled := by cases h <;> nofun

end

/-! ## Built-in modes -/

/-- The mode of the answer is one of the two that redirect. -/
def Redirects (modes : ResponseModes σ) (defaultMode : String) (t : Transaction) : Prop :=
  ∀ mode, modes.select t.request.responseMode defaultMode = .ok mode →
    mode = .query ∨ mode = .fragment

/-- No response is left half-written. -/
structure Whole (t : Transaction) (trials : List (Trial Stage (Option α))) (r : Except Fault Flow)
    (reply reply' : Reply σ) : Prop where
  untouched {f : Fault} : r = .error f → reply'.response = reply.response
  redirected :
    r = .ok .done → ∃ place uri p, Redirect.Placing place ∧ t.redirectUri = some uri ∧
      ⟨.render p, .ok none⟩ ∈ trials ∧
      reply'.response = reply.response.redirect (place uri p) ∧ reply'.response.status = 302 ∧
      reply'.response.header? "Location" = some (place uri p)

section

variable {modes : ResponseModes σ} {defaultMode : String} {params : α → Params}
  {issue : IssueContext → Step σ (Option α)} {complete : Completion σ} {t : Transaction}
  {trials : List (Trial Stage (Option α))} {r : Except Fault Flow} {reply reply' : Reply σ}

theorem Stage.run_keeps {P : Response σ → Prop} {stage : Stage} (hstage : stage.rank < 3)
    (selected : Except OAuthError (ResponseMode σ)) :
    (run selected issue complete t stage).Keeps fun reply => P reply.response := by
  cases stage with
  | validate =>
    exact (Step.keeps_ofExcept _).bind fun _ =>
      (Step.keeps_inReply _).bind fun _ => Step.keeps_pure _
  | issue c => exact Step.keeps_inReply _
  | complete => exact (Step.keeps_inReply _).bind fun _ => Step.keeps_pure _
  | render p => exact absurd hstage (Nat.lt_irrefl 3)

/-- A redirect is written in one go, or not at all. -/
theorem Stage.run_render_redirecting (place : String → Params → String) (p : Params) :
    (run (.ok (.redirecting place)) issue complete t (.render p)).run reply =
      match t.redirectUri with
      | some uri => (.ok none, { reply with response := reply.response.redirect (place uri p) })
      | none => (.error (.error ResponseMode.noRedirect), reply) := by
  rcases huri : t.redirectUri with _ | uri
  · have hrender : ((ResponseMode.redirecting place).render t p).run reply =
        (.error (.error ResponseMode.noRedirect), reply) := by
      show (Step.ofExcept (ResponseMode.redirectUri t) >>= _).run reply = _
      rw [ResponseMode.redirectUri, huri]
      rfl
    exact Stage.run_render hrender
  · exact Stage.run_render (ResponseMode.run_render huri p reply)

/-- What fails writes nothing. -/
theorem Stage.run_failed {place : String → Params → String} {stage : Stage} {f : Fault}
    (h : (run (.ok (.redirecting place)) issue complete t stage).run reply = (.error f, reply')) :
    reply'.response = reply.response := by
  by_cases hstage : stage.rank < 3
  · exact (run_keeps (P := (· = reply.response)) hstage _).of_run h rfl
  · cases stage with
    | render p =>
      rw [run_render_redirecting] at h
      cases huri : t.redirectUri <;> rw [huri] at h <;> cases h
      rfl
    | validate => exact absurd (Nat.zero_lt_succ 2) hstage
    | issue c => exact absurd (Nat.succ_lt_succ (Nat.zero_lt_succ 1)) hstage
    | complete => exact absurd (Nat.lt_succ_self 2) hstage

theorem unwritten {selected : Except OAuthError (ResponseMode σ)}
    (hturn : InTurn (Stage.run selected issue complete t) reply trials reply')
    (hearlier : ∀ x ∈ trials, x.handler.rank < 3) : reply'.response = reply.response :=
  hturn.keeps (P := fun reply' => reply'.response = reply.response)
    (fun x hx => Stage.run_keeps (P := (· = reply.response)) (hearlier x hx) selected) rfl

theorem Due.earlier {stage : Stage} (hdue : Due params t trials stage) :
    ∀ x ∈ trials, x.handler.rank < 3 := by
  intro x hx
  obtain ⟨-, -, hlt⟩ := List.pairwise_append.1 (hdue.ordered (.ok none))
  exact Nat.lt_of_lt_of_le (hlt x hx _ List.mem_cons_self) stage.rank_le

theorem Stopped.whole (hm : Redirects modes defaultMode t)
    (hturn : InTurn (Stage.run (modes.select t.request.responseMode defaultMode) issue complete t)
      reply trials reply')
    (h : Stopped modes defaultMode params t trials r) : Whole t trials r reply reply' := by
  cases h with
  | unknown =>
    cases hturn
    exact ⟨fun _ => rfl, nofun⟩
  | undecided =>
    refine ⟨fun _ => unwritten hturn fun x hx => ?_, nofun⟩
    obtain rfl := List.mem_singleton.1 hx
    exact Nat.zero_lt_succ 2
  | failed hmode hdue =>
    obtain ⟨place, -, rfl⟩ := ResponseMode.placing_of_builtIn (hm _ hmode)
    rw [hmode] at hturn
    obtain ⟨_, hturn, hfailed⟩ := InTurn.concat_iff.1 hturn
    exact ⟨fun _ => (Stage.run_failed hfailed).trans (unwritten hturn hdue.earlier), nofun⟩
  | refused _ hdue =>
    obtain ⟨_, hturn, hissue⟩ := InTurn.concat_iff.1 hturn
    have hlast := unwritten (.single hissue) (by simp [Stage.rank])
    exact ⟨fun _ => hlast.trans (unwritten hturn hdue.earlier), nofun⟩
  | @done _ _ p hmode hdue =>
    obtain ⟨place, hplace, rfl⟩ := ResponseMode.placing_of_builtIn (hm _ hmode)
    rw [hmode] at hturn
    obtain ⟨_, hbefore, hrender⟩ := InTurn.concat_iff.1 hturn
    rw [Stage.run_render_redirecting] at hrender
    rcases huri : t.redirectUri with _ | uri <;> rw [huri] at hrender <;> cases hrender
    refine ⟨nofun, fun _ => ⟨place, uri, p, hplace, huri, ?_, ?_, rfl, ?_⟩⟩
    · exact List.mem_append_right _ List.mem_cons_self
    · rw [unwritten hbefore hdue.earlier]
    · exact Response.header?_redirect _ _

end

theorem Redirects.of_builtIn {modes : ResponseModes σ} (hm : modes.BuiltIn) (defaultMode : String)
    (t : Transaction) : Redirects modes defaultMode t :=
  fun _ hmode => hm _ (Entries.mem_of_value? (ResponseModes.select_ok hmode))

/-! ## The bundled responders -/

/-- In every run the stages are tried with care, and if the mode redirects, the response is whole. -/
def Delivering (modes : ResponseModes σ) (defaultMode : String)
    (issue : IssueContext → Step σ (Option α)) (params : α → Params) (handler : Responder σ) : Prop :=
  ∀ t complete reply, ∃ trials,
    InTurn (Stage.run (modes.select t.request.responseMode defaultMode) issue complete t) reply
      trials ((handler t complete).run reply).2 ∧
    Careful modes defaultMode params t trials ((handler t complete).run reply).1 ∧
    (Redirects modes defaultMode t →
      Whole t trials ((handler t complete).run reply).1 reply ((handler t complete).run reply).2)

theorem responder_delivering (modes : ResponseModes σ) (defaultMode : String)
    (issue : IssueContext → Step σ (Option α)) (params : α → Params) :
    Delivering modes defaultMode issue params (responder modes defaultMode issue params) := by
  intro t complete reply
  obtain ⟨trials, hturn, hstopped⟩ := responder_stops (Prod.eta _).symm
  exact ⟨trials, hturn, hstopped.careful, fun hm => hstopped.whole hm hturn⟩

/-- The bundled grants mint only what they can deliver. -/
theorem bundled_delivering (o : Options σ) :
    (∀ issue, ∃ handler, (code o issue).response = some handler ∧
      Delivering o.modes "query" issue codeParams handler) ∧
    ∀ issue, ∃ handler, (token o issue).response = some handler ∧
      Delivering o.modes "fragment" issue tokenParams handler := by
  refine ⟨fun issue => ⟨_, rfl, ?_⟩, fun issue => ⟨_, rfl, ?_⟩⟩
  · exact responder_delivering o.modes "query" issue codeParams
  · exact responder_delivering o.modes "fragment" issue tokenParams

end Grant

end AuthServer
