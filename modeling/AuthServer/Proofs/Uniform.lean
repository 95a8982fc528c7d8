import AuthServer.Proofs.Issuing

/-!
# Uniform steps

A step on a reply is uniform when the host makes no difference to it: from
replies that a client cannot tell apart it ends with the same result, with
replies that a client cannot tell apart, and after the same questions to the
issuing callback. Bundled responders are uniform if their callback answers by
the context alone.
-/

namespace AuthServer

open Json Grant

variable {σ : Type} {journal : σ → List IssueContext}

/-- A client sees the same response. -/
structure Response.Alike (r r' : Response σ) : Prop where
  status : r'.status = r.status
  headers : r'.headers = r.headers
  body : r'.body = r.body

theorem Response.Alike.trans {r r' r'' : Response σ} (h : r.Alike r') (h' : r'.Alike r'') :
    r.Alike r'' :=
  ⟨h'.status.trans h.status, h'.headers.trans h.headers, h'.body.trans h.body⟩

/-- From `host` to `host'` and from `other` to `other'` the same questions were put. -/
def SameQuestions (journal : σ → List IssueContext) (host host' other other' : σ) : Prop :=
  ∃ news, journal host' = journal host ++ news ∧ journal other' = journal other ++ news

theorem SameQuestions.refl (host other : σ) : SameQuestions journal host host other other :=
  ⟨[], (List.append_nil _).symm, (List.append_nil _).symm⟩

theorem SameQuestions.trans {host host₁ host' other other₁ other' : σ}
    (h : SameQuestions journal host host₁ other other₁)
    (h' : SameQuestions journal host₁ host' other₁ other') :
    SameQuestions journal host host' other other' := by
  obtain ⟨news, hnews, hnews'⟩ := h
  obtain ⟨more, hmore, hmore'⟩ := h'
  exact ⟨news ++ more, by rw [hmore, hnews, List.append_assoc], by rw [hmore', hnews', List.append_assoc]⟩

theorem SameQuestions.from_silent {host₁ host host' other₁ other other' : σ}
    (h : SameQuestions journal host host' other other') (hhost : journal host = journal host₁)
    (hother : journal other = journal other₁) : SameQuestions journal host₁ host' other₁ other' := by
  obtain ⟨news, hnews, hnews'⟩ := h
  exact ⟨news, by rw [hnews, hhost], by rw [hnews', hother]⟩

namespace Step

variable {α β : Type}

/-- The step does the same from `p` and from `q`. -/
structure Agrees (journal : σ → List IssueContext) (x : Step (Reply σ) α) (p q : Reply σ) : Prop where
  result : (x.run q).1 = (x.run p).1
  response : (x.run p).2.response.Alike (x.run q).2.response
  questions : SameQuestions journal p.host (x.run p).2.host q.host (x.run q).2.host

def Uniform (journal : σ → List IssueContext) (x : Step (Reply σ) α) : Prop :=
  ∀ p q : Reply σ, p.response.Alike q.response → x.Agrees journal p q

theorem uniform_pure (a : α) : (pure a : Step (Reply σ) α).Uniform journal :=
  fun _ _ h => ⟨rfl, h, .refl _ _⟩

theorem uniform_fail (e : OAuthError) : (fail e : Step (Reply σ) α).Uniform journal :=
  fun _ _ h => ⟨rfl, h, .refl _ _⟩

theorem uniform_ofExcept (r : Except OAuthError α) :
    (ofExcept r : Step (Reply σ) α).Uniform journal := by
  cases r with
  | ok a => exact uniform_pure a
  | error e => exact uniform_fail e

theorem Uniform.bind {x : Step (Reply σ) α} {f : α → Step (Reply σ) β} (hx : x.Uniform journal)
    (hf : ∀ a, (f a).Uniform journal) : (x >>= f).Uniform journal := by
  intro p q h
  obtain ⟨hresult, hresponse, hquestions⟩ := hx p q h
  rcases hp : x.run p with ⟨e | a, p'⟩ <;> rcases hq : x.run q with ⟨e' | a', q'⟩ <;>
    rw [hp, hq] at hresult hresponse hquestions <;> cases hresult
  · exact ⟨by rw [run_bind, run_bind, hp, hq], by rw [run_bind, run_bind, hp, hq]; exact hresponse,
      by rw [run_bind, run_bind, hp, hq]; exact hquestions⟩
  · obtain ⟨hresult', hresponse', hquestions'⟩ := hf a p' q' hresponse
    exact ⟨by rw [run_bind, run_bind, hp, hq]; exact hresult',
      by rw [run_bind, run_bind, hp, hq]; exact hresponse',
      by rw [run_bind, run_bind, hp, hq]; exact hquestions.trans hquestions'⟩

theorem Uniform.guarded {x : Step (Reply σ) α} (hx : x.Uniform journal) : x.guarded.Uniform journal := by
  intro p q h
  obtain ⟨hresult, hresponse, hquestions⟩ := hx p q h
  exact ⟨by rw [run_guarded, run_guarded, hresult], by rw [run_guarded, run_guarded]; exact hresponse,
    by rw [run_guarded, run_guarded]; exact hquestions⟩

/-- A callback whose result and whose notes do not depend on the host. -/
theorem uniform_inReply {x : Step σ α} {r : Except Fault α} {news : List IssueContext}
    (hresult : ∀ host, (x.run host).1 = r) (hnews : ∀ host, journal (x.run host).2 = journal host ++ news) :
    (inReply x).Uniform journal := by
  intro p q h
  refine ⟨?_, h, ⟨news, hnews p.host, hnews q.host⟩⟩
  show (x.run q.host).1 = (x.run p.host).1
  rw [hresult, hresult]

theorem uniform_redirect (location : String) :
    (onResponse (·.redirect location) : Step (Reply σ) Unit).Uniform journal := by
  rintro p q ⟨hstatus, hheaders, hbody⟩
  refine ⟨rfl, ⟨rfl, ?_, hbody⟩, .refl _ _⟩
  show Response.setHeaderIn _ _ q.response.headers = Response.setHeaderIn _ _ p.response.headers
  rw [hheaders]

end Step

/-! ## Bundled responders -/

theorem Dispatcher.firstDone_uniform {xs : List (Step (Reply σ) Flow)}
    (h : ∀ x ∈ xs, x.Uniform journal) : (firstDone xs).Uniform journal := by
  induction xs with
  | nil => exact Step.uniform_pure _
  | cons x rest ih =>
    obtain ⟨hx, hrest⟩ := List.forall_mem_cons.1 h
    refine hx.guarded.bind fun flow => ?_
    cases flow with
    | done => exact Step.uniform_pure _
    | next => exact ih hrest

namespace Grant

variable {α : Type} {modes : ResponseModes σ} {defaultMode : String}
  {issue : IssueContext → Step σ (Option α)} {params : α → Params} {t : Transaction}

/-- The callback answers by the context alone. -/
def Determined (issue : IssueContext → Step σ (Option α)) : Prop :=
  ∃ answer : IssueContext → Except Fault (Option α), ∀ c host, ((issue c).run host).1 = answer c

theorem redirecting_uniform (place : String → Params → String) (p : Params) :
    ((ResponseMode.redirecting place : ResponseMode σ).render t p).Uniform journal :=
  (Step.uniform_ofExcept _).bind fun _ => Step.uniform_redirect _

theorem responder_uniform (hm : modes.BuiltIn) (hnoting : Noting journal issue)
    (hdetermined : Determined issue) :
    (responder modes defaultMode issue params t .none).Uniform journal := by
  unfold responder
  rcases hmode : modes.select t.request.responseMode defaultMode with e | mode
  · exact Step.uniform_fail e
  obtain ⟨place, -, rfl⟩ := hm.selected hmode
  have hvalidate : (Step.inReply ((ResponseMode.redirecting place).validate t) :
      Step (Reply σ) Unit).Uniform journal := by
    rw [show Step.inReply ((ResponseMode.redirecting place).validate t) = _ from
      funext (ResponseMode.run_validate place t)]
    exact Step.uniform_ofExcept _
  have hnone : (Step.inReply (Completion.none.run t) : Step (Reply σ) Unit).Uniform journal :=
    Step.uniform_inReply (fun _ => rfl) fun _ => (List.append_nil _).symm
  refine hvalidate.bind fun _ => (Step.uniform_ofExcept _).bind fun context => ?_
  split
  · exact (redirecting_uniform place _).bind fun _ => Step.uniform_pure _
  · obtain ⟨answer, hanswer⟩ := hdetermined
    refine (Step.uniform_inReply (hanswer context) (hnoting context)).bind fun issued => ?_
    cases issued with
    | none => exact Step.uniform_fail _
    | some issued =>
      exact hnone.bind fun _ => (redirecting_uniform place _).bind fun _ => Step.uniform_pure _

/-- An answer does not tell where the transaction was stored. -/
theorem responder_stored (hm : modes.BuiltIn) (id : Option String) (armed : Bool) :
    responder modes defaultMode issue params { t with id, removalArmed := armed } .none =
      responder modes defaultMode issue params t .none := by
  unfold responder
  rcases hmode : modes.select t.request.responseMode defaultMode with e | mode
  · rfl
  · obtain ⟨place, -, rfl⟩ := hm.selected hmode
    rfl

end Grant

namespace Server

variable {s : Server σ} {t : Transaction}

theorem Issues.uniform (hs : s.Issues fun issue => Noting journal issue ∧ Determined issue) :
    (s.dispatcher.respond t .none).Uniform journal := by
  refine Dispatcher.firstDone_uniform fun x hx => ?_
  obtain ⟨l, hl, rfl⟩ := List.mem_map.1 hx
  obtain ⟨g, hg, hhandler⟩ := hs l (List.mem_filter.1 hl).1
  obtain ⟨α, modes, defaultMode, issue, params, hm, ⟨hnoting, hdetermined⟩, hresponder⟩ :=
    hg.responder hhandler
  rw [hresponder]
  exact responder_uniform hm hnoting hdetermined

theorem Issues.respond_stored {P : ∀ {α : Type}, (IssueContext → Step σ (Option α)) → Prop}
    (hs : s.Issues P) (id : Option String) (armed : Bool) :
    s.dispatcher.respond { t with id, removalArmed := armed } .none =
      s.dispatcher.respond t .none := by
  unfold Dispatcher.respond
  congr 1
  refine List.map_congr_left fun l hl => ?_
  obtain ⟨g, hg, hhandler⟩ := hs l (List.mem_filter.1 hl).1
  obtain ⟨α, modes, defaultMode, issue, params, hm, -, hresponder⟩ := hg.responder hhandler
  rw [hresponder]
  exact responder_stored hm id armed

end Server

end AuthServer
