import AuthServer.Grant.Bundled
import AuthServer.Proofs.Keeping

/-!
# Where a response leads

Setting a header leaves those of other names alone, so a response leads where
its last redirect did. The bundled grants redirect to the URI of the
transaction alone, with their parameters in its query or as its fragment.
-/

namespace AuthServer

open Json

variable {σ : Type}

/-! ## Headers -/

namespace Response

variable {name name' value : String} {headers : List (String × String)}

theorem headerIn_cons (h : String × String) (rest : List (String × String)) (name : String) :
    headerIn (h :: rest) name = if Text.sameName h.1 name then some h.2 else headerIn rest name := by
  unfold headerIn
  rw [List.find?_cons]
  cases Text.sameName h.1 name <;> rfl

theorem headerIn_setHeaderIn : headerIn (setHeaderIn name value headers) name = some value := by
  induction headers with
  | nil =>
    rw [setHeaderIn, headerIn_cons, if_pos]
    simp [Text.sameName]
  | cons h rest ih =>
    unfold setHeaderIn
    by_cases hsame : Text.sameName h.1 name = true
    · rw [if_pos hsame, headerIn_cons, if_pos hsame]
    · rw [if_neg hsame, headerIn_cons, if_neg hsame, ih]

theorem headerIn_setHeaderIn_ne (hne : Text.sameName name name' = false) :
    headerIn (setHeaderIn name value headers) name' = headerIn headers name' := by
  induction headers with
  | nil =>
    rw [setHeaderIn, headerIn_cons, if_neg (by rw [hne]; exact nofun)]
  | cons h rest ih =>
    unfold setHeaderIn
    by_cases hsame : Text.sameName h.1 name = true
    · -- a header that is spelled in another way is not the one that was asked for either
      have hother : ¬ Text.sameName h.1 name' = true := by
        simp only [Text.sameName, decide_eq_true_eq, decide_eq_false_iff_not] at hsame hne ⊢
        rw [hsame]
        exact hne
      rw [if_pos hsame, headerIn_cons, headerIn_cons, if_neg hother, if_neg hother]
    · rw [if_neg hsame, headerIn_cons, headerIn_cons, ih]

theorem header?_setHeader_ne (r : Response σ) (value : String)
    (hne : Text.sameName name name' = false) :
    (r.setHeader name value).header? name' = r.header? name' :=
  headerIn_setHeaderIn_ne hne

@[simp] theorem header?_redirect (r : Response σ) (location : String) :
    (r.redirect location).header? "Location" = some location :=
  headerIn_setHeaderIn

end Response

theorem ErrorRenderer.header?_writeDirect (e : OAuthError) (r : Response σ) :
    (writeDirect e r).header? "Location" = r.header? "Location" := by
  have hjson : (r.sendJson e.status (.obj e.members)).header? "Location" = r.header? "Location" :=
    Response.headerIn_setHeaderIn_ne (by decide)
  unfold writeDirect
  cases e.challenge? with
  | none => exact hjson
  | some challenge => exact (Response.header?_setHeader_ne _ _ (by decide)).trans hjson

theorem ErrorRenderer.hooks_writeDirect (e : OAuthError) (r : Response σ) :
    (writeDirect e r).hooks = r.hooks := by
  unfold writeDirect
  split <;> rfl

/-! ## Redirects to one URI -/

/-- Between `r` and `r'` the location stays, or it becomes the URI with some parameters. Without
a URI it stays. -/
inductive Located (uri : Option String) (r r' : Response σ) : Prop where
  | kept : r'.header? "Location" = r.header? "Location" → Located uri r r'
  | query {u : String} {p : Params} :
    uri = some u → r'.header? "Location" = some (Redirect.appendQuery u p) → Located uri r r'
  | fragment {u : String} {p : Params} :
    uri = some u → r'.header? "Location" = some (Redirect.replaceFragment u p) → Located uri r r'

theorem Located.congr {uri : Option String} {r r₁ r' : Response σ} (h : Located uri r r₁)
    (hsame : r'.header? "Location" = r₁.header? "Location") : Located uri r r' := by
  cases h with
  | kept hkept => exact .kept (hsame.trans hkept)
  | query hu hl => exact .query hu (hsame.trans hl)
  | fragment hu hl => exact .fragment hu (hsame.trans hl)

/-- Redirects to the URI keep `P`. -/
def Redirectable (uri : Option String) (P : Response σ → Prop) : Prop :=
  ∀ u p r, uri = some u → P r →
    P (r.redirect (Redirect.appendQuery u p)) ∧ P (r.redirect (Redirect.replaceFragment u p))

theorem Redirectable.and {uri : Option String} {P Q : Response σ → Prop} (hP : Redirectable uri P)
    (hQ : Redirectable uri Q) : Redirectable uri fun r => P r ∧ Q r := by
  rintro u p r hu ⟨hp, hq⟩
  obtain ⟨hp₁, hp₂⟩ := hP u p r hu hp
  obtain ⟨hq₁, hq₂⟩ := hQ u p r hu hq
  exact ⟨⟨hp₁, hq₁⟩, hp₂, hq₂⟩

theorem redirectable_located (uri : Option String) (r : Response σ) :
    Redirectable uri (Located uri r) :=
  fun _ _ r' hu _ =>
    ⟨.query hu (Response.header?_redirect r' _), .fragment hu (Response.header?_redirect r' _)⟩

theorem redirectable_hooks (uri : Option String) (hooks : List (FinishHook σ)) :
    Redirectable uri fun r : Response σ => r.hooks = hooks :=
  fun _ _ _ _ h => ⟨h, h⟩

/-! ## Built-in modes -/

/-- No mode but the two that redirect. -/
def ResponseModes.BuiltIn (modes : ResponseModes σ) : Prop :=
  ∀ m ∈ modes, m.2 = .query ∨ m.2 = .fragment

theorem ResponseModes.standard_builtIn : (standard : ResponseModes σ).BuiltIn := by
  intro m hm
  rcases List.mem_cons.1 hm with rfl | hm
  · exact .inl rfl
  · obtain rfl := List.mem_singleton.1 hm
    exact .inr rfl

section Modes

variable {modes : ResponseModes σ} {t : Transaction} {P : Response σ → Prop}
  (hP : Redirectable t.redirectUri P)
include hP

theorem ResponseMode.query_keeps (p : Params) :
    ((query : ResponseMode σ).render t p).Keeps fun reply => P reply.response :=
  render_keeps fun u hu r hr => (hP u p r hu hr).1

theorem ResponseMode.fragment_keeps (p : Params) :
    ((fragment : ResponseMode σ).render t p).Keeps fun reply => P reply.response :=
  render_keeps fun u hu r hr => (hP u p r hu hr).2

theorem ResponseModes.BuiltIn.render_keeps (hm : modes.BuiltIn) {m : String × ResponseMode σ}
    (hmem : m ∈ modes) (p : Params) : (m.2.render t p).Keeps fun reply => P reply.response := by
  rcases hm m hmem with hmode | hmode <;> rw [hmode]
  · exact ResponseMode.query_keeps hP p
  · exact ResponseMode.fragment_keeps hP p

theorem ResponseModes.BuiltIn.selected_keeps (hm : modes.BuiltIn) {requested : Option String}
    {default : String} {mode : ResponseMode σ} (h : modes.select requested default = .ok mode)
    (p : Params) : (mode.render t p).Keeps fun reply => P reply.response :=
  hm.render_keeps hP (Entries.mem_of_value? (select_ok h)) p

/-! ## Bundled grants -/

theorem Grant.responder_keeps {α : Type} (hm : modes.BuiltIn) (defaultMode : String)
    (issue : IssueContext → Step σ (Option α)) (params : α → Params) (complete : Completion σ) :
    (responder modes defaultMode issue params t complete).Keeps fun reply => P reply.response := by
  unfold responder
  rcases hmode : modes.select t.request.responseMode defaultMode with e | mode
  · exact Step.keeps_fail e
  refine (Step.keeps_inReply _).bind fun _ => (Step.keeps_ofExcept _).bind fun context => ?_
  split
  · exact (hm.selected_keeps hP hmode _).bind fun _ => Step.keeps_pure _
  · refine (Step.keeps_inReply _).bind fun issued => ?_
    cases issued with
    | none => exact Step.keeps_fail _
    | some issued =>
      exact (Step.keeps_inReply _).bind fun _ =>
        (hm.selected_keeps hP hmode _).bind fun _ => Step.keeps_pure _

theorem Grant.redirectErrors_keeps (hm : modes.BuiltIn) (defaultMode : String) (e : OAuthError) :
    (redirectErrors modes defaultMode e t).Keeps fun reply => P reply.response := by
  unfold redirectErrors
  split
  · exact Step.keeps_pure _
  · rcases hmode : modes.select t.request.responseMode defaultMode with f | mode
    · exact Step.keeps_pure _
    · refine (Step.keeps_inReply _).attempt.bind fun r => ?_
      rcases r with (f | _) | _
      · exact Step.keeps_pure _
      · exact Step.keeps_crash
      · exact (hm.selected_keeps hP hmode _).bind fun _ => Step.keeps_pure _

end Modes

inductive Grant.Bundled : Grant σ → Prop where
  | code {o : Options σ} {issue : IssueContext → Step σ (Option String)} :
    o.modes.BuiltIn → Bundled (Grant.code o issue)
  | token {o : Options σ} {issue : IssueContext → Step σ (Option Issued)} :
    o.modes.BuiltIn → Bundled (Grant.token o issue)

section Handlers

variable {g : Grant σ} {t : Transaction} {P : Response σ → Prop} (hP : Redirectable t.redirectUri P)
include hP

theorem Grant.Bundled.response_keeps (hg : g.Bundled) {handler : Responder σ}
    (h : g.response = some handler) (complete : Completion σ) :
    (handler t complete).Keeps fun reply => P reply.response := by
  cases hg with
  | code hm =>
    obtain rfl := Option.some.inj h
    exact responder_keeps hP hm _ _ _ complete
  | token hm =>
    obtain rfl := Option.some.inj h
    exact responder_keeps hP hm _ _ _ complete

theorem Grant.Bundled.error_keeps (hg : g.Bundled) {handler : ErrorResponder σ}
    (h : g.error = some handler) (e : OAuthError) :
    (handler e t).Keeps fun reply => P reply.response := by
  cases hg with
  | code hm =>
    obtain rfl := Option.some.inj h
    exact redirectErrors_keeps hP hm _ e
  | token hm =>
    obtain rfl := Option.some.inj h
    exact redirectErrors_keeps hP hm _ e

end Handlers

namespace Server

variable {s : Server σ}

/-- Every answer comes from a bundled grant. -/
structure Bundled (s : Server σ) : Prop where
  responders : ∀ l ∈ s.dispatcher.responders,
    ∃ g : Grant σ, g.Bundled ∧ g.response = some l.handler
  errorResponders : ∀ l ∈ s.dispatcher.errorResponders,
    ∃ g : Grant σ, g.Bundled ∧ g.error = some l.handler

theorem addGrantAs_responders (s : Server σ) (type : String) (g : Grant σ) :
    (s.addGrantAs type g).dispatcher.responders =
      s.dispatcher.responders ++ (g.response.map (Layer.ofType type)).toList := by
  unfold addGrantAs
  cases g.request <;> cases g.response <;> cases g.error <;>
    simp [Dispatcher.addParser, Dispatcher.addResponder, Dispatcher.addErrorResponder]

theorem addGrantAs_errorResponders (s : Server σ) (type : String) (g : Grant σ) :
    (s.addGrantAs type g).dispatcher.errorResponders =
      s.dispatcher.errorResponders ++ (g.error.map (Layer.ofType type)).toList := by
  unfold addGrantAs
  cases g.request <;> cases g.response <;> cases g.error <;>
    simp [Dispatcher.addParser, Dispatcher.addResponder, Dispatcher.addErrorResponder]

theorem Bundled.addGrantAs (hs : s.Bundled) {g : Grant σ} (hg : g.Bundled) (type : String) :
    (s.addGrantAs type g).Bundled := by
  refine ⟨fun l hl => ?_, fun l hl => ?_⟩
  · rw [addGrantAs_responders, List.mem_append, Option.mem_toList,
      Option.map_eq_some_iff] at hl
    rcases hl with hl | ⟨handler, hhandler, rfl⟩
    · exact hs.responders l hl
    · exact ⟨g, hg, hhandler⟩
  · rw [addGrantAs_errorResponders, List.mem_append, Option.mem_toList,
      Option.map_eq_some_iff] at hl
    rcases hl with hl | ⟨handler, hhandler, rfl⟩
    · exact hs.errorResponders l hl
    · exact ⟨g, hg, hhandler⟩

section Answers

variable (hs : s.Bundled) {t : Transaction} {P : Response σ → Prop}
  (hP : Redirectable t.redirectUri P)
include hs hP

theorem Bundled.respond_keeps (complete : Completion σ) :
    (s.dispatcher.respond t complete).Keeps fun reply => P reply.response := by
  refine Dispatcher.respond_keeps fun l hl => ?_
  obtain ⟨g, hg, hhandler⟩ := hs.responders l hl
  exact hg.response_keeps hP hhandler complete

theorem Bundled.respondError_keeps (e : OAuthError) :
    (s.dispatcher.respondError e t).Keeps fun reply => P reply.response := by
  refine Dispatcher.respondError_keeps (fun l hl e => ?_) e
  obtain ⟨g, hg, hhandler⟩ := hs.errorResponders l hl
  exact hg.error_keeps hP hhandler e

end Answers

end Server

/-- The renderer redirects to the URI alone as well. -/
theorem ErrorRenderer.redirect_keeps {renderer : ErrorRenderer σ} (hm : renderer.modes.BuiltIn)
    {t : Transaction} {P : Response σ → Prop} (hP : Redirectable t.redirectUri P) (e : OAuthError) :
    (renderer.renderIndirect e t).Keeps fun reply => P reply.response :=
  renderIndirect_keeps (fun _ hmem p => hm.render_keeps hP hmem p) (ResponseMode.query_keeps hP)
    (ResponseMode.fragment_keeps hP) e

end AuthServer
