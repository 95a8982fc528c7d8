import AuthServer.Proofs.Consenting
import AuthServer.Proofs.Endpoint.Error
import AuthServer.Proofs.Site.Installed

/-!
# Two ways to redirect an error

The error responders of the bundled grants and the renderer of last resort each find the mode of an
error in a way of their own. Where both have the same modes, they end alike and tell a client the
same.
-/

namespace AuthServer

open Json

variable {σ : Type}

/-- How a mode of the host renders. -/
abbrev RenderMode (σ : Type) := Transaction → Params → Step (Reply σ) Unit

namespace RenderMode

/-- Modes under names of their own, none of which crashes. -/
structure Sound (customs : Entries (RenderMode σ)) : Prop where
  named : "query" ∉ customs.keys ∧ "fragment" ∉ customs.keys
  calm : ∀ c ∈ customs, ∀ t p reply, ((c.2 t p).run reply).1 ≠ .error .crash

theorem sound_nil : Sound ([] : Entries (RenderMode σ)) where
  named := ⟨List.not_mem_nil, List.not_mem_nil⟩
  calm _ hc := absurd hc List.not_mem_nil

/-- Whatever hooks a response has, it is rendered the same. -/
def Blind (render : RenderMode σ) : Prop :=
  ∀ t p response hooks host,
    ((render t p).run ⟨{ response with hooks }, host⟩).1 = ((render t p).run ⟨response, host⟩).1 ∧
      Response.Alike ((render t p).run ⟨response, host⟩).2.response
        ((render t p).run ⟨{ response with hooks }, host⟩).2.response

end RenderMode

/-! ## Modes of the host beside the standard ones -/

namespace ResponseModes

variable {modes : ResponseModes σ} {customs : Entries (RenderMode σ)} {name : String}
  {mode : ResponseMode σ}

/-- Modes of the host, added in order. -/
def withCustom (modes : ResponseModes σ) (customs : Entries (RenderMode σ)) : ResponseModes σ :=
  customs.foldl (fun modes c => modes.put c.1 (.custom c.2)) modes

theorem value?_withCustom (h : name ∉ customs.keys) :
    (modes.withCustom customs).value? name = modes.value? name := by
  induction customs generalizing modes with
  | nil => rfl
  | cons c rest ih =>
    obtain ⟨hne, hrest⟩ : name ≠ c.1 ∧ name ∉ Entries.keys rest := by simpa [Entries.keys] using h
    have hput := Entries.value?_put_ne modes (ResponseMode.custom c.2) (Ne.symm hne)
    exact (ih hrest).trans hput

theorem withCustom_cases (h : (modes.withCustom customs).value? name = some mode) :
    modes.value? name = some mode ∨ ∃ c ∈ customs, mode = .custom c.2 := by
  induction customs generalizing modes with
  | nil => exact .inl h
  | cons c rest ih =>
    rcases ih h with hput | ⟨c', hc', hmode⟩
    · rw [Entries.value?_put] at hput
      split at hput
      · exact .inr ⟨c, List.mem_cons_self, (Option.some.inj hput).symm⟩
      · exact .inl hput
    · exact .inr ⟨c', List.mem_cons_of_mem _ hc', hmode⟩

theorem selected_cases {requested : Option String} {default : String}
    (h : (standard.withCustom customs).select requested default = .ok mode) :
    (∃ place, Redirect.Placing place ∧ mode = .redirecting place) ∨ ∃ c ∈ customs, mode = .custom c.2 := by
  rcases withCustom_cases (select_ok h) with hstandard | hcustom
  · exact .inl (ResponseMode.placing_of_builtIn
      (standard_builtIn _ (Entries.mem_of_value? hstandard)))
  · exact .inr hcustom

end ResponseModes

/-! ## The mode of an error -/

/-- Where the bundled grant for a type puts its parameters, unless it is asked for another mode. -/
inductive DefaultMode (type : TypeSet) : String → Prop where
  | code : type = .parse "code" → DefaultMode type "query"
  | token : type = .parse "token" → DefaultMode type "fragment"

/-- A renderer that redirects, with the standard settings. -/
def ErrorRenderer.redirecting (modes : ResponseModes σ) : ErrorRenderer σ :=
  ⟨{ ErrorOptions.standard with mode := .indirect }, modes⟩

theorem ErrorRenderer.mode?_redirecting {customs : Entries (RenderMode σ)}
    (hc : RenderMode.Sound customs) {request : AuthorizationRequest} {default : String}
    (hdefault : DefaultMode request.type default) :
    (redirecting (.withCustom .standard customs)).mode? request =
      (ResponseModes.select (.withCustom .standard customs) request.responseMode default).toOption := by
  have hselect : ∀ requested, (ResponseModes.select (σ := σ) (.withCustom .standard customs) requested
      default).toOption =
        (ResponseModes.withCustom .standard customs).value? (requested.getD default) := by
    intro requested
    simp only [ResponseModes.select]
    cases (ResponseModes.withCustom .standard customs).value? (requested.getD default) <;> rfl
  rw [hselect]
  unfold mode? redirecting
  rcases request.responseMode with _ | name
  · cases hdefault with
    | code htype =>
      rw [htype, Option.getD_none, ResponseModes.value?_withCustom hc.named.1]
      rfl
    | token htype =>
      rw [htype, Option.getD_none, ResponseModes.value?_withCustom hc.named.2]
      rfl
  · rfl

namespace Server

/-- The two bundled grants under their own names, in either order, and no other error responder. -/
inductive BothGrants (modes : ResponseModes σ) : Server σ → Prop where
  | codeFirst {base : Server σ} {o o' : Grant.Options σ}
    {issue : Grant.IssueContext → Step σ (Option String)}
    {issue' : Grant.IssueContext → Step σ (Option Issued)} :
    base.dispatcher.errorResponders = [] → o.modes = modes → o'.modes = modes →
    BothGrants modes ((base.addGrant (.code o issue)).addGrant (.token o' issue'))
  | tokenFirst {base : Server σ} {o o' : Grant.Options σ}
    {issue : Grant.IssueContext → Step σ (Option String)}
    {issue' : Grant.IssueContext → Step σ (Option Issued)} :
    base.dispatcher.errorResponders = [] → o.modes = modes → o'.modes = modes →
    BothGrants modes ((base.addGrant (.token o' issue')).addGrant (.code o issue))

end Server

section

open Server

variable {s : Server σ} {modes : ResponseModes σ} {customs : Entries (RenderMode σ)} {type : TypeSet}
  {default : String} {t : Transaction}

theorem Server.BothGrants.responders (hs : s.BothGrants modes) :
    let code := Layer.ofType "code" (Grant.redirectErrors modes "query")
    let token := Layer.ofType "token" (Grant.redirectErrors modes "fragment")
    s.dispatcher.errorResponders = [code, token] ∨ s.dispatcher.errorResponders = [token, code] := by
  cases hs with
  | @codeFirst base o o' _ _ hbase ho ho' =>
    refine .inl ?_
    rw [addGrant, addGrantAs_errorResponders, addGrant, addGrantAs_errorResponders, hbase, ← ho]
    show [_, Layer.ofType "token" (Grant.redirectErrors o'.modes "fragment")] = _
    rw [ho', ho]
    rfl
  | @tokenFirst base o o' _ _ hbase ho ho' =>
    refine .inr ?_
    rw [addGrant, addGrantAs_errorResponders, addGrant, addGrantAs_errorResponders, hbase, ← ho]
    show [Layer.ofType "token" (Grant.redirectErrors o'.modes "fragment"), _] = _
    rw [ho', ho]
    rfl

/-- One error responder applies, that of the grant for the type. -/
theorem Server.BothGrants.applicable (hs : s.BothGrants modes) (hdefault : DefaultMode type default) :
    ∃ l, Layer.applicable s.dispatcher.errorResponders type = [l] ∧
      l.handler = Grant.redirectErrors modes default := by
  have hcode := Layer.appliesTo_word (w := "code") (by decide) (by decide)
    (Grant.redirectErrors modes "query") type
  have htoken := Layer.appliesTo_word (w := "token") (by decide) (by decide)
    (Grant.redirectErrors modes "fragment") type
  unfold Layer.applicable
  cases hdefault with
  | code htype =>
    have ht : ¬ type.tokens = ["token"] := by rw [htype]; decide
    refine ⟨.ofType "code" (Grant.redirectErrors modes "query"), ?_, rfl⟩
    rcases hs.responders with h | h <;> rw [h] <;>
      simp [hcode.2 (by rw [htype]; decide), mt htoken.1 ht]
  | token htype =>
    have hc : ¬ type.tokens = ["code"] := by rw [htype]; decide
    refine ⟨.ofType "token" (Grant.redirectErrors modes "fragment"), ?_, rfl⟩
    rcases hs.responders with h | h <;> rw [h] <;>
      simp [htoken.2 (by rw [htype]; decide), mt hcode.1 hc]

/-! ## One error, one reply -/

/-- A transaction with a redirect URI passes validation in each of the modes. -/
theorem validate_selected {mode : ResponseMode σ} {uri : String} (huri : t.redirectUri = some uri)
    (hmode : ResponseModes.select (.withCustom .standard customs) t.request.responseMode default =
      .ok mode) (host : σ) : (mode.validate t).run host = (.ok (), host) := by
  rcases ResponseModes.selected_cases hmode with ⟨place, -, rfl⟩ | ⟨c, -, rfl⟩
  · show (Step.ofExcept (ResponseMode.redirectUri t) >>= fun _ => pure ()).run host = _
    rw [ResponseMode.redirectUri, huri]
    rfl
  · rfl

theorem render_selected_calm (hc : RenderMode.Sound customs) {mode : ResponseMode σ}
    (hmode : ResponseModes.select (.withCustom .standard customs) t.request.responseMode default =
      .ok mode) (p : Params) (reply : Reply σ) :
    ((mode.render t p).run reply).1 ≠ .error .crash := by
  rcases ResponseModes.selected_cases hmode with ⟨place, -, rfl⟩ | ⟨c, hmem, rfl⟩
  · show ((Step.ofExcept (ResponseMode.redirectUri t) >>= fun uri =>
      Step.onResponse (·.redirect (place uri p))).run reply).1 ≠ _
    unfold ResponseMode.redirectUri
    cases t.redirectUri <;> exact nofun
  · exact hc.calm c hmem t p reply

/-- The error responders do with a reply what the renderer does with it. -/
theorem respondError_eq_renderIndirect (hc : RenderMode.Sound customs)
    (hs : s.BothGrants (.withCustom .standard customs)) (hdefault : DefaultMode t.request.type default)
    (e : OAuthError) (reply : Reply σ) :
    (s.dispatcher.respondError e t).run reply =
      ((ErrorRenderer.redirecting (.withCustom .standard customs)).renderIndirect e t).run reply := by
  obtain ⟨l, happlicable, hhandler⟩ := hs.applicable hdefault
  unfold Dispatcher.respondError ErrorRenderer.renderIndirect
  rw [happlicable, Dispatcher.respondErrorWith, Step.run_bind, Step.run_attempt, hhandler,
    ErrorRenderer.mode?_redirecting hc hdefault]
  unfold Grant.redirectErrors
  rcases huri : t.redirectUri with _ | uri
  · rfl
  simp only [Option.isNone_some, Bool.false_eq_true, if_false]
  rcases hmode : ResponseModes.select (.withCustom .standard customs) t.request.responseMode default
    with f | mode
  · rfl
  have hvalidate : (Step.inReply (mode.validate t)).run reply = (.ok (), reply) := by
    rw [Step.inReply, Step.run_within, validate_selected huri hmode]
  have hcalm := render_selected_calm hc hmode (errorParams e t) reply
  simp only [Except.toOption]
  rw [Step.run_bind, Step.run_attempt, hvalidate]
  simp only [Step.run_bind]
  rcases hrender : (mode.render t (errorParams e t)).run reply with ⟨(f | _) | _, reply'⟩ <;>
    rw [hrender] at hcalm
  · rfl
  · exact absurd rfl hcalm
  · rfl

/-! ## What the renderer does -/

/-- An error is handed back at once, or rendered in a mode that was found for it. -/
theorem renderIndirect_cases (hc : RenderMode.Sound customs)
    (hdefault : DefaultMode t.request.type default) (e : OAuthError) :
    let step := (ErrorRenderer.redirecting (.withCustom .standard customs)).renderIndirect e t
    step = .fail e ∨ ∃ uri mode, t.redirectUri = some uri ∧
      ResponseModes.select (.withCustom .standard customs) t.request.responseMode default = .ok mode ∧
      step = mode.render t (errorParams e t) := by
  intro step
  simp only [step, ErrorRenderer.renderIndirect]
  rw [ErrorRenderer.mode?_redirecting hc hdefault]
  rcases t.redirectUri with _ | uri
  · exact .inl rfl
  rcases ResponseModes.select (.withCustom .standard customs) t.request.responseMode default
    with f | mode
  · exact .inl rfl
  · exact .inr ⟨uri, mode, rfl, rfl, rfl⟩

theorem renderIndirect_blind (hc : RenderMode.Sound customs) (hblind : ∀ c ∈ customs, c.2.Blind)
    (hdefault : DefaultMode t.request.type default) (e : OAuthError) (response : Response σ)
    (hooks : List (FinishHook σ)) (host : σ) :
    let rendered := fun response =>
      ((ErrorRenderer.redirecting (.withCustom .standard customs)).renderIndirect e t).run
        ⟨response, host⟩
    (rendered { response with hooks }).1 = (rendered response).1 ∧
      (rendered response).2.response.Alike (rendered { response with hooks }).2.response := by
  intro rendered
  simp only [rendered]
  rcases renderIndirect_cases hc hdefault e with hstep | ⟨uri, mode, huri, hmode, hstep⟩ <;>
    rw [hstep]
  · exact ⟨rfl, rfl, rfl, rfl⟩
  rcases ResponseModes.selected_cases hmode with ⟨place, -, rfl⟩ | ⟨c, hmem, rfl⟩
  · rw [ResponseMode.run_render huri, ResponseMode.run_render huri]
    exact ⟨rfl, rfl, rfl, rfl⟩
  · exact hblind c hmem t (errorParams e t) response hooks host

/-- Without modes of the host an error that is handed back is the one given. -/
theorem renderIndirect_handedBack (hdefault : DefaultMode t.request.type default) {e : OAuthError}
    {f : Fault} {reply : Reply σ}
    (h : (((ErrorRenderer.redirecting (.withCustom .standard [])).renderIndirect e t).run reply).1 =
      .error f) :
    f = .error e ∧
      (((ErrorRenderer.redirecting (.withCustom .standard [])).renderIndirect e t).run reply).2 =
        reply := by
  rcases renderIndirect_cases RenderMode.sound_nil hdefault e with
    hstep | ⟨uri, mode, huri, hmode, hstep⟩ <;> rw [hstep] at h ⊢
  · cases h
    exact ⟨rfl, rfl⟩
  rcases ResponseModes.selected_cases hmode with ⟨place, -, rfl⟩ | ⟨c, hmem, -⟩
  · rw [ResponseMode.run_render huri] at h
    cases h
  · cases hmem

end

/-! ## The two outcomes -/

namespace Server

variable {s : Server σ} {v : Visit σ} {t : Transaction} {e : OAuthError}
  {customs : Entries (RenderMode σ)}

theorem arm_hooks (s : Server σ) (v : Visit σ) :
    ∃ hooks, (s.arm v).response = { v.response with hooks } := by
  rcases arm_response s v with h | ⟨id, -, h⟩
  · exact ⟨v.response.hooks, h⟩
  · exact ⟨_, h⟩

theorem run_redirectError (ht : v.request.transaction = some t) :
    (s.redirectError e).run v =
      (((s.dispatcher.respondError e t).run ⟨(s.arm v).response, v.world.host⟩).1,
        (s.arm v).withReply
          ((s.dispatcher.respondError e t).run ⟨(s.arm v).response, v.world.host⟩).2) := by
  unfold redirectError
  rw [Step.run_gets_bind, ht]
  show (Step.asReply (s.dispatcher.respondError e t)).run (s.arm v) = _
  rw [Step.run_asReply, Visit.reply, arm_world]

theorem run_renderRedirecting (modes : ResponseModes σ) (ht : v.request.transaction = some t) :
    ((ErrorRenderer.redirecting modes).render e).run v =
      ((((ErrorRenderer.redirecting modes).renderIndirect e t).run v.reply).1,
        v.withReply (((ErrorRenderer.redirecting modes).renderIndirect e t).run v.reply).2) := by
  show (Step.gets (fun v : Visit σ => v.request.transaction) >>= _).run v = _
  rw [Step.run_gets_bind, ht]
  rfl

/-- What comes of the error `e` with the error responders, and with the renderer. -/
structure ErrorsAgree (s : Server σ) (customs : Entries (RenderMode σ)) (e : OAuthError)
    (v : Visit σ) (told rendered : Except Fault Unit × Visit σ) : Prop where
  /-- The error responders answer after the removal was armed. A mode of the host could look for its
  hook; one that does not, or finds nothing new, leaves no difference. -/
  alike :
    (∀ c ∈ customs, c.2.Blind) ∨ (s.arm v).response = v.response →
    told.1 = rendered.1 ∧ rendered.2.response.Alike told.2.response
  /-- With the removal armed for both there is no difference at all. -/
  armed :
    let rendered := ((ErrorRenderer.redirecting (.withCustom .standard customs)).render e).run
      { v with response := (s.arm v).response }
    told.1 = rendered.1 ∧ told.2.reply = rendered.2.reply
  handedBack {f : Fault} :
    customs = [] → told.1 = .error f →
    f = .error e ∧ rendered.2.response = v.response ∧
      ∃ hooks, told.2.response = { v.response with hooks }

/-- An error of a transaction for a code or for a token is told alike by the error responders of the
bundled grants and by the renderer of last resort. -/
theorem error_redirectors_agree (hc : RenderMode.Sound customs)
    (hs : s.BothGrants (.withCustom .standard customs)) (ht : v.request.transaction = some t)
    (htype : t.request.type = .parse "code" ∨ t.request.type = .parse "token") (e : OAuthError) :
    s.ErrorsAgree customs e v ((s.redirectError e).run v)
      (((ErrorRenderer.redirecting (.withCustom .standard customs)).render e).run v) := by
  obtain ⟨default, hdefault⟩ : ∃ default, DefaultMode t.request.type default :=
    htype.elim (fun h => ⟨_, .code h⟩) fun h => ⟨_, .token h⟩
  obtain ⟨hooks, hhooks⟩ := arm_hooks s v
  rw [run_redirectError ht, run_renderRedirecting _ ht,
    respondError_eq_renderIndirect hc hs hdefault]
  refine ⟨fun halike => ?_, ?_, fun hnone herror => ?_⟩
  · rcases halike with hblind | hsame
    · rw [hhooks]
      exact renderIndirect_blind hc hblind hdefault e v.response hooks v.world.host
    · rw [hsame]
      exact ⟨rfl, rfl, rfl, rfl⟩
  · rw [run_renderRedirecting (v := { v with response := (s.arm v).response }) _ ht]
    exact ⟨rfl, rfl⟩
  · subst hnone
    obtain ⟨rfl, hreply⟩ := renderIndirect_handedBack hdefault herror
    have hblind := renderIndirect_blind hc nofun hdefault e v.response hooks v.world.host
    rw [hhooks] at herror
    obtain ⟨-, hreply'⟩ := renderIndirect_handedBack hdefault (hblind.1.symm.trans herror)
    refine ⟨rfl, congrArg Reply.response hreply', hooks, ?_⟩
    exact (congrArg Reply.response hreply).trans hhooks

/-! ## A mode of the host -/

/-- Goes to a page of the host. -/
def toPage : RenderMode Unit := fun _ p =>
  Step.onResponse (·.redirect (Redirect.appendQuery "/custom" p))

theorem toPage_blind : toPage.Blind := fun _ _ _ _ _ => ⟨rfl, rfl, rfl, rfl⟩

theorem toPage_sound : RenderMode.Sound [("page", toPage)] where
  named := ⟨by decide, by decide⟩
  calm c hc t p reply := by
    obtain rfl := List.mem_singleton.1 hc
    exact nofun

/-- Both bundled grants, with a mode of the host. -/
def pagingBy (page : RenderMode Unit) : Server Unit :=
  let o : Grant.Options Unit := ⟨standardSeparators, .withCustom .standard [("page", page)]⟩
  ((ofStore (.memory 0 none)).addGrant (.code o fun _ => pure none)).addGrant
    (.token o fun _ => pure none)

def paging : Server Unit := pagingBy toPage

/-- A stored transaction whose client asked for that mode. -/
def pageAsked : Visit Unit :=
  let areq : AuthorizationRequest := ⟨⟨["code"]⟩, [("response_mode", .str "page")]⟩
  let t : Transaction :=
    { Transaction.ofRequest areq with
      id := some zeroId
      redirectUri := some "https://c1.example/cb" }
  ⟨{ Request.empty with transaction := some t }, .empty, ⟨fun _ => [], ⟨fun _ => 0, 0⟩, .zero, ()⟩⟩

theorem paging_agree :
    RenderMode.Sound [("page", toPage)] ∧
      paging.BothGrants (.withCustom .standard [("page", toPage)]) ∧ toPage.Blind ∧
      ∃ t told rendered, pageAsked.request.transaction = some t ∧ t.request.type = .parse "code" ∧
        (paging.redirectError noBody).run pageAsked = told ∧
        ((ErrorRenderer.redirecting (.withCustom .standard [("page", toPage)])).render noBody).run
          pageAsked = rendered ∧
        paging.ErrorsAgree [("page", toPage)] noBody pageAsked told rendered ∧
        told.1 = .ok () ∧ told.2.response.hasHook FinishHook.removalKey = true ∧
        told.2.response.header? "Location" = some ("/custom?error=server_error&error_description=" ++
          "Decision%20requires%20a%20parsed%20request%20body.") := by
  have hboth : paging.BothGrants (.withCustom .standard [("page", toPage)]) :=
    .codeFirst rfl rfl rfl
  exact ⟨toPage_sound, hboth, toPage_blind, _, _, _, rfl, by decide +kernel, rfl, rfl,
    error_redirectors_agree toPage_sound hboth rfl (.inl (by decide +kernel)) noBody, rfl, by decide +kernel,
    by decide +kernel⟩

/-! ## A mode that looks for the removal -/

/-- Goes to another page if the removal is armed. -/
def toEither : RenderMode Unit := fun _ p =>
  Step.onResponse fun r =>
    r.redirect (Redirect.appendQuery (if r.hasHook FinishHook.removalKey then "/last" else "/custom") p)

/-- The error responders arm the removal before they render, and the renderer does not. -/
theorem removal_shows_in_mode :
    RenderMode.Sound [("page", toEither)] ∧
      (pagingBy toEither).BothGrants (.withCustom .standard [("page", toEither)]) ∧
      (((pagingBy toEither).redirectError noBody).run pageAsked).2.response.header? "Location" =
        some ("/last?error=server_error&error_description=" ++
          "Decision%20requires%20a%20parsed%20request%20body.") ∧
      (((ErrorRenderer.redirecting (.withCustom .standard [("page", toEither)])).render noBody).run
        pageAsked).2.response.header? "Location" =
        some ("/custom?error=server_error&error_description=" ++
          "Decision%20requires%20a%20parsed%20request%20body.") := by
  have hsound : RenderMode.Sound [("page", toEither)] := by
    refine ⟨⟨by decide, by decide⟩, fun c hc t p reply => ?_⟩
    obtain rfl := List.mem_singleton.1 hc
    exact nofun
  exact ⟨hsound, .codeFirst rfl rfl rfl, by decide +kernel, by decide +kernel⟩

end Server

end AuthServer
