import AuthServer.Proofs.Bundled
import AuthServer.Proofs.Consent
import AuthServer.Proofs.StoredChanges

/-!
# Errors told directly

An error that no responder sends to the client is written as a body. The
removal of the transaction is armed by then, so finishing that response clears
it: there is no second attempt, unless it was loaded with its removal armed.
-/

namespace AuthServer

open Json Store

variable {σ : Type}

/-- A response yet to be finished, armed with the removal of `ids`. -/
structure Response.Open (ids : List String) (r : Response σ) : Prop where
  unfinished : r.finished = false
  removals : removals r.hooks = ids

theorem Response.settled_open (ids : List String) : Settled (Open ids : Response σ → Prop) :=
  fun _ _ hhooks hfinished h => ⟨hfinished.trans h.unfinished, by rw [hhooks, h.removals]⟩

theorem Response.Open.writeDirect {ids : List String} {r : Response σ} (h : r.Open ids)
    (e : OAuthError) :
    (ErrorRenderer.writeDirect e r).Open ids ∧ (ErrorRenderer.writeDirect e r).written = true := by
  unfold ErrorRenderer.writeDirect
  cases e.challenge? with
  | none => exact ⟨⟨h.unfinished, h.removals⟩, rfl⟩
  | some challenge => exact ⟨⟨h.unfinished, h.removals⟩, rfl⟩

/-- A response yet to be finished, without the key of a removal. -/
structure Response.Unarmed (r : Response σ) : Prop where
  unfinished : r.finished = false
  keyless : r.hasHook FinishHook.removalKey = false

namespace Server

variable {s : Server σ} {k : Shelf} {id : String} {a : Bool} {v v' : Visit σ} {t : Transaction}

/-- The ids that an answer is to clear, if the transaction was loaded armed or not. -/
def toClear (id : String) (a : Bool) : List String := if a then [] else [id]

/-! ## Until the error is handed back -/

/-- The loaded transaction is on the request. Its removal is armed, or can be. -/
inductive Attempted (id : String) (a : Bool) (v : Visit σ) : Prop where
  | before {t : Transaction} :
    v.request.transaction = some t → t.id = some id → t.removalArmed = a → v.response.Unarmed →
    Attempted id a v
  | after {t : Transaction} :
    v.request.transaction = some t → t.id = some id → t.removalArmed = true →
    v.response.Open (toClear id a) → Attempted id a v

theorem Attempted.congr (h : Attempted id a v) (ht : v'.request.transaction = v.request.transaction)
    (hr : v'.response = v.response) : Attempted id a v' := by
  cases h with
  | before ht' hid harmed hunarmed => exact .before (ht.trans ht') hid harmed (by rw [hr]; exact hunarmed)
  | after ht' hid harmed hopen => exact .after (ht.trans ht') hid harmed (by rw [hr]; exact hopen)

theorem attempted_holding {t' : Transaction} (hr : v.response.Unarmed)
    (ht : t'.id = some id ∧ t'.removalArmed = a) : Attempted id a (v.holding t') :=
  .before rfl ht.1 ht.2 hr

/-- After arming. -/
def Armed (id : String) (a : Bool) (v : Visit σ) : Prop :=
  (∃ t, v.request.transaction = some t ∧ t.id = some id ∧ t.removalArmed = true) ∧
    v.response.Open (toClear id a)

theorem Attempted.arm (s : Server σ) (h : Attempted id a v) : Armed id a (s.arm v) := by
  refine ⟨?_, ?_⟩
  · have ht : ∃ t, v.request.transaction = some t ∧ t.id = some id := by
      cases h with
      | before ht hid _ _ => exact ⟨_, ht, hid⟩
      | after ht hid _ _ => exact ⟨_, ht, hid⟩
    obtain ⟨t, ht, hid⟩ := ht
    exact ⟨t.armStored, by rw [arm_transaction, ht]; rfl, hid, by simp [Transaction.armStored, hid]⟩
  · unfold Server.arm
    cases h with
    | @before t ht hid harmed hunarmed =>
      obtain ⟨hfinished, hhook⟩ := hunarmed
      simp only [ht, hid, hhook]
      cases a with
      | true =>
        simp only [harmed, if_true]
        exact ⟨hfinished, removals_of_hasHook hhook⟩
      | false =>
        simp only [harmed]
        refine ⟨hfinished, ?_⟩
        show removals (v.response.hooks ++ [_]) = _
        rw [removals_append, removals_of_hasHook hhook]
        rfl
    | after ht hid harmed hopen =>
      simp only [ht, hid, harmed, if_true]
      exact hopen

theorem Armed.attempted (h : Armed id a v) : Attempted id a v := by
  obtain ⟨⟨t, ht, hid, harmed⟩, hopen⟩ := h
  exact .after ht hid harmed hopen

section Handlers

variable (hopen : ∀ ids, s.dispatcher.Keeps (Response.Open ids))
include hopen

theorem Responding.armed {complete : Completion σ} {e : Fault} (hv : Armed id a v)
    (h : Responding s complete t v (.error e) v') : Armed id a v' := by
  obtain ⟨ht, hresponse⟩ := hv
  have hkeeps := Dispatcher.respond_keeps fun l hl =>
    (hopen (toClear id a)).responders l hl t complete
  have hreply := hkeeps v.reply hresponse
  cases h with
  | unsupported hrun =>
    rw [hrun] at hreply
    exact ⟨ht, hreply⟩
  | failed hrun =>
    rw [hrun] at hreply
    exact ⟨ht, hreply⟩

theorem attempted_of_decide {o : DecisionOptions} {c : DecisionCallbacks σ} {e : OAuthError}
    (ht : v.request.transaction = some t) (hid : t.id = some id) (hr : v.response.Unarmed)
    (h : (s.decide o c).run v = (.error (.error e), v')) : Attempted id t.removalArmed v' := by
  obtain ⟨v₁, m, hx, rfl⟩ := counted_cases h
  suffices hatt : Attempted id t.removalArmed v₁ from hatt.congr rfl rfl
  cases runDecision_cases hx with
  | unrecorded hrec =>
    cases hrec with
    | refused host => exact .before ht hid rfl hr
    | decidedBefore ht' =>
      rw [ht] at ht'
      cases ht'
      exact attempted_holding hr ⟨hid, rfl⟩
  | @answered t' _ v₂ _ hrec ht' hanswer =>
    have hbefore : Attempted id t.removalArmed v₂ := by
      cases hrec with
      | @recorded t₀ _ input host allow t₁ ht₀ _ hdecide =>
        rw [ht] at ht₀
        cases ht₀
        have ht₁ : t₁.id = some id ∧ t₁.removalArmed = t.removalArmed := by
          rw [Transaction.decide_eq hdecide]
          exact ⟨hid, rfl⟩
        have hheld : Attempted id t.removalArmed ((v.withHost host).holding t₁) :=
          attempted_holding hr ht₁
        exact hheld.congr (by rw [tally_request]) (tally_response s _ _)
    exact (hanswer.armed hopen (hbefore.arm s)).attempted

theorem GrantingStored.attempted {fields : Params} {completion : Completion σ} {e : Fault}
    (ht : v.request.transaction = some t) (hid : t.id = some id) (hr : v.response.Unarmed)
    (h : GrantingStored s t fields completion v (.error e) v') : Attempted id t.removalArmed v' := by
  generalize hreply : (Except.error e : Except Fault Outcome) = reply at h
  cases h with
  | decided => exact .before ht hid rfl hr
  | @answered t' r _ hdecide hanswer =>
    rcases r with f | _
    · have ht' : t'.id = some id ∧ t'.removalArmed = t.removalArmed := by
        rw [Transaction.decide_eq hdecide]
        exact ⟨hid, rfl⟩
      have hheld : Attempted id t.removalArmed (v.holding t') := attempted_holding hr ht'
      have hbefore := hheld.congr (by rw [tally_request]) (tally_response s (·.countDecision true) _)
      exact (hanswer.armed hopen (hbefore.arm s)).attempted
    · cases hreply

omit hopen in
theorem SuspendingAgain.attempted (hs : s.store = k.store) {e : Fault} (hid : t.id = some id)
    (hr : v.response.Unarmed) (h : SuspendingAgain s t v (.error e) v') :
    Attempted id t.removalArmed v' := by
  cases h with
  | failed hput =>
    rcases putBack_puts hs hput with ⟨_, host, -, rfl⟩ | ⟨_, hok, -⟩
    · have hheld : Attempted id t.removalArmed (v.holding t) := attempted_holding hr ⟨hid, rfl⟩
      exact hheld.congr rfl rfl
    · cases hok

theorem attempted_of_resume {immediate : Immediate σ} {completion : Completion σ} {e : OAuthError}
    (hs : s.store = k.store) (ht : v.request.transaction = some t) (hid : t.id = some id)
    (hr : v.response.Unarmed)
    (h : (s.resume immediate completion).run v = (.error (.error e), v')) :
    Attempted id t.removalArmed v' := by
  obtain ⟨v₁, m, hx, rfl⟩ := counted_cases h
  suffices hatt : Attempted id t.removalArmed v₁ from hatt.congr rfl rfl
  have hr' (host : σ) (t' : Transaction) :
      (((s.reconsidered t v).withHost host).holding t').response.Unarmed := by
    show (s.reconsidered t v).response.Unarmed
    rw [reconsidered_response]
    exact hr
  cases runResume_cases hx with
  | unloaded hnone =>
    rw [ht] at hnone
    cases hnone
  | failed ht' =>
    rw [ht] at ht'
    cases ht'
    have hheld : Attempted id t.removalArmed (v.holding (s.renewed t v)) :=
      attempted_holding hr ⟨hid, rfl⟩
    exact hheld.congr (congrArg Request.transaction (s.reconsidered_request t v))
      (s.reconsidered_response t v)
  | @granted _ verdict host _ _ ht' _ _ hgrant =>
    rw [ht] at ht'
    cases ht'
    have hafter : Attempted id ((s.renewed t v).mergeLocals verdict.locals).removalArmed v₁ :=
      hgrant.attempted hopen rfl hid (hr' host _)
    exact hafter
  | @deferred _ verdict host _ _ ht' _ _ hsuspend =>
    rw [ht] at ht'
    cases ht'
    have hafter : Attempted id
        (((s.renewed t v).mergeLocals verdict.locals).withInfo verdict.info).removalArmed v₁ :=
      hsuspend.attempted hs hid (hr' host _)
    exact hafter

/-- The removal is armed before the error responders are asked. -/
theorem Attempted.handed_back {e f : OAuthError} (hv : Attempted id a v)
    (h : (s.redirectError e).run v = (.error (.error f), v')) :
    v'.response.Open (toClear id a) := by
  cases redirectError_cases h with
  | absent hnone =>
    cases hv with
    | before ht => rw [ht] at hnone; cases hnone
    | after ht => rw [ht] at hnone; cases hnone
  | @handed t _ reply _ hrun =>
    have hkeeps := Dispatcher.respondError_keeps
      (fun l hl e => (hopen (toClear id a)).errorResponders l hl e t) e
    have hreply := hkeeps (s.arm v).reply (hv.arm s).2
    rw [hrun] at hreply
    exact hreply

end Handlers

/-! ## When the error is written -/

theorem due_of_direct {renderer : ErrorRenderer σ} {e : OAuthError} {r : Except Fault Unit}
    (hmode : renderer.options.mode = .direct) (hv : v.response.Open (toClear id a))
    (h : (renderer.render e).run v = (r, v')) : v'.due = if a then none else some id := by
  cases ErrorRenderer.render_cases h with
  | direct =>
    obtain ⟨⟨hfinished, hremovals⟩, hwritten⟩ := hv.writeDirect e
    unfold Visit.due
    simp only [Visit.withReply, hfinished, hwritten, hremovals]
    cases a <;> rfl
  | absent hindirect =>
    rw [hmode] at hindirect
    cases hindirect
  | indirect hindirect =>
    rw [hmode] at hindirect
    cases hindirect

/-! ## The next request -/

theorem Follows.held {u : Visit σ} (hf : Follows s k id u v) :
    k.held s.options v id = k.held s.options u id := by
  have hkept := hf.kept
  cases k with
  | memory number =>
    simp only [Shelf.held]
    rw [hkept]
  | session =>
    simp only [Shelf.held, Request.recordAt?]
    rw [hkept]

theorem idParam_ok {o : TransactionOptions} {r : Request} (h : idParam o r = .ok id) :
    r.text? o.field = some id ∧ id ≠ "" := by
  unfold idParam at h
  rcases ht : r.text? o.field with _ | text <;> rw [ht] at h
  · cases h
  · rw [Option.filter_some] at h
    by_cases hempty : text = ""
    · rw [if_neg (by simpa using hempty)] at h
      cases h
    · rw [if_pos (by simpa using hempty)] at h
      cases h
      exact ⟨rfl, hempty⟩

/-- What is cleared cannot be loaded. -/
theorem not_loaded_of_cleared (hs : s.store = k.store) {u : Visit σ} (hf : Follows s k id u v)
    (hu : k.held s.options u id = none) {r : Except Fault Unit}
    (h : s.loadTransaction.run v = (r, v')) : r ≠ .ok () := by
  rintro rfl
  obtain ⟨t, v₁, m, hload, -, -⟩ := loaded_of_ok hf.fresh h
  obtain ⟨host, -, ⟨e, he⟩ | ⟨t', id', x, -, -, hid, hheld, -⟩⟩ := load_held hs hload
  · cases he
  · have hnamed := (idParam_ok hid).1
    rw [hf.named] at hnamed
    cases hnamed
    rw [hf.held, hu] at hheld
    cases hheld

/-- A transaction that was loaded armed comes from a memory, and is loaded again while it is there. -/
theorem loaded_of_armed (hs : s.store = k.store) {u v₁ w w' : Visit σ} {t : Transaction}
    (hload : s.load.run v = (.ok t, v₁)) (hid : t.id = some id) (hclient : t.client.isSome)
    (harmed : t.removalArmed = true) (hu : k.held s.options u = k.held s.options v)
    (hf : Follows s k id u w) {r : Except Fault Unit} (h : s.loadTransaction.run w = (r, w')) :
    r = .ok () := by
  cases k with
  | memory number =>
    rcases hname : idParam s.options v.request with e | id'
    · rw [load_memory_unnamed hs hname] at hload
      cases hload
    rw [load_memory hs hname, kept_none] at hload
    rcases ht : (v.world.memories number).value? id' with _ | t₀ <;> rw [ht] at hload <;> cases hload
    cases hid
    have hat : (u.world.memories number).value? id = some t₀ := by
      have hheld := congrFun hu id
      simp only [Shelf.held, ht, Option.map_some] at hheld
      obtain ⟨t', ht', hkept⟩ := Option.map_eq_some_iff.1 hheld
      cases hkept
      exact ht'
    have hload' : s.load.run w = (.ok (t₀.persisted id), w) := by
      rw [load_memory hs (hf.idParam (idParam_ok hname).2), kept_none, hf.kept, hat]
    exact loads_of_client hload' hclient h
  | session =>
    obtain ⟨host, -, ⟨e, he⟩ | ⟨id', record, t₁, client, -, -, hread, -, ht⟩⟩ :=
      load_session_cases hs hload
    · cases he
    · cases ht
      unfold ofRecord at hread
      split at hread <;> cases hread
      rename_i hvalue
      have hunarmed := Transaction.ofValue_removalArmed hvalue
      have harmed' : t₁.removalArmed = true := harmed
      rw [hunarmed] at harmed'
      cases harmed'

/-! ## The whole attempt -/

/-- A decision on the transaction fails, or a resumption of it. -/
inductive Failing (s : Server σ) (e : OAuthError) (v v' : Visit σ) : Prop where
  | decision {o : DecisionOptions} {c : DecisionCallbacks σ} :
    (s.decide o c).run v = (.error (.error e), v') → Failing s e v v'
  | resumption {immediate : Immediate σ} {completion : Completion σ} :
    (s.resume immediate completion).run v = (.error (.error e), v') → Failing s e v v'

/-- The transaction `t` is loaded, answering it fails, no error responder answers either, and the
error is written as a body and sent. -/
inductive ToldDirectly (s : Server σ) (v : Visit σ) (t : Transaction) (v' : Visit σ) : Prop where
  | told {renderer : ErrorRenderer σ} {e f : OAuthError} {r : Except Fault Unit}
    {v₁ v₂ v₃ v₄ : Visit σ} :
    v.request.transaction = none → s.loadTransaction.run v = (.ok (), v₁) →
    v₁.request.transaction = some t → Failing s e v₁ v₂ →
    (s.redirectError e).run v₂ = (.error (.error f), v₃) →
    renderer.options.mode = .direct → (renderer.render f).run v₃ = (.ok (), v₄) →
    Visit.finish.run v₄ = (r, v') → r ≠ .error .crash → ToldDirectly s v t v'

section Handlers

variable (hd : s.dispatcher.Keeps fun r => r.Orderly s)
include hd

theorem Failing.stays (hs : s.store = k.store) {e : OAuthError} (h : Failing s e v v') :
    Stays s k v v' := by
  cases h with
  | decision hrun => exact decide_stays hd hrun
  | resumption hrun =>
    cases resume_storing hd hs hrun with
    | kept _ hstays => exact hstays

omit hd in
theorem Failing.attempted (hs : s.store = k.store)
    (hopen : ∀ ids, s.dispatcher.Keeps (Response.Open ids)) (ht : v.request.transaction = some t)
    (hid : t.id = some id) (hr : v.response.Unarmed) {e : OAuthError} (h : Failing s e v v') :
    Attempted id t.removalArmed v' := by
  cases h with
  | decision hrun => exact attempted_of_decide hopen ht hid hr hrun
  | resumption hrun => exact attempted_of_resume hopen hs ht hid hr hrun

/-- Finishing clears the id, unless the transaction was loaded armed. -/
theorem ToldDirectly.held (hs : s.store = k.store) (hopen : ∀ ids, s.dispatcher.Keeps (Response.Open ids))
    (htidy : s.Tidy v) (hr : v.response.Unarmed) (h : ToldDirectly s v t v') :
    ∃ id v₁, s.load.run v = (.ok t, v₁) ∧ t.id = some id ∧ t.client.isSome ∧
      k.held s.options v' =
        if t.removalArmed then k.held s.options v
        else Function.update (k.held s.options v) id none := by
  obtain @⟨renderer, e, f, r, v₁, v₂, v₃, v₄, hnew, hload, ht, hfail, hback, hmode, hrender, hfinish,
    hcrash⟩ := h
  obtain ⟨t, u, m, hloaded, hclient, rfl⟩ := loaded_of_ok hnew hload
  cases ht
  obtain ⟨host, rfl, ⟨_, he⟩ | ⟨t', id, x, ht', hid, -, -, -⟩⟩ := load_held hs hloaded
  · cases he
  cases ht'
  refine ⟨id, _, hloaded, hid, hclient, ?_⟩
  have hattempted : Attempted id t.removalArmed v₂ :=
    Failing.attempted (v := ((v.withHost host).holding t).withMetrics m) hs hopen rfl hid hr hfail
  have hdue := due_of_direct hmode (hattempted.handed_back hopen hback) hrender
  have hstays : Stays s k v v₄ := by
    have hwritten : Stays s k v₃ v₄ := by
      cases ErrorRenderer.render_cases hrender with
      | direct => exact stays_writeDirect f v₃
      | indirect hindirect => rw [hmode] at hindirect; cases hindirect
    exact ((((stays_withHost v host).trans (stays_holding _ t)).trans (stays_withMetrics _ m)).trans
      ((hfail.stays hd hs).trans (redirectError_stays hd hback))).trans hwritten
  obtain ⟨htidy₄, hheld₄⟩ := hstays htidy
  have hheld := (finish_moves hs hfinish htidy₄).2
  rw [hdue, hheld₄] at hheld
  cases ha : t.removalArmed <;> rw [ha] at hheld
  · rcases hheld with hheld | ⟨hr, -⟩
    · exact hheld
    · exact absurd hr hcrash
  · exact hheld

end Handlers

/-- After an answer that failed and an error that was told directly, the transaction can be loaded
again just in case it had been loaded with its removal armed. -/
theorem reload_iff_armed (hs : s.store = k.store) (hd : s.dispatcher.Keeps fun r => r.Orderly s)
    (hopen : ∀ ids, s.dispatcher.Keeps (Response.Open ids)) (htidy : s.Tidy v)
    (hr : v.response.Unarmed) (h : ToldDirectly s v t v') :
    ∃ id, t.id = some id ∧ ∀ {w w' : Visit σ} {r : Except Fault Unit}, Follows s k id v' w →
      s.loadTransaction.run w = (r, w') → (r = .ok () ↔ t.removalArmed = true) := by
  obtain ⟨id, v₁, hload, hid, hclient, hheld⟩ := h.held hd hs hopen htidy hr
  refine ⟨id, hid, fun {w w' r} hf hw => ?_⟩
  cases ha : t.removalArmed with
  | true =>
    rw [ha, if_pos rfl] at hheld
    exact iff_of_true (loaded_of_armed hs hload hid hclient ha hheld hf hw) rfl
  | false =>
    rw [ha, if_neg nofun] at hheld
    have hnone : k.held s.options v' id = none := by
      rw [hheld, Function.update_self]
    exact iff_of_false (not_loaded_of_cleared hs hf hnone hw) nofun

/-! ## A client without a place -/

/-- Every client is `c1`, and nobody knows where it lives. -/
def placeless : AuthorizationCallbacks Unit :=
  ⟨fun _ => pure ⟨some (.str "c1"), none, none⟩, none, .none⟩

def codeAsked : Visit Unit :=
  (((coding .session).authorize placeless).run { asking with request := codeRequest }).2

/-- The request that decides on the first transaction of the session. -/
def consenting : Visit Unit :=
  { returning codeAsked with request := { (returning codeAsked).request with body := some [] } }

/-- After the decision could not be answered, and nobody took the error. -/
def handedBack : Visit Unit :=
  (((coding .session).redirectError ResponseMode.noRedirect).run
    (((coding .session).decide .standard ⟨none, .none⟩).run
      ((coding .session).loadTransaction.run consenting).2).2).2

def toldOff : Visit Unit :=
  (((ErrorRenderer.ofOptions .standard).render ResponseMode.noRedirect).run handedBack).2

def sentOff : Visit Unit := (Visit.finish.run toldOff).2

def decidedOn : Transaction :=
  { Transaction.ofRequest ⟨⟨["code"]⟩,
      [("client_id", .str "c1"), ("redirect_uri", .str "https://elsewhere.example")]⟩ with
    id := some firstId
    client := some (.str "c1")
    phase := .persisted }

theorem consenting_toldDirectly : ToldDirectly (coding .session) consenting decidedOn sentOff := by
  have hload : (coding .session).loadTransaction.run consenting = (.ok (), _) := rfl
  have hdecide : ((coding .session).decide .standard ⟨none, .none⟩).run
      ((coding .session).loadTransaction.run consenting).2 =
      (.error (.error ResponseMode.noRedirect), _) := rfl
  have hback : ((coding .session).redirectError ResponseMode.noRedirect).run
      (((coding .session).decide .standard ⟨none, .none⟩).run
        ((coding .session).loadTransaction.run consenting).2).2 =
      (.error (.error ResponseMode.noRedirect), handedBack) := rfl
  have hrender : ((ErrorRenderer.ofOptions .standard).render ResponseMode.noRedirect).run handedBack =
      (.ok (), toldOff) := rfl
  have hfinish : Visit.finish.run toldOff = (.ok (), sentOff) := rfl
  exact .told rfl hload rfl (.decision hdecide) hback rfl hrender hfinish nofun

theorem consenting_follows : Follows (coding .session) .session firstId sentOff (returning sentOff) :=
  ⟨rfl, rfl, rfl⟩

theorem consenting_reload :
    ((coding .session).loadTransaction.run (returning sentOff)).1 ≠ .ok () := by
  have hd : (coding .session).dispatcher.Keeps fun r => r.Orderly (coding .session) :=
    (coding_bundled _).keeps nofun fun _ _ hhooks _ h => h.of_hooks hhooks
  have hopen : ∀ ids, (coding .session).dispatcher.Keeps (Response.Open ids) := fun ids =>
    (coding_bundled _).keeps nofun (Response.settled_open ids)
  have htidy : (coding .session).Tidy consenting := by
    refine ⟨?_, Response.orderly_of_nil rfl⟩
    intro session records hsession hrecords
    cases hsession
    cases hrecords
    exact List.pairwise_singleton _ _
  obtain ⟨id, hid, hreload⟩ :=
    reload_iff_armed (k := .session) rfl hd hopen htidy ⟨rfl, rfl⟩ consenting_toldDirectly
  cases hid
  intro hloaded
  cases (hreload consenting_follows rfl).1 hloaded

/-- The pending transaction is gone after one attempt that nobody answered. -/
theorem consenting_not_reloaded :
    consenting.response.Unarmed ∧ decidedOn.id = some firstId ∧
      ToldDirectly (coding .session) consenting decidedOn sentOff ∧
      Follows (coding .session) .session firstId sentOff (returning sentOff) ∧
      ((coding .session).loadTransaction.run (returning sentOff)).1 =
        .error (.error (unknownId firstId)) :=
  ⟨⟨rfl, rfl⟩, rfl, consenting_toldDirectly, consenting_follows, rfl⟩

end Server

end AuthServer
