import AuthServer.Proofs.Consent
import AuthServer.Proofs.Endpoint.Decision
import AuthServer.Proofs.Uniform

/-!
# At once or after consent

An authorization that is allowed at once and one that waits for the resource
owner lead to the same answer: the responders see the same decided transaction,
but for where it was stored.
-/

namespace AuthServer

open Json Store Grant

variable {σ : Type} {journal : σ → List IssueContext}

namespace Server

variable {s : Server σ} {number : Nat} {v v' v₀ : Visit σ} {t : Transaction} {f : Params}
  {validate : Validate σ}

/-! ## A validated transaction -/

/-- A transaction of the request of `v`, its client validated. -/
structure Ready (s : Server σ) (v : Visit σ) (t : Transaction) : Prop where
  unnamed : t.id = none
  phase : t.phase = .clientValidated
  undecided : t.decision = none
  unarmed : t.removalArmed = false
  client : t.client.isSome
  user : t.user = v.request.principal? s.options.userProperty
  locals : t.locals = mergeOption none v.response.locals

/-- Parses the request and has its client validated. -/
def prepare (s : Server σ) (validate : Validate σ) : Step (Visit σ) Transaction :=
  s.newTransaction >>= validateClient ⟨validate, none, .none⟩

theorem runAuthorization_eq (immediate : Option (Immediate σ)) :
    s.runAuthorization ⟨validate, immediate, .none⟩ =
      s.prepare validate >>= fun t =>
        match immediate with
        | none => s.suspend t
        | some immediate => s.tryAtOnce immediate .none t := by
  unfold runAuthorization prepare
  rw [bind_assoc]
  cases immediate <;> rfl

theorem ready_of_prepare (h : (s.prepare validate).run v = (.ok t, v₀)) :
    (∃ host, v₀ = v.withHost host) ∧ s.Ready v t := by
  rcases Step.bind_cases h with ⟨t₁, v₁, hn, hv⟩ | ⟨_, _, hr⟩
  · have hbegun := newTransaction_cases hn
    generalize hr : (Except.ok t₁ : Except Fault Transaction) = r at hbegun
    cases hbegun with
    | refused => cases hr
    | @begun _ parsed host =>
      cases hr
      have hvalidating := validateClient_cases hv
      generalize hr : (Except.ok t : Except Fault Transaction) = r at hvalidating
      cases hvalidating with
      | failed => cases hr
      | unauthorized => cases hr
      | @passed a host' client =>
        cases hr
        exact ⟨⟨host', rfl⟩, ⟨rfl, rfl, rfl, rfl, rfl, rfl, rfl⟩⟩
  · cases hr

/-! ## At once -/

/-- The transaction when access is allowed with the fields `f`. -/
def allowed (t : Transaction) (f : Params) : Transaction :=
  { t with decision := some ⟨true, f⟩, phase := .decided }

theorem decide_allowed (ht : t.decision = none) {fields : Params} (hf : fields.swapRemove "allow" = f) :
    t.decide (.withFields true fields) = .ok (allowed t f) := by
  unfold Transaction.decide
  rw [ht, Decision.withFields, hf]
  rfl

theorem run_guarded_of_ok {α : Type} {x : Step σ α} {host host' : σ} {a : α}
    (h : x.run host = (.ok a, host')) : x.guarded.run host = (.ok a, host') := by
  rw [Step.run_guarded, h]
  rfl

theorem authorize_at_once {immediate : Immediate σ} {host : σ}
    (hprepare : (s.prepare validate).run v = (.ok t, v₀)) (hf : f.value? "allow" = none)
    (hallow : (immediate t).run v₀.world.host = (.ok ⟨true, some f, none⟩, host)) :
    ∃ w r v₁ m, (s.authorize ⟨validate, some immediate, .none⟩).run v =
        (r.map fun _ => .responded, v₁.withMetrics m) ∧
      Responding s .none (allowed t f) w r v₁ ∧ w.response = v.response ∧ w.world.host = host := by
  have hverdict := run_guarded_of_ok hallow
  obtain ⟨⟨host₀, rfl⟩, hready⟩ := ready_of_prepare hprepare
  rcases hrun : (s.authorize ⟨validate, some immediate, .none⟩).run v with ⟨r, v'⟩
  obtain ⟨v₁, m, hx, rfl⟩ := counted_cases hrun
  rw [runAuthorization_eq, Step.run_bind, hprepare] at hx
  have hdecide := decide_allowed hready.undecided (Entries.swapRemove_absent hf)
  cases tryAtOnce_cases hx with
  | failed himmediate => rw [hverdict] at himmediate; cases himmediate
  | deferred himmediate hdeny => rw [hverdict] at himmediate; cases himmediate; cases hdeny
  | granted himmediate _ hgrant =>
    rw [hverdict] at himmediate
    cases himmediate
    have hdecide' : (t.mergeLocals none).decide (.withFields true f) = .ok (allowed t f) := hdecide
    cases hgrant with
    | decided hrefused =>
      rw [show (some f).getD [] = f from rfl, hdecide'] at hrefused
      cases hrefused
    | responded hd hr =>
      rw [show (some f).getD [] = f from rfl, hdecide'] at hd
      cases hd
      exact ⟨_, .ok (), v₁, m, rfl, hr, by rw [tally_response]; rfl, by rw [tally_host]; rfl⟩
    | failed hd hr =>
      rw [show (some f).getD [] = f from rfl, hdecide'] at hd
      cases hd
      exact ⟨_, .error _, v₁, m, rfl, hr, by rw [tally_response]; rfl, by rw [tally_host]; rfl⟩

/-! ## After consent -/

theorem authorize_pending (hs : s.store = .memory number none)
    (hprepare : (s.prepare validate).run v = (.ok t, v₀)) :
    ∃ id v₁, (s.authorize ⟨validate, none, .none⟩).run v = (.ok (.pending id), v₁) ∧ id ≠ "" ∧
      (v₁.world.memories number).value? id = some t ∧
      v₁.request.transaction = some (t.persisted id) ∧ v₁.world.host = v₀.world.host := by
  rcases hrun : (s.authorize ⟨validate, none, .none⟩).run v with ⟨r, v'⟩
  obtain ⟨v₁, m, hx, rfl⟩ := counted_cases hrun
  rw [runAuthorization_eq, Step.run_bind, hprepare] at hx
  have hstore := storeNew_memory (v := v₀) hs t
  cases suspend_cases hx with
  | stored hstored =>
    rw [hstore] at hstored
    cases hstored
    refine ⟨_, _, rfl, Supply.peek_ne_empty _ (by decide), ?_, ?_, ?_⟩
    · simp only [Visit.withMetrics, tally_memories, Visit.holding, Visit.withMemory,
        World.memories_setMemory]
      exact Entries.value?_put_self _ _ _
    · simp only [Visit.withMetrics, tally_request]
      rfl
    · simp only [Visit.withMetrics, tally_host]
      rfl
  | failed hfailed => rw [hstore] at hfailed; cases hfailed
  | crashed hcrashed => rw [hstore] at hcrashed; cases hcrashed

theorem loads_pending (hs : s.store = .memory number none) {id : String} {w : Visit σ} (hne : id ≠ "")
    (hstored : (v.world.memories number).value? id = some t) (hclient : t.client.isSome)
    (hw : Follows s (.memory number) id v w) :
    ∃ m, s.loadTransaction.run w = (.ok (), (w.holding (t.persisted id)).withMetrics m) := by
  have hload : s.load.run w = (.ok (t.persisted id), w) := by
    rw [load_memory hs (hw.idParam hne), kept_none, hw.kept, hstored]
  rcases hrun : s.loadTransaction.run w with ⟨r, w'⟩
  obtain rfl := loads_of_client hload hclient hrun
  obtain ⟨t', w₁, m, hload', -, rfl⟩ := loaded_of_ok hw.fresh hrun
  rw [hload] at hload'
  cases hload'
  exact ⟨m, rfl⟩

theorem Ready.considered_eq (hready : s.Ready v t) {id : String} {w : Visit σ}
    (hprincipal : w.request.principal? s.options.userProperty =
      v.request.principal? s.options.userProperty)
    (hempty : v.response.locals.getD [] = [])
    (hlocals : w.response.locals = none ∨ w.response.locals = v.response.locals) (fields : Params) :
    s.considered (t.persisted id) ⟨fields, none⟩ w = t.persisted id := by
  have hkept : mergeOption t.locals w.response.locals = t.locals := by
    rw [hready.locals]
    rcases hlocals with hw | hw <;> rw [hw]
    · rfl
    · rcases hv : v.response.locals with _ | l
      · rfl
      · rw [hv] at hempty
        obtain rfl : l = [] := hempty
        simp [mergeOption]
  have hnone : ∀ l, mergeOption l none = l := fun _ => rfl
  unfold considered renewed Transaction.mergeLocals Transaction.persisted
  simp only [hnone, hkept, hprincipal, ← hready.user]

theorem arm_alike (s : Server σ) (v : Visit σ) : v.response.Alike (s.arm v).response := by
  rcases arm_response s v with hr | ⟨id, -, hr⟩ <;> rw [hr]
  · exact ⟨rfl, rfl, rfl⟩
  · exact ⟨rfl, rfl, rfl⟩

theorem decide_after_consent {w : Visit σ} {id : String} {o : DecisionOptions}
    {parse : ParseDecision σ} {host : σ} (hready : s.Ready v t)
    (hheld : w.request.transaction = some (t.persisted id)) (hbody : w.request.body.isSome)
    (hprincipal : w.request.principal? s.options.userProperty =
      v.request.principal? s.options.userProperty)
    (hempty : v.response.locals.getD [] = [])
    (hlocals : w.response.locals = none ∨ w.response.locals = v.response.locals)
    (hf : f.value? "allow" = none)
    (hparse : (parse w.request).run w.world.host = (.ok ⟨f ++ [("allow", .bool true)], none⟩, host)) :
    ∃ u r v₁ m, (s.decide o ⟨some parse, .none⟩).run w = (r, v₁.withMetrics m) ∧
      Responding s .none { allowed t f with id := some id, removalArmed := true } u r v₁ ∧
      w.response.Alike u.response ∧ u.world.host = host := by
  obtain ⟨body, hbody⟩ := Option.isSome_iff_exists.1 hbody
  have hallows : allows o body ⟨f ++ [("allow", .bool true)], none⟩ = true := by
    unfold allows
    rw [Entries.value?_concat hf]
    rfl
  have hdecide : (s.considered (t.persisted id) ⟨f ++ [("allow", .bool true)], none⟩ w).decide
      (.withFields (allows o body ⟨f ++ [("allow", .bool true)], none⟩)
        (f ++ [("allow", .bool true)])) = .ok { allowed t f with id := some id } := by
    rw [hready.considered_eq hprincipal hempty hlocals, hallows]
    exact decide_allowed (t := t.persisted id) hready.undecided (Entries.swapRemove_concat hf _)
  have hinput : (decisionInput ⟨some parse, .none⟩ w.request).run w =
      (.ok ⟨f ++ [("allow", .bool true)], none⟩, w.withHost host) := by
    show (Step.asHost (parse w.request).guarded).run w = _
    rw [Step.run_asHost, run_guarded_of_ok hparse]
  rcases hrun : (s.decide o ⟨some parse, .none⟩).run w with ⟨r, v'⟩
  obtain ⟨v₁, m, hx, rfl⟩ := counted_cases hrun
  unfold runDecision at hx
  rw [Step.run_bind, recordDecision_eq hheld hbody hinput hdecide] at hx
  generalize hw : s.tally _ ((w.withHost host).holding { allowed t f with id := some id }) = u at hx
  have hheld' : (s.arm u).request.transaction =
      some { allowed t f with id := some id, removalArmed := true } := by
    rw [arm_transaction, ← hw, tally_request]
    simp [Visit.holding, Transaction.armStored]
  have hresponse : u.response = w.response := by rw [← hw, tally_response]; rfl
  have hhost : u.world.host = host := by rw [← hw, tally_host]; rfl
  have hrespond : (s.respond .none).run (s.arm u) = (r, v₁) := hx
  refine ⟨s.arm u, r, v₁, m, rfl, respond_cases hheld' hrespond, ?_, by rw [arm_world, hhost]⟩
  rw [← hresponse]
  exact arm_alike s u

/-! ## The two answers -/

/-- How an answer ends when the responders' run does. -/
def concluded (t : Transaction) : Except Fault Flow → Except Fault Unit
  | .ok .done => .ok ()
  | .ok .next => .error (.error (.unsupportedResponseType t.request.type.display))
  | .error e => .error e

theorem Responding.concluded {complete : Completion σ} {r : Except Fault Unit}
    (h : Responding s complete t v r v') :
    r = Server.concluded t ((s.dispatcher.respond t complete).run v.reply).1 ∧
      v'.reply = ((s.dispatcher.respond t complete).run v.reply).2 := by
  cases h with
  | answered hrun => rw [hrun]; exact ⟨rfl, rfl⟩
  | unsupported hrun => rw [hrun]; exact ⟨rfl, rfl⟩
  | failed hrun => rw [hrun]; exact ⟨rfl, rfl⟩

/-- Two answers to one transaction, stored or not, from responses that look alike. -/
theorem Responding.agree (hissues : s.Issues fun issue => Noting journal issue ∧ Determined issue)
    {id : Option String} {armed : Bool} {u u' : Visit σ} {r r' : Except Fault Unit}
    (h : Responding s .none t v r v')
    (h' : Responding s .none { t with id, removalArmed := armed } u r' u')
    (halike : v.response.Alike u.response) :
    r' = r ∧ v'.response.Alike u'.response ∧
      SameQuestions journal v.world.host v'.world.host u.world.host u'.world.host := by
  obtain ⟨rfl, hv'⟩ := h.concluded
  obtain ⟨rfl, hu'⟩ := h'.concluded
  rw [hissues.respond_stored] at hu' ⊢
  obtain ⟨hresult, hresponse, hquestions⟩ := hissues.uniform (t := t) v.reply u.reply halike
  rw [← hv', ← hu'] at hresponse hquestions
  exact ⟨congrArg (Server.concluded t) hresult, hresponse, hquestions⟩

/-- A validated authorization that is allowed at once with `f` ends as one that waits for the
resource owner, is loaded by a new request of the same principal, and is then allowed with `f`: it
asks the same of the issuing callback, and fails with the same error or sends the same response. -/
theorem consent_agrees (hs : s.store = .memory number none)
    (hissues : s.Issues fun issue => Noting journal issue ∧ Determined issue)
    {immediate : Immediate σ} {host : σ} (hprepare : (s.prepare validate).run v = (.ok t, v₀))
    (hf : f.value? "allow" = none)
    (hallow : (immediate t).run v₀.world.host = (.ok ⟨true, some f, none⟩, host))
    (hsilent : journal host = journal v₀.world.host) (hempty : v.response.locals.getD [] = []) :
    ∃ id v₁, (s.authorize ⟨validate, none, .none⟩).run v = (.ok (.pending id), v₁) ∧
      ∀ (w : Visit σ) (o : DecisionOptions) (parse : ParseDecision σ) (host' : σ),
        Follows s (.memory number) id v₁ w →
        w.request.principal? s.options.userProperty = v.request.principal? s.options.userProperty →
        v.response.Alike w.response →
        w.response.locals = none ∨ w.response.locals = v.response.locals →
        w.request.body.isSome →
        (parse { w.request with transaction := v₁.request.transaction }).run w.world.host =
          (.ok ⟨f ++ [("allow", .bool true)], none⟩, host') →
        journal host' = journal w.world.host →
        ∃ w₁ r a b, s.loadTransaction.run w = (.ok (), w₁) ∧
          (s.authorize ⟨validate, some immediate, .none⟩).run v = (r.map fun _ => .responded, a) ∧
          (s.decide o ⟨some parse, .none⟩).run w₁ = (r, b) ∧ a.response.Alike b.response ∧
          SameQuestions journal v₁.world.host a.world.host w₁.world.host b.world.host := by
  obtain ⟨-, hready⟩ := ready_of_prepare hprepare
  obtain ⟨id, v₁, hpending, hne, hstored, hheld, hhost⟩ := authorize_pending hs hprepare
  refine ⟨id, v₁, hpending, ?_⟩
  intro w o parse host' hw hprincipal halike hlocals hbody hparse hquiet
  obtain ⟨m, hload⟩ := loads_pending hs hne hstored hready.client hw
  obtain ⟨u, r, a, n, hauthorize, hanswer, hresponse, hhostu⟩ :=
    authorize_at_once hprepare hf hallow
  rw [hheld] at hparse
  obtain ⟨u', r', b, n', hdecide, hanswer', hresponse', hhostu'⟩ :=
    decide_after_consent (w := (w.holding (t.persisted id)).withMetrics m) (o := o) hready rfl hbody
      hprincipal hempty hlocals hf hparse
  have hsame : u.response.Alike u'.response := by
    rw [hresponse]
    exact halike.trans hresponse'
  obtain ⟨rfl, hagree, hquestions⟩ := hanswer.agree hissues hanswer' hsame
  refine ⟨_, r', _, _, hload, hauthorize, hdecide, hagree, hquestions.from_silent ?_ ?_⟩
  · rw [hhostu, hsilent, hhost]
  · rw [hhostu', hquiet]
    rfl

end Server

namespace Server

/-! ## One authorization -/

/-- Reading is allowed. -/
def reading : Params := [("scope", .str "read")]

def eager : Immediate (List IssueContext) := fun _ => pure ⟨true, some reading, none⟩

def agreeing : ParseDecision (List IssueContext) := fun _ =>
  pure ⟨reading ++ [("allow", .bool true)], none⟩

/-- The authorization waits for the resource owner. -/
def deferredVisit : Visit (List IssueContext) := ((noting.authorize trustingAll).run askingCode).2

theorem reading_agrees : ∃ w₁ r a b,
    (noting.authorize trustingAll).run askingCode = (.ok (.pending zeroId), deferredVisit) ∧
      noting.loadTransaction.run ⟨naming, .empty, deferredVisit.world⟩ = (.ok (), w₁) ∧
      (noting.authorize ⟨trustingAll.validate, some eager, .none⟩).run askingCode =
        (r.map fun _ => .responded, a) ∧
      (noting.decide .standard ⟨some agreeing, .none⟩).run w₁ = (r, b) ∧
      a.response.Alike b.response ∧
      SameQuestions id deferredVisit.world.host a.world.host w₁.world.host b.world.host := by
  have hissues : noting.Issues fun issue => Noting id issue ∧ Determined issue :=
    noting_issues ⟨fun _ _ => rfl, ⟨fun _ => .ok (some "a1b1c1"), fun _ _ => rfl⟩⟩
  have hrun : (noting.authorize trustingAll).run askingCode = (.ok (.pending zeroId), deferredVisit) :=
    rfl
  obtain ⟨t, v₀, hprepare⟩ : ∃ t v₀,
      (noting.prepare trustingAll.validate).run askingCode = (.ok t, v₀) := ⟨_, _, rfl⟩
  have hallow : (eager t).run v₀.world.host = (.ok ⟨true, some reading, none⟩, v₀.world.host) := rfl
  obtain ⟨id₁, v₁, hpending, hconsent⟩ :=
    consent_agrees (s := noting) rfl hissues hprepare rfl hallow rfl rfl
  have hsame := hrun.symm.trans hpending
  cases hsame
  obtain ⟨w₁, r, a, b, hload, hauthorize, hdecide, halike, hquestions⟩ :=
    hconsent ⟨naming, .empty, deferredVisit.world⟩ .standard agreeing [] ⟨rfl, rfl, rfl⟩ rfl
      ⟨rfl, rfl, rfl⟩ (.inl rfl) rfl rfl rfl
  exact ⟨w₁, r, a, b, hrun, hload, hauthorize, hdecide, halike, hquestions⟩

end Server

end AuthServer
