import AuthServer.Proofs.Issuing
import AuthServer.Proofs.Revival

/-!
# Answered once

Requests that name the same stored transaction get a copy each. A copy is
decided once, so the issuing callback is asked at most once for each request.
A request that loads after the answer to another was written and finished
finds nothing to decide, unless the removal was armed before the transaction
was stored: such a copy brings no hook along, and nothing is removed.
-/

namespace AuthServer

open Json Store Grant

variable {σ : Type} {journal : σ → List IssueContext}

/-! ## Rounds -/

/-- A load, a decision whose callbacks ask for no grant, or a finish. -/
inductive Call.Round (journal : σ → List IssueContext) : Call σ → Prop where
  | load : Round journal .load
  | decide {o : DecisionOptions} {c : Server.DecisionCallbacks σ} :
    (∀ parse, c.parse = some parse → ∀ req, (parse req).Silent journal) →
    (∀ t, (c.completion.run t).Silent journal) → Round journal (.decide o c)
  | finish : Round journal .finish

/-- What the calls on the pair `i` asked the issuing callback. -/
def Traffic.asked (T : Traffic σ) (s : Server σ) (journal : σ → List IssueContext) (i : Nat) :
    List (Nat × Call σ) → List IssueContext
  | [] => []
  | (j, c) :: rest =>
    let U := (T.call s j c).2
    let news := (journal U.world.host).drop (journal T.world.host).length
    if j = i then news ++ U.asked s journal i rest else U.asked s journal i rest

/-- Asked nothing, or about one decision that allows access. -/
def Once (asked : List IssueContext) : Prop := asked = [] ∨ ∃ c, asked = [c] ∧ c.decision.allow = true

structure Response.Fresh (r : Response σ) : Prop where
  hooks : r.hooks = []
  unwritten : r.written = false
  unfinished : r.finished = false

namespace Server

variable {s : Server σ} {number : Nat} {id : String} {armed : Bool} {v v' : Visit σ}
  {asked : List IssueContext}

/-- What a decision installs on a fresh response: the removal, unless that was armed before. -/
def removing (s : Server σ) (id : String) (armed : Bool) : List (FinishHook σ) :=
  if armed then [] else [.removal s.store s.options id]

/-- The removal of `id` is the one hook, or it is done. If it was armed before there is no hook. -/
def Clears (s : Server σ) (id : String) (armed : Bool) (r : Response σ) : Prop :=
  (r.finished = false ∧ r.hooks = s.removing id armed) ∨ (r.finished = true ∧ r.hooks = [])

theorem settled_clears (s : Server σ) (id : String) (armed : Bool) :
    Response.Settled (s.Clears id armed) := by
  intro r r' hhooks hfinished hr
  unfold Clears
  rw [hhooks, hfinished]
  exact hr

/-- How a request stands that names `id`, and what was asked for it. The transaction under `id` is
stored with `armed` for its flag. -/
inductive Standing (s : Server σ) (id : String) (armed : Bool) (v : Visit σ) :
    List IssueContext → Prop where
  | unloaded :
    v.request.transaction = none → idParam s.options v.request = .ok id → v.response.Fresh →
    Standing s id armed v []
  | loaded {t : Transaction} :
    v.request.transaction = some t → t.id = some id → t.decision = none → t.removalArmed = armed →
    v.response.Fresh → Standing s id armed v []
  | decided {t : Transaction} {asked : List IssueContext} :
    v.request.transaction = some t → t.id = some id → t.decision.isSome →
    s.Clears id armed v.response → Once asked → Standing s id armed v asked

theorem Standing.congr (h : Standing s id armed v asked) (hrequest : v'.request = v.request)
    (hresponse : v'.response = v.response) : Standing s id armed v' asked := by
  cases h with
  | unloaded hnew hid hfresh =>
    exact .unloaded (by rw [hrequest, hnew]) (by rw [hrequest, hid]) (by rw [hresponse]; exact hfresh)
  | loaded ht hid hundecided harmed hfresh =>
    exact .loaded (by rw [hrequest, ht]) hid hundecided harmed (by rw [hresponse]; exact hfresh)
  | decided ht hid hdecided hclears honce =>
    exact .decided (by rw [hrequest, ht]) hid hdecided (by rw [hresponse]; exact hclears) honce

theorem Standing.once (h : Standing s id armed v asked) : Once asked := by
  cases h with
  | unloaded => exact .inl rfl
  | loaded => exact .inl rfl
  | decided _ _ _ _ honce => exact honce

theorem Standing.harmless (h : Standing s id armed v asked) : v.response.Harmless s := by
  have hclears : ∀ {r : Response σ}, s.Clears id armed r → r.Harmless s := by
    rintro r (⟨-, hhooks⟩ | ⟨-, hhooks⟩) hook hmem <;> rw [hhooks] at hmem
    · unfold removing at hmem
      split at hmem
      · cases hmem
      · obtain rfl := List.mem_singleton.1 hmem
        exact ⟨rfl, rfl⟩
    · cases hmem
  have hfresh : ∀ {r : Response σ}, r.Fresh → r.Harmless s := by
    intro r hr hook hmem
    rw [hr.hooks] at hmem
    cases hmem
  cases h with
  | unloaded _ _ hr => exact hfresh hr
  | loaded _ _ _ _ hr => exact hfresh hr
  | decided _ _ _ hr => exact hclears hr

/-- A request without a copy was asked nothing for. -/
theorem Standing.asked_nil (h : Standing s id armed v asked) (hnone : ¬ v.request.Carries id) :
    asked = [] := by
  cases h with
  | unloaded => rfl
  | loaded => rfl
  | decided ht hid => exact absurd ⟨_, ht, hid⟩ hnone

theorem Standing.loaded_of_written (h : Standing s id armed v asked) (hwritten : v.response.written = true) :
    ∃ t, v.request.transaction = some t := by
  cases h with
  | unloaded _ _ hfresh =>
    rw [hfresh.unwritten] at hwritten
    cases hwritten
  | loaded ht => exact ⟨_, ht⟩
  | decided ht => exact ⟨_, ht⟩

/-! ## One call -/

/-- What is stored under `id` can be decided, and has `armed` for its flag. -/
def Undecided (number : Nat) (id : String) (armed : Bool) (w : World σ) : Prop :=
  ∀ t, (w.memories number).value? id = some t → t.decision = none ∧ t.removalArmed = armed

/-- The request advances from `v` to `v'`. -/
structure Advancing (s : Server σ) (journal : σ → List IssueContext) (number : Nat) (id : String)
    (armed : Bool) (v : Visit σ) (asked : List IssueContext) (v' : Visit σ) : Prop where
  standing : ∃ news, journal v'.world.host = journal v.world.host ++ news ∧
    Standing s id armed v' (asked ++ news)
  undecided : Undecided number id armed v.world → Undecided number id armed v'.world

theorem Advancing.still (hstanding : Standing s id armed v' asked)
    (hjournal : journal v'.world.host = journal v.world.host)
    (hundecided : Undecided number id armed v.world → Undecided number id armed v'.world) :
    Advancing s journal number id armed v asked v' :=
  ⟨⟨[], by rw [hjournal, List.append_nil], by rw [List.append_nil]; exact hstanding⟩, hundecided⟩

theorem Advancing.from_silent {w : Visit σ} (h : Advancing s journal number id armed w asked v')
    (hjournal : journal w.world.host = journal v.world.host)
    (hmemories : w.world.memories = v.world.memories) : Advancing s journal number id armed v asked v' := by
  obtain ⟨⟨news, hnews, hstanding⟩, hundecided⟩ := h
  refine ⟨⟨news, by rw [hnews, hjournal], hstanding⟩, fun hv => hundecided ?_⟩
  unfold Undecided
  rw [hmemories]
  exact hv

section Load

variable (hs : s.store = .memory number none)
include hs

/-- A request that is not loaded finds what is stored under the id that it names. -/
theorem Standing.load_cases (hv : Standing s id armed v asked) (hnew : v.request.transaction = none)
    {r : Except Fault Transaction} (h : s.load.run v = (r, v')) :
    v' = v ∧ asked = [] ∧ v.response.Fresh ∧ ∀ t, r = .ok t →
      ∃ t₀, (v.world.memories number).value? id = some t₀ ∧ t = t₀.persisted id := by
  cases hv with
  | unloaded _ hnamed hfresh =>
    rw [load_memory hs hnamed, kept_none] at h
    cases h
    refine ⟨rfl, rfl, hfresh, fun t ht => ?_⟩
    rcases hvalue : (v.world.memories number).value? id with _ | t₀ <;> rw [hvalue] at ht <;> cases ht
    exact ⟨t₀, rfl, rfl⟩
  | loaded ht => rw [hnew] at ht; cases ht
  | decided ht => rw [hnew] at ht; cases ht

theorem Standing.remove_advancing (hv : Standing s id armed v asked) (hundecided : Undecided number id armed v.world)
    {id' : String} {r : Except Fault Unit} (h : (s.remove id').run v = (r, v')) (m : Metrics) :
    Advancing s journal number id armed v asked (v'.withMetrics m) := by
  rw [remove_memory hs] at h
  cases h
  refine .still (hv.congr rfl rfl) rfl fun _ t ht => hundecided t ?_
  simp only [Visit.withMetrics, Visit.withMemory, World.memories_setMemory] at ht
  rw [Entries.value?_remove] at ht
  split at ht
  · cases ht
  · exact ht

theorem load_advancing {r : Except Fault Unit} (hv : Standing s id armed v asked)
    (hundecided : Undecided number id armed v.world) (h : s.loadTransaction.run v = (r, v')) :
    Advancing s journal number id armed v asked v' := by
  cases loadTransaction_cases h with
  | present => exact .still hv rfl fun h => h
  | failed m hnew hload =>
    obtain ⟨rfl, -⟩ := hv.load_cases hs hnew hload
    exact .still (hv.congr rfl rfl) rfl fun h => h
  | @loaded t _ m hnew hload =>
    obtain ⟨rfl, rfl, hfresh, hok⟩ := hv.load_cases hs hnew hload
    obtain ⟨t₀, hvalue, rfl⟩ := hok t rfl
    obtain ⟨hdecision, harmed⟩ := hundecided t₀ hvalue
    exact .still (.loaded rfl rfl hdecision harmed hfresh) rfl fun h => h
  | unstored m hnew hload =>
    obtain ⟨rfl, -⟩ := hv.load_cases hs hnew hload
    exact .still (hv.congr rfl rfl) rfl fun h => h
  | removed m hnew hload _ _ hremove =>
    obtain ⟨rfl, -⟩ := hv.load_cases hs hnew hload
    exact hv.remove_advancing hs hundecided hremove m
  | crashed m hnew hload _ _ hremove =>
    obtain ⟨rfl, -⟩ := hv.load_cases hs hnew hload
    exact hv.remove_advancing hs hundecided hremove m

theorem runHooks_removal :
    (Visit.runHooks [.removal s.store s.options id]).run v =
      (.ok none, v.withMemory number ((v.world.memories number).remove id)) := by
  have hhook : (Visit.runHook (.removal s.store s.options id)).run v =
      (.ok (), v.withMemory number ((v.world.memories number).remove id)) := by
    show (s.removeQuietly id).run v = _
    unfold removeQuietly
    rw [Step.run_bind, Step.run_attempt, remove_memory hs]
    rfl
  unfold Visit.runHooks
  rw [Step.run_bind, Step.run_attempt, hhook]
  rfl

/-- Finishing an answer removes what is stored if the answer brought the removal along. -/
theorem finish_advancing {r : Except Fault Unit} (hv : Standing s id armed v asked)
    (h : Visit.finish.run v = (r, v')) :
    Advancing s journal number id armed v asked v' ∧
      (armed = false → v.response.written = true → v.response.finished = false →
        (v'.world.memories number).value? id = none) := by
  cases Visit.finish_cases h with
  | idle hidle =>
    refine ⟨.still hv rfl fun h => h, fun _ hwritten hfinished => ?_⟩
    rw [hwritten, hfinished] at hidle
    cases hidle
  | ran hran hrun =>
    have hfresh : ¬ v.response.Fresh := by
      intro hfresh
      rw [hfresh.unwritten, Bool.not_false, Bool.or_true] at hran
      cases hran
    cases hv with
    | unloaded _ _ hr => exact absurd hr hfresh
    | loaded _ _ _ _ hr => exact absurd hr hfresh
    | decided ht hid hdecided hclears honce =>
      rcases hclears with ⟨hunfinished, hhooks⟩ | ⟨hfinished, -⟩
      · rw [hhooks] at hrun
        cases armed with
        | true =>
          cases hrun
          exact ⟨.still (.decided ht hid hdecided (.inr ⟨rfl, rfl⟩) honce) rfl fun h => h, nofun⟩
        | false =>
          rw [show s.removing id false = [.removal s.store s.options id] from rfl,
            runHooks_removal hs] at hrun
          cases hrun
          have hgone : ∀ m : Memory,
              ((v.closed.withMemory number (m.remove id)).world.memories number).value? id = none := by
            intro m
            simp [Visit.withMemory, Entries.value?_remove]
          refine ⟨.still (.decided ht hid hdecided (.inr ⟨rfl, rfl⟩) honce) rfl fun _ t ht => ?_,
            fun _ _ _ => hgone _⟩
          rw [hgone] at ht
          cases ht
      · rw [hfinished, Bool.true_or] at hran
        cases hran

/-- The finish of a written answer removes what is stored. -/
theorem finish_removes {T : Traffic σ} {i : Nat} (hv : Standing s id false (T.visit i) asked)
    (hwritten : (T.pairs i).2.written = true) (hunfinished : (T.pairs i).2.finished = false) :
    ((T.call s i .finish).2.world.memories number).value? id = none := by
  rcases hrun : (Visit.finish : Step (Visit σ) Unit).run (T.visit i) with ⟨r, w⟩
  have hworld : (T.call s i .finish).2.world = w.world := by
    rw [Traffic.call, Call.run, Step.run_map, hrun]
    rfl
  rw [hworld]
  -- the journal plays no part in what is removed
  have hfinish : Advancing s (fun _ => []) number id false (T.visit i) asked w ∧ _ :=
    finish_advancing hs hv hrun
  exact hfinish.2 rfl hwritten hunfinished

end Load

/-- A request that was not loaded when another was answered has no copy after the finish. -/
theorem not_carries_finish {T : Traffic σ} {i j : Nat} (hv : Standing s id armed (T.visit i) asked)
    (hwritten : (T.pairs i).2.written = true) (hunloaded : (T.pairs j).1.transaction = none) :
    ¬ ((T.call s i .finish).2.visit j).request.Carries id := by
  have hnone : ∀ t, (T.visit j).request.transaction ≠ some t := fun t ht =>
    Option.some_ne_none t (ht.symm.trans hunloaded)
  have hj : j ≠ i := by
    rintro rfl
    obtain ⟨t, ht⟩ := hv.loaded_of_written hwritten
    exact hnone t ht
  rw [Traffic.visit_call_ne hj]
  rintro ⟨t, ht, -⟩
  exact hnone t ht

theorem recordDecision_silent {o : DecisionOptions} {c : DecisionCallbacks σ}
    (hparse : ∀ parse, c.parse = some parse → ∀ req, (parse req).Silent journal)
    (l : List IssueContext) :
    (s.recordDecision o c).Keeps fun v => journal v.world.host = l := by
  have hgets : ∀ {α} (f : Visit σ → α), (Step.gets f).Keeps fun v => journal v.world.host = l :=
    fun f v h => h
  have hset : ∀ t, (setTransaction t).Keeps fun v : Visit σ => journal v.world.host = l :=
    fun t v h => h
  have hinput : ∀ req, (decisionInput c req).Keeps fun v => journal v.world.host = l := by
    intro req v hv
    unfold decisionInput
    rcases hc : c.parse with _ | parse
    · exact hv
    · exact ((hparse parse hc req).guarded _).trans hv
  have hcount : ∀ f, (s.count f).Keeps fun v => journal v.world.host = l := by
    intro f v hv
    show journal (s.tally f v).world.host = l
    rw [tally_host]
    exact hv
  unfold recordDecision
  refine (hgets _).bind fun req => ?_
  rcases req.body with _ | body
  · exact Step.keeps_fail _
  have htransaction : (theTransaction : Step (Visit σ) Transaction).Keeps fun v =>
      journal v.world.host = l := by
    unfold theTransaction
    refine (hgets _).bind fun t => ?_
    cases t with
    | none => exact Step.keeps_fail _
    | some t => exact Step.keeps_pure _
  exact htransaction.bind fun t => (hinput req).bind fun input => (hgets _).bind fun renewed =>
    (hset _).bind fun _ => (Step.keeps_ofExcept _).bind fun t => (hset _).bind fun _ => hcount _

/-- On a fresh response the removal goes to the hooks, unless it was armed before. -/
theorem arm_fresh {t : Transaction} (ht : v.request.transaction = some t) (hid : t.id = some id)
    (harmed : t.removalArmed = armed) (hhooks : v.response.hooks = []) :
    (s.arm v).response.hooks = s.removing id armed ∧
      (s.arm v).response.finished = v.response.finished := by
  cases armed with
  | true =>
    have hsame : s.arm v = v := by simp [arm, ht, hid, harmed]
    rw [hsame]
    exact ⟨hhooks, rfl⟩
  | false =>
    rw [arm_unarmed ht hid harmed (by rw [Response.hasHook, hhooks]; rfl), Response.addHook, hhooks]
    exact ⟨rfl, rfl⟩

/-- A refused record leaves the request as it stands. -/
theorem Standing.unrecorded (hv : Standing s id armed v asked) {e : Fault}
    (h : Recording s v (.error e) v') : Standing s id armed v' asked := by
  cases h with
  | refused host => exact hv.congr rfl rfl
  | decidedBefore ht =>
    cases hv with
    | unloaded hnew => rw [hnew] at ht; cases ht
    | loaded ht' hid hundecided harmed hfresh =>
      rw [ht] at ht'
      cases ht'
      exact .loaded rfl hid hundecided harmed hfresh
    | decided ht' hid hdecided hclears honce =>
      rw [ht] at ht'
      cases ht'
      exact .decided rfl hid hdecided hclears honce

section Decide

variable (hissues : s.Issues (Noting journal))
include hissues

theorem issues_keeps {P : Response σ → Prop} (hP : Response.Settled P) :
    ∀ l ∈ s.dispatcher.responders, ∀ t complete,
      (l.handler t complete).Keeps fun reply => P reply.response := by
  intro l hl t complete
  obtain ⟨g, hg, hhandler⟩ := hissues l hl
  exact hg.bundled.response_keeps (hP.redirectable _) hhandler complete

/-- The one time that the callback may be asked. -/
theorem Responding.advancing {t : Transaction} {complete : Completion σ}
    (hcomplete : (complete.run t).Silent journal) (ht : v.request.transaction = some t)
    (hid : t.id = some id) (hdecided : t.decision.isSome) (hclears : s.Clears id armed v.response)
    {r : Except Fault Unit} (h : Responding s complete t v r v') :
    Advancing s journal number id armed v [] v' := by
  have hreply : ∀ {r reply}, (s.dispatcher.respond t complete).run v.reply = (r, reply) →
      (∃ news, Once news ∧ journal reply.host = journal v.world.host ++ news) ∧
        s.Clears id armed reply.response := by
    intro r reply hrun
    have hasking := hissues.asking hcomplete v.reply
    have hkeeps := Dispatcher.respond_keeps
      (fun l hl => issues_keeps hissues (settled_clears s id armed) l hl t complete) v.reply hclears
    rw [hrun] at hasking hkeeps
    refine ⟨?_, hkeeps⟩
    cases hasking with
    | spared hjournal => exact ⟨[], .inl rfl, by rw [hjournal, List.append_nil]; rfl⟩
    | asked hallow hjournal => exact ⟨_, .inr ⟨_, rfl, hallow⟩, hjournal⟩
  cases h with
  | answered hrun =>
    obtain ⟨⟨news, honce, hjournal⟩, hclears'⟩ := hreply hrun
    exact ⟨⟨news, hjournal, .decided (t := t.responded) rfl hid hdecided hclears' honce⟩, fun h => h⟩
  | unsupported hrun =>
    obtain ⟨⟨news, honce, hjournal⟩, hclears'⟩ := hreply hrun
    exact ⟨⟨news, hjournal, .decided ht hid hdecided hclears' honce⟩, fun h => h⟩
  | failed hrun =>
    obtain ⟨⟨news, honce, hjournal⟩, hclears'⟩ := hreply hrun
    exact ⟨⟨news, hjournal, .decided ht hid hdecided hclears' honce⟩, fun h => h⟩

/-- A decision that was recorded on a copy is sent on. -/
theorem recorded_advancing {complete : Completion σ} (hcomplete : ∀ t, (complete.run t).Silent journal)
    {w : Visit σ} {t : Transaction} (ht : w.request.transaction = some t) (hid : t.id = some id)
    (hdecided : t.decision.isSome) (harmed : t.removalArmed = armed) (hfresh : w.response.Fresh)
    {r : Except Fault Unit} (h : (s.respond complete).run (s.arm w) = (r, v')) :
    Advancing s journal number id armed w [] v' := by
  have hheld : (s.arm w).request.transaction = some t.armStored := by
    rw [arm_transaction, ht]
    rfl
  obtain ⟨hhooks, hfinished⟩ := arm_fresh (s := s) ht hid harmed hfresh.hooks
  have hclears : s.Clears id armed (s.arm w).response :=
    .inl ⟨hfinished.trans hfresh.unfinished, hhooks⟩
  have hadvance : Advancing s journal number id armed (s.arm w) [] v' :=
    (respond_cases hheld h).advancing hissues (hcomplete _) hheld hid hdecided hclears
  exact hadvance.from_silent (by rw [arm_world]) (by rw [arm_world])

theorem decide_advancing {o : DecisionOptions} {c : DecisionCallbacks σ}
    (hparse : ∀ parse, c.parse = some parse → ∀ req, (parse req).Silent journal)
    (hcomplete : ∀ t, (c.completion.run t).Silent journal) {r : Except Fault Unit}
    (hv : Standing s id armed v asked) (h : (s.decide o c).run v = (r, v')) :
    Advancing s journal number id armed v asked v' := by
  obtain ⟨v₂, m, hx, rfl⟩ := counted_cases h
  suffices hadvance : Advancing s journal number id armed v asked v₂ by
    obtain ⟨⟨news, hjournal, hstanding⟩, hundecided⟩ := hadvance
    exact ⟨⟨news, hjournal, hstanding.congr rfl rfl⟩, hundecided⟩
  have hsilent := recordDecision_silent (s := s) (o := o) hparse (journal v.world.host) v rfl
  rcases Step.bind_cases hx with ⟨_, v₁, hrec, hx⟩ | ⟨e, hrec, rfl⟩
  · rw [hrec] at hsilent
    cases recordDecision_cases hrec with
    | @recorded t body input host allow t' ht _ hdecide =>
      have hundecided : (s.considered t input v).decision = none :=
        Transaction.undecided_of_decide hdecide
      cases hv with
      | unloaded hnew => rw [hnew] at ht; cases ht
      | decided ht' _ hdecided =>
        rw [ht] at ht'
        cases ht'
        rw [show t.decision = none from hundecided] at hdecided
        cases hdecided
      | loaded ht' hid _ harmed hfresh =>
        rw [ht] at ht'
        cases ht'
        have hfacts : t'.id = some id ∧ t'.decision.isSome ∧ t'.removalArmed = armed := by
          rw [Transaction.decide_eq hdecide]
          exact ⟨hid, rfl, harmed⟩
        obtain ⟨hid', hdecided, harmed'⟩ := hfacts
        generalize hw : s.tally (·.countDecision allow) ((v.withHost host).holding t') = w at hx hsilent
        have hheld : w.request.transaction = some t' := by rw [← hw, tally_request]; rfl
        have hfresh' : w.response.Fresh := by rw [← hw, tally_response]; exact hfresh
        have hmemories : w.world.memories = v.world.memories := by rw [← hw, tally_memories]; rfl
        have hadvance : Advancing s journal number id armed w [] v₂ :=
          recorded_advancing hissues hcomplete hheld hid' hdecided harmed' hfresh' hx
        exact hadvance.from_silent hsilent hmemories
  · rw [hrec] at hsilent
    refine .still (hv.unrecorded (recordDecision_cases hrec)) hsilent fun hundecided => ?_
    cases recordDecision_cases hrec with
    | refused host => exact hundecided
    | decidedBefore => exact hundecided

end Decide

/-! ## Any calls -/

section Calls

variable (hs : s.store = .memory number none) (hissues : s.Issues (Noting journal))
include hs hissues

theorem round_advancing {c : Call σ} (hc : c.Round journal) (hv : Standing s id armed v asked)
    (hundecided : Undecided number id armed v.world) {r : Except Fault (Option Outcome)}
    (h : (c.run s).run v = (r, v')) : Advancing s journal number id armed v asked v' := by
  cases hc with
  | load =>
    obtain ⟨_, hrun, -⟩ := Step.map_cases h
    exact load_advancing hs hv hundecided hrun
  | decide hparse hcomplete =>
    obtain ⟨_, hrun, -⟩ := Step.map_cases h
    exact decide_advancing hissues hparse hcomplete hv hrun
  | finish =>
    obtain ⟨_, hrun, -⟩ := Step.map_cases h
    exact (finish_advancing hs hv hrun).1

theorem round_cleared {c : Call σ} {C : Prop} (hc : c.Round journal)
    (hv : Cleared s number id C v) {r : Except Fault (Option Outcome)}
    (h : (c.run s).run v = (r, v')) : Cleared s number id C v' := by
  cases hc with
  | load =>
    obtain ⟨_, hrun, -⟩ := Step.map_cases h
    exact load_cleared hs hv hrun
  | decide =>
    obtain ⟨_, hrun, -⟩ := Step.map_cases h
    exact decide_cleared (issues_keeps hissues (Response.settled_harmless s)) hv hrun
  | finish =>
    obtain ⟨_, hrun, -⟩ := Step.map_cases h
    exact finish_cleared hs hv hrun

/-- All requests stand as they may, and what was asked for each adds up. -/
theorem after_standing {T : Traffic σ} {calls : List (Nat × Call σ)} {told : Nat → List IssueContext}
    (hcalls : ∀ call ∈ calls, call.2.Round journal)
    (hstanding : ∀ i, Standing s id armed (T.visit i) (told i)) (hundecided : Undecided number id armed T.world) :
    ∀ i, Standing s id armed ((T.after s calls).visit i) (told i ++ T.asked s journal i calls) := by
  induction calls generalizing T told with
  | nil =>
    intro i
    rw [Traffic.asked, List.append_nil]
    exact hstanding i
  | cons call rest ih =>
    obtain ⟨j, c⟩ := call
    obtain ⟨hc, hrest⟩ := List.forall_mem_cons.1 hcalls
    have hadvancing : Advancing s journal number id armed (T.visit j) (told j)
        ((c.run s).run (T.visit j)).2 :=
      round_advancing hs hissues hc (hstanding j) hundecided rfl
    obtain ⟨⟨news, hjournal, hadvanced⟩, hundecided'⟩ := hadvancing
    have hnews : (journal (T.call s j c).2.world.host).drop (journal T.world.host).length = news := by
      show (journal ((c.run s).run (T.visit j)).2.world.host).drop _ = news
      rw [hjournal]
      exact List.drop_left
    have hnext : ∀ i, Standing s id armed ((T.call s j c).2.visit i)
        (if j = i then told i ++ news else told i) := by
      refine Traffic.forall_visit_call
        (P := fun i w => Standing s id armed w (if j = i then told i ++ news else told i)) ?_ fun i hi => ?_
      · rw [if_pos rfl]
        exact hadvanced
      · rw [if_neg (Ne.symm hi)]
        exact (hstanding i).congr rfl rfl
    intro i
    have hafter := ih hrest hnext (hundecided' hundecided) i
    rw [Traffic.asked, hnews]
    split at hafter <;> rename_i hj
    · rw [if_pos hj, ← List.append_assoc]
      exact hafter
    · rw [if_neg hj]
      exact hafter

/-- What the memory lost stays lost, and no request gets a copy of it. -/
theorem after_cleared {T : Traffic σ} {calls : List (Nat × Call σ)} {C : Nat → Prop}
    (hcalls : ∀ call ∈ calls, call.2.Round journal)
    (hcleared : ∀ i, Cleared s number id (C i) (T.visit i)) :
    ∀ i, Cleared s number id (C i) ((T.after s calls).visit i) := by
  induction calls generalizing T with
  | nil => exact hcleared
  | cons call rest ih =>
    obtain ⟨j, c⟩ := call
    obtain ⟨hc, hrest⟩ := List.forall_mem_cons.1 hcalls
    have hcall : Cleared s number id (C j) ((c.run s).run (T.visit j)).2 :=
      round_cleared hs hissues hc (hcleared j) rfl
    exact ih hrest (Traffic.forall_visit_call hcall fun i _ => (hcleared i).elsewhere hcall.absent)

/-- The issuing callback is asked at most once for each request. If the removal was not armed when the
transaction was stored, it is not asked for a request that was not loaded when the answer to another
was written and is finished. -/
theorem asked_once {T : Traffic σ} {calls : List (Nat × Call σ)} {t : Transaction}
    (hnamed : ∀ i, idParam s.options (T.pairs i).1 = .ok id)
    (hnew : ∀ i, (T.pairs i).1.transaction = none ∧ (T.pairs i).2.Fresh)
    (hstored : (T.world.memories number).value? id = some t) (hundecided : t.decision = none)
    (hcalls : ∀ call ∈ calls, call.2.Round journal) :
    (∀ i, Once (T.asked s journal i calls)) ∧
      (t.removalArmed = false → ∀ before i rest j, calls = before ++ (i, .finish) :: rest →
        ((T.after s before).pairs i).2.written = true →
        ((T.after s before).pairs i).2.finished = false →
        ((T.after s before).pairs j).1.transaction = none → T.asked s journal j calls = []) := by
  have hworld : Undecided number id t.removalArmed T.world := by
    intro t' ht'
    rw [hstored] at ht'
    cases ht'
    exact ⟨hundecided, rfl⟩
  have hstart : ∀ i, Standing s id t.removalArmed (T.visit i) [] := fun i =>
    .unloaded (hnew i).1 (hnamed i) (hnew i).2
  have hend := after_standing hs hissues hcalls hstart hworld
  refine ⟨fun i => (hend i).once, ?_⟩
  rintro hunarmed before i rest j rfl hwritten hunfinished hunloaded
  rw [hunarmed] at hworld hstart
  obtain ⟨hbefore, hfinish⟩ := List.forall_mem_append.1 hcalls
  obtain ⟨hround, hrest⟩ := List.forall_mem_cons.1 hfinish
  have hstanding := after_standing hs hissues hbefore hstart hworld
  have hfinished := after_standing hs hissues
    (List.forall_mem_append.2 ⟨hbefore, List.forall_mem_singleton.2 hround⟩) hstart hworld
  rw [Traffic.after_concat] at hfinished
  rw [Traffic.after_append] at hend
  generalize T.after s before = U at hwritten hunfinished hunloaded hstanding hfinished hend
  have hgone := finish_removes hs (hstanding i) hwritten hunfinished
  have hcopies := not_carries_finish (hstanding i) hwritten hunloaded
  have hcleared := after_cleared (T := (U.call s i .finish).2) hs hissues hrest
    (C := fun k => ((U.call s i .finish).2.visit k).request.Carries id)
    fun k => ⟨hgone, (hfinished k).harmless, fun hcarries => hcarries⟩
  exact (hend j).asked_nil fun hcarries => hcopies ((hcleared j).copied hcarries)

end Calls

end Server

namespace Server

/-! ## Two requests -/

/-- A transaction waits under `zeroId`, and all requests name it. -/
def shared : Traffic (List IssueContext) where
  pairs _ := (naming, .empty)
  world := ((noting.authorize trustingAll).run askingCode).2.world

/-- Allows. -/
def consent : Call (List IssueContext) := .decide .standard ⟨none, .none⟩

/-- Both requests get a copy before one of them is answered. -/
def overlapping : List (Nat × Call (List IssueContext)) :=
  [(0, .load), (1, .load), (0, consent), (0, .finish), (1, consent), (1, .finish)]

theorem overlapping_asks_twice :
    (shared.asked noting id 0 overlapping).map (·.decision.allow) = [true] ∧
      (shared.asked noting id 1 overlapping).map (·.decision.allow) = [true] :=
  ⟨rfl, rfl⟩

theorem consent_round : consent.Round id := .decide nofun fun _ _ => rfl

/-- One request is answered and finished before the other is loaded. -/
def sequential : List (Nat × Call (List IssueContext)) :=
  [(0, .load), (0, consent), (0, .finish), (1, .load), (1, consent), (1, .finish)]

/-- One after the other, the second asks nothing. -/
theorem sequential_asks_once :
    Once (shared.asked noting id 0 sequential) ∧ shared.asked noting id 1 sequential = [] := by
  have hcalls : ∀ call ∈ sequential, call.2.Round id := by
    simp only [sequential, List.forall_mem_cons]
    exact ⟨.load, consent_round, .finish, .load, consent_round, .finish, nofun⟩
  have hstored : ∃ t, (shared.world.memories 0).value? zeroId = some t ∧ t.decision = none ∧
      t.removalArmed = false := ⟨_, rfl, rfl, rfl⟩
  obtain ⟨t, ht, hundecided, hunarmed⟩ := hstored
  have hissues : noting.Issues (Noting id) := noting_issues fun _ _ => rfl
  obtain ⟨honce, hthen⟩ := asked_once (s := noting) rfl hissues (fun _ => rfl)
    (fun _ => ⟨rfl, rfl, rfl, rfl⟩) ht hundecided hcalls
  exact ⟨honce 0, hthen hunarmed [(0, .load), (0, consent)] 0 _ 1 rfl rfl rfl rfl⟩

/-- A third request was told of an error, and suspended the transaction again. -/
def rearmed : Traffic (List IssueContext) :=
  shared.after noting [(2, .load), (2, .redirectError ResponseMode.noRedirect),
    (2, .resume (fun _ => pure ⟨false, none, none⟩) .none)]

/-- The flag was stored with the transaction, and the first answer removes nothing. -/
theorem rearmed_asks_twice :
    (rearmed.asked noting id 0 sequential).map (·.decision.allow) = [true] ∧
      (rearmed.asked noting id 1 sequential).map (·.decision.allow) = [true] :=
  ⟨rfl, rfl⟩

end Server

end AuthServer
