import AuthServer.Proofs.Abreast
import AuthServer.Proofs.Bundled

/-!
# Decisions on different transactions

A decision request loads the transaction that it names, decides on it and finishes the response. All
that it learns of the store is what is held under its own id, and it changes nothing else there. So
two decision requests for different transactions may come in either order, unless the host looks into
a session for other transactions that are pending.
-/

namespace AuthServer

open Json Store Step

variable {σ : Type}

/-! ## Decision requests -/

/-- A request and its response, for three calls: load, decide and finish. Each is made however the one
before it ended. -/
structure DecisionRequest (σ : Type) where
  request : Request
  response : Response σ
  options : DecisionOptions
  callbacks : Server.DecisionCallbacks σ

/-- How the three calls ended, and the response in the end. -/
structure DecisionAnswer (σ : Type) where
  loaded : Except Fault Unit
  decided : Except Fault Unit
  finished : Except Fault Unit
  response : Response σ

namespace DecisionRequest

/-- The request comes after the visit `v`, to the world that `v` has left. A session that is the store
comes from there too. -/
def arrive (d : DecisionRequest σ) (k : Shelf) (v : Visit σ) : Visit σ where
  request := match k with
    | .memory _ => d.request
    | .session => { d.request with session := v.request.session }
  response := d.response
  world := v.world

variable (d : DecisionRequest σ) (s : Server σ) (k : Shelf) (v : Visit σ)

def load : Except Fault Unit × Visit σ := s.loadTransaction.run (d.arrive k v)

def decide : Except Fault Unit × Visit σ :=
  (s.decide d.options d.callbacks).run (d.load s k v).2

def finish : Except Fault Unit × Visit σ := Visit.finish.run (d.decide s k v).2

def answer : DecisionAnswer σ :=
  ⟨(d.load s k v).1, (d.decide s k v).1, (d.finish s k v).1, (d.finish s k v).2.response⟩

/-- The visit that the request leaves. -/
def after : Visit σ := (d.finish s k v).2

/-- A new request that names the transaction under `id`. -/
structure For (id : String) : Prop where
  named : idParam s.options d.request = .ok id
  unloaded : d.request.transaction = none
  unhooked : d.response.hooks = []
  callbacks : d.callbacks.Focused k s.options.sessionKey id

end DecisionRequest

namespace Server

variable {s : Server σ} {k : Shelf} {v u : Visit σ} {d : DecisionRequest σ} {id : String}

theorem held_arrive (o : TransactionOptions) : k.held o (d.arrive k v) = k.held o v := by
  cases k <;> rfl

theorem idParam_arrive (hd : d.For s k id) : idParam s.options (d.arrive k v).request = .ok id := by
  cases k with
  | memory => exact hd.named
  | session => exact hd.named

theorem arrive_unloaded (hd : d.For s k id) : (d.arrive k v).request.transaction = none := by
  cases k with
  | memory => exact hd.unloaded
  | session => exact hd.unloaded

theorem arrive_request :
    (d.arrive k u).request =
      { (d.arrive k v).request with session := (d.arrive k u).request.session } := by
  cases k <;> rfl

theorem Frame.arrive (h : k = .session → v.request.Distinct s.options.sessionKey) :
    Frame s k id (d.arrive k v) (d.arrive k v) := by
  refine ⟨fun hk => ?_, fun id' _ => ⟨.refl _ _ _ _, rfl⟩⟩
  subst hk
  exact h rfl

/-- Two visits that look the same to a request for `id` when it comes. -/
theorem abreast_arrive (hd : d.For s k id)
    (hv : k = .session → v.request.Distinct s.options.sessionKey)
    (hu : k = .session → u.request.Distinct s.options.sessionKey)
    (h : SameAt s k id (d.arrive k v) (d.arrive k u)) :
    Abreast s k id (d.arrive k v) (d.arrive k u) (d.arrive k v) (d.arrive k u) where
  request := arrive_request
  response := rfl
  named := idParam_arrive hd
  carried t ht := by rw [arrive_unloaded hd] at ht; cases ht
  hooks := by
    show ∀ hook ∈ d.response.hooks, _
    rw [hd.unhooked]
    exact nofun
  same := h
  left := .arrive hv
  right := .arrive hu

/-- The answer is the same, and so is what is held under `id` afterwards. -/
theorem decision_abreast (hs : s.store = k.store) (hfun : s.Functional) (hd : d.For s k id)
    (hv : k = .session → v.request.Distinct s.options.sessionKey)
    (hu : k = .session → u.request.Distinct s.options.sessionKey)
    (h : SameAt s k id (d.arrive k v) (d.arrive k u)) :
    d.answer s k u = d.answer s k v ∧
      Abreast s k id (d.arrive k v) (d.arrive k u) (d.after s k v) (d.after s k u) := by
  have hload := loadTransaction_abreast hs hfun _ _ (abreast_arrive hd hv hu h)
  have hdecide := decide_abreast hfun hd.callbacks (o := d.options) _ _ hload.state
  have hfinish := finish_abreast hs _ _ hdecide.state
  refine ⟨?_, hfinish.state⟩
  unfold DecisionRequest.answer
  congr 1
  · exact hload.result
  · exact hdecide.result
  · exact hfinish.result
  · exact hfinish.state.response

theorem decision_frame (hs : s.store = k.store) (hfun : s.Functional) (hd : d.For s k id)
    (hv : k = .session → v.request.Distinct s.options.sessionKey) :
    Frame s k id (d.arrive k v) (d.after s k v) :=
  (decision_abreast hs hfun hd hv hv ⟨.refl _ _ _ _, rfl⟩).2.left

/-- What one request leaves alone looks the same to the next one. -/
theorem SameAt.arrive {d' : DecisionRequest σ} (h : SameAt s k id (d.arrive k v) u) :
    SameAt s k id (d'.arrive k v) (d'.arrive k u) := by
  refine ⟨?_, ?_⟩
  · cases k with
    | memory => rfl
    | session => exact h.session
  · rw [held_arrive, held_arrive, h.held, held_arrive]

/-- Nothing changes but what is held under `id`. -/
def ChangesOnly (s : Server σ) (k : Shelf) (id : String) (v v' : Visit σ) : Prop :=
  ∀ id', id' ≠ id → k.held s.options v' id' = k.held s.options v id'

theorem decision_changesOnly (hs : s.store = k.store) (hfun : s.Functional) (hd : d.For s k id)
    (hv : k = .session → v.request.Distinct s.options.sessionKey) :
    ChangesOnly s k id v (d.after s k v) := by
  intro id' hne
  rw [((decision_frame hs hfun hd hv).others id' hne).held, held_arrive]

/-- Decision requests for different transactions may change places: each gets the answer that it gets
alone, the same is held after both, and each changes what is held under its own id only. -/
theorem decisions_commute (hs : s.store = k.store) (hfun : s.Functional)
    (hv : k = .session → v.request.Distinct s.options.sessionKey) {i j : String} (hij : i ≠ j)
    {di dj : DecisionRequest σ} (hi : di.For s k i) (hj : dj.For s k j) :
    (di.answer s k (dj.after s k v) = di.answer s k v ∧
      dj.answer s k (di.after s k v) = dj.answer s k v) ∧
    k.held s.options (di.after s k (dj.after s k v)) =
      k.held s.options (dj.after s k (di.after s k v)) ∧
    (ChangesOnly s k i v (di.after s k v) ∧
      ChangesOnly s k j (di.after s k v) (dj.after s k (di.after s k v))) ∧
    ChangesOnly s k j v (dj.after s k v) ∧
      ChangesOnly s k i (dj.after s k v) (di.after s k (dj.after s k v)) := by
  have hframei := decision_frame hs hfun hi hv
  have hframej := decision_frame hs hfun hj hv
  obtain ⟨hanswersi, habreasti⟩ := decision_abreast hs hfun hi hv hframej.distinct
    (hframej.others i hij).arrive
  obtain ⟨hanswersj, habreastj⟩ := decision_abreast hs hfun hj hv hframei.distinct
    (hframei.others j hij.symm).arrive
  have hi₁ := decision_changesOnly hs hfun hi hv
  have hj₁ := decision_changesOnly hs hfun hj hv
  have hi₂ := decision_changesOnly hs hfun hi hframej.distinct
  have hj₂ := decision_changesOnly hs hfun hj hframei.distinct
  refine ⟨⟨hanswersi, hanswersj⟩, funext fun id => ?_, ⟨hi₁, hj₂⟩, hj₁, hi₂⟩
  -- Under its own id a request leaves the same in both orders, and the other request keeps it.
  by_cases hidi : id = i
  · subst hidi
    exact habreasti.same.held.trans (hj₂ id hij).symm
  · rw [hi₂ id hidi]
    by_cases hidj : id = j
    · subst hidj
      exact habreastj.same.held.symm
    · rw [hj₂ id hidj, hi₁ id hidi, hj₁ id hidj]

/-! ## Three pending transactions -/

theorem coding_functional (store : Store Unit) : (coding store).Functional where
  responders l hl := by
    obtain rfl := List.mem_singleton.1 hl
    exact ⟨_, .code ResponseModes.standard_functional fun _ _ _ => rfl, rfl⟩
  readers link hlink stored := by
    obtain rfl := List.mem_singleton.1 hlink
    exact fun _ _ => rfl

/-- A transaction that waits for a code. -/
def waitingForCode : Transaction :=
  { Transaction.ofRequest (.ofType ⟨["code"]⟩) with
    client := some (.str "c1"), redirectUri := some "https://c1.example/cb" }

/-- The ids under which the session holds transactions. -/
def pendingIds (v : Visit Unit) : Option (List String) :=
  (v.request.session.bind (pending? · "authorize")).map (Entries.keys ·)

/-- A visit after which three transactions are pending in the session. -/
def threePending : Visit Unit :=
  { asking with
    request := { asking.request with
      session := some [("authorize", .obj [("a", waitingForCode.toValue),
        ("b", waitingForCode.toValue), ("c", waitingForCode.toValue)])] } }

/-- Takes the fields of the decision from the body. -/
def echoing : ParseDecision Unit := fun r => pure ⟨r.body.getD [], none⟩

/-- The resource owner's answer for the transaction under `id`. -/
def answering (id : String) (body : Params) : DecisionRequest Unit where
  request := { Request.empty with query := [("transaction_id", .str id)], body := some body }
  response := .empty
  options := .standard
  callbacks := ⟨some echoing, .none⟩

def allowA : DecisionRequest Unit := answering "a" []

def cancelB : DecisionRequest Unit := answering "b" [("cancel", .bool true)]

theorem answering_for {id : String} (hid : id ≠ "") (body : Params) :
    (answering id body).For (coding .session) .session id where
  named := by
    have htext : (answering id body).request.text? (coding .session).options.field = some id := rfl
    simp [idParam, htext, Option.filter, hid]
  unloaded := rfl
  unhooked := rfl
  callbacks := by
    refine ⟨?_, nofun⟩
    rintro _ ⟨⟩ r session _ _ _
    rfl

theorem threePending_distinct :
    threePending.request.Distinct (coding .session).options.sessionKey := by
  intro session records hsession hrecords
  cases hsession
  cases hrecords
  decide

/-- `a` is allowed and `b` is not, whichever comes first, and only `c` stays. -/
theorem threePending_commute :
    let aFirst := allowA.after (coding .session) .session threePending
    let bFirst := cancelB.after (coding .session) .session threePending
    (allowA.answer (coding .session) .session bFirst).response.header? "Location" =
        some "https://c1.example/cb?code=a1b1c1" ∧
      (cancelB.answer (coding .session) .session aFirst).response.header? "Location" =
        some "https://c1.example/cb?error=access_denied" ∧
      (allowA.answer (coding .session) .session bFirst =
          allowA.answer (coding .session) .session threePending ∧
        cancelB.answer (coding .session) .session aFirst =
          cancelB.answer (coding .session) .session threePending) ∧
      pendingIds (allowA.after (coding .session) .session bFirst) = some ["c"] ∧
      pendingIds (cancelB.after (coding .session) .session aFirst) = some ["c"] := by
  have hcommute := decisions_commute (k := .session) rfl (coding_functional .session)
    (fun _ => threePending_distinct) (i := "a") (j := "b") (by decide)
    (answering_for (by decide) []) (answering_for (by decide) [("cancel", .bool true)])
  refine ⟨?_, ?_, hcommute.1, ?_, ?_⟩
  · decide +kernel
  · decide +kernel
  · decide +kernel
  · decide +kernel

/-! ## A host that looks at the others -/

/-- Allows access if nothing else is pending in the session. -/
def ifAlone (r : Request) : DecisionInput :=
  ⟨[("allow", .bool (((r.session.bind (pending? · "authorize")).getD []).length == 1))], none⟩

/-- The resource owner is asked about the transaction under `id`. -/
def alone (id : String) : DecisionRequest Unit :=
  { answering id [] with callbacks := ⟨some fun r => pure (ifAlone r), .none⟩ }

def twoPending : Visit Unit :=
  { asking with
    request := { asking.request with
      session := some [("authorize", .obj [("a", waitingForCode.toValue),
        ("b", waitingForCode.toValue)])] } }

/-- The callback is a function of the request alone. Still `a` is denied if it comes before `b`, and
allowed if it comes after it. -/
theorem order_shows_in_session :
    let bFirst := (alone "b").after (coding .session) .session twoPending
    ((alone "a").answer (coding .session) .session twoPending).response.header? "Location" =
        some "https://c1.example/cb?error=access_denied" ∧
      ((alone "a").answer (coding .session) .session bFirst).response.header? "Location" =
        some "https://c1.example/cb?code=a1b1c1" := by
  constructor
  · decide +kernel
  · decide +kernel

end Server

end AuthServer
