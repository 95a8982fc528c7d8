import AuthServer.Proofs.Bundled
import AuthServer.Proofs.Calls
import AuthServer.Proofs.Endpoint.Decision
import AuthServer.Proofs.Endpoint.Error
import AuthServer.Proofs.Endpoint.Finish
import AuthServer.Proofs.Endpoint.Loading
import AuthServer.Proofs.Endpoint.Resume
import AuthServer.Proofs.Endpoint.Token
import Mathlib.Data.Bool.Count

/-!
# What the counters tell

Every call is on record: what it was, the visit before it and after it, and how it ended. Each
record tells if a transaction was suspended, resumed or decided in it, what was exchanged, and
which error it returned. The counters of a metered server are the sums over the record.
-/

namespace AuthServer

open Json Store

variable {σ : Type}

/-! ## Labels -/

namespace Counts

theorem count_increment (c : Counts) (l label : String) :
    count (c.increment l) label = count c label + if l = label then 1 else 0 := by
  unfold increment count
  rw [Entries.value?_put]
  by_cases h : l = label
  · subst h
    simp
  · simp [h]

/-- Counts a label, if there is one. -/
def note (c : Counts) : Option String → Counts
  | none => c
  | some label => c.increment label

theorem count_note (c : Counts) (l : Option String) (label : String) :
    count (c.note l) label = count c label + if l = some label then 1 else 0 := by
  cases l with
  | none => rfl
  | some l => simp [note, count_increment]

end Counts

theorem ErrorKind.name_injective : Function.Injective name := by
  intro k k' h
  cases k <;> cases k' <;> first | rfl | exact absurd h (by decide)

theorem Metrics.outcome_injective : Function.Injective outcome := by
  intro b b' h
  cases b <;> cases b' <;> first | rfl | exact absurd h (by decide)

/-! ## What leaves the counters alone -/

/-- The decision on the request's transaction, if there is one. -/
def Request.verdict? (r : Request) : Option Bool := (r.transaction.bind (·.decision)).map (·.allow)

/-- The counters are `m`, and the request shows the decision `d`. -/
def Access.Shows (m : Metrics) (d : Option Bool) (a : Access σ) : Prop :=
  a.world.metrics = m ∧ a.request.verdict? = d

def Visit.Shows (m : Metrics) (d : Option Bool) (v : Visit σ) : Prop := v.access.Shows m d

theorem Visit.Shows.metrics {v : Visit σ} {m : Metrics} {d : Option Bool} (h : v.Shows m d) :
    v.world.metrics = m :=
  h.1

theorem Visit.Shows.verdict {v : Visit σ} {m : Metrics} {d : Option Bool} (h : v.Shows m d) :
    v.request.verdict? = d :=
  h.2

/-- A store that leaves alone the counters and what the request shows. Both stores that come with the
server do. One of the host that decided a transaction, or counted, would do so behind the endpoints. -/
structure Store.Discreet (k : Store σ) : Prop where
  load : ∀ c o m d, (k.load c o).Keeps (Access.Shows m d)
  store : ∀ c o t m d, (k.store c o t).Keeps (Access.Shows m d)
  update : ∀ c o id t m d, (k.update c o id t).Keeps (Access.Shows m d)
  remove : ∀ o id m d, (k.remove o id).Keeps (Access.Shows m d)

namespace Store

theorem memory_discreet (number : Nat) (lifetime : Lifetime σ) :
    (memory number lifetime : Store σ).Discreet where
  load c o m d := by
    refine (Step.keeps_gets _).bind fun request => (Step.keeps_ofExcept _).bind fun id => ?_
    refine Step.Keeps.bind (fun _ ha => ha) fun t => ?_
    cases t with
    | some t => exact Step.keeps_pure _
    | none => exact Step.keeps_fail _
  store _ _ _ _ _ := fun _ ha => ha
  update _ _ _ _ _ _ := fun _ ha => ha
  remove _ _ _ _ := fun _ ha => ha

section Session

variable (m : Metrics) (d : Option Bool)

theorem theSession_shows : (theSession : Step (Access σ) Params).Keeps (Access.Shows m d) := by
  refine (Step.keeps_gets _).bind fun session => ?_
  cases session with
  | some session => exact Step.keeps_pure _
  | none => exact Step.keeps_fail _

theorem onHost_shows {α : Type} (x : Step σ α) : (Step.onHost x).Keeps (Access.Shows m d) :=
  fun _ ha => ha

theorem recordOf_shows (c : ClientForms σ) (t : Transaction) :
    (recordOf c t).Keeps (Access.Shows m d) := by
  unfold recordOf
  cases t.client with
  | none => exact Step.keeps_pure _
  | some client => exact (onHost_shows m d _).bind fun _ => Step.keeps_pure _

theorem shelve_shows (o : TransactionOptions) (record : Value) (id : String) :
    (shelve o record id : Step (Access σ) String).Keeps (Access.Shows m d) :=
  (theSession_shows m d).bind fun _ => Step.Keeps.bind (fun _ ha => ha) fun _ => Step.keeps_pure _

end Session

theorem session_discreet : (session : Store σ).Discreet where
  load c o m d := by
    refine (theSession_shows m d).bind fun held => ?_
    cases pending? held o.sessionKey with
    | none => exact Step.keeps_fail _
    | some records =>
      refine (Step.keeps_gets _).bind fun request => (Step.keeps_ofExcept _).bind fun id => ?_
      cases records.value? id with
      | none => exact Step.keeps_fail _
      | some record =>
        refine (Step.keeps_ofExcept _).bind fun t => ?_
        rcases t.client with _ | stored
        · exact (Step.keeps_pure _).bind fun _ => Step.keeps_pure _
        · exact (onHost_shows m d _).bind fun _ => Step.keeps_pure _
  store c o t m d := by
    refine (theSession_shows m d).bind fun _ => (recordOf_shows m d c t).bind fun record => ?_
    exact Step.Keeps.bind (fun _ ha => ha) fun id => shelve_shows m d o record id
  update c o id t m d := (recordOf_shows m d c t).bind fun record => shelve_shows m d o record id
  remove _ _ m d := (theSession_shows m d).bind fun _ => fun _ ha => ha

end Store

/-- A hook that does not decide a transaction itself. The removal does not. A decision that the host
takes in a hook of its own is none of an endpoint, and no counter tells of it. -/
def FinishHook.Discreet : FinishHook σ → Prop
  | removal store .. => store.Discreet
  | host _ action => ∀ p, p.1.verdict? = none → (action.run p).2.1.verdict? = none

/-- A call that runs discreet hooks, if any. -/
def Call.Discreet (v : Visit σ) : Call σ → Prop
  | finish => ∀ hook ∈ v.response.hooks, hook.Discreet
  | _ => True

/-! ## What the stages of a call count -/

namespace Metrics

/-- Counts a decision, if there is one. -/
def noteDecision (m : Metrics) (d : Option Bool) : Metrics :=
  { m with decisions := Counts.note m.decisions (d.map outcome) }

/-- Counts an error, if a run ended in one. -/
def noteError {α : Type} (m : Metrics) : Except Fault α → Metrics
  | .error (.error e) => m.countError e.kind
  | _ => m

end Metrics

/-- The decision that an authorization left on the request. Where it crashed, it has not put its
transaction there. -/
def Visit.shown {α : Type} (v : Visit σ) : Except Fault α → Option Bool
  | .ok _ => v.request.verdict?
  | .error (.error _) => v.request.verdict?
  | .error .crash => none

theorem Visit.verdict_holding (v : Visit σ) (t : Transaction) :
    (v.holding t).request.verdict? = t.decision.map (·.allow) := rfl

namespace Server

variable {s : Server σ} {v v' : Visit σ} {m : Metrics} {d : Option Bool}

theorem storeNew_shows (hstore : s.store.Discreet) (t : Transaction) :
    (s.storeNew t).Keeps (Visit.Shows m d) :=
  fun v hv => hstore.store s.clients s.options t m d v.access hv

theorem storeAgain_shows (hstore : s.store.Discreet) (id : String) (t : Transaction) :
    (s.storeAgain id t).Keeps (Visit.Shows m d) :=
  fun v hv => hstore.update s.clients s.options id t m d v.access hv

theorem putBack_shows (hstore : s.store.Discreet) (t : Transaction) :
    (s.putBack t).Keeps (Visit.Shows m d) := by
  unfold putBack
  split
  · exact storeAgain_shows hstore _ t
  · exact storeNew_shows hstore t

theorem tally_metrics (hmetered : s.metered = true) (f : Metrics → Metrics) (v : Visit σ) :
    (s.tally f v).world.metrics = f v.world.metrics := by
  rw [tally, if_pos hmetered]
  rfl

/-- A counted call counts its error and nothing else. -/
theorem counted_metrics (hmetered : s.metered = true) {α : Type} {x : Step (Visit σ) α}
    {r : Except Fault α} (h : (s.counted x).run v = (r, v')) :
    ∃ v₁, x.run v = (r, v₁) ∧ v'.request = v₁.request ∧
      v'.world.metrics = v₁.world.metrics.noteError r := by
  rcases Step.onError_cases (fun e => s.tally (·.countError e.kind)) (fun _ _ => rfl) h with
    ⟨hx, hne⟩ | ⟨e, v₁, hx, rfl, rfl⟩
  · refine ⟨v', hx, rfl, ?_⟩
    rcases r with (e | _) | a
    · exact absurd rfl (hne e)
    · rfl
    · rfl
  · exact ⟨v₁, hx, tally_request s _ v₁, tally_metrics hmetered _ v₁⟩

theorem arm_shows (hv : v.Shows m d) : (s.arm v).Shows m d := by
  obtain ⟨hmetrics, hverdict⟩ := hv
  refine ⟨(congrArg World.metrics (arm_world s v)).trans hmetrics, ?_⟩
  have hdecision : (v.request.transaction.map Transaction.armStored).bind (·.decision) =
      v.request.transaction.bind (·.decision) := by
    cases v.request.transaction <;> rfl
  show (s.arm v).request.verdict? = d
  rw [Request.verdict?, arm_transaction, hdecision]
  exact hverdict

/-- The responders leave the decision on their transaction as it is. -/
theorem Responding.shows {complete : Completion σ} {t : Transaction} {r : Except Fault Unit}
    (h : Responding s complete t v r v') (ht : v.request.verdict? = t.decision.map (·.allow)) :
    v'.Shows v.world.metrics v.request.verdict? := by
  cases h with
  | answered => exact ⟨rfl, ht.symm⟩
  | unsupported => exact ⟨rfl, rfl⟩
  | failed => exact ⟨rfl, rfl⟩

/-! ### An authorization -/

def suspends : Except Fault Outcome → Bool
  | .ok (.pending _) => true
  | _ => false

/-- The counters that were `m` before a stage of an authorization. -/
def Advanced (m : Metrics) (r : Except Fault Outcome) (v' : Visit σ) : Prop :=
  v'.world.metrics = { m.noteDecision (v'.shown r) with started := m.started + (suspends r).toNat }

theorem newTransaction_undecided {t : Transaction} (h : s.newTransaction.run v = (.ok t, v')) :
    t.decision = none ∧ v'.world.metrics = v.world.metrics := by
  cases newTransaction_cases h with
  | begun => exact ⟨rfl, rfl⟩

/-- An error before any decision. -/
theorem advanced_of_undecided {t : Transaction} (ht : t.decision = none)
    (hmetrics : v.world.metrics = m) (e : OAuthError) :
    Advanced m (.error (.error e)) (v.holding t) := by
  rw [Advanced, Visit.shown, Visit.verdict_holding, ht]
  exact hmetrics

theorem Suspending.advanced (hmetered : s.metered = true) (hstore : s.store.Discreet)
    {t : Transaction} {r : Except Fault Outcome} (ht : t.decision = none)
    (h : Suspending s t v r v') : Advanced v.world.metrics r v' := by
  have hkept : ∀ {r' v₁}, (s.storeNew t).run v = (r', v₁) → v₁.world.metrics = v.world.metrics :=
    fun hrun => ((storeNew_shows hstore t).of_run hrun ⟨rfl, rfl⟩).1
  cases h with
  | @stored id v₁ hrun =>
    have hshown : (s.tally (·.countStarted) (v₁.holding (t.persisted id))).request.verdict? = none := by
      rw [tally_request, Visit.verdict_holding]
      exact congrArg _ ht
    rw [Advanced, Visit.shown, hshown, tally_metrics hmetered]
    show v₁.world.metrics.countStarted = _
    rw [hkept hrun]
    rfl
  | @failed e v₁ hrun =>
    exact advanced_of_undecided ht (hkept hrun) e
  | crashed hrun => exact hkept hrun

theorem respond_ne_crash {d : Dispatcher σ} {t : Transaction} {complete : Completion σ}
    {reply : Reply σ} : ((d.respond t complete).run reply).1 ≠ .error .crash := by
  unfold Dispatcher.respond
  generalize (Layer.applicable d.responders t.request.type).map (fun l => l.handler t complete) = xs
  induction xs generalizing reply with
  | nil => exact nofun
  | cons x rest ih =>
    have hx := Step.guarded_ne_crash x reply
    rw [Dispatcher.firstDone, Step.run_bind]
    rcases hrun : x.guarded.run reply with ⟨f | _ | _, reply'⟩ <;> rw [hrun] at hx
    · exact hx
    · rintro ⟨⟩
    · exact ih

theorem Responding.ne_crash {complete : Completion σ} {t : Transaction} {r : Except Fault Unit}
    (h : Responding s complete t v r v') : r ≠ .error .crash := by
  cases h with
  | answered => exact nofun
  | unsupported => exact nofun
  | failed hrun =>
    intro he
    cases he
    exact respond_ne_crash (congrArg Prod.fst hrun)

theorem Granting.advanced (hmetered : s.metered = true) {t : Transaction} {fields : Params}
    {completion : Completion σ} {r : Except Fault Outcome} (ht : t.decision = none)
    (h : Granting s t fields completion v r v') : Advanced v.world.metrics r v' := by
  have hanswered : ∀ {t' : Transaction} {r' : Except Fault Unit},
      t.decide (.withFields true fields) = .ok t' →
      Responding s completion t' (s.tally (·.countDecision true) (v.holding t')) r' v' →
      v'.Shows (v.world.metrics.countDecision true) (some true) ∧ r' ≠ .error .crash := by
    intro t' r' hdecide hresponding
    have hverdict : (s.tally (·.countDecision true) (v.holding t')).request.verdict? = some true := by
      rw [tally_request, Visit.verdict_holding, Transaction.decide_eq hdecide]
      rfl
    have hshows := hresponding.shows (by rw [hverdict, Transaction.decide_eq hdecide]; rfl)
    rw [hverdict, tally_metrics hmetered] at hshows
    exact ⟨hshows, hresponding.ne_crash⟩
  cases h with
  | decided hdecide => rw [Transaction.decide, ht] at hdecide; cases hdecide
  | responded hdecide hresponding =>
    obtain ⟨hshows, -⟩ := hanswered hdecide hresponding
    rw [Advanced, Visit.shown, hshows.verdict]
    exact hshows.metrics
  | @failed t' e _ hdecide hresponding =>
    obtain ⟨hshows, hne⟩ := hanswered hdecide hresponding
    cases e with
    | error e =>
      rw [Advanced, Visit.shown, hshows.verdict]
      exact hshows.metrics
    | crash => exact absurd rfl hne

theorem Trying.advanced (hmetered : s.metered = true) (hstore : s.store.Discreet)
    {immediate : Immediate σ} {completion : Completion σ} {t : Transaction}
    {r : Except Fault Outcome} (ht : t.decision = none)
    (h : Trying s immediate completion t v r v') : Advanced v.world.metrics r v' := by
  cases h with
  | failed => exact advanced_of_undecided ht rfl _
  | @granted verdict _ _ _ _ _ h =>
    have ht' : (t.mergeLocals verdict.locals).decision = none := ht
    have hadvanced := h.advanced hmetered ht'
    exact hadvanced
  | @deferred verdict _ _ _ _ _ h =>
    have ht' : ((t.mergeLocals verdict.locals).withInfo verdict.info).decision = none := ht
    have hadvanced := h.advanced hmetered hstore ht'
    exact hadvanced

/-- Once the new transaction is there, it has no decision but one that is counted. -/
theorem Authorizing.advanced (hmetered : s.metered = true) (hstore : s.store.Discreet)
    {c : AuthorizationCallbacks σ} {r : Except Fault Outcome} (h : Authorizing s c v r v') :
    (∃ t v₁, s.newTransaction.run v = (.ok t, v₁) ∧ Advanced v.world.metrics r v') ∨
      ∃ e, s.newTransaction.run v = (.error e, v') ∧ r = .error e := by
  have hvalidated : ∀ {t t' : Transaction} {v₁ v₂ : Visit σ}, t.decision = none →
      Validating c t v₁ (.ok t') v₂ → t'.decision = none ∧ v₂.world.metrics = v₁.world.metrics := by
    intro t t' v₁ v₂ ht hvalid
    cases hvalid with
    | passed => exact ⟨ht, rfl⟩
  cases h with
  | refused hnew => exact .inr ⟨_, hnew, rfl⟩
  | invalid hnew hvalid =>
    obtain ⟨ht, hmetrics⟩ := newTransaction_undecided hnew
    refine .inl ⟨_, _, hnew, ?_⟩
    cases hvalid with
    | failed => exact advanced_of_undecided ht hmetrics _
    | @unauthorized a =>
      have ht' : (Transaction.validated _ none a.redirectUri a.webOrigin).decision = none := ht
      exact advanced_of_undecided ht' hmetrics _
  | asked hnew hvalid _ h =>
    obtain ⟨ht, hmetrics⟩ := newTransaction_undecided hnew
    obtain ⟨ht', hmetrics'⟩ := hvalidated ht hvalid
    refine .inl ⟨_, _, hnew, ?_⟩
    rw [← hmetrics, ← hmetrics']
    exact h.advanced hmetered hstore ht'
  | tried hnew hvalid _ h =>
    obtain ⟨ht, hmetrics⟩ := newTransaction_undecided hnew
    obtain ⟨ht', hmetrics'⟩ := hvalidated ht hvalid
    refine .inl ⟨_, _, hnew, ?_⟩
    rw [← hmetrics, ← hmetrics']
    exact h.advanced hmetered hstore ht'

/-! ### A transaction on the request -/

/-- The counters that were `m` before a stage with the transaction `t`. -/
def Settled (m : Metrics) (t : Transaction) (v' : Visit σ) : Prop :=
  v'.world.metrics = m.noteDecision (if t.decision.isSome then none else v'.request.verdict?)

/-- Without a new decision nothing is counted. -/
theorem settled_of_shows {t : Transaction} (h : v'.Shows m (t.decision.map (·.allow))) :
    Settled m t v' := by
  rw [Settled, h.verdict, h.metrics]
  cases t.decision <;> rfl

/-- A new decision is counted before the removal is armed and the responders run. -/
theorem Responding.settled {t t' : Transaction} {allow : Bool} {fields : Params}
    {completion : Completion σ} {r : Except Fault Unit}
    (hdecide : t.decide (.withFields allow fields) = .ok t')
    (hv : v.Shows (m.countDecision allow) (some allow))
    (h : Responding s completion t'.armStored (s.arm v) r v') : Settled m t v' := by
  have harmed := arm_shows (s := s) hv
  have hverdict : t'.armStored.decision.map (·.allow) = some allow := by
    rw [Transaction.decide_eq hdecide]
    rfl
  have hshows := h.shows (harmed.verdict.trans hverdict.symm)
  rw [harmed.metrics, harmed.verdict] at hshows
  rw [Settled, hshows.verdict, hshows.metrics, Transaction.undecided_of_decide hdecide]
  rfl

theorem tally_decided_shows (hmetered : s.metered = true) {t t' : Transaction} {allow : Bool}
    {fields : Params} (hdecide : t.decide (.withFields allow fields) = .ok t') (v : Visit σ) :
    (s.tally (·.countDecision allow) (v.holding t')).Shows (v.world.metrics.countDecision allow)
      (some allow) := by
  refine ⟨tally_metrics hmetered _ _, ?_⟩
  show (s.tally _ (v.holding t')).request.verdict? = _
  rw [tally_request, Visit.verdict_holding, Transaction.decide_eq hdecide]
  rfl

theorem Deciding.settled (hmetered : s.metered = true) {completion : Completion σ}
    {t : Transaction} {r : Except Fault Unit} (ht : v.request.transaction = some t)
    (h : Deciding s completion v r v') : Settled v.world.metrics t v' := by
  have hheld : v.request.verdict? = t.decision.map (·.allow) := by rw [Request.verdict?, ht]; rfl
  cases h with
  | unrecorded h =>
    cases h with
    | refused host => exact settled_of_shows ⟨rfl, hheld⟩
    | decidedBefore ht' =>
      obtain rfl := Option.some.inj (ht.symm.trans ht')
      exact settled_of_shows ⟨rfl, rfl⟩
  | @answered t' _ v₁ _ h ht' hresponding =>
    cases h with
    | @recorded t₀ body input host allow t₁ hfound _ hdecide =>
      obtain rfl := Option.some.inj (ht.symm.trans hfound)
      obtain rfl : t₁ = t' := by
        rw [tally_request] at ht'
        exact Option.some.inj ht'
      exact Responding.settled (t := s.considered t input v) hdecide
        (tally_decided_shows hmetered hdecide (v.withHost host)) hresponding

theorem GrantingStored.settled (hmetered : s.metered = true) {t : Transaction} {fields : Params}
    {completion : Completion σ} {r : Except Fault Outcome}
    (ht : v.request.transaction = some t) (h : GrantingStored s t fields completion v r v') :
    Settled v.world.metrics t v' := by
  cases h with
  | decided => exact settled_of_shows ⟨rfl, by rw [Visit.access, Request.verdict?, ht]; rfl⟩
  | answered hdecide hresponding =>
    exact Responding.settled hdecide (tally_decided_shows hmetered hdecide v) hresponding

theorem SuspendingAgain.settled (hstore : s.store.Discreet) {t : Transaction}
    {r : Except Fault Outcome} (h : SuspendingAgain s t v r v') : Settled v.world.metrics t v' := by
  have hkept : ∀ {r' v₁}, (s.putBack t).run (v.holding t) = (r', v₁) →
      v₁.Shows v.world.metrics (t.decision.map (·.allow)) :=
    fun hrun => (putBack_shows hstore t).of_run hrun ⟨rfl, rfl⟩
  cases h with
  | stored hrun => exact settled_of_shows ⟨(hkept hrun).metrics, rfl⟩
  | failed hrun => exact settled_of_shows (hkept hrun)

theorem Resuming.settled (hmetered : s.metered = true) (hstore : s.store.Discreet)
    {immediate : Immediate σ} {completion : Completion σ} {t : Transaction}
    {r : Except Fault Outcome} (ht : v.request.transaction = some t)
    (h : Resuming s immediate completion v r v') :
    Settled v.world.metrics.countResumed t v' := by
  have hmetrics : (s.reconsidered t v).world.metrics = v.world.metrics.countResumed :=
    tally_metrics hmetered _ _
  cases h with
  | unloaded hnone => rw [hnone] at ht; cases ht
  | @failed t' e host ht' _ =>
    obtain rfl := Option.some.inj (ht.symm.trans ht')
    refine settled_of_shows ⟨hmetrics, ?_⟩
    show (s.tally _ _).request.verdict? = _
    rw [tally_request]
    rfl
  | @granted t' verdict host _ _ ht' _ _ h =>
    obtain rfl := Option.some.inj (ht.symm.trans ht')
    have hsettled := h.settled hmetered rfl
    rw [← hmetrics]
    exact hsettled
  | @deferred t' verdict host _ _ ht' _ _ h =>
    obtain rfl := Option.some.inj (ht.symm.trans ht')
    have hsettled := h.settled hstore
    rw [← hmetrics]
    exact hsettled

/-! ### Exchanges and hooks -/

theorem runToken_metrics (hmetered : s.metered = true) {r : Except Fault Unit}
    (h : s.runToken.run v = (r, v')) :
    v'.world.metrics =
      match r with
      | .ok _ => v.world.metrics.countExchange ((v.request.bodyText? "grant_type").getD "")
      | .error _ => v.world.metrics := by
  unfold runToken at h
  rw [Step.run_gets_bind, Step.run_bind, Step.run_asReply] at h
  rcases hrun : (s.dispatcher.exchange (v.request.bodyText? "grant_type") v.request).run v.reply
    with ⟨e | _ | _, reply⟩ <;> simp only [hrun] at h <;> cases h
  · rfl
  · exact tally_metrics hmetered _ _
  · rfl

/-- Discreet hooks count nothing and decide nothing. -/
theorem finish_shows {r : Except Fault Unit} (hhooks : ∀ hook ∈ v.response.hooks, hook.Discreet)
    (h : Visit.finish.run v = (r, v')) :
    v'.world.metrics = v.world.metrics ∧
      (v.request.verdict? = none → v'.request.verdict? = none) := by
  cases Visit.finish_cases h with
  | idle => exact ⟨rfl, id⟩
  | ran _ hran =>
    have hkeeps := Visit.runHooks_keeps (P := fun u => u.world.metrics = v.world.metrics ∧
        (v.request.verdict? = none → u.request.verdict? = none)) fun hook hmem => by
      cases hook with
      | host key action =>
        exact fun u hu => ⟨hu.1, fun hnone => hhooks _ hmem (u.request, u.world.host) (hu.2 hnone)⟩
      | removal store options id =>
        refine Visit.runHook_removal_keeps fun u hu => ?_
        have hremoved := (hhooks _ hmem).remove options id _ _ u.access ⟨hu.1, rfl⟩
        exact ⟨hremoved.1, fun hnone => hremoved.2.trans (hu.2 hnone)⟩
    exact hkeeps.of_run hran ⟨rfl, id⟩

end Server

/-! ## The record of a call -/

/-- A call, the visit before it, how it ended, and the visit after it. -/
structure Record (σ : Type) where
  call : Call σ
  before : Visit σ
  result : Except Fault (Option Outcome)
  after : Visit σ

namespace Record

def ofCall (s : Server σ) (v : Visit σ) (c : Call σ) : Record σ :=
  ⟨c, v, ((c.run s).run v).1, ((c.run s).run v).2⟩

/-- An authorization that ended pending. -/
def suspended (r : Record σ) : Bool :=
  match r.call, r.result with
  | .authorize _, .ok (some (.pending _)) => true
  | _, _ => false

/-- A resumption with a transaction on the request. -/
def resumed (r : Record σ) : Bool :=
  match r.call with
  | .resume .. => r.before.request.transaction.isSome
  | _ => false

/-- The transaction that a call comes to work on: an authorization makes a new one. -/
def subject? (s : Server σ) (r : Record σ) : Option Transaction :=
  match r.call with
  | .authorize _ => (s.newTransaction.run r.before).1.toOption
  | _ => r.before.request.transaction

/-- The decision that the call left on the request. -/
def left? (r : Record σ) : Option Bool :=
  match r.call with
  | .authorize _ => r.after.shown r.result
  | _ => r.after.request.verdict?

/-- A decision on a transaction that had none. -/
def decision? (s : Server σ) (r : Record σ) : Option Bool :=
  match r.subject? s with
  | none => none
  | some t => if t.decision.isSome then none else r.left?

/-- The grant type of an exchange; empty where the body has none. -/
def exchange? (r : Record σ) : Option String :=
  match r.call, r.result with
  | .token, .ok _ => some ((r.before.request.bodyText? "grant_type").getD "")
  | _, _ => none

/-- The kind of the error that an endpoint returned. -/
def error? (r : Record σ) : Option ErrorKind :=
  match r.call, r.result with
  | .authorize _, .error (.error e) | .resume _ _, .error (.error e) | .decide _ _, .error (.error e)
  | .load, .error (.error e) | .token, .error (.error e) => some e.kind
  | _, _ => none

/-- The counters after the call. -/
def count (s : Server σ) (r : Record σ) (m : Metrics) : Metrics where
  started := m.started + r.suspended.toNat
  resumed := m.resumed + r.resumed.toNat
  decisions := Counts.note m.decisions ((r.decision? s).map Metrics.outcome)
  exchanges := Counts.note m.exchanges r.exchange?
  errors := Counts.note m.errors (r.error?.map ErrorKind.name)

/-! ### What a call adds -/

variable {s : Server σ} {v v' : Visit σ}

theorem authorize_count (hmetered : s.metered = true) (hstore : s.store.Discreet)
    {c : AuthorizationCallbacks σ} {r : Except Fault Outcome}
    (h : (s.authorize c).run v = (r, v')) :
    v'.world.metrics = count s ⟨.authorize c, v, r.map some, v'⟩ v.world.metrics := by
  obtain ⟨v₁, hrun, hrequest, hmetrics⟩ := Server.counted_metrics hmetered h
  have hshown : v'.shown (r.map some) = v₁.shown r := by
    rcases r with (e | _) | o
    · exact congrArg Request.verdict? hrequest
    · rfl
    · exact congrArg Request.verdict? hrequest
  obtain ⟨t, v₂, hnew, hadvanced⟩ | ⟨e, hnew, rfl⟩ :=
    (Server.runAuthorization_cases hrun).advanced hmetered hstore
  · have hdecision : decision? s ⟨.authorize c, v, r.map some, v'⟩ = v₁.shown r := by
      rw [decision?, subject?, hnew]
      simp only [Except.toOption, (Server.newTransaction_undecided hnew).1]
      exact hshown
    rw [hmetrics, hadvanced, count, hdecision]
    rcases r with (e | _) | (id | _) <;> rfl
  · have hdecision : decision? s ⟨.authorize c, v, (Except.error e).map some, v'⟩ = none := by
      rw [decision?, subject?, hnew]
      rfl
    have hkept : v₁.world.metrics = v.world.metrics := by
      cases Server.newTransaction_cases hnew with
      | refused => rfl
    rw [hmetrics, hkept, count, hdecision]
    rcases e with e | _ <;> rfl

/-- A decision of a call on the request's transaction. -/
theorem decision_of_held {t : Transaction} {c : Call σ} {r : Except Fault (Option Outcome)}
    (hc : ∀ callbacks, c ≠ .authorize callbacks) (ht : v.request.transaction = some t) :
    decision? s ⟨c, v, r, v'⟩ = if t.decision.isSome then none else v'.request.verdict? := by
  have hsubject : subject? s ⟨c, v, r, v'⟩ = some t := by
    rw [← ht]
    cases c <;> first | rfl | exact absurd rfl (hc _)
  have hleft : left? ⟨c, v, r, v'⟩ = v'.request.verdict? := by
    cases c <;> first | rfl | exact absurd rfl (hc _)
  rw [decision?, hsubject, hleft]

theorem decision_of_absent {c : Call σ} {r : Except Fault (Option Outcome)}
    (hc : ∀ callbacks, c ≠ .authorize callbacks) (ht : v.request.transaction = none) :
    decision? s ⟨c, v, r, v'⟩ = none := by
  have hsubject : subject? s ⟨c, v, r, v'⟩ = none := by
    rw [← ht]
    cases c <;> first | rfl | exact absurd rfl (hc _)
  rw [decision?, hsubject]

theorem decision_of_kept {c : Call σ} {r : Except Fault (Option Outcome)}
    (hc : ∀ callbacks, c ≠ .authorize callbacks)
    (hkept : v.request.verdict? = none → v'.request.verdict? = none) :
    decision? s ⟨c, v, r, v'⟩ = none := by
  cases ht : v.request.transaction with
  | none => exact decision_of_absent hc ht
  | some t =>
    rw [decision_of_held hc ht]
    cases hd : t.decision with
    | some d => rfl
    | none => exact hkept (by rw [Request.verdict?, ht]; exact congrArg (Option.map (·.allow)) hd)

theorem resume_count (hmetered : s.metered = true) (hstore : s.store.Discreet)
    {immediate : Immediate σ} {completion : Completion σ} {r : Except Fault Outcome}
    (h : (s.resume immediate completion).run v = (r, v')) :
    v'.world.metrics = count s ⟨.resume immediate completion, v, r.map some, v'⟩ v.world.metrics := by
  obtain ⟨v₁, hrun, hrequest, hmetrics⟩ := Server.counted_metrics hmetered h
  have hresuming := Server.runResume_cases hrun
  cases ht : v.request.transaction with
  | none =>
    cases hresuming with
    | unloaded =>
      rw [hmetrics, count, decision_of_absent (c := .resume immediate completion) (fun _ => nofun) ht, resumed, ht]
      rfl
    | failed ht' => rw [ht] at ht'; cases ht'
    | granted ht' => rw [ht] at ht'; cases ht'
    | deferred ht' => rw [ht] at ht'; cases ht'
  | some t =>
    rw [hmetrics, hresuming.settled hmetered hstore ht, count,
      decision_of_held (c := .resume immediate completion) (fun _ => nofun) ht, resumed, ht, hrequest]
    rcases r with (e | _) | o <;> rfl

theorem decide_count (hmetered : s.metered = true) {o : DecisionOptions}
    {c : Server.DecisionCallbacks σ} {r : Except Fault Unit} (h : (s.decide o c).run v = (r, v')) :
    v'.world.metrics = count s ⟨.decide o c, v, r.map fun _ => none, v'⟩ v.world.metrics := by
  obtain ⟨v₁, hrun, hrequest, hmetrics⟩ := Server.counted_metrics hmetered h
  have hdeciding := Server.runDecision_cases hrun
  cases ht : v.request.transaction with
  | none =>
    cases hdeciding with
    | unrecorded h =>
      cases h with
      | refused =>
        rw [hmetrics, count, decision_of_absent (c := .decide o c) (fun _ => nofun) ht]
        rfl
      | decidedBefore ht' => rw [ht] at ht'; cases ht'
    | answered h =>
      cases h with
      | recorded ht' => rw [ht] at ht'; cases ht'
  | some t =>
    rw [hmetrics, hdeciding.settled hmetered ht, count,
      decision_of_held (c := .decide o c) (fun _ => nofun) ht, hrequest]
    rcases r with (e | _) | _ <;> rfl

theorem load_keeps_metrics (hstore : s.store.Discreet) (m : Metrics) :
    (s.load >>= fun t =>
      if t.client.isSome then Server.setTransaction t
      else do
        if let some id := t.id then s.removeQuietly id
        .fail .unauthorizedClient).Keeps fun u => u.world.metrics = m := by
  have hload : s.load.Keeps fun u => u.world.metrics = m := fun u hu =>
    (hstore.load s.clients s.options m _ u.access ⟨hu, rfl⟩).1
  have hremove : ∀ id, (s.removeQuietly id).Keeps fun u => u.world.metrics = m := fun id =>
    Visit.runHook_removal_keeps fun u hu => (hstore.remove s.options id m _ u.access ⟨hu, rfl⟩).1
  refine hload.bind fun t => ?_
  split
  · exact fun _ hu => hu
  · cases t.id with
    | none => exact Step.keeps_fail _
    | some id => exact (hremove id).bind fun _ => Step.keeps_fail _

theorem load_ne_authorize (callbacks : AuthorizationCallbacks σ) : Call.load ≠ .authorize callbacks :=
  nofun

theorem load_count (hmetered : s.metered = true) (hstore : s.store.Discreet) {r : Except Fault Unit}
    (h : s.loadTransaction.run v = (r, v')) :
    v'.world.metrics = count s ⟨.load, v, r.map fun _ => none, v'⟩ v.world.metrics := by
  cases ht : v.request.transaction with
  | some t =>
    simp only [Server.loadTransaction, Step.run_gets_bind, ht] at h
    cases h
    rw [count, decision_of_kept load_ne_authorize id]
    rfl
  | none =>
    simp only [Server.loadTransaction, Step.run_gets_bind, ht] at h
    obtain ⟨v₁, hrun, -, hmetrics⟩ := Server.counted_metrics hmetered h
    have hkept : v₁.world.metrics = v.world.metrics :=
      (load_keeps_metrics hstore _).of_run hrun rfl
    rw [hmetrics, hkept, count, decision_of_absent load_ne_authorize ht]
    rcases r with (e | _) | _ <;> rfl

theorem token_count (hmetered : s.metered = true) {r : Except Fault Unit}
    (h : s.token.run v = (r, v')) :
    v'.world.metrics = count s ⟨.token, v, r.map fun _ => none, v'⟩ v.world.metrics := by
  have hrequest : v'.request = v.request := by
    obtain ⟨_, reply, m, -, rfl⟩ := Server.token_cases h
    rfl
  obtain ⟨v₁, hrun, -, hmetrics⟩ := Server.counted_metrics hmetered h
  rw [hmetrics, Server.runToken_metrics hmetered hrun, count,
    decision_of_kept (c := .token) (fun _ => nofun) (by rw [hrequest]; exact id)]
  rcases r with (e | _) | _ <;> rfl

/-- A call that tells an error or finishes a response counts nothing. -/
theorem uncounted {c : Call σ} {r : Except Fault (Option Outcome)}
    (hc : (∃ e, c = .redirectError e) ∨ (∃ renderer e, c = .renderError renderer e) ∨ c = .finish)
    (hmetrics : v'.world.metrics = v.world.metrics)
    (hverdict : v.request.verdict? = none → v'.request.verdict? = none) :
    v'.world.metrics = count s ⟨c, v, r, v'⟩ v.world.metrics := by
  have hne : ∀ callbacks, c ≠ .authorize callbacks := by
    rcases hc with ⟨e, rfl⟩ | ⟨renderer, e, rfl⟩ | rfl <;> exact fun _ => nofun
  rw [hmetrics, count, decision_of_kept hne hverdict]
  rcases hc with ⟨e, rfl⟩ | ⟨renderer, e, rfl⟩ | rfl <;> rfl

/-- A call adds to the counters what its record tells. -/
theorem count_ofCall (hmetered : s.metered = true) (hstore : s.store.Discreet) {c : Call σ}
    (hc : c.Discreet v) :
    (ofCall s v c).after.world.metrics = (ofCall s v c).count s v.world.metrics := by
  unfold ofCall
  rcases hrun : (c.run s).run v with ⟨r, v'⟩
  cases c with
  | authorize callbacks =>
    obtain ⟨_, h, rfl⟩ := Step.map_cases hrun
    exact authorize_count hmetered hstore h
  | load =>
    obtain ⟨_, h, rfl⟩ := Step.map_cases hrun
    exact load_count hmetered hstore h
  | resume immediate completion =>
    obtain ⟨_, h, rfl⟩ := Step.map_cases hrun
    exact resume_count hmetered hstore h
  | decide o callbacks =>
    obtain ⟨_, h, rfl⟩ := Step.map_cases hrun
    exact decide_count hmetered h
  | token =>
    obtain ⟨_, h, rfl⟩ := Step.map_cases hrun
    exact token_count hmetered h
  | redirectError e =>
    obtain ⟨_, h, rfl⟩ := Step.map_cases hrun
    cases Server.redirectError_cases h with
    | absent => exact uncounted (.inl ⟨e, rfl⟩) rfl id
    | handed =>
      have harmed := Server.arm_shows (s := s) (v := v) ⟨rfl, rfl⟩
      exact uncounted (.inl ⟨e, rfl⟩) harmed.metrics fun hnone => harmed.verdict.trans hnone
  | renderError renderer e =>
    obtain ⟨_, h, rfl⟩ := Step.map_cases hrun
    cases ErrorRenderer.render_cases h <;>
      exact uncounted (.inr (.inl ⟨renderer, e, rfl⟩)) rfl id
  | finish =>
    obtain ⟨_, h, rfl⟩ := Step.map_cases hrun
    obtain ⟨hmetrics, hverdict⟩ := Server.finish_shows hc h
    exact uncounted (.inr (.inr rfl)) hmetrics hverdict

end Record

/-! ## Runs -/

/-- The traffic that a server may see after `T₀`, with every call on record. Between the calls the
host may do anything, but for the counters. -/
inductive Logged (s : Server σ) (T₀ : Traffic σ) : List (Record σ) → Traffic σ → Prop where
  | start : Logged s T₀ [] T₀
  | work {rs : List (Record σ)} {T T' : Traffic σ} :
    Logged s T₀ rs T → T'.world.metrics = T.world.metrics → Logged s T₀ rs T'
  | call {rs : List (Record σ)} {T : Traffic σ} {c : Call σ} (i : Nat) :
    Logged s T₀ rs T → c.Discreet (T.visit i) →
    Logged s T₀ (rs ++ [.ofCall s (T.visit i) c]) (T.call s i c).2

theorem Logged.metrics {s : Server σ} {T₀ T : Traffic σ} {rs : List (Record σ)}
    (hmetered : s.metered = true) (hstore : s.store.Discreet) (h : Logged s T₀ rs T) :
    T.world.metrics = rs.foldl (fun m r => r.count s m) T₀.world.metrics := by
  induction h with
  | start => rfl
  | work _ hsame ih => rw [hsame, ih]
  | @call rs T c i _ hc ih =>
    rw [List.foldl_append, ← ih]
    exact Record.count_ofCall hmetered hstore hc

/-! ### Sums over the record -/

namespace Logged

variable {s : Server σ} {T₀ T : Traffic σ} {rs : List (Record σ)}

/-- Each record may count one label. -/
theorem count_foldl {α : Type} [DecidableEq α] (counts : Metrics → Counts) {name : α → String}
    (hname : Function.Injective name) {told : Record σ → Option α}
    (hnote : ∀ r m, counts (Record.count s r m) = Counts.note (counts m) ((told r).map name)) (a : α)
    (rs : List (Record σ)) (m : Metrics) :
    Counts.count (counts (rs.foldl (fun m r => r.count s m) m)) (name a) =
      Counts.count (counts m) (name a) + (rs.filterMap told).count a := by
  induction rs generalizing m with
  | nil => rfl
  | cons r rest ih =>
    rw [List.foldl_cons, ih, hnote, Counts.count_note, List.filterMap_cons]
    cases told r with
    | none => simp
    | some b => simp [List.count_cons, hname.eq_iff, Nat.add_assoc, Nat.add_comm]

theorem total_foldl (total : Metrics → Nat) {told : Record σ → Bool}
    (hadd : ∀ r m, total (Record.count s r m) = total m + (told r).toNat) (rs : List (Record σ))
    (m : Metrics) :
    total (rs.foldl (fun m r => r.count s m) m) = total m + rs.countP told := by
  induction rs generalizing m with
  | nil => rfl
  | cons r rest ih =>
    rw [List.foldl_cons, ih, hadd, List.countP_cons]
    cases told r with
    | false => rfl
    | true =>
      show total m + 1 + rest.countP told = total m + (rest.countP told + 1)
      omega

/-- The counters of a metered server tell of every outcome since they were fresh, once: errors that
endpoints returned by their kind, decisions on undecided transactions by what they said,
authorizations that ended pending, resumptions of a transaction, and exchanges by grant type. -/
theorem counters_tell (hmetered : s.metered = true) (hstore : s.store.Discreet)
    (hfresh : T₀.world.metrics = .zero) (h : Logged s T₀ rs T) :
    (∀ kind, Counts.count T.world.metrics.errors (ErrorKind.name kind) =
        (rs.filterMap Record.error?).count kind) ∧
      (∀ allow, Counts.count T.world.metrics.decisions (Metrics.outcome allow) =
        (rs.filterMap (Record.decision? s)).count allow) ∧
      Counts.count T.world.metrics.decisions (Metrics.outcome true) +
          Counts.count T.world.metrics.decisions (Metrics.outcome false) =
        (rs.filterMap (Record.decision? s)).length ∧
      T.world.metrics.started = rs.countP Record.suspended ∧
      T.world.metrics.resumed = rs.countP Record.resumed ∧
      ∀ g, Counts.count T.world.metrics.exchanges g = (rs.filterMap Record.exchange?).count g := by
  rw [h.metrics hmetered hstore, hfresh]
  have hdecisions : ∀ allow, Counts.count
      (rs.foldl (fun m r => Record.count s r m) Metrics.zero).decisions (Metrics.outcome allow) =
        (rs.filterMap (Record.decision? s)).count allow := fun allow =>
    (count_foldl (·.decisions) Metrics.outcome_injective (fun _ _ => rfl) allow rs .zero).trans
      (Nat.zero_add _)
  have hexchanged : ∀ (r : Record σ) m, (Record.count s r m).exchanges =
      Counts.note m.exchanges (r.exchange?.map id) := fun r m => by rw [Option.map_id]; rfl
  refine ⟨fun kind => ?_, hdecisions, ?_, ?_, ?_, fun g => ?_⟩
  · rw [count_foldl (·.errors) ErrorKind.name_injective fun _ _ => rfl]
    exact Nat.zero_add _
  · rw [hdecisions, hdecisions]
    exact List.count_true_add_count_false _
  · rw [total_foldl (·.started) fun _ _ => rfl]
    exact Nat.zero_add _
  · rw [total_foldl (·.resumed) fun _ _ => rfl]
    exact Nat.zero_add _
  · exact (count_foldl (·.exchanges) Function.injective_id hexchanged g rs .zero).trans
      (Nat.zero_add _)

end Logged

namespace Server

/-- A metered server of one grant. -/
def counting : Server Unit := { coding (.memory 0 none) with metered := true }

/-- One request asks for a code, the others name the transaction. The host has a hook on each response. -/
def desk : Traffic Unit :=
  ⟨fun i => (if i = 0 then codeRequest else naming, Response.empty.addHook (.host none (pure ()))),
    asking.world⟩

/-- Asks the resource owner, who allows; a second decision fails. -/
def consulted : List (Nat × Call Unit) :=
  [(0, .authorize trusting), (1, .load), (1, .decide .standard ⟨none, .none⟩),
    (1, .decide .standard ⟨none, .none⟩)]

/-- The answer is finished, and the exchange that follows fails. -/
def errands : List (Nat × Call Unit) := consulted ++ [(1, .finish), (1, .token)]

theorem errands_counted :
    ∃ rs, Logged counting desk rs (desk.after counting errands) ∧
      (desk.after counting errands).world.metrics.started = 1 ∧
      Counts.count (desk.after counting errands).world.metrics.decisions "allow" = 1 ∧
      Counts.count (desk.after counting errands).world.metrics.errors "server" = 1 ∧
      Counts.count (desk.after counting errands).world.metrics.errors "token" = 1 := by
  have hconsulted := Logged.call (c := .decide .standard ⟨none, .none⟩) 1
    (.call (c := .decide .standard ⟨none, .none⟩) 1 (.call (c := .load) 1
      (.call (c := .authorize trusting) 0 (.start : Logged counting desk [] desk) trivial) trivial)
      trivial) trivial
  have hhooks : ((desk.after counting consulted).visit 1).response.hooks =
      [.host none (pure ()), .removal (.memory 0 none) .standard zeroId] := rfl
  have hdiscreet : Call.finish.Discreet ((desk.after counting consulted).visit 1) := by
    rw [Call.Discreet, hhooks, List.forall_mem_cons, List.forall_mem_singleton]
    exact ⟨fun _ h => h, Store.memory_discreet 0 none⟩
  have hlogged := Logged.call (c := .token) 1 (.call (c := .finish) 1 hconsulted hdiscreet) trivial
  obtain ⟨herrors, hdecisions, -, hstarted, -, -⟩ :=
    hlogged.counters_tell rfl (Store.memory_discreet 0 none) rfl
  refine ⟨_, hlogged, hstarted.trans ?_, (hdecisions true).trans ?_, (herrors .server).trans ?_,
    (herrors .token).trans ?_⟩ <;> decide +kernel

end Server

end AuthServer
