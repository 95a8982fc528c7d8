import AuthServer.Proofs.Store.Interchange
import AuthServer.Site.HostSession

/-!
# The host's session behind the store

Every request loads the pending transactions from the host's session and saves them there again. The
store answers as if one session stayed with it from request to request, but that an entry which was
emptied is gone by the next request.
-/

namespace AuthServer

open Json Store

variable {σ : Type}

/-! ## Requests and their calls -/

/-- A call as it went: what stood under the session key, and the answer. -/
structure Served where
  call : StoreCall
  entry : Option Value
  answer : Except Fault StoreAnswer

/-- A request, and the calls that are made on it. -/
structure Errand where
  request : Request
  calls : List StoreCall

/-- The entry under a key, as a session of its own. -/
def Site.HostSession.entry (host : HostSession) (key : String) : Params :=
  ((host.value? key).map fun v => (key, v)).toList

namespace Server

def served (s : Server σ) (call : StoreCall) (v : Visit σ) : Served where
  call := call
  entry := v.request.session.bind (·.value? s.options.sessionKey)
  answer := ((call.run s).run v).1

/-- The calls on one request, and the visit after them. -/
def serve (s : Server σ) : List StoreCall → Visit σ → List Served × Visit σ
  | [], v => ([], v)
  | call :: rest, v =>
    (s.served call v :: (s.serve rest ((call.run s).run v).2).1, (s.serve rest ((call.run s).run v).2).2)

/-- A request with a session, before the calls on it. -/
def visit (request : Request) (session : Params) (w : World σ) : Visit σ :=
  ⟨{ request with session := some session }, .empty, w⟩

/-- Each request loads the entry of the host, and saves it after its calls. -/
def bridged (s : Server σ) : List Errand → Site.HostSession → World σ →
    List (List Served × Site.HostSession)
  | [], _, _ => []
  | x :: rest, host, w =>
    let done := s.serve x.calls ⟨host.load s.options.sessionKey x.request, .empty, w⟩
    let host := host.save s.options.sessionKey done.2.request
    (done.1, host) :: s.bridged rest host done.2.world

/-- Each request goes on with the session that the one before it left. -/
def continued (s : Server σ) : List Errand → Params → World σ → List (List Served × Params)
  | [], _, _ => []
  | x :: rest, session, w =>
    let done := s.serve x.calls (visit x.request session w)
    let session := done.2.request.session.getD []
    (done.1, session) :: s.continued rest session done.2.world

end Server

/-! ## Sessions with the same transactions -/

/-- Under the key there is no object with anything in it. -/
def Vacant (entry : Option Value) : Prop := ∀ e es, entry ≠ some (.obj (e :: es))

/-- The same entry stands under the key, or one without transactions has been dropped. -/
inductive SameEntry (key : String) (held kept : Params) : Prop where
  | same : held.value? key = kept.value? key → SameEntry key held kept
  | dropped : held.value? key = none → Vacant (kept.value? key) → SameEntry key held kept

/-- The pending transactions, if there are any. -/
def waiting? (session : Params) (key : String) : Option Params :=
  (pending? session key).filter (!·.isEmpty)

section Entry

variable {key : String} {session held kept : Params}

theorem waiting?_eq_some_iff {records : Params} :
    waiting? session key = some records ↔
      ∃ e es, records = e :: es ∧ session.value? key = some (.obj (e :: es)) := by
  unfold waiting? pending?
  rcases session.value? key with _ | v
  · simp
  · cases v with
    | obj members => cases members <;> simp [Value.asObject?, Option.filter, eq_comm]
    | _ => simp [Value.asObject?]

theorem vacant_nil : Vacant (some (.obj [])) := by
  intro e es h
  cases h

theorem Vacant.of_pending? (h : Vacant (session.value? key)) {records : Params}
    (hrecords : pending? session key = some records) :
    records = [] ∧ session.value? key = some (.obj []) := by
  obtain ⟨v, hvalue, hv⟩ := Option.bind_eq_some_iff.1 hrecords
  cases v with
  | obj members =>
    obtain rfl := Option.some.inj hv
    rcases members with _ | ⟨e, es⟩
    · exact ⟨rfl, hvalue⟩
    · exact absurd hvalue (h e es)
  | _ => cases hv

theorem Vacant.waiting?_eq_none (h : Vacant (session.value? key)) : waiting? session key = none := by
  refine Option.eq_none_iff_forall_ne_some.2 fun records hrecords => ?_
  obtain ⟨e, es, -, hvalue⟩ := waiting?_eq_some_iff.1 hrecords
  exact h e es hvalue

theorem pending?_getD (session : Params) (key : String) :
    (pending? session key).getD [] = (waiting? session key).getD [] := by
  unfold waiting?
  rcases pending? session key with _ | _ | _ <;> rfl

theorem SameEntry.waiting?_eq (h : SameEntry key held kept) :
    waiting? held key = waiting? kept key := by
  cases h with
  | same hsame => rw [waiting?, waiting?, pending?, pending?, hsame]
  | dropped hnone hvacant =>
    rw [hvacant.waiting?_eq_none, waiting?, pending?, hnone]
    rfl

theorem SameEntry.putRecord (h : SameEntry key held kept) (id : String) (record : Value) :
    SameEntry key (putRecord held key id record) (putRecord kept key id record) := by
  refine .same ?_
  rw [Store.putRecord, Store.putRecord, Entries.value?_put_self, Entries.value?_put_self,
    pending?_getD held, pending?_getD kept, h.waiting?_eq]

theorem value?_removeRecord (session : Params) (key id : String) :
    (removeRecord session key id).value? key =
      ((pending? session key).map fun records => .obj (records.swapRemove id)).or
        (session.value? key) := by
  unfold removeRecord
  cases pending? session key with
  | none => rfl
  | some records => exact Entries.value?_put_self session key _

theorem SameEntry.removeRecord (h : SameEntry key held kept) (id : String) :
    SameEntry key (removeRecord held key id) (removeRecord kept key id) := by
  cases h with
  | same hsame =>
    refine .same ?_
    rw [value?_removeRecord, value?_removeRecord, pending?, pending?, hsame]
  | dropped hnone hvacant =>
    refine .dropped ?_ ?_
    · rw [value?_removeRecord, pending?, hnone]
      rfl
    · rw [value?_removeRecord]
      rcases hpending : pending? kept key with _ | records
      · exact hvacant
      · obtain ⟨rfl, -⟩ := hvacant.of_pending? hpending
        exact vacant_nil

end Entry

/-! ## One call -/

/-- The same answer, but that a load finds the entry gone where it was emptied. -/
inductive Served.Agrees : Served → Served → Prop where
  | same {call : StoreCall} {entry entry' : Option Value} {answer : Except Fault StoreAnswer} :
    Agrees ⟨call, entry, answer⟩ ⟨call, entry', answer⟩
  | emptied {query : Params} {body : Option Params} {e : OAuthError} :
    Agrees ⟨.load query body, none, .error (.error noTransactions)⟩
      ⟨.load query body, some (.obj []), .error (.error e)⟩

/-- Two visits in one world, whose sessions have the same transactions. -/
structure Alongside (key : String) (v u : Visit σ) : Prop where
  world : v.world = u.world
  sessions : ∃ held kept, v.request.session = some held ∧ u.request.session = some kept ∧
    SameEntry key held kept

namespace Alongside

variable {key : String} {v u : Visit σ} {held kept : Params}

theorem withSession (hworld : v.world = u.world) (hentry : SameEntry key held kept) :
    Alongside key (v.withSession held) (u.withSession kept) :=
  ⟨hworld, held, kept, rfl, rfl, hentry⟩

theorem withHost (h : Alongside key v u) (host : σ) : Alongside key (v.withHost host) (u.withHost host) := by
  obtain ⟨hworld, held, kept, hv, hu, hentry⟩ := h
  exact ⟨by simp [Visit.withHost, hworld], held, kept, hv, hu, hentry⟩

end Alongside

namespace Server

variable {s : Server σ} {v u : Visit σ} {held kept : Params}

/-- Writing a client looks at nothing but the state of the host. -/
theorem run_recordOf_congr (c : ClientForms σ) (t : Transaction) (hworld : v.world = u.world) :
    ∃ r host, (recordOf c t).run v.access = (r, v.access.withHost host) ∧
      (recordOf c t).run u.access = (r, u.access.withHost host) := by
  unfold recordOf
  rcases t.client with _ | client
  · refine ⟨_, v.world.host, rfl, ?_⟩
    rw [hworld]
    rfl
  · simp only [Step.run_bind, Step.run_onHost]
    rw [show u.access.world.host = v.access.world.host by rw [Visit.access, Visit.access, hworld]]
    rcases (c.write client).run v.access.world.host with ⟨e | stored, host⟩
    · exact ⟨_, host, rfl, rfl⟩
    · exact ⟨_, host, rfl, rfl⟩

section Call

variable (s : Server σ) (v : Visit σ)

theorem run_storeCall (t : Transaction) :
    ((StoreCall.store t).run s).run v = (((s.storeNew t).run v).1.map .id, ((s.storeNew t).run v).2) :=
  Step.run_map _ _ _

theorem run_updateCall (id : String) (t : Transaction) :
    ((StoreCall.update id t).run s).run v =
      (((s.storeAgain id t).run v).1.map .id, ((s.storeAgain id t).run v).2) :=
  Step.run_map _ _ _

theorem run_loadCall (query : Params) (body : Option Params) :
    ((StoreCall.load query body).run s).run v =
      ((s.load.run (v.asking query body)).1.map .loaded, (s.load.run (v.asking query body)).2) :=
  Step.run_map _ _ _

theorem run_removeCall (id : String) :
    ((StoreCall.remove id).run s).run v =
      (((s.remove id).run v).1.map fun _ => .removed, ((s.remove id).run v).2) :=
  Step.run_map _ _ _

end Call

section Session

variable (hs : s.store = .session)
include hs

theorem storeAgain_unwritten {t : Transaction} {e : Fault} {host : σ}
    (hrecord : (recordOf s.clients t).run v.access = (.error e, v.access.withHost host)) (id : String) :
    (s.storeAgain id t).run v = (.error e, v.withHost host) := by
  unfold storeAgain
  rw [hs, Step.run_asAccess]
  simp only [Store.session, Step.run_bind, hrecord]
  rfl

theorem load_congr (query : Params) (body : Option Params) (hworld : v.world = u.world)
    (hv : v.request.session = some held) (hu : u.request.session = some kept)
    (hpending : pending? held s.options.sessionKey = pending? kept s.options.sessionKey) :
    ∃ r host, s.load.run (v.asking query body) = (r, (v.asking query body).withHost host) ∧
      s.load.run (u.asking query body) = (r, (u.asking query body).withHost host) := by
  have hv' : (v.asking query body).request.session = some held := hv
  have hu' : (u.asking query body).request.session = some kept := hu
  have hid : idParam s.options (u.asking query body).request =
      idParam s.options (v.asking query body).request := rfl
  have hhost : u.world.host = v.world.host := by rw [hworld]
  rcases hkept : pending? kept s.options.sessionKey with _ | records
  · have hheld := hpending.trans hkept
    rw [load_session_absent hs (by rw [hv']; exact hheld),
      load_session_absent hs (by rw [hu']; exact hkept), hv', hu']
    exact ⟨_, v.world.host, rfl, by rw [← hhost]; rfl⟩
  · rw [load_session hs hv' (hpending.trans hkept), load_session hs hu' hkept, hid]
    rcases idParam s.options (v.asking query body).request with e | id
    · exact ⟨_, v.world.host, rfl, by rw [← hhost]; rfl⟩
    rcases hrecord : records.value? id with _ | record <;> simp only [hrecord]
    · exact ⟨_, v.world.host, rfl, by rw [← hhost]; rfl⟩
    rcases ofRecord record with e | t <;> simp only
    · exact ⟨_, v.world.host, rfl, by rw [← hhost]; rfl⟩
    rcases t.client with _ | stored <;> simp only
    · exact ⟨_, v.world.host, rfl, by rw [← hhost]; rfl⟩
    · rw [show (u.asking query body).world.host = (v.asking query body).world.host from hhost]
      exact ⟨_, _, rfl, rfl⟩

/-- An object without transactions has nothing to load. -/
theorem load_emptied (hsession : v.request.session = some held)
    (hempty : pending? held s.options.sessionKey = some []) :
    ∃ e, s.load.run v = (.error (.error e), v) := by
  rw [load_session hs hsession hempty]
  rcases idParam s.options v.request with e | id
  · exact ⟨e, rfl⟩
  · exact ⟨unknownId id, rfl⟩

theorem load_alongside (h : Alongside s.options.sessionKey v u) (query : Params) (body : Option Params) :
    Served.Agrees (s.served (.load query body) v) (s.served (.load query body) u) ∧
      Alongside s.options.sessionKey (((StoreCall.load query body).run s).run v).2
        (((StoreCall.load query body).run s).run u).2 := by
  obtain ⟨hworld, held, kept, hv, hu, hentry⟩ := h
  have hasked : Alongside s.options.sessionKey (v.asking query body) (u.asking query body) :=
    ⟨hworld, held, kept, hv, hu, hentry⟩
  unfold served
  rw [run_loadCall, run_loadCall, hv, hu]
  by_cases hpending : pending? held s.options.sessionKey = pending? kept s.options.sessionKey
  · obtain ⟨r, host, hloadv, hloadu⟩ := load_congr hs query body hworld hv hu hpending
    rw [hloadv, hloadu]
    exact ⟨.same, hasked.withHost host⟩
  -- the entry was dropped where nothing but an empty object was left
  · cases hentry with
    | same hsame => exact absurd (by rw [pending?, pending?, hsame]) hpending
    | dropped hnone hvacant =>
      have hdropped : pending? held s.options.sessionKey = none := by
        rw [pending?, hnone]
        rfl
      obtain ⟨records, hrecords⟩ := Option.ne_none_iff_exists'.1
        fun hkept => hpending (hdropped.trans hkept.symm)
      obtain ⟨rfl, hvalue⟩ := hvacant.of_pending? hrecords
      have hloadv : s.load.run (v.asking query body) =
          (.error (.error noTransactions), v.asking query body) := by
        have hsession : (v.asking query body).request.session = some held := hv
        rw [load_session_absent hs (by rw [hsession]; exact hdropped), hsession]
        rfl
      obtain ⟨e, hloadu⟩ := load_emptied hs (v := u.asking query body) hu hrecords
      rw [hloadv, hloadu, Option.bind_some, Option.bind_some, hnone, hvalue]
      exact ⟨.emptied, hasked⟩

/-- A call leaves two visits alongside each other, and answers alike. -/
theorem call_alongside (h : Alongside s.options.sessionKey v u) (call : StoreCall) :
    Served.Agrees (s.served call v) (s.served call u) ∧
      Alongside s.options.sessionKey ((call.run s).run v).2 ((call.run s).run u).2 := by
  cases call with
  | load query body => exact load_alongside hs h query body
  | store t =>
    obtain ⟨held, kept, hv, hu, hentry⟩ := h.sessions
    obtain ⟨r, host, hrecv, hrecu⟩ := run_recordOf_congr s.clients t h.world
    unfold served
    rw [run_storeCall, run_storeCall]
    rcases r with e | record
    · rw [storeNew_session_eq hs, storeNew_session_eq hs, hv, hu, hrecv, hrecu]
      exact ⟨.same, h.withHost host⟩
    · rw [storeNew_session hs hv hrecv, storeNew_session hs hu hrecu, h.world]
      exact ⟨.same, .withSession (by simp [Visit.drawn, Visit.withHost, h.world])
        (hentry.putRecord _ record)⟩
  | update id t =>
    obtain ⟨held, kept, hv, hu, hentry⟩ := h.sessions
    obtain ⟨r, host, hrecv, hrecu⟩ := run_recordOf_congr s.clients t h.world
    unfold served
    rw [run_updateCall, run_updateCall]
    rcases r with e | record
    · rw [storeAgain_unwritten hs hrecv, storeAgain_unwritten hs hrecu]
      exact ⟨.same, h.withHost host⟩
    · rw [storeAgain_session hs hv hrecv, storeAgain_session hs hu hrecu]
      exact ⟨.same, .withSession (by simp [Visit.withHost, h.world]) (hentry.putRecord id record)⟩
  | remove id =>
    obtain ⟨held, kept, hv, hu, hentry⟩ := h.sessions
    unfold served
    rw [run_removeCall, run_removeCall, remove_session hs, remove_session hs, hv, hu]
    exact ⟨.same, .withSession h.world (hentry.removeRecord id)⟩

/-! ## All calls on a request -/

theorem serve_alongside (h : Alongside s.options.sessionKey v u) (calls : List StoreCall) :
    List.Forall₂ Served.Agrees (s.serve calls v).1 (s.serve calls u).1 ∧
      Alongside s.options.sessionKey (s.serve calls v).2 (s.serve calls u).2 := by
  induction calls generalizing v u with
  | nil => exact ⟨.nil, h⟩
  | cons call rest ih =>
    obtain ⟨hserved, hafter⟩ := call_alongside hs h call
    obtain ⟨hrest, hlast⟩ := ih hafter
    exact ⟨.cons hserved hrest, hlast⟩

/-! ## Requests without a session -/

theorem call_unloaded (h : v.request.session = none) (call : StoreCall) :
    ((call.run s).run v).2.request.session = none := by
  cases call with
  | load query body =>
    have hasked : (v.asking query body).request.session = none := h
    rw [run_loadCall, load_session_absent hs (by rw [hasked]; rfl)]
    exact hasked
  | store t =>
    rw [run_storeCall, storeNew_session_eq hs, h]
    exact h
  | update id t =>
    rw [run_updateCall]
    obtain ⟨host, ⟨hv, -⟩ | ⟨session, record, hsession, -⟩⟩ :=
      storeAgain_session_cases hs (Prod.eta ((s.storeAgain id t).run v)).symm
    · rw [hv]
      exact h
    · rw [h] at hsession
      cases hsession
  | remove id =>
    rw [run_removeCall, remove_session hs, h]
    exact h

theorem serve_unloaded (h : v.request.session = none) (calls : List StoreCall) :
    (s.serve calls v).2.request.session = none := by
  induction calls generalizing v with
  | nil => exact h
  | cons call rest ih => exact ih (call_unloaded hs h call)

end Session

end Server

/-! ## Saving and loading -/

/-- As text the records read back as they were. -/
def Legible (records : Params) : Prop := (Value.obj records).reread = .obj records

namespace Site.HostSession

variable {host : HostSession} {key : String} {r : Request} {held kept : Params}

theorem value?_entry (host : HostSession) (key : String) :
    (host.entry key).value? key = host.value? key := by
  unfold entry
  cases host.value? key <;> simp [Entries.value?]

theorem value?_save (hr : r.session = some held) :
    (host.save key r).value? key = (waiting? held key).map fun records => (Value.obj records).reread := by
  unfold save
  rw [hr]
  simp only
  split
  · rename_i e es hvalue
    have hwaiting : waiting? held key = some (e :: es) := waiting?_eq_some_iff.2 ⟨e, es, rfl, hvalue⟩
    rw [hwaiting, insert, Entries.value?_put_self]
    rfl
  · rename_i hvalue
    have hvacant : Vacant (held.value? key) := hvalue
    rw [hvacant.waiting?_eq_none, Entries.value?_remove, if_pos rfl]
    rfl

theorem value?_save_ne {k : String} (h : k ≠ key) : (host.save key r).value? k = host.value? k := by
  unfold save
  split
  · rfl
  · split
    · exact Entries.value?_put_ne host _ h.symm
    · rw [Entries.value?_remove, if_neg h.symm]

theorem save_unloaded (h : r.session = none) : host.save key r = host := by
  unfold save
  rw [h]

/-- The next request finds what was left, unless that was nothing. -/
theorem sameEntry_save (host : HostSession) (hr : r.session = some held) (hentry : SameEntry key held kept)
    (hlegible : ∀ records, pending? kept key = some records → Legible records) :
    (host.save key r).value? key = (waiting? kept key).map .obj ∧
      SameEntry key ((host.save key r).entry key) kept := by
  have hsaved : (host.save key r).value? key = (waiting? kept key).map .obj := by
    rw [value?_save hr, hentry.waiting?_eq]
    refine Option.map_congr fun records hrecords => hlegible records ?_
    exact (Option.filter_eq_some_iff.1 hrecords).1
  refine ⟨hsaved, ?_⟩
  rcases hwaiting : waiting? kept key with _ | records <;> rw [hwaiting] at hsaved
  · refine .dropped ((value?_entry _ key).trans hsaved) fun e es hvalue => ?_
    rw [waiting?_eq_some_iff.2 ⟨e, es, rfl, hvalue⟩] at hwaiting
    cases hwaiting
  · obtain ⟨e, es, rfl, hvalue⟩ := waiting?_eq_some_iff.1 hwaiting
    exact .same ((value?_entry _ key).trans (hsaved.trans hvalue.symm))

end Site.HostSession

/-! ## All requests -/

/-- The same answers. The host then has the transactions that are pending, and nothing under the key
if there are none; under other keys it has what `host` has. -/
structure Errand.Agrees (key : String) (host : Site.HostSession)
    (b : List Served × Site.HostSession) (p : List Served × Params) : Prop where
  served : List.Forall₂ Served.Agrees b.1 p.1
  saved : b.2.value? key = (waiting? p.2 key).map .obj
  others : ∀ k, k ≠ key → b.2.value? k = host.value? k

namespace Server

variable {s : Server σ}

theorem bridged_agrees (hs : s.store = .session) {start : Site.HostSession} (errands : List Errand)
    {host : Site.HostSession} {session : Params} {w : World σ}
    (hentry : SameEntry s.options.sessionKey (host.entry s.options.sessionKey) session)
    (hothers : ∀ k, k ≠ s.options.sessionKey → host.value? k = start.value? k)
    (hlegible : ∀ x ∈ s.continued errands session w,
      ∀ records, pending? x.2 s.options.sessionKey = some records → Legible records) :
    List.Forall₂ (Errand.Agrees s.options.sessionKey start) (s.bridged errands host w)
      (s.continued errands session w) := by
  induction errands generalizing host session w with
  | nil => exact .nil
  | cons x rest ih =>
    obtain ⟨hnow, hlater⟩ := List.forall_mem_cons.1 hlegible
    have hstart : Alongside s.options.sessionKey
        (⟨host.load s.options.sessionKey x.request, .empty, w⟩ : Visit σ) (visit x.request session w) :=
      ⟨rfl, _, _, rfl, rfl, hentry⟩
    obtain ⟨hserved, hworld, held, kept, hheld, hkept, hafter⟩ := serve_alongside hs hstart x.calls
    have hleft : (s.serve x.calls (visit x.request session w)).2.request.session.getD [] = kept := by
      rw [hkept]
      rfl
    simp only [hleft] at hnow hlater
    obtain ⟨hsaved, hnext⟩ := Site.HostSession.sameEntry_save host hheld hafter hnow
    have hkeys : ∀ (r : Request) k, k ≠ s.options.sessionKey →
        (host.save s.options.sessionKey r).value? k = start.value? k :=
      fun r k hk => (Site.HostSession.value?_save_ne hk).trans (hothers k hk)
    unfold bridged continued
    simp only [hleft]
    refine .cons ⟨hserved, hsaved, hkeys _⟩ ?_
    rw [hworld]
    exact ih hnext (hkeys _) hlater

/-- Where text keeps what is written, the bridge to the host's session does not show, but for an entry
that was emptied. A request that loaded no session saves none. -/
theorem bridge_transparent (hs : s.store = .session) (host : Site.HostSession) (w : World σ) :
    (∀ errands,
      (∀ x ∈ s.continued errands (host.entry s.options.sessionKey) w,
        ∀ records, pending? x.2 s.options.sessionKey = some records → Legible records) →
      List.Forall₂ (Errand.Agrees s.options.sessionKey host) (s.bridged errands host w)
        (s.continued errands (host.entry s.options.sessionKey) w)) ∧
    ∀ x : Errand, x.request.session = none →
      host.save s.options.sessionKey (s.serve x.calls ⟨x.request, .empty, w⟩).2.request = host :=
  ⟨fun errands hlegible => bridged_agrees hs errands (.same rfl) (fun _ _ => rfl) hlegible,
    fun x hx => Site.HostSession.save_unloaded (serve_unloaded hs hx x.calls)⟩

/-! ## Stored, removed, and asked for again -/

/-- Something else stands under the key at first. -/
def shopping : Site.HostSession := [("authorize", .str "guest"), ("cart", .int 3)]

def threeErrands : List Errand :=
  [⟨.empty, [.store (codeOf "c1")]⟩, ⟨.empty, [.load (idQuery sessionId) none, .remove sessionId]⟩,
    ⟨.empty, [.load (idQuery sessionId) none]⟩]

theorem threeErrands_transparent :
    let s := plain .session
    let bridged := s.bridged threeErrands shopping asking.world
    let continued := s.continued threeErrands (shopping.entry "authorize") asking.world
    s.store = .session ∧ List.Forall₂ (Errand.Agrees "authorize" shopping) bridged continued ∧
      bridged.map (fun x => x.1.map (·.answer)) =
        [[.ok (.id sessionId)],
          [.ok (.loaded ((codeOf "c1").persisted sessionId)), .ok .removed],
          [.error (.error noTransactions)]] ∧
      continued.map (fun x => x.1.map (·.answer)) =
        [[.ok (.id sessionId)],
          [.ok (.loaded ((codeOf "c1").persisted sessionId)), .ok .removed],
          [.error (.error (unknownId sessionId))]] ∧
      bridged.map (·.2) =
        [[("authorize", .obj [(sessionId, (codeOf "c1").toValue)]), ("cart", .int 3)],
          [("cart", .int 3)], [("cart", .int 3)]] := by
  have htransparent := bridge_transparent (s := plain .session) rfl shopping asking.world
  refine ⟨rfl, htransparent.1 threeErrands ?_, rfl, rfl, rfl⟩
  refine List.forall_mem_cons.2 ⟨fun records h => ?_, List.forall_mem_cons.2 ⟨fun records h => ?_,
    List.forall_mem_cons.2 ⟨fun records h => ?_, nofun⟩⟩⟩
  · cases h
    rfl
  · cases h
    rfl
  · cases h
    rfl

end Server

end AuthServer
