import AuthServer.Proofs.Store.ClientForms
import AuthServer.Proofs.Transaction.Reread
import AuthServer.Server
import AuthServer.Store.Memory
import AuthServer.Store.Session

/-!
# What the stores do to a visit

A memory answers each operation at once. A session may fail while a client is
written or read: then only the state of the host has changed.
-/

namespace AuthServer

open Json Store

variable {σ : Type}

namespace Visit

def withMemory (v : Visit σ) (number : Nat) (m : Memory) : Visit σ :=
  { v with world := v.world.setMemory number m }

def withSession (v : Visit σ) (session : Params) : Visit σ :=
  { v with request := { v.request with session := some session } }

/-- The bytes of an id are used up. -/
def drawn (v : Visit σ) (n : Nat) : Visit σ :=
  { v with world := { v.world with ids := v.world.ids.skip n } }

end Visit

/-- The record that a request's session holds under an id. -/
def Request.recordAt? (r : Request) (key id : String) : Option Value :=
  (r.session.bind (pending? · key)).bind (·.value? id)

namespace Store

@[simp] theorem kept_none (host : σ) (m : Memory) : kept none host m = m := rfl

theorem value?_of_kept {lifetime : Lifetime σ} {host : σ} {m : Memory} {id : String} {t : Transaction}
    (h : (kept lifetime host m).value? id = some t) : m.value? id = some t := by
  cases lifetime with
  | none => exact h
  | some expiry =>
    rw [kept, Entries.value?_filter m fun key => !expiry.stale host key] at h
    exact (Option.ite_none_right_eq_some.1 h).2

theorem mem_of_mem_kept {lifetime : Lifetime σ} {host : σ} {m : Memory} {e : String × Transaction}
    (h : e ∈ kept lifetime host m) : e ∈ m := by
  cases lifetime with
  | none => exact h
  | some expiry => exact (List.mem_filter.1 h).1

end Store

namespace Server

variable {s : Server σ} {v v' : Visit σ}

/-! ## Memory -/

section Memory

variable {number : Nat} {lifetime : Lifetime σ} (hs : s.store = .memory number lifetime)
include hs

theorem load_memory {id : String} (hid : idParam s.options v.request = .ok id) :
    s.load.run v =
      (match (kept lifetime v.world.host (v.world.memories number)).value? id with
        | some t => .ok (t.persisted id)
        | none => .error (.error (unknownId id)), v) := by
  unfold load
  rw [hs, Step.run_asAccess]
  have hrun : ((Store.memory number lifetime : Store σ).load s.clients s.options).run v.access =
      ((memoryKeyed number lifetime).load id >>= fun
        | some t => pure (t.persisted id)
        | none => .fail (unknownId id)).run v.access := by
    simp only [Store.memory, keyed, Step.run_gets_bind]
    rw [show idParam s.options v.access.request = .ok id from hid]
    rfl
  have hload : ((memoryKeyed number lifetime).load id).run v.access =
      (.ok ((kept lifetime v.world.host (v.world.memories number)).value? id), v.access) := rfl
  rw [hrun, Step.run_bind, hload]
  rcases (kept lifetime v.world.host (v.world.memories number)).value? id with _ | t <;> rfl

theorem load_memory_unnamed {e : OAuthError} (he : idParam s.options v.request = .error e) :
    s.load.run v = (.error (.error e), v) := by
  unfold load
  rw [hs, Step.run_asAccess]
  simp only [Store.memory, keyed, Step.run_gets_bind]
  rw [show idParam s.options v.access.request = .error e from he]
  rfl

theorem storeNew_memory (t : Transaction) :
    (s.storeNew t).run v =
      (.ok (v.world.ids.peek Supply.tokenLength),
        (v.drawn Supply.tokenLength).withMemory number
          ((kept lifetime v.world.host (v.world.memories number)).put
            (v.world.ids.peek Supply.tokenLength) t)) := by
  unfold storeNew
  rw [hs]
  rfl

theorem storeAgain_memory (id : String) (t : Transaction) :
    (s.storeAgain id t).run v =
      (.ok id, v.withMemory number ((kept lifetime v.world.host (v.world.memories number)).put id t)) := by
  unfold storeAgain
  rw [hs]
  rfl

theorem remove_memory (id : String) :
    (s.remove id).run v = (.ok (), v.withMemory number ((v.world.memories number).remove id)) := by
  unfold remove
  rw [hs]
  rfl

end Memory

/-! ## Session -/

/-- What is written for a transaction, and the state that writing its client leaves. -/
inductive Recorded (c : ClientForms σ) (t : Transaction) (host : σ) : Value → σ → Prop where
  | bare : t.client = none → Recorded c t host { t with id := none }.toValue host
  | written {client stored : Value} {host' : σ} :
    t.client = some client → (c.write client).run host = (.ok stored, host') →
    Recorded c t host { t with id := none, client := some stored }.toValue host'

theorem run_recordOf_client {c : ClientForms σ} {t : Transaction} {client : Value}
    (ht : t.client = some client) (a : Access σ) :
    (recordOf c t).run a =
      (((c.write client).run a.world.host).1.map fun stored =>
          { t with id := none, client := some stored }.toValue,
        a.withHost ((c.write client).run a.world.host).2) := by
  unfold recordOf
  simp only [ht, Step.run_bind, Step.run_onHost]
  rcases (c.write client).run a.world.host with ⟨_ | _, _⟩ <;> rfl

theorem recordOf_cases {c : ClientForms σ} {t : Transaction} {a a' : Access σ}
    {r : Except Fault Value} (h : (recordOf c t).run a = (r, a')) :
    ∃ host, a' = a.withHost host ∧
      ((∃ e, r = .error (.error e)) ∨
        ∃ record, r = .ok record ∧ Recorded c t a.world.host record host) := by
  rcases hc : t.client with _ | client
  · unfold recordOf at h
    simp only [hc] at h
    cases h
    exact ⟨a.world.host, rfl, .inr ⟨_, rfl, hc ▸ .bare hc⟩⟩
  · rw [run_recordOf_client hc] at h
    rcases hwrite : (c.write client).run a.world.host with ⟨(e | _) | stored, host⟩ <;>
      rw [hwrite] at h <;> cases h
    · exact ⟨host, rfl, .inl ⟨e, rfl⟩⟩
    · exact absurd rfl (ClientForms.write_ne_crash hwrite)
    · exact ⟨host, rfl, .inr ⟨_, rfl, .written hc hwrite⟩⟩

theorem ofRecord_toValue (t : Transaction) : ofRecord t.toValue = .ok t.reread := by
  unfold ofRecord
  rw [Transaction.ofValue_toValue]

/-- What a stored client is read as. -/
inductive Recalled (c : ClientForms σ) (host : σ) : Option Value → Option Value → σ → Prop where
  | bare : Recalled c host none none host
  | read {stored : Value} {client : Option Value} {host' : σ} :
    (c.read stored).run host = (.ok client, host') → Recalled c host (some stored) client host'

theorem run_theSession (a : Access σ) :
    (theSession : Step (Access σ) Params).run a =
      (match a.request.session with
        | some session => .ok session
        | none => .error (.error sessionRequired), a) := by
  unfold theSession
  rw [Step.run_gets_bind]
  rcases a.request.session with _ | session <;> rfl

theorem run_shelve {a : Access σ} {session : Params} (h : a.request.session = some session)
    (o : TransactionOptions) (record : Value) (id : String) :
    (shelve o record id).run a =
      (.ok id, { a with request := { a.request with
        session := some (putRecord session o.sessionKey id record) } }) := by
  unfold shelve
  rw [Step.run_bind, run_theSession, h]
  rfl

theorem run_shelve_of_none {a : Access σ} (h : a.request.session = none)
    (o : TransactionOptions) (record : Value) (id : String) :
    (shelve o record id).run a = (.error (.error sessionRequired), a) := by
  unfold shelve
  rw [Step.run_bind, run_theSession, h]

section Session

variable (hs : s.store = .session)
include hs

theorem load_session_absent
    (h : v.request.session.bind (pending? · s.options.sessionKey) = none) :
    s.load.run v =
      (.error (.error (if v.request.session.isSome then noTransactions else sessionRequired)), v) := by
  have hrun := run_theSession v.access
  unfold load
  rw [hs, Step.run_asAccess]
  simp only [Store.session, Step.run_bind, hrun]
  cases hv : v.request.session with
  | none =>
    rw [show v.access.request.session = none from hv]
    rfl
  | some session =>
    rw [hv] at h
    rw [show v.access.request.session = some session from hv]
    simp only [show pending? session s.options.sessionKey = none from h]
    rfl

/-- A load where the session has an object for transactions. -/
theorem load_session {session records : Params} (hsession : v.request.session = some session)
    (hrecords : pending? session s.options.sessionKey = some records) :
    s.load.run v =
      match idParam s.options v.request with
      | .error e => (.error (.error e), v)
      | .ok id =>
        match records.value? id with
        | none => (.error (.error (unknownId id)), v)
        | some record =>
          match ofRecord record with
          | .error e => (.error (.error e), v)
          | .ok t =>
            match t.client with
            | none => (.ok ({ t with client := none }.persisted id), v)
            | some stored =>
              (((s.clients.read stored).run v.world.host).1.map fun client =>
                  { t with client }.persisted id,
                v.withHost ((s.clients.read stored).run v.world.host).2) := by
  have htheSession := run_theSession v.access
  rw [show v.access.request.session = some session from hsession] at htheSession
  unfold load
  rw [hs, Step.run_asAccess]
  simp only [Store.session, Step.run_bind, htheSession, hrecords, Step.run_gets]
  rcases hid : idParam s.options v.request with e | id
  · rw [show idParam s.options v.access.request = .error e from hid]
    rfl
  rw [show idParam s.options v.access.request = .ok id from hid]
  simp only [Step.ofExcept, Step.run_pure]
  rcases records.value? id with _ | record
  · rfl
  rcases hrecord : ofRecord record with e | t <;> simp only [hrecord]
  · rfl
  rcases hc : t.client with _ | stored <;> simp only [Step.run_bind, Step.run_pure, hc, Step.run_onHost]
  · rfl
  · rw [show v.access.world.host = v.world.host from rfl]
    rcases (s.clients.read stored).run v.world.host with ⟨e | client, host⟩ <;> rfl

theorem load_session_cases {r : Except Fault Transaction} (h : s.load.run v = (r, v')) :
    ∃ host, v' = v.withHost host ∧
      ((∃ e, r = .error e) ∨
        ∃ id record t client,
          idParam s.options v.request = .ok id ∧
          v.request.recordAt? s.options.sessionKey id = some record ∧
          ofRecord record = .ok t ∧
          Recalled s.clients v.world.host t.client client host ∧
          r = .ok ({ t with client }.persisted id)) := by
  have hstay : v = v.withHost v.world.host := rfl
  rcases hp : v.request.session.bind (pending? · s.options.sessionKey) with _ | records
  · rw [load_session_absent hs hp] at h
    cases h
    exact ⟨_, hstay, .inl ⟨_, rfl⟩⟩
  obtain ⟨session, hsession, hrecords⟩ := Option.bind_eq_some_iff.1 hp
  rw [load_session hs hsession hrecords] at h
  rcases hid : idParam s.options v.request with e | id <;> simp only [hid] at h
  · cases h
    exact ⟨_, hstay, .inl ⟨_, rfl⟩⟩
  rcases hr : records.value? id with _ | record <;> simp only [hr] at h
  · cases h
    exact ⟨_, hstay, .inl ⟨_, rfl⟩⟩
  rcases ht : ofRecord record with e | t <;> simp only [ht] at h
  · cases h
    exact ⟨_, hstay, .inl ⟨_, rfl⟩⟩
  have hrecord : v.request.recordAt? s.options.sessionKey id = some record := by
    rw [Request.recordAt?, hp, Option.bind_some, hr]
  rcases hc : t.client with _ | stored <;> simp only [hc] at h
  · cases h
    exact ⟨_, hstay, .inr ⟨id, record, t, none, rfl, hrecord, ht, by rw [hc]; exact .bare, rfl⟩⟩
  · rcases hread : (s.clients.read stored).run v.world.host with ⟨e | client, host⟩ <;>
      rw [hread] at h <;> cases h
    · exact ⟨host, rfl, .inl ⟨_, rfl⟩⟩
    · exact ⟨host, rfl, .inr ⟨id, record, t, client, rfl, hrecord, ht, by rw [hc]; exact .read hread, rfl⟩⟩

/-- The record is written first, and then put under the next id. -/
theorem storeNew_session_eq (t : Transaction) :
    (s.storeNew t).run v =
      match v.request.session, (recordOf s.clients t).run v.access with
      | none, _ => (.error (.error sessionRequired), v)
      | some _, (.error e, a) => (.error e, v.withHost a.world.host)
      | some session, (.ok record, a) =>
        (.ok (v.world.ids.peek s.options.idLength),
          ((v.withHost a.world.host).drawn s.options.idLength).withSession
            (putRecord session s.options.sessionKey (v.world.ids.peek s.options.idLength) record)) := by
  unfold storeNew
  rw [hs, Step.run_asAccess]
  simp only [Store.session]
  rw [Step.run_bind, run_theSession, show v.access.request.session = v.request.session from rfl]
  rcases hsession : v.request.session with _ | held
  · rfl
  simp only [Step.run_bind]
  rcases hrec : (recordOf s.clients t).run v.access with ⟨e | record, a⟩
  · obtain ⟨host, rfl, -⟩ := recordOf_cases hrec
    rfl
  · obtain ⟨host, rfl, -⟩ := recordOf_cases hrec
    simp only [Step.run_onSupply, Supply.run_draw]
    rw [run_shelve (a := (v.access.withHost host).withIds _) hsession]
    rfl

theorem storeNew_session_cases {t : Transaction} {r : Except Fault String}
    (h : (s.storeNew t).run v = (r, v')) :
    ∃ host, (v' = v.withHost host ∧ ∃ e, r = .error (.error e)) ∨
      ∃ session record,
        v.request.session = some session ∧
        Recorded s.clients t v.world.host record host ∧
        r = .ok (v.world.ids.peek s.options.idLength) ∧
        v' = ((v.withHost host).drawn s.options.idLength).withSession
          (putRecord session s.options.sessionKey (v.world.ids.peek s.options.idLength) record) := by
  rw [storeNew_session_eq hs] at h
  rcases hsession : v.request.session with _ | held <;> rw [hsession] at h
  · cases h
    exact ⟨v.world.host, .inl ⟨rfl, _, rfl⟩⟩
  rcases hrec : (recordOf s.clients t).run v.access with ⟨e | record, a⟩ <;> rw [hrec] at h <;> cases h
  · obtain ⟨host, rfl, ⟨_, he⟩ | ⟨_, he, -⟩⟩ := recordOf_cases hrec <;> cases he
    exact ⟨host, .inl ⟨rfl, _, rfl⟩⟩
  · obtain ⟨host, rfl, ⟨_, he⟩ | ⟨_, he, hw⟩⟩ := recordOf_cases hrec <;> cases he
    exact ⟨host, .inr ⟨held, record, rfl, hw, rfl, rfl⟩⟩

theorem storeAgain_session_cases {id : String} {t : Transaction} {r : Except Fault String}
    (h : (s.storeAgain id t).run v = (r, v')) :
    ∃ host, (v' = v.withHost host ∧ ∃ e, r = .error (.error e)) ∨
      ∃ session record,
        v.request.session = some session ∧
        Recorded s.clients t v.world.host record host ∧
        r = .ok id ∧
        v' = (v.withHost host).withSession (putRecord session s.options.sessionKey id record) := by
  unfold storeAgain at h
  rw [hs, Step.run_asAccess] at h
  simp only [Store.session] at h
  rw [Step.run_bind] at h
  rcases hrec : (recordOf s.clients t).run v.access with ⟨e | record, a⟩ <;> simp only [hrec] at h
  · obtain ⟨host, rfl, ⟨_, he⟩ | ⟨_, he, -⟩⟩ := recordOf_cases hrec <;> cases he
    cases h
    exact ⟨host, .inl ⟨rfl, _, rfl⟩⟩
  · obtain ⟨host, rfl, ⟨_, he⟩ | ⟨_, he, hw⟩⟩ := recordOf_cases hrec <;> cases he
    rcases hsession : v.request.session with _ | held
    · rw [run_shelve_of_none (a := v.access.withHost host) hsession] at h
      cases h
      exact ⟨host, .inl ⟨rfl, _, rfl⟩⟩
    · rw [run_shelve (a := v.access.withHost host) hsession] at h
      cases h
      exact ⟨host, .inr ⟨held, record, rfl, hw, rfl, rfl⟩⟩

theorem remove_session (id : String) :
    (s.remove id).run v =
      match v.request.session with
      | none => (.error (.error sessionRequired), v)
      | some session => (.ok (), v.withSession (removeRecord session s.options.sessionKey id)) := by
  unfold remove
  rw [hs, Step.run_asAccess]
  simp only [Store.session]
  rw [Step.run_bind, run_theSession]
  rcases hsession : v.request.session with _ | held <;> simp only [Visit.access, hsession] <;> rfl

end Session

end Server

end AuthServer
