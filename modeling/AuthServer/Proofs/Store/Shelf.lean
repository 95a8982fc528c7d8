import AuthServer.Proofs.Store.Operations
import Mathlib.Logic.Function.Basic

/-!
# Shelves

A server keeps its transactions in a memory of the world or in the session of
the request. Seen by id, the two change in the same way: a store sets one id, a
removal clears one, and a load changes nothing.
-/

namespace AuthServer

open Json Store

variable {σ : Type}

inductive Shelf where
  | memory (number : Nat)
  | session
  deriving DecidableEq, Repr

inductive Stored where
  | kept (t : Transaction)
  | record (v : Value)

/-- The transaction that is read off, its client in stored form. -/
def Stored.opened : Stored → Option Transaction
  | kept t => some t
  | record v => (ofRecord v).toOption

/-- Where the stored transaction's answers may go. -/
def Stored.redirectUri (x : Stored) : Option String := x.opened.bind (·.redirectUri)

namespace Shelf

def store : Shelf → Store σ
  | memory number => .memory number none
  | session => .session

/-- The stored transactions that a visit can reach, by id. -/
def held (k : Shelf) (o : TransactionOptions) (v : Visit σ) (id : String) : Option Stored :=
  match k with
  | memory number => ((v.world.memories number).value? id).map .kept
  | session => (v.request.recordAt? o.sessionKey id).map .record

/-- The id that is drawn next. -/
def nextId (k : Shelf) (o : TransactionOptions) (w : World σ) : String :=
  match k with
  | memory _ => w.ids.peek Supply.tokenLength
  | session => w.ids.peek o.idLength

end Shelf

theorem Supply.peek_ne_empty (ids : Supply) {n : Nat} (h : 0 < n) : ids.peek n ≠ "" := by
  intro hempty
  have hlist := congrArg String.toList hempty
  obtain ⟨m, rfl⟩ := Nat.exists_eq_succ_of_ne_zero (Nat.ne_of_gt h)
  simp [peek, List.range_succ, hexByte] at hlist

/-! ## Records in a session -/

/-- No id twice among the pending records. -/
def Request.Distinct (r : Request) (key : String) : Prop :=
  ∀ session records, r.session = some session → pending? session key = some records →
    (Entries.keys records).Nodup

theorem pending?_put (session : Params) (key : String) (records : Params) :
    pending? (session.put key (.obj records)) key = some records := by
  simp [pending?, Value.asObject?]

theorem recordAt?_putRecord (r : Request) {session : Params} (hr : r.session = some session)
    (key id : String) (record : Value) (id' : String) :
    Request.recordAt? { r with session := some (putRecord session key id record) } key id' =
      if id = id' then some record else r.recordAt? key id' := by
  simp only [Request.recordAt?, putRecord, Option.bind_some, pending?_put, hr, Entries.value?_put]
  rcases pending? session key with _ | records <;> rfl

theorem recordAt?_removeRecord {r : Request} {key : String} (hd : r.Distinct key) {session : Params}
    (hr : r.session = some session) (id id' : String) :
    Request.recordAt? { r with session := some (removeRecord session key id) } key id' =
      if id = id' then none else r.recordAt? key id' := by
  simp only [Request.recordAt?, removeRecord, Option.bind_some, hr]
  rcases hp : pending? session key with _ | records
  · simp [hp]
  · simp only [pending?_put, Option.bind_some]
    exact Entries.value?_swapRemove (hd session records hr hp) id id'

theorem Request.Distinct.putRecord {r : Request} {key : String} (hd : r.Distinct key)
    {session : Params} (hr : r.session = some session) (id : String) (record : Value) :
    Distinct { r with session := some (putRecord session key id record) } key := by
  intro session' records' hs hp
  cases hs
  rw [Store.putRecord, pending?_put] at hp
  cases hp
  rcases hp : pending? session key with _ | records
  · exact Entries.nodup_keys_put (show (Entries.keys ([] : Params)).Nodup from List.nodup_nil) id record
  · exact Entries.nodup_keys_put (hd session records hr hp) id record

theorem Request.Distinct.removeRecord {r : Request} {key : String} (hd : r.Distinct key)
    {session : Params} (hr : r.session = some session) (id : String) :
    Distinct { r with session := some (removeRecord session key id) } key := by
  intro session' records' hs hp
  cases hs
  rw [Store.removeRecord] at hp
  rcases hrecords : pending? session key with _ | records <;> rw [hrecords] at hp <;> simp only at hp
  · rw [hrecords] at hp
    cases hp
  · rw [pending?_put] at hp
    cases hp
    exact Entries.nodup_keys_swapRemove (hd session records hr hrecords) id

/-! ## The operations, by id -/

theorem map_ite_eq_update {α β : Type} (f : String → Option α) (g : α → β) (id : String)
    (a : Option α) :
    (fun id' => (if id = id' then a else f id').map g) =
      Function.update (fun id' => (f id').map g) id (a.map g) := by
  funext id'
  rw [Function.update_apply]
  by_cases h : id = id'
  · rw [if_pos h, if_pos h.symm]
  · rw [if_neg h, if_neg (Ne.symm h)]

namespace Server

variable {s : Server σ} {k : Shelf} {v v' : Visit σ}

/-- `t` is set under `id`. -/
structure Puts (s : Server σ) (k : Shelf) (id : String) (t : Transaction) (v v' : Visit σ) : Prop where
  held : ∃ x : Stored, x.redirectUri = t.redirectUri ∧
    k.held s.options v' = Function.update (k.held s.options v) id (some x)
  distinct : v.request.Distinct s.options.sessionKey → v'.request.Distinct s.options.sessionKey
  transaction : v'.request.transaction = v.request.transaction
  response : v'.response = v.response

theorem Recorded.redirectUri {c : ClientForms σ} {t : Transaction} {host host' : σ} {record : Value}
    (h : Recorded c t host record host') : (Stored.record record).redirectUri = t.redirectUri := by
  cases h with
  | bare => simp [Stored.redirectUri, Stored.opened, ofRecord_toValue, Except.toOption, Transaction.reread]
  | written => simp [Stored.redirectUri, Stored.opened, ofRecord_toValue, Except.toOption, Transaction.reread]

theorem puts_memory {number : Nat} {id : String} {t : Transaction} (n : Nat) :
    Puts s (.memory number) id t v
      ((v.drawn n).withMemory number ((v.world.memories number).put id t)) := by
  refine ⟨⟨.kept t, rfl, ?_⟩, fun h => h, rfl, rfl⟩
  refine Eq.trans ?_ (map_ite_eq_update _ Stored.kept id (some t))
  funext id'
  simp only [Shelf.held, Visit.withMemory, World.memories_setMemory, Entries.value?_put]

theorem puts_session {id : String} {t : Transaction} {session : Params} {record : Value} {host : σ}
    (hsession : v.request.session = some session)
    (hr : Recorded s.clients t v.world.host record host) (n : Nat) :
    Puts s .session id t v
      (((v.withHost host).drawn n).withSession (putRecord session s.options.sessionKey id record)) := by
  refine ⟨⟨.record record, hr.redirectUri, ?_⟩, fun h => h.putRecord hsession id record, rfl, rfl⟩
  refine Eq.trans ?_ (map_ite_eq_update _ Stored.record id (some record))
  funext id'
  exact congrArg (Option.map Stored.record)
    (recordAt?_putRecord v.request hsession s.options.sessionKey id record id')

theorem storeNew_puts (hs : s.store = k.store) {t : Transaction} {r : Except Fault String}
    (h : (s.storeNew t).run v = (r, v')) :
    (∃ e host, r = .error e ∧ v' = v.withHost host) ∨
      r = .ok (k.nextId s.options v.world) ∧ Puts s k (k.nextId s.options v.world) t v v' := by
  cases k with
  | memory number =>
    rw [storeNew_memory hs] at h
    cases h
    exact .inr ⟨rfl, puts_memory _⟩
  | session =>
    obtain ⟨host, ⟨rfl, e, rfl⟩ | ⟨session, record, hsession, hrec, rfl, rfl⟩⟩ :=
      storeNew_session_cases hs h
    · exact .inl ⟨_, host, rfl, rfl⟩
    · exact .inr ⟨rfl, puts_session hsession hrec _⟩

theorem storeAgain_puts (hs : s.store = k.store) {id : String} {t : Transaction}
    {r : Except Fault String} (h : (s.storeAgain id t).run v = (r, v')) :
    (∃ e host, r = .error e ∧ v' = v.withHost host) ∨ r = .ok id ∧ Puts s k id t v v' := by
  cases k with
  | memory number =>
    rw [storeAgain_memory hs] at h
    cases h
    exact .inr ⟨rfl, puts_memory 0⟩
  | session =>
    obtain ⟨host, ⟨rfl, e, rfl⟩ | ⟨session, record, hsession, hrec, rfl, rfl⟩⟩ :=
      storeAgain_session_cases hs h
    · exact .inl ⟨_, host, rfl, rfl⟩
    · exact .inr ⟨rfl, puts_session hsession hrec 0⟩

/-- A load finds what is held, and changes nothing but the state of the host. -/
theorem load_held (hs : s.store = k.store) {r : Except Fault Transaction}
    (h : s.load.run v = (r, v')) :
    ∃ host, v' = v.withHost host ∧
      ((∃ e, r = .error e) ∨
        ∃ t id x, r = .ok t ∧ t.id = some id ∧ idParam s.options v.request = .ok id ∧
          k.held s.options v id = some x ∧ t.redirectUri = x.redirectUri) := by
  cases k with
  | memory number =>
    rcases hid : idParam s.options v.request with e | id
    · rw [load_memory_unnamed hs hid] at h
      cases h
      exact ⟨_, rfl, .inl ⟨_, rfl⟩⟩
    · rw [load_memory hs hid, kept_none] at h
      rcases ht : (v.world.memories number).value? id with _ | t <;> rw [ht] at h <;> cases h
      · exact ⟨_, rfl, .inl ⟨_, rfl⟩⟩
      · exact ⟨_, rfl, .inr ⟨_, id, .kept t, rfl, rfl, rfl, by simp [Shelf.held, ht], rfl⟩⟩
  | session =>
    obtain ⟨host, rfl, ⟨e, rfl⟩ | ⟨id, record, t, client, hid, hrecord, hread, -, rfl⟩⟩ :=
      load_session_cases hs h
    · exact ⟨host, rfl, .inl ⟨e, rfl⟩⟩
    · refine ⟨host, rfl, .inr ⟨_, id, .record record, rfl, rfl, hid, by simp [Shelf.held, hrecord], ?_⟩⟩
      simp [Stored.redirectUri, Stored.opened, hread, Except.toOption, Transaction.persisted]

/-- A removal clears one id. Without a session there is nothing to clear. -/
theorem remove_held (hs : s.store = k.store) {id : String} {r : Except Fault Unit}
    (hd : v.request.Distinct s.options.sessionKey) (h : (s.remove id).run v = (r, v')) :
    r ≠ .error .crash ∧
      k.held s.options v' = Function.update (k.held s.options v) id none ∧
      v'.request.Distinct s.options.sessionKey ∧
      v'.request.transaction = v.request.transaction ∧ v'.response = v.response := by
  cases k with
  | memory number =>
    rw [remove_memory hs] at h
    cases h
    refine ⟨nofun, ?_, hd, rfl, rfl⟩
    refine Eq.trans ?_ (map_ite_eq_update _ Stored.kept id none)
    funext id'
    simp only [Shelf.held, Visit.withMemory, World.memories_setMemory, Entries.value?_remove]
  | session =>
    rw [remove_session hs] at h
    rcases hsession : v.request.session with _ | session <;> rw [hsession] at h <;> cases h
    · refine ⟨nofun, ?_, hd, rfl, rfl⟩
      funext id'
      simp [Shelf.held, Request.recordAt?, hsession, Function.update_apply]
    · refine ⟨nofun, ?_, hd.removeRecord hsession id, rfl, rfl⟩
      refine Eq.trans ?_ (map_ite_eq_update _ Stored.record id none)
      funext id'
      exact congrArg (Option.map Stored.record) (recordAt?_removeRecord hd hsession id id')

end Server

end AuthServer
