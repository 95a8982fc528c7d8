import AuthServer.Proofs.Endpoint.Loading
import AuthServer.Proofs.Store.ClientForms
import AuthServer.Proofs.Store.Shelf

/-!
# Three ways to load a transaction

The transaction is put on the request; or its client was deauthorized, and its
entry alone is removed; or it cannot be had, for a reason that is told, and
nothing changes. A failed look-up is never taken for a deauthorized client.
-/

namespace AuthServer

open Json Store

variable {σ : Type}

namespace Server

/-- The request names a transaction in the query, or else in the body. -/
def Names (s : Server σ) (v : Visit σ) (id : String) : Prop :=
  v.request.text? s.options.field = some id ∧ id ≠ ""

/-- The entries can be looked up: a memory always, a session if it has an object for them. -/
def Opens (s : Server σ) (k : Shelf) (v : Visit σ) : Prop :=
  k = .session → (v.request.session.bind (pending? · s.options.sessionKey)).isSome

/-- Why a transaction cannot be had. -/
inductive Unavailable (s : Server σ) (k : Shelf) (v : Visit σ) : OAuthError → Prop where
  | sessionless : k = .session → v.request.session = none → Unavailable s k v sessionRequired
  | empty {session : Params} :
    k = .session → v.request.session = some session → pending? session s.options.sessionKey = none →
    Unavailable s k v noTransactions
  | unnamed :
    s.Opens k v → (∀ id, ¬ s.Names v id) → Unavailable s k v (missingId s.options.field)
  | unknown {id : String} :
    s.Opens k v → s.Names v id → k.held s.options v id = none → Unavailable s k v (unknownId id)
  | malformed {id : String} {record : Value} {e : DecodeError} :
    k = .session → s.Names v id → v.request.recordAt? s.options.sessionKey id = some record →
    Transaction.ofValue record = .error e → Unavailable s k v (.server e.message)
  /-- A reader failed or crashed, or none of them is for this client. -/
  | unread {id : String} {record stored : Value} {t : Transaction} {e : OAuthError} {host : σ} :
    k = .session → s.Names v id → v.request.recordAt? s.options.sessionKey id = some record →
    Transaction.ofValue record = .ok t → t.client = some stored →
    s.clients.Reads stored v.world.host (.error (.error e)) host → Unavailable s k v e

/-- The session has a record under the id that the request names, and its client is gone: none was
stored, or the reader that decides reports it as deauthorized. -/
def Orphaned (s : Server σ) (v : Visit σ) : Prop :=
  ∃ id record t, s.Names v id ∧ v.request.recordAt? s.options.sessionKey id = some record ∧
    Transaction.ofValue record = .ok t ∧
    (t.client = none ∨ ∃ stored host, t.client = some stored ∧
      s.clients.Reads stored v.world.host (.ok none) host)

/-- No entry under `id`, and everything else as it was. -/
structure Without (s : Server σ) (k : Shelf) (id : String) (v v' : Visit σ) : Prop where
  held : k.held s.options v' = Function.update (k.held s.options v) id none
  elsewhere : ∀ k' : Shelf, k' ≠ k → k'.held s.options v' = k'.held s.options v
  keys : ∀ key, key ≠ s.options.sessionKey →
    v'.request.session.bind (·.value? key) = v.request.session.bind (·.value? key)
  request : v'.request = { v.request with session := v'.request.session }
  response : v'.response = v.response

/-- The request carries `t`, and everything else is as it was. -/
structure Carries (t : Option Transaction) (v v' : Visit σ) : Prop where
  request : v'.request = { v.request with transaction := t }
  response : v'.response = v.response
  memories : v'.world.memories = v.world.memories

inductive LoadOutcome where
  | loaded
  | deauthorized
  | failed
  deriving DecidableEq

/-- What the store gave tells the outcome. -/
def LoadOutcome.ofLoad : Except Fault Transaction → LoadOutcome
  | .ok t => if t.client.isSome then .loaded else .deauthorized
  | .error _ => .failed

inductive LoadEnd (s : Server σ) (k : Shelf) (v : Visit σ) :
    LoadOutcome → Except Fault Unit → Visit σ → Prop where
  | loaded {id : String} {t : Transaction} {v' : Visit σ} :
    s.Names v id → (s.load.run v).1 = .ok t → t.id = some id → t.client.isSome = true →
    Carries (some t) v v' → LoadEnd s k v .loaded (.ok ()) v'
  | deauthorized {id : String} {t : Transaction} {v' : Visit σ} :
    s.Names v id → (s.load.run v).1 = .ok t → t.id = some id → t.client = none →
    v'.request.transaction = none → s.Without k id v v' →
    LoadEnd s k v .deauthorized (.error (.error .unauthorizedClient)) v'
  | failed {e : OAuthError} {v' : Visit σ} :
    (s.load.run v).1 = .error (.error e) → s.Unavailable k v e → Carries none v v' →
    LoadEnd s k v .failed (.error (.error e)) v'

variable {s : Server σ} {k : Shelf} {v v' : Visit σ}

/-! ## The name of the transaction -/

theorem names_of_idParam {id : String} (h : idParam s.options v.request = .ok id) : s.Names v id := by
  unfold idParam at h
  rcases htext : (v.request.text? s.options.field).filter (· ≠ "") with _ | id' <;> rw [htext] at h <;>
    cases h
  obtain ⟨hid, hne⟩ := Option.filter_eq_some_iff.1 htext
  exact ⟨hid, by simpa using hne⟩

theorem idParam_of_names {id : String} (h : s.Names v id) : idParam s.options v.request = .ok id := by
  unfold idParam
  rw [h.1, Option.filter_some, if_pos (by simpa using h.2)]

theorem unnamed_of_idParam {e : OAuthError} (h : idParam s.options v.request = .error e) :
    e = missingId s.options.field ∧ ∀ id, ¬ s.Names v id := by
  refine ⟨?_, fun id hid => ?_⟩
  · unfold idParam at h
    split at h <;> cases h
    rfl
  · rw [idParam_of_names hid] at h
    cases h

/-! ## The store's load -/

theorem ofRecord_error {record : Value} {e : DecodeError} (h : Transaction.ofValue record = .error e) :
    ofRecord record = .error (.server e.message) := by
  rw [ofRecord, h]

theorem ofRecord_ok_iff {record : Value} {t : Transaction} :
    ofRecord record = .ok t ↔ Transaction.ofValue record = .ok t := by
  unfold ofRecord
  cases Transaction.ofValue record <;> simp

/-- Loading gives a transaction under the name of the request, or tells why there is none. -/
theorem load_ends (hs : s.store = k.store) :
    ∃ host, (s.load.run v).2 = v.withHost host ∧
      ((∃ id t, s.Names v id ∧ (s.load.run v).1 = .ok t ∧ t.id = some id) ∨
        ∃ e, (s.load.run v).1 = .error (.error e) ∧ s.Unavailable k v e) := by
  have hstay : v = v.withHost v.world.host := rfl
  cases k with
  | memory number =>
    have hopen : s.Opens (.memory number) v := nofun
    rcases hid : idParam s.options v.request with e | id
    · obtain ⟨rfl, hunnamed⟩ := unnamed_of_idParam hid
      rw [load_memory_unnamed hs hid]
      exact ⟨_, hstay, .inr ⟨_, rfl, .unnamed hopen hunnamed⟩⟩
    · have hnames := names_of_idParam hid
      rw [load_memory hs hid, kept_none]
      rcases ht : (v.world.memories number).value? id with _ | t
      · exact ⟨_, hstay, .inr ⟨_, rfl, .unknown hopen hnames (by simp [Shelf.held, ht])⟩⟩
      · exact ⟨_, hstay, .inl ⟨id, _, hnames, rfl, rfl⟩⟩
  | session =>
    rcases hp : v.request.session.bind (pending? · s.options.sessionKey) with _ | records
    · rw [load_session_absent hs hp]
      rcases hsession : v.request.session with _ | session
      · exact ⟨_, hstay, .inr ⟨_, rfl, .sessionless rfl hsession⟩⟩
      · rw [hsession] at hp
        exact ⟨_, hstay, .inr ⟨_, rfl, .empty rfl hsession hp⟩⟩
    have hopen : s.Opens .session v := fun _ => by rw [hp]; rfl
    obtain ⟨session, hsession, hrecords⟩ := Option.bind_eq_some_iff.1 hp
    rw [load_session hs hsession hrecords]
    rcases hid : idParam s.options v.request with e | id <;> simp only
    · obtain ⟨rfl, hunnamed⟩ := unnamed_of_idParam hid
      exact ⟨_, hstay, .inr ⟨_, rfl, .unnamed hopen hunnamed⟩⟩
    have hnames := names_of_idParam hid
    have hat : v.request.recordAt? s.options.sessionKey id = records.value? id := by
      rw [Request.recordAt?, hp, Option.bind_some]
    rcases hr : records.value? id with _ | record <;> rw [hr] at hat <;> simp only
    · exact ⟨_, hstay, .inr ⟨_, rfl, .unknown hopen hnames (by simp [Shelf.held, hat])⟩⟩
    rcases ht : Transaction.ofValue record with e | t
    · rw [ofRecord_error ht]
      exact ⟨_, hstay, .inr ⟨_, rfl, .malformed rfl hnames hat ht⟩⟩
    simp only [ofRecord_ok_iff.2 ht]
    rcases hc : t.client with _ | stored <;> simp only
    · exact ⟨_, hstay, .inl ⟨id, _, hnames, rfl, rfl⟩⟩
    · have hreads := s.clients.read_reads stored v.world.host
      refine ⟨_, rfl, ?_⟩
      rcases hread : ((s.clients.read stored).run v.world.host).1 with (e | _) | client <;>
        rw [hread] at hreads
      · exact .inr ⟨e, rfl, .unread rfl hnames hat ht hc hreads⟩
      · exact absurd rfl hreads.ne_crash
      · exact .inl ⟨id, _, hnames, rfl, rfl⟩

/-- A session store gives a transaction without a client exactly where the client is gone. -/
theorem load_orphaned_iff (hs : s.store = .session) :
    (∃ t, (s.load.run v).1 = .ok t ∧ t.client = none) ↔ s.Orphaned v := by
  constructor
  · rintro ⟨t, hload, hclient⟩
    rcases hrun : s.load.run v with ⟨r, v₁⟩
    rw [hrun] at hload
    obtain ⟨host, -, ⟨e, rfl⟩ | ⟨id, record, t', client, hid, hrecord, hread, hrecalled, rfl⟩⟩ :=
      load_session_cases hs hrun
    · cases hload
    · cases hload
      obtain rfl : client = none := hclient
      refine ⟨id, record, t', names_of_idParam hid, hrecord, ofRecord_ok_iff.1 hread, ?_⟩
      generalize hc : t'.client = stored at hrecalled
      cases hrecalled with
      | bare => exact .inl rfl
      | read hread => exact .inr ⟨_, _, rfl, ClientForms.reads_iff.2 hread⟩
  · rintro ⟨id, record, t, hnames, hrecord, hof, hgone⟩
    obtain ⟨records, hp, hr⟩ := Option.bind_eq_some_iff.1 hrecord
    obtain ⟨session, hsession, hrecords⟩ := Option.bind_eq_some_iff.1 hp
    rw [load_session hs hsession hrecords, idParam_of_names hnames]
    simp only [hr, ofRecord_ok_iff.2 hof]
    rcases hgone with hc | ⟨stored, host, hc, hreads⟩ <;> simp only [hc]
    · exact ⟨_, rfl, rfl⟩
    · rw [ClientForms.reads_iff.1 hreads]
      exact ⟨_, rfl, rfl⟩

/-! ## The removal -/

theorem value?_removeRecord_ne {session : Params} {key id key' : String} (h : key' ≠ key) :
    (removeRecord session key id).value? key' = session.value? key' := by
  unfold removeRecord
  split
  · exact Entries.value?_put_ne session _ h.symm
  · rfl

theorem remove_without (hs : s.store = k.store) {id : String} {r : Except Fault Unit}
    (hd : v.request.Distinct s.options.sessionKey) (h : (s.remove id).run v = (r, v')) :
    s.Without k id v v' := by
  obtain ⟨-, hheld, -, -, hresponse⟩ := remove_held hs hd h
  cases k with
  | memory number =>
    rw [remove_memory hs] at h
    cases h
    refine ⟨hheld, fun k' hk' => ?_, fun _ _ => rfl, rfl, hresponse⟩
    cases k' with
    | memory n =>
      have hn : n ≠ number := fun hn => hk' (hn ▸ rfl)
      funext id'
      simp only [Shelf.held, Visit.withMemory, World.memories_setMemory_ne _ _ hn]
    | session => rfl
  | session =>
    have hother : ∀ {v' : Visit σ}, v'.world = v.world → ∀ k' : Shelf, k' ≠ .session →
        k'.held s.options v' = k'.held s.options v := by
      intro v' hworld k' hk'
      cases k' with
      | memory n =>
        funext id'
        simp only [Shelf.held, hworld]
      | session => exact absurd rfl hk'
    rw [remove_session hs] at h
    rcases hsession : v.request.session with _ | session <;> rw [hsession] at h <;> cases h
    · exact ⟨hheld, hother rfl, fun _ _ => rfl, rfl, hresponse⟩
    · refine ⟨hheld, hother rfl, fun key hkey => ?_, rfl, hresponse⟩
      rw [hsession]
      exact value?_removeRecord_ne hkey

/-! ## The outcome -/

theorem LoadOutcome.ofLoad_eq_deauthorized_iff {loaded : Except Fault Transaction} :
    ofLoad loaded = .deauthorized ↔ ∃ t, loaded = .ok t ∧ t.client = none := by
  rcases loaded with _ | t
  · simp [ofLoad]
  · simp [ofLoad, Option.isSome_iff_ne_none]

theorem LoadEnd.outcome_eq {o : LoadOutcome} {r : Except Fault Unit} (h : LoadEnd s k v o r v') :
    o = .ofLoad (s.load.run v).1 := by
  cases h with
  | loaded _ hload _ hsome => rw [hload, LoadOutcome.ofLoad, if_pos hsome]
  | deauthorized _ hload _ hnone =>
    exact (LoadOutcome.ofLoad_eq_deauthorized_iff.2 ⟨_, hload, hnone⟩).symm
  | failed hload => rw [hload, LoadOutcome.ofLoad]

theorem loadTransaction_ends (hs : s.store = k.store) (hnew : v.request.transaction = none)
    (hd : v.request.Distinct s.options.sessionKey) {r : Except Fault Unit}
    (h : s.loadTransaction.run v = (r, v')) : ∃ o, LoadEnd s k v o r v' := by
  obtain ⟨host, hstate, hends⟩ := load_ends (v := v) hs
  cases loadTransaction_cases h with
  | present ht =>
    rw [hnew] at ht
    cases ht
  | failed m _ hload =>
    rw [hload] at hstate hends
    obtain rfl : _ = v.withHost host := hstate
    obtain ⟨_, _, -, hok, -⟩ | ⟨e, he, hwhy⟩ := hends
    · cases hok
    · cases he
      refine ⟨.failed, .failed (by rw [hload]) hwhy ⟨?_, rfl, rfl⟩⟩
      exact congrArg (fun t => { v.request with transaction := t }) hnew
  | loaded m _ hload hclient =>
    rw [hload] at hstate hends
    obtain rfl : _ = v.withHost host := hstate
    obtain ⟨id, _, hnames, hok, hid⟩ | ⟨_, he, -⟩ := hends
    · cases hok
      exact ⟨.loaded, .loaded hnames (by rw [hload]) hid hclient ⟨rfl, rfl, rfl⟩⟩
    · cases he
  | unstored m _ hload _ hnoid =>
    rw [hload] at hends
    obtain ⟨_, _, -, hok, hid⟩ | ⟨_, he, -⟩ := hends
    · cases hok
      rw [hnoid] at hid
      cases hid
    · cases he
  | removed m _ hload hclient hid hremove =>
    rw [hload] at hstate hends
    obtain rfl : _ = v.withHost host := hstate
    obtain ⟨id, _, hnames, hok, hid'⟩ | ⟨_, he, -⟩ := hends
    · cases hok
      rw [hid] at hid'
      cases hid'
      have hwithout := remove_without hs (v := v.withHost host) hd hremove
      have htransaction := (remove_held hs (v := v.withHost host) hd hremove).2.2.2.1
      refine ⟨.deauthorized, .deauthorized hnames (by rw [hload]) hid hclient ?_ ?_⟩
      · exact htransaction.trans hnew
      · exact ⟨hwithout.held, hwithout.elsewhere, hwithout.keys, hwithout.request, hwithout.response⟩
    · cases he
  | crashed m _ hload _ _ hremove =>
    rw [hload] at hstate
    obtain rfl : _ = v.withHost host := hstate
    exact absurd rfl (remove_held hs (v := v.withHost host) hd hremove).1

/-- Exactly one of three outcomes, and over a session the second one exactly where the stored client
is gone. -/
theorem loads_in_three_ways (hs : s.store = k.store) (hnew : v.request.transaction = none)
    (hd : v.request.Distinct s.options.sessionKey) {r : Except Fault Unit}
    (h : s.loadTransaction.run v = (r, v')) :
    (∃! o, LoadEnd s k v o r v') ∧
      (k = .session → (LoadEnd s k v .deauthorized r v' ↔ s.Orphaned v)) := by
  obtain ⟨o, hend⟩ := loadTransaction_ends hs hnew hd h
  refine ⟨⟨o, hend, fun o' hend' => hend'.outcome_eq.trans hend.outcome_eq.symm⟩, ?_⟩
  rintro rfl
  rw [← load_orphaned_iff hs, ← LoadOutcome.ofLoad_eq_deauthorized_iff, ← hend.outcome_eq]
  constructor
  · intro hgone
    exact hend.outcome_eq.trans hgone.outcome_eq.symm
  · rintro rfl
    exact hend

/-! ## A client that was deauthorized -/

/-- No reader but the second is for the client, and that one finds it gone. -/
def forgetting : Server Unit :=
  { ofStore .session with
    clients := ⟨[], [fun _ => pure .skip, fun _ => pure (.matched (some (.bool false)))]⟩ }

/-- What a session keeps of the request of client `c1`. -/
def keptRecord : Value :=
  .obj [("client", .str "c1"), ("req", .obj [("type", .str "code")])]

/-- Names the record, and there is one under another id. -/
def namingKept : Visit Unit :=
  ⟨{ Request.empty with
      query := [("transaction_id", .str "7f")]
      session := some [("authorize", .obj [("2a", keptRecord), ("7f", keptRecord)])] },
    .empty, ⟨fun _ => [], ⟨fun _ => 0, 0⟩, .zero, ()⟩⟩

theorem namingKept_deauthorized :
    LoadEnd forgetting .session namingKept .deauthorized (.error (.error .unauthorizedClient))
      (forgetting.loadTransaction.run namingKept).2 := by
  have hdistinct : namingKept.request.Distinct "authorize" := by
    rintro _ _ ⟨⟩ ⟨⟩
    decide
  have horphaned : forgetting.Orphaned namingKept := by
    refine ⟨"7f", keptRecord, _, ⟨rfl, by decide⟩, rfl, rfl, .inr ⟨.str "c1", (), rfl, ?_⟩⟩
    exact .later rfl rfl (.here rfl rfl)
  have hrun : forgetting.loadTransaction.run namingKept =
      (.error (.error .unauthorizedClient), (forgetting.loadTransaction.run namingKept).2) := rfl
  obtain ⟨-, hiff⟩ := loads_in_three_ways (k := .session) rfl rfl hdistinct hrun
  exact (hiff rfl).2 horphaned

end Server

end AuthServer
