import AuthServer.Proofs.Endpoint.Authorization
import AuthServer.Proofs.Store.Shelf
import Mathlib.Data.List.Forall2
import Mathlib.Logic.Equiv.Basic

/-!
# Stores in exchange for each other

A session keeps transactions as records and reads them back, a memory keeps them as they are. The
same calls on both get the same answers, up to a renaming of ids, as long as nothing is stored that
a record loses.
-/

namespace AuthServer

open Json Store

variable {σ τ : Type}

/-! ## What a record keeps -/

/-- Reads back as it was written, the client apart. -/
structure Transaction.Lasting (t : Transaction) : Prop where
  words : ∀ w ∈ t.request.type.tokens, Text.IsWord w
  untyped : "type" ∉ t.request.fields.keys
  principal : t.user ≠ some .null
  verdict : ∀ d, t.decision = some d → "allow" ∉ d.fields.keys

theorem Transaction.Lasting.reread_eq {t : Transaction} (h : t.Lasting) (id : Option String)
    {client : Option Value} (hc : client ≠ some .null) :
    { t with id, client }.reread = { t with id, client, phase := .parsed, removalArmed := false } := by
  have hstorable : { t with decision := none }.Storable := ⟨h.words, h.untyped, h.principal, rfl⟩
  have hrequest : t.request.reread = t.request := hstorable.reread_request
  have huser : t.user.bind Value.nonNull = t.user := hstorable.reread_user
  have hclient : client.bind Value.nonNull = client := by
    rcases client with _ | v
    · rfl
    · exact Value.nonNull_of_ne fun hnull => hc (hnull ▸ rfl)
  have hdecision : t.decision.map Decision.reread = t.decision := by
    rcases hd : t.decision with _ | d
    · rfl
    · rw [Option.map_some, Decision.reread, Entries.remove_of_notMem (h.verdict d hd)]
  unfold reread
  simp only [hrequest, huser, hclient, hdecision]

/-- The host reads `client` in its stored form. -/
def ClientForms.ReadsAs (c : ClientForms σ) (stored client : Value) : Prop :=
  ∀ host, ∃ host', (c.read stored).run host = (.ok (some client), host')

/-- The host can write the client, and gets it back. -/
def ClientForms.Returns (c : ClientForms σ) (client : Value) : Prop :=
  ∀ host, ∃ stored host', (c.write client).run host = (.ok stored, host') ∧ c.ReadsAs stored client

/-- The record is that of the transaction. -/
inductive Filed (c : ClientForms σ) (t : Transaction) : Value → Prop where
  | bare : t.client = none → Filed c t { t with id := none }.toValue
  | written {client stored : Value} :
    t.client = some client → stored ≠ .null → c.ReadsAs stored client →
    Filed c t { t with id := none, client := some stored }.toValue

/-- The same is held: nothing, or a transaction and its record. -/
inductive SameHeld (c : ClientForms σ) : Option Value → Option Transaction → Prop where
  | absent : SameHeld c none none
  | held {t : Transaction} {record : Value} :
    t.Lasting → Filed c t record → SameHeld c (some record) (some t)

theorem Filed.recalled {c : ClientForms σ} {t : Transaction} {record : Value} (h : Filed c t record)
    (ht : t.Lasting) (host : σ) :
    ∃ t₁ host', ofRecord record = .ok t₁ ∧ Server.Recalled c host t₁.client t.client host' ∧
      { t₁ with client := t.client } =
        { t with id := none, phase := .parsed, removalArmed := false } := by
  cases h with
  | bare hclient =>
    have hread := ht.reread_eq none (nofun : (none : Option Value) ≠ some .null)
    refine ⟨_, host, Server.ofRecord_toValue _, ?_, ?_⟩
    · rw [← hclient] at hread
      rw [hread, hclient]
      exact .bare
    · rw [← hclient] at hread
      rw [hread]
  | @written client stored hclient hne hreads =>
    obtain ⟨host', hrun⟩ := hreads host
    have hread := ht.reread_eq none fun hnull => hne (Option.some.inj hnull)
    refine ⟨_, host', Server.ofRecord_toValue _, ?_, ?_⟩
    · rw [hread, hclient]
      exact .read hrun
    · rw [hread, hclient]

theorem run_recordOf {c : ClientForms σ} {t : Transaction}
    (hc : ∀ client, t.client = some client → c.Returns client) (a : Access σ) :
    ∃ record host, (recordOf c t).run a = (.ok record, a.withHost host) ∧ Filed c t record := by
  rcases hclient : t.client with _ | client
  · refine ⟨_, a.world.host, ?_, .bare hclient⟩
    unfold recordOf
    rw [hclient]
    rfl
  · obtain ⟨stored, host, hwrite, hreads⟩ := hc client hclient a.world.host
    refine ⟨_, host, ?_, .written hclient (ClientForms.write_ne_null hwrite) hreads⟩
    rw [Server.run_recordOf_client hclient, hwrite]
    rfl

/-! ## Calls -/

inductive StoreCall where
  | store (t : Transaction)
  | update (id : String) (t : Transaction)
  /-- For a request with these parameters. -/
  | load (query : Params) (body : Option Params)
  | remove (id : String)

inductive StoreAnswer where
  | id (id : String)
  | loaded (t : Transaction)
  | removed

def Visit.asking (v : Visit σ) (query : Params) (body : Option Params) : Visit σ :=
  { v with request := { v.request with query, body } }

namespace StoreCall

def run (s : Server σ) : StoreCall → Step (Visit σ) StoreAnswer
  | store t => .id <$> s.storeNew t
  | update id t => .id <$> s.storeAgain id t
  | load query body => do
    .modify (·.asking query body)
    .loaded <$> s.load
  | remove id => (fun _ => .removed) <$> s.remove id

/-- What a request with these parameters has under a name. -/
def named? (query : Params) (body : Option Params) (field : String) : Option String :=
  Request.text? { Request.empty with query, body } field

/-- The id that a call is given. -/
def id? (field : String) : StoreCall → Option String
  | store _ => none
  | update id _ => some id
  | load query body => named? query body field
  | remove id => some id

/-- The same call with its id renamed. What is stored is kept by a record. -/
inductive Corresponds (c : ClientForms σ) (f : String → String) (field : String) :
    StoreCall → StoreCall → Prop where
  | store {t : Transaction} :
    t.Lasting → (∀ client, t.client = some client → c.Returns client) →
    Corresponds c f field (store t) (store t)
  | update {id : String} {t : Transaction} :
    t.Lasting → (∀ client, t.client = some client → c.Returns client) →
    Corresponds c f field (update id t) (update (f id) t)
  | load {query query' : Params} {body body' : Option Params} :
    named? query' body' field = (named? query body field).map f →
    Corresponds c f field (load query body) (load query' body')
  | remove {id : String} : Corresponds c f field (remove id) (remove (f id))

end StoreCall

namespace Server

/-- The answers to the calls, made one after another. -/
def answers (s : Server σ) : List StoreCall → Visit σ → List (Except Fault StoreAnswer)
  | [], _ => []
  | call :: rest, v => ((call.run s).run v).1 :: s.answers rest ((call.run s).run v).2

end Server

/-- All but the phase and the armed removal, of which records know nothing. -/
structure Transaction.Agrees (f : String → String) (t t' : Transaction) : Prop where
  id : t'.id = t.id.map f
  client : t'.client = t.client
  redirectUri : t'.redirectUri = t.redirectUri
  webOrigin : t'.webOrigin = t.webOrigin
  request : t'.request = t.request
  user : t'.user = t.user
  decision : t'.decision = t.decision
  info : t'.info = t.info
  locals : t'.locals = t.locals

/-- Both calls succeed, or both fail with the same error. -/
inductive StoreAnswer.Agrees (f : String → String) :
    Except Fault StoreAnswer → Except Fault StoreAnswer → Prop where
  | id (id : String) : Agrees f (.ok (.id id)) (.ok (.id (f id)))
  | loaded {t t' : Transaction} : t.Agrees f t' → Agrees f (.ok (.loaded t)) (.ok (.loaded t'))
  | removed : Agrees f (.ok .removed) (.ok .removed)
  | missing (field : String) :
    Agrees f (.error (.error (missingId field))) (.error (.error (missingId field)))
  | unknown (id : String) :
    Agrees f (.error (.error (unknownId id))) (.error (.error (unknownId (f id))))

/-! ## One call -/

namespace Server

variable {s : Server σ} {m : Server τ} {number : Nat} {f : String → String} {named : String → Prop}
  {v : Visit σ} {u : Visit τ}

/-- The session has an object for transactions, and under each id in question the memory has the
same. -/
structure Alike (s : Server σ) (number : Nat) (f : String → String) (named : String → Prop)
    (v : Visit σ) (u : Visit τ) : Prop where
  session : (v.request.session.bind (pending? · s.options.sessionKey)).isSome
  distinct : v.request.Distinct s.options.sessionKey
  held : ∀ id, named id → SameHeld s.clients (v.request.recordAt? s.options.sessionKey id)
    ((u.world.memories number).value? (f id))

section Session

variable (hs : s.store = .session)
include hs

theorem storeNew_session {session : Params} {t : Transaction} {record : Value} {host : σ}
    (hsession : v.request.session = some session)
    (hrecord : (recordOf s.clients t).run v.access = (.ok record, v.access.withHost host)) :
    (s.storeNew t).run v =
      (.ok (v.world.ids.peek s.options.idLength),
        ((v.withHost host).drawn s.options.idLength).withSession
          (putRecord session s.options.sessionKey (v.world.ids.peek s.options.idLength) record)) := by
  rw [storeNew_session_eq hs, hsession, hrecord]
  rfl

theorem storeAgain_session {session : Params} {t : Transaction} {record : Value} {host : σ}
    (hsession : v.request.session = some session)
    (hrecord : (recordOf s.clients t).run v.access = (.ok record, v.access.withHost host))
    (id : String) :
    (s.storeAgain id t).run v =
      (.ok id, (v.withHost host).withSession (putRecord session s.options.sessionKey id record)) := by
  unfold storeAgain
  rw [hs, Step.run_asAccess]
  simp only [Store.session, Step.run_bind, hrecord]
  rw [run_shelve (a := v.access.withHost host) hsession]
  rfl

/-- The transaction comes back under the id that is asked for. -/
theorem load_filed {session records : Params} (hsession : v.request.session = some session)
    (hrecords : pending? session s.options.sessionKey = some records) {id : String} {t : Transaction}
    {record : Value} (hid : idParam s.options v.request = .ok id)
    (hrecord : records.value? id = some record) (ht : t.Lasting) (hfiled : Filed s.clients t record) :
    ∃ host, s.load.run v =
      (.ok { t with id := some id, phase := .persisted, removalArmed := false }, v.withHost host) := by
  obtain ⟨t₁, host, hread, hrecalled, ht₁⟩ := hfiled.recalled ht v.world.host
  refine ⟨host, ?_⟩
  rw [load_session hs hsession hrecords, hid]
  simp only [hrecord, hread]
  generalize hstored : t₁.client = stored at hrecalled
  generalize hclient : t.client = client at hrecalled ht₁
  cases hrecalled with
  | bare =>
    simp only
    rw [ht₁]
    rfl
  | read hrun =>
    simp only [hrun]
    show (Except.ok ({ t₁ with client }.persisted id), _) = _
    rw [ht₁]
    rfl

end Session

namespace Alike

variable (h : Alike s number f named v u)
include h

theorem exists_records : ∃ session records, v.request.session = some session ∧
    pending? session s.options.sessionKey = some records := by
  obtain ⟨records, hrecords⟩ := Option.isSome_iff_exists.1 h.session
  obtain ⟨session, hsession, hpending⟩ := Option.bind_eq_some_iff.1 hrecords
  exact ⟨session, records, hsession, hpending⟩

theorem congr {v' : Visit σ} {u' : Visit τ} (hsession : v'.request.session = v.request.session)
    (hmemory : u'.world.memories number = u.world.memories number) :
    Alike s number f named v' u' := by
  refine ⟨by rw [hsession]; exact h.session, fun session records hs => ?_, fun id hid => ?_⟩
  · rw [hsession] at hs
    exact h.distinct session records hs
  · rw [Request.recordAt?, hsession, hmemory]
    exact h.held id hid

/-- Writing on both sides, under an id and its counterpart. -/
theorem put (hf : f.Injective) {session : Params} (hsession : v.request.session = some session)
    {t : Transaction} {record : Value} (ht : t.Lasting) (hfiled : Filed s.clients t record)
    (host : σ) (n n' : Nat) (id : String) :
    Alike s number f named
      (((v.withHost host).drawn n).withSession (putRecord session s.options.sessionKey id record))
      ((u.drawn n').withMemory number ((u.world.memories number).put (f id) t)) := by
  refine ⟨?_, h.distinct.putRecord hsession id record, fun id' hid' => ?_⟩
  · simp [Visit.withSession, putRecord, pending?_put]
  · show SameHeld s.clients (Request.recordAt?
      { v.request with session := some (putRecord session s.options.sessionKey id record) } _ id') _
    rw [recordAt?_putRecord v.request hsession]
    simp only [Visit.withMemory, World.memories_setMemory, Entries.value?_put, hf.eq_iff]
    split
    · exact .held ht hfiled
    · exact h.held id' hid'

theorem remove (hf : f.Injective) {session : Params} (hsession : v.request.session = some session)
    (hpending : (pending? session s.options.sessionKey).isSome) (id : String) :
    Alike s number f named (v.withSession (removeRecord session s.options.sessionKey id))
      (u.withMemory number ((u.world.memories number).remove (f id))) := by
  refine ⟨?_, h.distinct.removeRecord hsession id, fun id' hid' => ?_⟩
  · obtain ⟨records, hrecords⟩ := Option.isSome_iff_exists.1 hpending
    simp [Visit.withSession, removeRecord, hrecords, pending?_put]
  · show SameHeld s.clients (Request.recordAt?
      { v.request with session := some (removeRecord session s.options.sessionKey id) } _ id') _
    rw [recordAt?_removeRecord h.distinct hsession]
    simp only [Visit.withMemory, World.memories_setMemory, Entries.value?_remove, hf.eq_iff]
    split
    · exact .absent
    · exact h.held id' hid'

end Alike

/-- The id that is asked for, and its counterpart. -/
theorem idParam_renamed {o o' : TransactionOptions} {r r' : Request} (hfield : o'.field = o.field)
    (hempty : ∀ id, f id = "" ↔ id = "") (htext : r'.text? o.field = (r.text? o.field).map f) :
    (idParam o r = .error (missingId o.field) ∧ idParam o' r' = .error (missingId o.field)) ∨
      ∃ id, r.text? o.field = some id ∧ idParam o r = .ok id ∧ idParam o' r' = .ok (f id) := by
  unfold idParam
  rw [hfield, htext]
  rcases r.text? o.field with _ | id
  · exact .inl ⟨rfl, rfl⟩
  · by_cases hid : id = ""
    · refine .inl ⟨?_, ?_⟩ <;> simp [Option.filter, hid, (hempty "").2 rfl]
    · exact .inr ⟨id, rfl, by simp [Option.filter, hid], by simp [Option.filter, hempty, hid]⟩

/-- A load, of an id and of its counterpart. -/
theorem loads_agree (hs : s.store = .session) (hm : m.store = .memory number none)
    (hfield : m.options.field = s.options.field) (hempty : ∀ id, f id = "" ↔ id = "")
    (h : Alike s number f named v u)
    (htext : u.request.text? s.options.field = (v.request.text? s.options.field).map f)
    (hnamed : ∀ id, v.request.text? s.options.field = some id → named id) :
    StoreAnswer.Agrees f ((StoreAnswer.loaded <$> s.load).run v).1
        ((StoreAnswer.loaded <$> m.load).run u).1 ∧
      Alike s number f named ((StoreAnswer.loaded <$> s.load).run v).2
        ((StoreAnswer.loaded <$> m.load).run u).2 := by
  obtain ⟨session, records, hsession, hrecords⟩ := h.exists_records
  rw [Step.run_map, Step.run_map]
  rcases idParam_renamed hfield hempty htext with ⟨hid, hid'⟩ | ⟨id, hname, hid, hid'⟩
  · rw [load_memory_unnamed hm hid', load_session hs hsession hrecords, hid]
    exact ⟨.missing _, h⟩
  · rw [load_memory hm hid', kept_none]
    have hheld := h.held id (hnamed id hname)
    rw [show v.request.recordAt? s.options.sessionKey id = records.value? id by
      simp [Request.recordAt?, hsession, hrecords]] at hheld
    rcases hrecord : records.value? id with _ | record <;>
      rcases hkept : (u.world.memories number).value? (f id) with _ | t <;>
        rw [hrecord, hkept] at hheld <;> cases hheld
    · rw [load_session hs hsession hrecords, hid]
      simp only [hrecord]
      exact ⟨.unknown id, h⟩
    · rename_i ht hfiled
      obtain ⟨host, hload⟩ := load_filed hs hsession hrecords hid hrecord ht hfiled
      rw [hload]
      exact ⟨.loaded ⟨rfl, rfl, rfl, rfl, rfl, rfl, rfl, rfl, rfl⟩, h.congr rfl rfl⟩

/-- A call and its counterpart are answered alike, and leave the same held. -/
theorem call_agrees (hs : s.store = .session) (hm : m.store = .memory number none)
    (hfield : m.options.field = s.options.field) (hf : f.Injective) (hempty : f "" = "")
    (h : Alike s number f named v u) {call call' : StoreCall}
    (hcall : call.Corresponds s.clients f s.options.field call')
    (hnamed : ∀ id, call.id? s.options.field = some id → named id)
    (hids : ∀ t x y, call = .store t → ((call.run s).run v).1 = .ok (.id x) →
      ((call'.run m).run u).1 = .ok (.id y) → y = f x) :
    StoreAnswer.Agrees f ((call.run s).run v).1 ((call'.run m).run u).1 ∧
      Alike s number f named ((call.run s).run v).2 ((call'.run m).run u).2 := by
  obtain ⟨session, records, hsession, hrecords⟩ := h.exists_records
  cases hcall with
  | @store t ht hc =>
    obtain ⟨record, host, hrecord, hfiled⟩ := run_recordOf hc v.access
    simp only [StoreCall.run, Step.run_map, storeNew_session hs hsession hrecord,
      storeNew_memory hm] at hids ⊢
    rw [hids t _ _ rfl rfl rfl]
    exact ⟨.id _, h.put hf hsession ht hfiled host _ _ _⟩
  | @update id t ht hc =>
    obtain ⟨record, host, hrecord, hfiled⟩ := run_recordOf hc v.access
    simp only [StoreCall.run, Step.run_map, storeAgain_session hs hsession hrecord,
      storeAgain_memory hm]
    exact ⟨.id id, h.put hf hsession ht hfiled host 0 0 id⟩
  | @load query query' body body' htext =>
    exact loads_agree (v := v.asking query body) (u := u.asking query' body') hs hm hfield
      (fun id => ⟨fun he => hf (he.trans hempty.symm), fun he => he ▸ hempty⟩) (h.congr rfl rfl) htext hnamed
  | @remove id =>
    have hremove : (s.remove id).run v =
        (.ok (), v.withSession (removeRecord session s.options.sessionKey id)) := by
      rw [remove_session hs, hsession]
    simp only [StoreCall.run, Step.run_map, hremove, remove_memory hm]
    exact ⟨.removed, h.remove hf hsession (by rw [hrecords]; rfl) id⟩

/-! ## Any number of calls -/

theorem answers_agree (hs : s.store = .session) (hm : m.store = .memory number none)
    (hfield : m.options.field = s.options.field) (hf : f.Injective) (hempty : f "" = "")
    {calls calls' : List StoreCall}
    (hcalls : List.Forall₂ (StoreCall.Corresponds s.clients f s.options.field) calls calls')
    (h : Alike s number f named v u)
    (hnamed : ∀ call ∈ calls, ∀ id, call.id? s.options.field = some id → named id)
    (hids : ∀ (i : Nat) t x y, calls[i]? = some (.store t) → (s.answers calls v)[i]? = some (.ok (.id x)) →
      (m.answers calls' u)[i]? = some (.ok (.id y)) → y = f x) :
    List.Forall₂ (StoreAnswer.Agrees f) (s.answers calls v) (m.answers calls' u) := by
  induction hcalls generalizing v u with
  | nil => exact .nil
  | @cons call call' calls calls' hcall _ ih =>
    obtain ⟨hnamed₀, hnamed⟩ := List.forall_mem_cons.1 hnamed
    obtain ⟨hagrees, hafter⟩ := call_agrees hs hm hfield hf hempty h hcall hnamed₀
      fun t x y hstore hx hy => hids 0 t x y (congrArg some hstore) (congrArg some hx) (congrArg some hy)
    exact .cons hagrees (ih hafter hnamed fun i => hids (i + 1))

/-- A session and a memory give the same answers to the same calls. The ids that they draw are
matched by `f`, and what the calls name is held alike at the start. -/
theorem stores_interchange (hs : s.store = .session) (hm : m.store = .memory number none)
    (hfield : m.options.field = s.options.field) (hf : f.Injective) (hempty : f "" = "")
    {session records : Params} (hsession : v.request.session = some session)
    (hrecords : pending? session s.options.sessionKey = some records)
    (hdistinct : (Entries.keys records).Nodup) {calls calls' : List StoreCall}
    (hcalls : List.Forall₂ (StoreCall.Corresponds s.clients f s.options.field) calls calls')
    (hstart : ∀ call ∈ calls, ∀ id, call.id? s.options.field = some id →
      SameHeld s.clients (records.value? id) ((u.world.memories number).value? (f id)))
    (hids : ∀ (i : Nat) t x y, calls[i]? = some (.store t) → (s.answers calls v)[i]? = some (.ok (.id x)) →
      (m.answers calls' u)[i]? = some (.ok (.id y)) → y = f x) :
    List.Forall₂ (StoreAnswer.Agrees f) (s.answers calls v) (m.answers calls' u) := by
  have hpending : v.request.session.bind (pending? · s.options.sessionKey) = some records := by
    rw [hsession]
    exact hrecords
  have halike : Alike s number f (fun id => SameHeld s.clients (records.value? id)
      ((u.world.memories number).value? (f id))) v u := by
    refine ⟨by rw [hpending]; rfl, fun session' records' hsession' hrecords' => ?_, fun id hid => ?_⟩
    · rw [hsession] at hsession'
      cases hsession'
      rw [hrecords] at hrecords'
      cases hrecords'
      exact hdistinct
    · rw [Request.recordAt?, hpending]
      exact hid
  exact answers_agree hs hm hfield hf hempty hcalls halike hstart hids

/-! ## A plain server -/

def codeOf (client : String) : Transaction :=
  { Transaction.ofRequest (.ofType ⟨["code"]⟩) with client := some (.str client) }

/-- The first id of a session, and the first id of a memory. -/
def sessionId : String := "0000000000000000"

def memoryId : String := "00000000000000000000000000000000"

def renamed : String → String := Equiv.swap sessionId memoryId

def idQuery (id : String) : Params := [("transaction_id", .str id)]

def roundTrip (id : String) : List StoreCall :=
  [.store (codeOf "c1"), .load (idQuery id) none, .remove id, .load (idQuery id) none]

/-- A request whose session holds an empty object. -/
def opened : Visit Unit :=
  { asking with request := { asking.request with session := some [("authorize", .obj [])] } }

theorem roundTrip_corresponds :
    List.Forall₂ (StoreCall.Corresponds (plain .session).clients renamed "transaction_id")
      (roundTrip sessionId) (roundTrip memoryId) := by
  have hlasting : (codeOf "c1").Lasting := by
    refine ⟨fun w hw => ?_, nofun, nofun, nofun⟩
    obtain rfl := List.mem_singleton.1 hw
    exact Text.isWord_of_mem_words (s := "code") (.head _)
  have hreturns : ∀ client, (codeOf "c1").client = some client →
      (plain .session).clients.Returns client := by
    rintro _ ⟨⟩ host
    exact ⟨.str "c1", (), rfl, fun _ => ⟨(), rfl⟩⟩
  have hid : renamed sessionId = memoryId := Equiv.swap_apply_left _ _
  have hload : StoreCall.Corresponds (plain .session).clients renamed "transaction_id"
      (.load (idQuery sessionId) none) (.load (idQuery memoryId) none) :=
    .load (congrArg some hid.symm)
  exact .cons (.store hlasting hreturns) (.cons hload (.cons (hid ▸ .remove) (.cons hload .nil)))

theorem roundTrip_interchange :
    List.Forall₂ (StoreAnswer.Agrees renamed) ((plain .session).answers (roundTrip sessionId) opened)
      ((plain (.memory 0 none)).answers (roundTrip memoryId) opened) := by
  have hsession : opened.request.session = some [("authorize", .obj [])] := rfl
  have hrecords : pending? [("authorize", .obj [])] "authorize" = some [] := rfl
  have hempty : renamed "" = "" := Equiv.swap_apply_of_ne_of_ne (by decide) (by decide)
  refine stores_interchange (s := plain .session) (m := plain (.memory 0 none)) rfl rfl rfl
    (Equiv.injective _) hempty hsession hrecords .nil roundTrip_corresponds
    (fun _ _ _ _ => .absent) fun i t x y hstore hx hy => ?_
  match i with
  | 0 =>
    cases hx
    cases hy
    exact (Equiv.swap_apply_left _ _).symm
  | 1 => cases hstore
  | 2 => cases hstore
  | 3 => cases hstore
  | _ + 4 => cases hstore

/-- Without any digits the id of a session is empty, and names nothing. -/
def digitless (store : Store Unit) : Server Unit :=
  { plain store with options := { TransactionOptions.standard with idLength := 0 } }

/-- A request whose session holds a transaction from before. -/
def leftover : Visit Unit :=
  { asking with
    request := { asking.request with
      session := some [("authorize", .obj [("a1", (codeOf "c1").toValue)])] } }

/-- An empty id cannot be asked for, and what only one of the stores has only that one can load. -/
theorem digitless_and_leftover_differ :
    ((digitless .session).answers [.store (codeOf "c1"), .load (idQuery "") none] opened =
        [.ok (.id ""), .error (.error (missingId "transaction_id"))] ∧
      ∃ t, (digitless (.memory 0 none)).answers [.store (codeOf "c1"), .load (idQuery memoryId) none]
        opened = [.ok (.id memoryId), .ok (.loaded t)]) ∧
    (∃ t, (plain .session).answers [.load (idQuery "a1") none] leftover = [.ok (.loaded t)]) ∧
      (plain (.memory 0 none)).answers [.load (idQuery "a1") none] leftover =
        [.error (.error (unknownId "a1"))] :=
  ⟨⟨rfl, _, rfl⟩, ⟨_, rfl⟩, rfl⟩

end Server

end AuthServer
