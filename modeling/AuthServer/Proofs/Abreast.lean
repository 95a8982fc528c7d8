import AuthServer.Endpoint.Decision
import AuthServer.Endpoint.Loading
import AuthServer.Proofs.Endpoint.Finish
import AuthServer.Proofs.Endpoint.Response
import AuthServer.Proofs.Parallel
import AuthServer.Proofs.Store.Interchange
import AuthServer.Proofs.Store.Shelf

/-!
# Requests abreast

The same request for a transaction runs twice, over stores of which only what is held under other
ids may differ. Step by step both runs do the same, as long as callbacks are functions of their
arguments and look at no other transaction. Neither run changes what is held under another id.
-/

namespace AuthServer

open Json Store Step

variable {σ : Type}

/-! ## Sessions -/

theorem put_removeRecord (session : Params) (key id : String) (v : Value) :
    (removeRecord session key id).put key v = session.put key v := by
  unfold removeRecord
  cases pending? session key with
  | none => rfl
  | some records => exact Entries.put_put session key _ v

theorem pending?_removeRecord (session : Params) (key id : String) :
    pending? (removeRecord session key id) key = (pending? session key).map (·.swapRemove id) := by
  unfold removeRecord
  cases hp : pending? session key with
  | none => exact hp
  | some records => exact pending?_put session key _

/-- Sessions that only the transactions pending under other ids tell apart. -/
structure AlikeFor (key id : String) (a b : Option Params) : Prop where
  rest : b.map (·.put key .null) = a.map (·.put key .null)
  pending : (b.bind (pending? · key)).isSome = (a.bind (pending? · key)).isSome
  record : (b.bind (pending? · key)).bind (·.value? id) = (a.bind (pending? · key)).bind (·.value? id)

theorem AlikeFor.isSome {key id : String} {a b : Option Params} (h : AlikeFor key id a b) :
    b.isSome = a.isSome := by
  have hrest := congrArg Option.isSome h.rest
  rwa [Option.isSome_map, Option.isSome_map] at hrest

/-- What a request for `id` sees of a session; in a memory the session is the request's own. -/
def Shelf.Alike (k : Shelf) (key id : String) (a b : Option Params) : Prop :=
  match k with
  | memory _ => b = a
  | session => AlikeFor key id a b

theorem Shelf.Alike.refl (k : Shelf) (key id : String) (a : Option Params) : k.Alike key id a a := by
  cases k with
  | memory => rfl
  | session => exact ⟨rfl, rfl, rfl⟩

theorem Shelf.Alike.trans {k : Shelf} {key id : String} {a b c : Option Params}
    (h : k.Alike key id a b) (h' : k.Alike key id b c) : k.Alike key id a c := by
  cases k with
  | memory => exact Eq.trans h' h
  | session =>
    exact ⟨h'.rest.trans h.rest, h'.pending.trans h.pending, h'.record.trans h.record⟩

/-- A removal under another id. -/
theorem alikeFor_removeRecord {key id id' : String} {session : Params}
    (hnodup : ∀ records, pending? session key = some records → (Entries.keys records).Nodup)
    (hne : id' ≠ id) : AlikeFor key id' (some session) (some (removeRecord session key id)) := by
  refine ⟨congrArg some (put_removeRecord session key id .null), ?_, ?_⟩ <;>
    simp only [Option.bind_some, pending?_removeRecord]
  · cases pending? session key <;> rfl
  · cases hp : pending? session key with
    | none => rfl
    | some records =>
      simp [Entries.value?_swapRemove (hnodup records hp), hne.symm]

/-- A removal under the same id in both. -/
theorem AlikeFor.removeRecord {key id : String} {a b : Params}
    (ha : ∀ records, pending? a key = some records → (Entries.keys records).Nodup)
    (hb : ∀ records, pending? b key = some records → (Entries.keys records).Nodup)
    (h : AlikeFor key id (some a) (some b)) :
    AlikeFor key id (some (removeRecord a key id)) (some (removeRecord b key id)) := by
  have hgone : ∀ session : Params,
      (∀ records, pending? session key = some records → (Entries.keys records).Nodup) →
      ((pending? session key).map (·.swapRemove id)).bind (·.value? id) = none := by
    intro session hnodup
    cases hp : pending? session key with
    | none => rfl
    | some records => simp [Entries.value?_swapRemove (hnodup records hp)]
  obtain ⟨hrest, hpending, -⟩ := h
  refine ⟨?_, ?_, ?_⟩ <;> simp only [Option.bind_some, Option.map_some, pending?_removeRecord,
    put_removeRecord] at hrest hpending ⊢
  · exact hrest
  · rw [Option.isSome_map, Option.isSome_map]
    exact hpending
  · rw [hgone a ha, hgone b hb]

namespace Server

variable {s : Server σ} {k : Shelf} {id : String} {w x v v' u u' : Visit σ}

/-! ## One run -/

/-- A request for `id` finds the same in both visits. -/
structure SameAt (s : Server σ) (k : Shelf) (id : String) (v u : Visit σ) : Prop where
  session : k.Alike s.options.sessionKey id v.request.session u.request.session
  held : k.held s.options u id = k.held s.options v id

theorem SameAt.trans (h : SameAt s k id v u) (h' : SameAt s k id u w) : SameAt s k id v w :=
  ⟨h.session.trans h'.session, h'.held.trans h.held⟩

/-- Sessions and memories are the same. -/
def Unmoved (v v' : Visit σ) : Prop :=
  v'.request.session = v.request.session ∧ v'.world.memories = v.world.memories

theorem Unmoved.held (h : Unmoved v v') (k : Shelf) (o : TransactionOptions) (id : String) :
    k.held o v' id = k.held o v id := by
  cases k with
  | memory number => simp only [Shelf.held, h.2]
  | session => simp only [Shelf.held, Request.recordAt?, h.1]

theorem Unmoved.sameAt (h : Unmoved v v') (id : String) : SameAt s k id v v' :=
  ⟨by rw [h.1]; exact .refl _ _ _ _, h.held k s.options id⟩

/-- From `w` to `v` nothing has changed but what is stored under `id`. -/
structure Frame (s : Server σ) (k : Shelf) (id : String) (w v : Visit σ) : Prop where
  distinct : k = .session → v.request.Distinct s.options.sessionKey
  others : ∀ id', id' ≠ id → SameAt s k id' w v

theorem Frame.congr (h : Frame s k id w v) (hv : Unmoved v v') : Frame s k id w v' := by
  refine ⟨fun hk session records hs => ?_, fun id' hne => (h.others id' hne).trans (hv.sameAt id')⟩
  rw [hv.1] at hs
  exact h.distinct hk session records hs

/-! ## Two runs -/

/-- Two runs of one request for `id`, that began in `w` and in `x`, side by side. Neither holds or will
remove any transaction but that under `id`. -/
structure Abreast (s : Server σ) (k : Shelf) (id : String) (w x v u : Visit σ) : Prop where
  request : u.request = { v.request with session := u.request.session }
  response : u.response = v.response
  named : idParam s.options v.request = .ok id
  carried : ∀ t, v.request.transaction = some t → t.id = some id
  hooks : ∀ hook ∈ v.response.hooks, hook = .removal s.store s.options id
  same : SameAt s k id v u
  left : Frame s k id w v
  right : Frame s k id x u

namespace Abreast

variable (h : Abreast s k id w x v u)
include h

/-- What does not move the store keeps the runs abreast, where it does the same to both requests and
to both responses. -/
theorem congr (hv : Unmoved v v') (hu : Unmoved u u')
    (hrequest : u'.request = { v'.request with session := u'.request.session })
    (hresponse : u'.response = v'.response) (hnamed : idParam s.options v'.request = .ok id)
    (hcarried : ∀ t, v'.request.transaction = some t → t.id = some id)
    (hhooks : ∀ hook ∈ v'.response.hooks, hook = .removal s.store s.options id) :
    Abreast s k id w x v' u' where
  request := hrequest
  response := hresponse
  named := hnamed
  carried := hcarried
  hooks := hhooks
  same := by
    refine ⟨?_, ((hu.held k s.options id).trans h.same.held).trans (hv.held k s.options id).symm⟩
    rw [hv.1, hu.1]
    exact h.same.session
  left := h.left.congr hv
  right := h.right.congr hu

theorem withHost (host host' : σ) : Abreast s k id w x (v.withHost host) (u.withHost host') :=
  h.congr ⟨rfl, rfl⟩ ⟨rfl, rfl⟩ h.request h.response h.named h.carried h.hooks

theorem tally (f g : Metrics → Metrics) : Abreast s k id w x (s.tally f v) (s.tally g u) := by
  refine h.congr ⟨by rw [tally_request], tally_memories s f v⟩
    ⟨by rw [tally_request], tally_memories s g u⟩ ?_ ?_ ?_ ?_ ?_
  · rw [tally_request, tally_request]
    exact h.request
  · rw [tally_response, tally_response]
    exact h.response
  · rw [tally_request]
    exact h.named
  · rw [tally_request]
    exact h.carried
  · rw [tally_response]
    exact h.hooks

theorem holding {t : Transaction} (ht : t.id = some id) :
    Abreast s k id w x (v.holding t) (u.holding t) := by
  refine h.congr ⟨rfl, rfl⟩ ⟨rfl, rfl⟩ ?_ h.response h.named ?_ h.hooks
  · have hrequest := h.request
    simp only [Visit.holding]
    rw [hrequest]
  · rintro _ ⟨⟩
    exact ht

theorem withReply {p q : Reply σ} (hresponse : q.response = p.response)
    (hhooks : p.response.hooks = v.response.hooks) :
    Abreast s k id w x (v.withReply p) (u.withReply q) := by
  refine h.congr ⟨rfl, rfl⟩ ⟨rfl, rfl⟩ h.request hresponse h.named h.carried ?_
  show ∀ hook ∈ p.response.hooks, _
  rw [hhooks]
  exact h.hooks

theorem closed : Abreast s k id w x v.closed u.closed := by
  refine h.congr ⟨rfl, rfl⟩ ⟨rfl, rfl⟩ h.request ?_ h.named h.carried nofun
  unfold Visit.closed
  rw [h.response]

theorem transaction : u.request.transaction = v.request.transaction := by rw [h.request]

theorem arm : Abreast s k id w x (s.arm v) (s.arm u) := by
  have hsame : u.request.transaction = v.request.transaction := h.transaction
  cases ht : v.request.transaction with
  | none =>
    have hv : s.arm v = v := by simp only [Server.arm, ht]
    have hu : s.arm u = u := by simp only [Server.arm, hsame, ht]
    rw [hv, hu]
    exact h
  | some t =>
    have hid := h.carried t ht
    by_cases harmed : t.removalArmed = true
    · have hv : s.arm v = v := by simp only [Server.arm, ht, hid, harmed, if_true]
      have hu : s.arm u = u := by simp only [Server.arm, hsame, ht, hid, harmed, if_true]
      rw [hv, hu]
      exact h
    · have hheld := h.holding (t := t.armRemoval) hid
      simp only [Server.arm, hsame, ht, hid, harmed, h.response]
      by_cases hhook : v.response.hasHook FinishHook.removalKey = true
      · simp only [hhook, if_true]
        exact hheld
      · simp only [hhook]
        refine hheld.congr ⟨rfl, rfl⟩ ⟨rfl, rfl⟩ hheld.request rfl hheld.named hheld.carried ?_
        intro hook hmem
        rcases List.mem_append.1 hmem with hmem | hmem
        · exact h.hooks hook hmem
        · exact List.mem_singleton.1 hmem

end Abreast

/-! ## Steps of a request -/

/-- Two steps go together from visits of two runs that are abreast. -/
abbrev GoAbreast (s : Server σ) (k : Shelf) (id : String) (w x : Visit σ) {α : Type} (Q : α → Prop)
    (y z : Step (Visit σ) α) : Prop :=
  Together (Abreast s k id w x) Q y z

theorem setTransaction_abreast {t : Transaction} (ht : t.id = some id) :
    GoAbreast s k id w x Any (setTransaction t) (setTransaction t) :=
  together_modify fun _ _ h => h.holding ht

theorem theTransaction_abreast :
    GoAbreast s k id w x (fun t => t.id = some id) theTransaction theTransaction := by
  refine together_gets_bind fun v u h => ?_
  rw [h.transaction]
  cases ht : v.request.transaction with
  | none => exact together_fail _ v u h
  | some t => exact together_pure (Q := fun t : Transaction => t.id = some id) (h.carried t ht) v u h

theorem count_abreast (f : Metrics → Metrics) :
    GoAbreast s k id w x Any (s.count f) (s.count f) :=
  together_modify fun _ _ h => h.tally f f

theorem counted_abreast {α : Type} {Q : α → Prop} {y z : Step (Visit σ) α}
    (h : GoAbreast s k id w x Q y z) : GoAbreast s k id w x Q (s.counted y) (s.counted z) :=
  h.onError fun e => count_abreast (·.countError e.kind)

theorem asHost_abreast {α : Type} {Q : α → Prop} {y z : Step σ α}
    (h : Together (fun _ _ => True) Q y z) : GoAbreast s k id w x Q (asHost y) (asHost z) := by
  intro v u habreast
  obtain ⟨hresult, -, hvalue⟩ := h v.world.host u.world.host trivial
  exact ⟨hresult, habreast.withHost _ _, hvalue⟩

theorem asReply_abreast {α : Type} {y : Step (Reply σ) α}
    (h : ∀ hooks, Together (SameReply hooks) Any y y) :
    GoAbreast s k id w x Any (asReply y) (asReply y) := by
  intro v u habreast
  obtain ⟨hresult, ⟨hresponse, hhooks⟩, -⟩ :=
    h v.response.hooks v.reply u.reply ⟨habreast.response, rfl⟩
  exact ⟨hresult, habreast.withReply hresponse hhooks, fun _ _ => trivial⟩

theorem armRemoval_abreast : GoAbreast s k id w x Any s.armRemoval s.armRemoval :=
  together_modify fun _ _ h => h.arm

/-! ### The store -/

theorem nodup_of_distinct {r : Request} {key : String} {session : Params} (h : r.Distinct key)
    (hr : r.session = some session) :
    ∀ records, pending? session key = some records → (Entries.keys records).Nodup :=
  fun records hp => h session records hr hp

theorem Frame.withMemory {number : Nat} (h : Frame s (.memory number) id w v) :
    Frame s (.memory number) id w (v.withMemory number ((v.world.memories number).remove id)) := by
  refine ⟨nofun, fun id' hne => (h.others id' hne).trans ⟨rfl, ?_⟩⟩
  simp only [Shelf.held, Visit.withMemory, World.memories_setMemory, Entries.value?_remove,
    if_neg hne.symm]

theorem Frame.withSession (h : Frame s .session id w v) {session : Params}
    (hsession : v.request.session = some session) :
    Frame s .session id w (v.withSession (removeRecord session s.options.sessionKey id)) := by
  have hdistinct := h.distinct rfl
  refine ⟨fun _ => hdistinct.removeRecord hsession id, fun id' hne => ?_⟩
  have halike := alikeFor_removeRecord (nodup_of_distinct hdistinct hsession) hne
  refine (h.others id' hne).trans ⟨?_, ?_⟩
  · rw [hsession]
    exact halike
  · have hrecord := halike.record
    rw [← hsession] at hrecord
    exact congrArg (Option.map Stored.record) hrecord

theorem remove_memory_abreast {number : Nat} (hs : s.store = .memory number none) :
    GoAbreast s (.memory number) id w x Any (s.remove id) (s.remove id) := by
  intro v u h
  refine ⟨?_, ?_, fun _ _ => trivial⟩ <;> rw [remove_memory hs, remove_memory hs]
  exact
    { h with
      same := by
        refine ⟨h.same.session, ?_⟩
        simp only [Shelf.held, Visit.withMemory, World.memories_setMemory, Entries.value?_remove,
          if_true]
      left := h.left.withMemory
      right := h.right.withMemory }

theorem remove_session_abreast (hs : s.store = .session) :
    GoAbreast s .session id w x Any (s.remove id) (s.remove id) := by
  intro v u h
  have hsame : AlikeFor s.options.sessionKey id v.request.session u.request.session := h.same.session
  have hsome := hsame.isSome
  rcases hv : v.request.session with _ | a <;> rcases hu : u.request.session with _ | b <;>
    rw [hv, hu] at hsome hsame <;> cases hsome
  · refine ⟨?_, ?_, fun _ _ => trivial⟩ <;> rw [remove_session hs, remove_session hs, hv, hu]
    exact h
  · have hremoved := hsame.removeRecord (nodup_of_distinct (h.left.distinct rfl) hv)
      (nodup_of_distinct (h.right.distinct rfl) hu)
    have hrequest := h.request
    refine ⟨?_, ?_, fun _ _ => trivial⟩ <;> rw [remove_session hs, remove_session hs, hv, hu]
    exact
      { h with
        request := by
          simp only [Visit.withSession]
          rw [hrequest]
        same := ⟨hremoved, congrArg (Option.map Stored.record) hremoved.record⟩
        left := h.left.withSession hv
        right := h.right.withSession hu }

/-- A removal of what is stored under `id`. -/
theorem remove_abreast (hs : s.store = k.store) :
    GoAbreast s k id w x Any (s.remove id) (s.remove id) := by
  cases k with
  | memory number => exact remove_memory_abreast hs
  | session => exact remove_session_abreast hs

theorem idParam_abreast (h : Abreast s k id w x v u) : idParam s.options u.request = .ok id := by
  rw [h.request]
  exact h.named

/-- The client of a stored form. -/
def readBackClient (c : ClientForms σ) : Option Value → Step σ (Option Value)
  | some stored => c.read stored
  | none => pure none

/-- What a session store makes of the record that it finds. -/
def readBack (c : ClientForms σ) (id : String) : Option Value → Step σ Transaction
  | none => .fail (unknownId id)
  | some record =>
    Step.ofExcept (ofRecord record) >>= fun t =>
      readBackClient c t.client >>= fun client => pure ({ t with client }.persisted id)

theorem readBackClient_together (hfun : s.Functional) (stored : Option Value) :
    Together (fun _ _ => True) Any (readBackClient s.clients stored) (readBackClient s.clients stored) := by
  cases stored with
  | none => exact together_pure trivial
  | some stored => exact (ClientForms.read_steady hfun.readers stored).together

theorem readBack_together (hfun : s.Functional) (id : String) (record : Option Value) :
    Together (fun _ _ => True) (fun t => t.id = some id) (readBack s.clients id record)
      (readBack s.clients id record) := by
  cases record with
  | none => exact together_fail _
  | some record =>
    refine (together_ofExcept (ofRecord record)).bind fun t _ => ?_
    refine (readBackClient_together hfun t.client).bind fun client _ => ?_
    exact together_pure (Q := fun t : Transaction => t.id = some id) rfl

theorem load_session_readBack (hs : s.store = .session) {records : Params}
    (hid : idParam s.options v.request = .ok id)
    (h : v.request.session.bind (pending? · s.options.sessionKey) = some records) :
    s.load.run v = (asHost (readBack s.clients id (records.value? id))).run v := by
  obtain ⟨session, hsession, hrecords⟩ := Option.bind_eq_some_iff.1 h
  rw [load_session hs hsession hrecords, hid, run_asHost]
  simp only
  cases records.value? id with
  | none => rfl
  | some record =>
    simp only [readBack, run_bind]
    cases ofRecord record with
    | error e => rfl
    | ok t =>
      simp only [Step.ofExcept, run_pure]
      cases t.client with
      | none => rfl
      | some stored =>
        simp only [readBackClient]
        rcases (s.clients.read stored).run v.world.host with ⟨e | client, host⟩ <;> rfl

theorem load_memory_abreast {number : Nat} (hs : s.store = .memory number none) :
    GoAbreast s (.memory number) id w x (fun t => t.id = some id) s.load s.load := by
  intro v u h
  have hheld : (u.world.memories number).value? id = (v.world.memories number).value? id :=
    Option.map_injective (fun _ _ => Stored.kept.inj) h.same.held
  have hv := load_memory hs h.named
  have hu := load_memory hs (idParam_abreast h)
  rw [kept_none] at hv hu
  refine ⟨?_, ?_, fun t ht => ?_⟩
  · rw [hv, hu, hheld]
  · rw [hv, hu]
    exact h
  · rw [hv] at ht
    cases hfound : (v.world.memories number).value? id <;> rw [hfound] at ht <;> cases ht
    rfl

theorem load_session_abreast (hs : s.store = .session) (hfun : s.Functional) :
    GoAbreast s .session id w x (fun t => t.id = some id) s.load s.load := by
  intro v u h
  have hsame : AlikeFor s.options.sessionKey id v.request.session u.request.session := h.same.session
  have hsome := hsame.pending
  have hrecord := hsame.record
  rcases hv : v.request.session.bind (pending? · s.options.sessionKey) with _ | records <;>
    rcases hu : u.request.session.bind (pending? · s.options.sessionKey) with _ | records' <;>
      rw [hv, hu] at hsome hrecord <;> cases hsome
  · refine ⟨?_, ?_, fun t ht => ?_⟩
    · rw [load_session_absent hs hv, load_session_absent hs hu, hsame.isSome]
    · rw [load_session_absent hs hv, load_session_absent hs hu]
      exact h
    · rw [load_session_absent hs hv] at ht
      cases ht
  · have hmeets := asHost_abreast (readBack_together hfun id (records.value? id)) v u h
    have hloadv := load_session_readBack hs h.named hv
    have hloadu := load_session_readBack hs (idParam_abreast h) hu
    rw [show records'.value? id = records.value? id from hrecord] at hloadu
    refine ⟨?_, ?_, ?_⟩
    · rw [hloadv, hloadu]
      exact hmeets.result
    · rw [hloadv, hloadu]
      exact hmeets.state
    · rw [hloadv]
      exact hmeets.value

/-- Both runs load the same transaction, or fail with the same error. -/
theorem load_abreast (hs : s.store = k.store) (hfun : s.Functional) :
    GoAbreast s k id w x (fun t => t.id = some id) s.load s.load := by
  cases k with
  | memory number => exact load_memory_abreast hs
  | session => exact load_session_abreast hs hfun

theorem removeQuietly_abreast (hs : s.store = k.store) :
    GoAbreast s k id w x Any (s.removeQuietly id) (s.removeQuietly id) := by
  refine (remove_abreast hs).attempt.bind fun r _ => ?_
  rcases r with (e | _) | _
  · exact together_pure trivial
  · exact together_crash
  · exact together_pure trivial

/-! ### The endpoints -/

theorem loadTransaction_abreast (hs : s.store = k.store) (hfun : s.Functional) :
    GoAbreast s k id w x Any s.loadTransaction s.loadTransaction := by
  refine together_gets_bind fun v u h => ?_
  rw [h.transaction]
  cases v.request.transaction with
  | some t => exact together_pure trivial v u h
  | none =>
    refine counted_abreast ?_ v u h
    refine (load_abreast hs hfun).bind fun t ht => ?_
    cases t.client with
    | some client => exact setTransaction_abreast ht
    | none =>
      simp only [ht]
      exact (removeQuietly_abreast hs).bind fun _ _ => together_fail _

/-- Callbacks that are functions of their arguments, and look at no transaction but that under `id`.
Where the session is the store the request shows the others, and with them which of two decisions came
first. -/
structure DecisionCallbacks.Focused (k : Shelf) (key id : String) (c : DecisionCallbacks σ) :
    Prop where
  parse : ∀ parse, c.parse = some parse → ∀ (r : Request) (session : Option Params),
    k.Alike key id r.session session → ∀ host host',
      ((parse { r with session }).run host').1 = ((parse r).run host).1
  completion : c.completion.Functional

theorem decisionInput_abreast {c : DecisionCallbacks σ} (hc : c.Focused k s.options.sessionKey id)
    {r : Request} {session : Option Params}
    (hr : k.Alike s.options.sessionKey id r.session session) :
    GoAbreast s k id w x Any (decisionInput c r) (decisionInput c { r with session }) := by
  unfold decisionInput
  cases hparse : c.parse with
  | none => exact together_pure trivial
  | some parse =>
    have hsame : Together (fun _ _ => True) Any (parse r) (parse { r with session }) :=
      fun host host' _ => ⟨hc.parse parse hparse r session hr host host', trivial, fun _ _ => trivial⟩
    exact asHost_abreast hsame.guarded

theorem recordDecision_abreast {o : DecisionOptions} {c : DecisionCallbacks σ}
    (hc : c.Focused k s.options.sessionKey id) :
    GoAbreast s k id w x Any (s.recordDecision o c) (s.recordDecision o c) := by
  refine together_gets_bind fun v u h => ?_
  rw [h.request]
  cases v.request.body with
  | none => exact together_fail _ v u h
  | some body =>
    refine Together.bind theTransaction_abreast (fun t ht => ?_) v u h
    refine (decisionInput_abreast hc h.same.session).bind fun input _ => ?_
    refine together_gets_bind fun v u h => ?_
    -- The principal and the locals come from the request and the response, not from the session.
    have hrenewed : s.renewed t u = s.renewed t v := by
      unfold renewed
      rw [h.request, h.response]
      rfl
    rw [hrenewed]
    have hid : ((s.renewed t v).mergeLocals input.locals).id = some id := ht
    refine Together.bind (setTransaction_abreast hid) (fun _ _ => ?_) v u h
    cases hdecide : ((s.renewed t v).mergeLocals input.locals).decide
        (.withFields (allows o body input) input.fields) with
    | error e => exact together_fail e
    | ok t' =>
      have hdecided : t'.id = some id := by rw [Transaction.decide_eq hdecide]; exact hid
      exact (setTransaction_abreast hdecided).bind fun _ _ => count_abreast _

theorem respond_abreast (hfun : s.Functional) {complete : Completion σ}
    (hcomplete : complete.Functional) :
    GoAbreast s k id w x Any (s.respond complete) (s.respond complete) := by
  refine theTransaction_abreast.bind fun t ht => ?_
  refine (asReply_abreast fun hooks => hfun.respond hcomplete t).bind fun flow _ => ?_
  cases flow with
  | done => exact setTransaction_abreast ht
  | next => exact together_fail _

theorem decide_abreast (hfun : s.Functional) {o : DecisionOptions} {c : DecisionCallbacks σ}
    (hc : c.Focused k s.options.sessionKey id) :
    GoAbreast s k id w x Any (s.decide o c) (s.decide o c) := by
  refine counted_abreast ((recordDecision_abreast hc).bind fun _ _ => ?_)
  exact armRemoval_abreast.bind fun _ _ => respond_abreast hfun hc.completion

theorem runHooks_abreast (hs : s.store = k.store) {hooks : List (FinishHook σ)}
    (hhooks : ∀ hook ∈ hooks, hook = .removal s.store s.options id) :
    GoAbreast s k id w x Any (Visit.runHooks hooks) (Visit.runHooks hooks) := by
  induction hooks with
  | nil => exact together_pure trivial
  | cons hook rest ih =>
    obtain ⟨rfl, hrest⟩ := List.forall_mem_cons.1 hhooks
    have hhook : GoAbreast s k id w x Any (Visit.runHook (.removal s.store s.options id))
        (Visit.runHook (.removal s.store s.options id)) := removeQuietly_abreast hs
    refine hhook.attempt.bind fun r _ => ?_
    rcases r with (e | _) | _
    · exact (ih hrest).bind fun _ _ => together_pure trivial
    · exact together_crash
    · exact ih hrest

theorem finish_abreast (hs : s.store = k.store) :
    GoAbreast s k id w x Any Visit.finish Visit.finish := by
  refine together_gets_bind fun v u h => ?_
  rw [h.response]
  split
  · exact together_pure trivial v u h
  · refine Together.bind (together_modify fun _ _ h => h.closed) (fun _ _ => ?_) v u h
    refine (runHooks_abreast hs h.hooks).bind fun r _ => ?_
    cases r with
    | none => exact together_pure trivial
    | some e => exact together_fail e

end Server

end AuthServer
