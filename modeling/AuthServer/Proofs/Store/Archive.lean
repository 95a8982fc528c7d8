import AuthServer.Proofs.Store.Shelf

/-!
# Archives

What a store has to do with the redirect URIs of the transactions it is given:
under an id it gives back the URI that was put there last, and no other. The
memories do so for any lifetime, and so does the session.
-/

namespace AuthServer

open Json Store

variable {σ : Type}

/-- The redirect URIs that may be found under an id, in the memories that all requests share or in
the session that each request carries. -/
inductive Archive where
  | shared (reach : (Nat → Memory) → String → Option String → Prop)
  | carried (reach : Option Params → String → Option String → Prop)

namespace Archive

def At (k : Archive) (v : Visit σ) : String → Option String → Prop :=
  match k with
  | shared reach => reach v.world.memories
  | carried reach => reach v.request.session

def memory (number : Nat) : Archive :=
  .shared fun memories id u => ∃ t, (memories number).value? id = some t ∧ t.redirectUri = u

def session (key : String) : Archive :=
  .carried fun session id u =>
    ∃ record, (session.bind (pending? · key)).bind (·.value? id) = some record ∧
      (Stored.record record).redirectUri = u

end Archive

namespace Server

variable {s : Server σ} {k : Archive} {o : String → Option String} {v v₁ v' : Visit σ}
  {t : Transaction}

/-- Whatever is found under an id has the URI that `o` gives for it. -/
structure Traced (s : Server σ) (k : Archive) (o : String → Option String) (v : Visit σ) : Prop where
  distinct : v.request.Distinct s.options.sessionKey
  origin : ∀ id u, k.At v id u → u = o id

theorem Traced.congr (h : Traced s k o v) (hsession : v'.request.session = v.request.session)
    (hmemories : v'.world.memories = v.world.memories) : Traced s k o v' := by
  refine ⟨fun session records hs => ?_, fun id u hat => h.origin id u ?_⟩
  · rw [hsession] at hs
    exact h.distinct session records hs
  · cases k with
    | shared reach => simpa only [Archive.At, hmemories] using hat
    | carried reach => simpa only [Archive.At, hsession] using hat

/-- The store keeps its hands off the transaction of the request and off the response. -/
structure Aside (v v' : Visit σ) : Prop where
  transaction : v'.request.transaction = v.request.transaction
  response : v'.response = v.response

/-- How writing `t` ends: it is found under the id from now on, or nothing else is found. -/
inductive Writing (s : Server σ) (k : Archive) (o : String → Option String) (t : Transaction)
    (v : Visit σ) : Except Fault String → Visit σ → Prop where
  | put {id : String} {v' : Visit σ} :
    Aside v v' → Traced s k (Function.update o id t.redirectUri) v' → Writing s k o t v (.ok id) v'
  | failed {e : OAuthError} {v' : Visit σ} :
    Aside v v' → Traced s k o v' → Writing s k o t v (.error (.error e)) v'

/-- The operations of the server's store give back what they were given. -/
structure Archived (s : Server σ) (k : Archive) : Prop where
  load : ∀ {o v r v'}, Traced s k o v → s.load.run v = (r, v') →
    Aside v v' ∧ Traced s k o v' ∧
      ∀ t, r = .ok t → ∃ id, idParam s.options v.request = .ok id ∧ t.redirectUri = o id
  storeNew : ∀ {o t v r v'}, Traced s k o v → (s.storeNew t).run v = (r, v') → Writing s k o t v r v'
  storeAgain : ∀ {o id t v r v'}, Traced s k o v → (s.storeAgain id t).run v = (r, v') →
    Writing s k o t v r v'
  remove : ∀ {o id v r v'}, Traced s k o v → (s.remove id).run v = (r, v') →
    Aside v v' ∧ Traced s k o v'

/-! ## Memory -/

section Memory

variable {number : Nat} {lifetime : Lifetime σ} (hs : s.store = .memory number lifetime)
include hs

omit hs in
/-- A write may drop what is stale. -/
theorem Traced.withMemory (h : Traced s (.memory number) o v) (n : Nat) (id : String) (host : σ) :
    Traced s (.memory number) (Function.update o id t.redirectUri)
      ((v.drawn n).withMemory number ((kept lifetime host (v.world.memories number)).put id t)) := by
  refine ⟨h.distinct, ?_⟩
  rintro id' u ⟨t', ht', hu⟩
  simp only [Visit.withMemory, World.memories_setMemory, Entries.value?_put] at ht'
  by_cases hid : id = id'
  · rw [if_pos hid] at ht'
    cases ht'
    rw [← hid, Function.update_self, ← hu]
  · rw [if_neg hid] at ht'
    rw [Function.update_of_ne (Ne.symm hid)]
    exact h.origin id' u ⟨t', value?_of_kept ht', hu⟩

theorem archived_memory : s.Archived (.memory number) where
  load {o v r v'} h hload := by
    rcases hid : idParam s.options v.request with e | id
    · rw [load_memory_unnamed hs hid] at hload
      cases hload
      exact ⟨⟨rfl, rfl⟩, h, fun _ => nofun⟩
    · rw [load_memory hs hid] at hload
      rcases ht : (kept lifetime v.world.host (v.world.memories number)).value? id with _ | t <;>
        rw [ht] at hload <;> cases hload
      · exact ⟨⟨rfl, rfl⟩, h, fun _ => nofun⟩
      · refine ⟨⟨rfl, rfl⟩, h, ?_⟩
        rintro _ ⟨⟩
        exact ⟨id, rfl, h.origin id _ ⟨t, value?_of_kept ht, rfl⟩⟩
  storeNew {o t v r v'} h hstore := by
    rw [storeNew_memory hs] at hstore
    cases hstore
    exact .put ⟨rfl, rfl⟩ (h.withMemory _ _ _)
  storeAgain {o id t v r v'} h hstore := by
    rw [storeAgain_memory hs] at hstore
    cases hstore
    exact .put ⟨rfl, rfl⟩ (h.withMemory 0 id _)
  remove {o id v r v'} h hremove := by
    rw [remove_memory hs] at hremove
    cases hremove
    refine ⟨⟨rfl, rfl⟩, h.distinct, ?_⟩
    rintro id' u ⟨t, ht, hu⟩
    simp only [Visit.withMemory, World.memories_setMemory, Entries.value?_remove] at ht
    by_cases hid : id = id'
    · rw [if_pos hid] at ht
      cases ht
    · rw [if_neg hid] at ht
      exact h.origin id' u ⟨t, ht, hu⟩

end Memory

/-! ## Session -/

theorem at_session {key id : String} {u : Option String} :
    (Archive.session key).At v id u ↔
      ∃ record, v.request.recordAt? key id = some record ∧ (Stored.record record).redirectUri = u :=
  Iff.rfl

section Session

variable (hs : s.store = .session)
include hs

omit hs in
theorem Traced.withRecord (h : Traced s (.session s.options.sessionKey) o v) {session : Params}
    (hsession : v.request.session = some session) {record : Value} {host : σ}
    (hr : Recorded s.clients t v.world.host record host) (n : Nat) (id : String) :
    Traced s (.session s.options.sessionKey) (Function.update o id t.redirectUri)
      (((v.withHost host).drawn n).withSession (putRecord session s.options.sessionKey id record)) := by
  refine ⟨h.distinct.putRecord hsession id record, fun id' u hat => ?_⟩
  obtain ⟨record', hrecord', hu⟩ := at_session.1 hat
  have hput := hrecord'.symm.trans
    (recordAt?_putRecord v.request hsession s.options.sessionKey id record id')
  by_cases hid : id = id'
  · rw [if_pos hid] at hput
    cases hput
    rw [← hid, Function.update_self, ← hu, hr.redirectUri]
  · rw [if_neg hid] at hput
    rw [Function.update_of_ne (Ne.symm hid)]
    exact h.origin id' u (at_session.2 ⟨record', hput.symm, hu⟩)

theorem archived_session : s.Archived (.session s.options.sessionKey) where
  load {o v r v'} h hload := by
    obtain ⟨host, rfl, ⟨e, rfl⟩ | ⟨id, record, t, client, hid, hrecord, hread, -, rfl⟩⟩ :=
      load_session_cases hs hload
    · exact ⟨⟨rfl, rfl⟩, h.congr rfl rfl, fun _ => nofun⟩
    · refine ⟨⟨rfl, rfl⟩, h.congr rfl rfl, ?_⟩
      rintro _ ⟨⟩
      refine ⟨id, hid, h.origin id _ (at_session.2 ⟨record, hrecord, ?_⟩)⟩
      simp [Stored.redirectUri, Stored.opened, hread, Except.toOption, Transaction.persisted]
  storeNew {o t v r v'} h hstore := by
    obtain ⟨host, ⟨rfl, e, rfl⟩ | ⟨session, record, hsession, hrec, rfl, rfl⟩⟩ :=
      storeNew_session_cases hs hstore
    · exact .failed ⟨rfl, rfl⟩ (h.congr rfl rfl)
    · exact .put ⟨rfl, rfl⟩ (h.withRecord hsession hrec _ _)
  storeAgain {o id t v r v'} h hstore := by
    obtain ⟨host, ⟨rfl, e, rfl⟩ | ⟨session, record, hsession, hrec, rfl, rfl⟩⟩ :=
      storeAgain_session_cases hs hstore
    · exact .failed ⟨rfl, rfl⟩ (h.congr rfl rfl)
    · exact .put ⟨rfl, rfl⟩ (h.withRecord hsession hrec 0 id)
  remove {o id v r v'} h hremove := by
    rw [remove_session hs] at hremove
    rcases hsession : v.request.session with _ | session <;> rw [hsession] at hremove <;> cases hremove
    · exact ⟨⟨rfl, rfl⟩, h⟩
    · refine ⟨⟨rfl, rfl⟩, h.distinct.removeRecord hsession id, fun id' u hat => ?_⟩
      obtain ⟨record', hrecord', hu⟩ := at_session.1 hat
      have hremoved := hrecord'.symm.trans (recordAt?_removeRecord h.distinct hsession id id')
      by_cases hid : id = id'
      · rw [if_pos hid] at hremoved
        cases hremoved
      · rw [if_neg hid] at hremoved
        exact h.origin id' u (at_session.2 ⟨record', hremoved.symm, hu⟩)

end Session

end Server

end AuthServer
