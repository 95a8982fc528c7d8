import AuthServer.Proofs.Store.Shelf

/-!
# Clients in session records

A session keeps a client in the form that the first decisive writer gave it,
and never an absent one. Where no writer gives a form the session is left alone.
-/

namespace AuthServer

open Json Store

variable {σ : Type}

/-- A step that puts a record of `client` into the session under the id that it gives. -/
structure KeepsClient (c : ClientForms σ) (o : TransactionOptions) (client : Value)
    (x : Step (Access σ) String) : Prop where
  /-- The record holds the form that was written, neither null nor false; no other record changes. -/
  written : ∀ a id a', x.run a = (.ok id, a') → ∃ record stored,
    a'.request.recordAt? o.sessionKey id = some record ∧
      record.member? "client" = some stored ∧ ClientForms.isPresent stored = true ∧
      c.Writes client a.world.host (.ok stored) a'.world.host ∧
      ∀ key other, (key, other) ≠ (o.sessionKey, id) →
        a'.request.recordAt? key other = a.request.recordAt? key other
  failed : ∀ a f a', x.run a = (.error f, a') → a'.request = a.request
  /-- The error is that of the writers, unless there is no session to write to. -/
  unwritten : ∀ a f host, c.Writes client a.world.host (.error f) host →
    ∃ f' a', x.run a = (.error f', a') ∧ (a.request.session.isSome → f' = f)

section Records

variable {c : ClientForms σ} {o : TransactionOptions} {t : Transaction} {client : Value}

theorem recordAt?_putRecord_ne (r : Request) {session : Params} (hr : r.session = some session)
    {key id : String} (record : Value) {key' id' : String} (hne : (key', id') ≠ (key, id)) :
    Request.recordAt? { r with session := some (putRecord session key id record) } key' id' =
      r.recordAt? key' id' := by
  by_cases hkey : key' = key
  · subst hkey
    rw [recordAt?_putRecord r hr, if_neg]
    rintro rfl
    exact hne rfl
  · simp only [Request.recordAt?, Option.bind_some, hr, pending?, putRecord,
      Entries.value?_put_ne _ _ (Ne.symm hkey)]

theorem member?_client (t : Transaction) :
    t.toValue.member? "client" = some (t.client.getD .null) := by
  rcases hid : t.id with _ | id <;>
    simp [Transaction.toValue, Transaction.members, Value.member?, Value.asObject?, Entries.value?,
      Transaction.optional, hid]

/-- An id is given, and neither request nor host changes. -/
def GivesId (name : Step (Access σ) String) : Prop :=
  ∀ a, ∃ id a', name.run a = (.ok id, a') ∧ a'.request = a.request ∧ a'.world.host = a.world.host

/-- The writers come first; then the record is put into the session, if there is one. -/
theorem shelve_cases (ht : t.client = some client) {name : Step (Access σ) String}
    (hname : GivesId name) {a a' : Access σ} {r : Except Fault String}
    (h : (recordOf c t >>= fun record => name >>= shelve o record).run a = (r, a')) :
    (∃ f, (c.write client).run a.world.host = (.error f, a'.world.host) ∧ r = .error f ∧
        a'.request = a.request) ∨
      ∃ stored, (c.write client).run a.world.host = (.ok stored, a'.world.host) ∧
        ((a.request.session = none ∧ r = .error (.error sessionRequired) ∧ a'.request = a.request) ∨
          ∃ session id, a.request.session = some session ∧ r = .ok id ∧
            a'.request = { a.request with
              session := some (putRecord session o.sessionKey id
                { t with id := none, client := some stored }.toValue) }) := by
  rw [Step.run_bind, Server.run_recordOf_client ht] at h
  rcases hwrite : (c.write client).run a.world.host with ⟨f | stored, host⟩ <;> rw [hwrite] at h
  · cases h
    exact .inl ⟨f, rfl, rfl, rfl⟩
  · obtain ⟨id, a₁, hid, hrequest, hhost⟩ := hname (a.withHost host)
    simp only [Except.map, Step.run_bind, hid] at h
    rcases hsession : a.request.session with _ | session
    · rw [Server.run_shelve_of_none (by rw [hrequest]; exact hsession)] at h
      cases h
      exact .inr ⟨stored, by rw [hhost]; rfl, .inl ⟨rfl, rfl, hrequest⟩⟩
    · rw [Server.run_shelve (by rw [hrequest]; exact hsession)] at h
      cases h
      exact .inr ⟨stored, by rw [hhost]; rfl, .inr ⟨session, id, rfl, rfl, by rw [hrequest]; rfl⟩⟩

theorem keepsClient_shelve (ht : t.client = some client) {name : Step (Access σ) String}
    (hname : GivesId name) :
    KeepsClient c o client (recordOf c t >>= fun record => name >>= shelve o record) where
  written a id a' h := by
    rcases shelve_cases ht hname h with ⟨_, -, hr, -⟩ | ⟨stored, hwrite, ⟨-, hr, -⟩ |
      ⟨session, id, hsession, hr, hrequest⟩⟩ <;> cases hr
    have hwrites := c.write_writes client a.world.host
    rw [hwrite] at hwrites
    refine ⟨_, stored, ?_, member?_client { t with id := none, client := some stored },
      ClientForms.write_present hwrite, hwrites, ?_⟩
    · rw [hrequest, recordAt?_putRecord a.request hsession, if_pos rfl]
    · intro key other hne
      rw [hrequest]
      exact recordAt?_putRecord_ne a.request hsession _ hne
  failed a f a' h := by
    rcases shelve_cases ht hname h with ⟨_, -, -, hrequest⟩ | ⟨_, -, ⟨-, -, hrequest⟩ |
      ⟨_, _, -, hr, -⟩⟩
    · exact hrequest
    · exact hrequest
    · cases hr
  unwritten a f host h := by
    obtain ⟨hresult, -⟩ := h.unique (c.write_writes client a.world.host)
    rcases shelve_cases ht hname rfl with ⟨f', hwrite, hr, -⟩ | ⟨_, hwrite, -⟩ <;>
      rw [hwrite] at hresult <;> cases hresult
    exact ⟨f, _, Prod.ext hr rfl, fun _ => rfl⟩

/-- A session is asked for first, and nothing happens where there is none. -/
theorem KeepsClient.afterSession {x : Step (Access σ) String} (h : KeepsClient c o client x) :
    KeepsClient c o client (theSession >>= fun _ => x) := by
  have hrun : ∀ a, (theSession >>= fun _ => x).run a =
      if a.request.session.isSome then x.run a else (.error (.error sessionRequired), a) := by
    intro a
    rw [Step.run_bind, Server.run_theSession]
    cases a.request.session <;> rfl
  constructor
  · intro a id a' hx
    rw [hrun] at hx
    split at hx
    · exact h.written a id a' hx
    · cases hx
  · intro a f a' hx
    rw [hrun] at hx
    split at hx
    · exact h.failed a f a' hx
    · cases hx
      rfl
  · intro a f host hwrites
    rw [hrun]
    split
    · exact h.unwritten a f host hwrites
    · rename_i hnone
      exact ⟨_, _, rfl, fun hsome => absurd hsome hnone⟩

theorem keepsClient_store (ht : t.client = some client) :
    KeepsClient c o client (Store.session.store c o t) := by
  refine (keepsClient_shelve ht ?_).afterSession
  exact fun a => ⟨_, _, rfl, rfl, rfl⟩

theorem keepsClient_update (ht : t.client = some client) (id : String) :
    KeepsClient c o client (Store.session.update c o id t) := by
  have hid : GivesId (pure id : Step (Access σ) String) := fun a => ⟨id, a, rfl, rfl, rfl⟩
  exact keepsClient_shelve ht hid

end Records

/-- The first decisive link decides, in both directions. A session keeps what it gave, or is left
alone. -/
theorem ClientForms.first_link_decides (c : ClientForms σ) :
    (∀ client host,
      c.Writes client host ((c.write client).run host).1 ((c.write client).run host).2) ∧
      (∀ stored host,
        c.Reads stored host ((c.read stored).run host).1 ((c.read stored).run host).2) ∧
      ∀ (o : TransactionOptions) (t : Transaction) (client : Value), t.client = some client →
        KeepsClient c o client (Store.session.store c o t) ∧
          ∀ id, KeepsClient c o client (Store.session.update c o id t) :=
  ⟨c.write_writes, c.read_reads, fun _ _ _ ht => ⟨keepsClient_store ht, keepsClient_update ht⟩⟩

/-! ## Links that note their calls -/

/-- Gives `answer`, and leaves a note with the host. -/
def noted {α : Type} (note : String) (answer : Link α) : Value → Step (List String) (Link α) :=
  fun _ => do
    .modify (· ++ [note])
    pure answer

/-- Two writers with nothing to keep before one that has; a reader that finds the client gone before
one that would find it. The last writer crashes. -/
def hesitant : ClientForms (List String) :=
  ⟨[noted "null" (.matched .null), noted "pass" .skip, noted "false" (.matched (.bool false)),
      noted "id" (.matched (.str "c1")), fun _ => .crash],
    [noted "pass" .skip, noted "gone" (.matched none), noted "back" (.matched (some (.str "c1")))]⟩

def Transaction.forClient (client : Value) : Transaction :=
  (ofRequest (.ofType ⟨["code"]⟩)).validated (some client) none none

theorem hesitant_first_link :
    hesitant.Writes (.obj [("id", .str "c1")]) [] (.ok (.str "c1")) ["null", "pass", "false", "id"] ∧
      hesitant.Reads (.str "c1") [] (.ok none) ["pass", "gone"] ∧
      KeepsClient hesitant .standard (.bool true)
        (Store.session.update hesitant .standard "7f" (.forClient (.bool true))) := by
  obtain ⟨hwrites, hreads, hkeeps⟩ := hesitant.first_link_decides
  have hkeeps := hkeeps .standard (.forClient (.bool true)) (.bool true) rfl
  exact ⟨hwrites _ [], hreads _ [], hkeeps.2 "7f"⟩

end AuthServer
