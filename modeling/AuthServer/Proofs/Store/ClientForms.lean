import AuthServer.Proofs.InTurn
import AuthServer.Store.ClientForms

/-!
# Which link writes or reads a client

Links are tried in turn. The first that does not skip decides. A match with
null or false is no stored form, so writing goes on; in reading it stands for a
client that was deauthorized meanwhile.
-/

namespace AuthServer

open Json

variable {σ : Type}

/-- What the answer of a reader decides. Nothing, null and false stand for a deauthorized client; a
crash counts as a server error. -/
def Link.reading : Except Fault (Link (Option Value)) → Option (Except Fault (Option Value))
  | .ok .skip => none
  | .ok (.matched none) | .ok (.matched (some .null)) | .ok (.matched (some (.bool false))) =>
    some (.ok none)
  | .ok (.matched (some client)) => some (.ok (some client))
  | .ok (.failed e) => some (.error (.error e))
  | .error f => some (.error (.error f.report))

theorem Link.reading_matched (client : Option Value) :
    reading (.ok (.matched client)) = some (.ok (client.filter ClientForms.isPresent)) := by
  rcases client with _ | (_ | (_ | _) | _ | _ | _ | _) <;> rfl

/-- What the answer of a writer decides. Null and false are passed over; a crash counts as a server
error. -/
def Link.writing : Except Fault (Link Value) → Option (Except Fault Value)
  | .ok .skip | .ok (.matched .null) | .ok (.matched (.bool false)) => none
  | .ok (.matched stored) => some (.ok stored)
  | .ok (.failed e) => some (.error (.error e))
  | .error f => some (.error (.error f.report))

theorem Link.writing_matched (stored : Value) :
    writing (.ok (.matched stored)) = if ClientForms.isPresent stored then some (.ok stored) else none := by
  rcases stored with _ | (_ | _) | _ | _ | _ | _ | _ <;> rfl

theorem Link.writing_cases {answer : Except Fault (Link Value)} {r : Except Fault Value}
    (h : writing answer = some r) :
    (∃ stored, r = .ok stored ∧ ClientForms.isPresent stored = true) ∨ ∃ e, r = .error (.error e) := by
  rcases answer with f | stored | _ | e
  · cases h
    exact .inr ⟨_, rfl⟩
  · rw [writing_matched] at h
    split at h <;> cases h
    exact .inl ⟨_, rfl, ‹_›⟩
  · cases h
  · cases h
    exact .inr ⟨_, rfl⟩

namespace ClientForms

/-! ## Writing -/

section Writing

variable {c : ClientForms σ} {client stored : Value} {host host' : σ} {r : Except Fault Value}

/-- The first writer with a present form, an error or a crash decides; without one the server is not
set up for the client. -/
abbrev Writes (c : ClientForms σ) (client : Value) (host : σ) : Except Fault Value → σ → Prop :=
  FirstDecisive (fun link => link client) Link.writing (.error (.error noWriter)) c.writers host

theorem write_writes (c : ClientForms σ) (client : Value) (host : σ) :
    c.Writes client host ((c.write client).run host).1 ((c.write client).run host).2 := by
  unfold Writes write
  generalize c.writers = links
  induction links generalizing host with
  | nil => exact .nil host
  | cons link rest ih =>
    rw [writeWith, Step.run_bind, Step.run_guarded]
    rcases hrun : (link client).run host with ⟨f | stored | _ | e, host₁⟩
    · exact .here hrun rfl
    · have hverdict := Link.writing_matched stored
      let x : Step σ Value := if isPresent stored then pure stored else writeWith client rest
      show FirstDecisive _ _ _ _ _ (x.run host₁).1 (x.run host₁).2
      unfold x
      split at hverdict <;> rename_i hpresent
      · rw [if_pos hpresent]
        exact .here hrun hverdict
      · rw [if_neg hpresent]
        exact .later hrun hverdict (ih host₁)
    · exact .later hrun rfl (ih host₁)
    · exact .here hrun rfl

theorem Writes.cases (h : c.Writes client host r host') :
    (∃ stored, r = .ok stored ∧ isPresent stored = true) ∨ ∃ e, r = .error (.error e) := by
  cases h with
  | decided _ _ _ hr => exact Link.writing_cases hr
  | undecided => exact .inr ⟨_, rfl⟩

/-- A stored form is never null or false. -/
theorem write_present (h : (c.write client).run host = (.ok stored, host')) :
    isPresent stored = true := by
  have hwrites := c.write_writes client host
  rw [h] at hwrites
  obtain ⟨_, hr, hpresent⟩ | ⟨_, hr⟩ := hwrites.cases <;> cases hr
  exact hpresent

theorem write_ne_null (h : (c.write client).run host = (.ok stored, host')) : stored ≠ .null := by
  have hpresent := write_present h
  rintro rfl
  cases hpresent

/-- Writers run under guard. -/
theorem write_ne_crash (h : (c.write client).run host = (r, host')) : r ≠ .error .crash := by
  have hwrites := c.write_writes client host
  rw [h] at hwrites
  obtain ⟨_, rfl, -⟩ | ⟨_, rfl⟩ := hwrites.cases <;> exact nofun

end Writing

/-! ## Reading -/

variable {c : ClientForms σ} {stored : Value} {host host' : σ} {r : Except Fault (Option Value)}

/-- The first reader that does not skip decides; without one the server is not set up for it. -/
abbrev Reads (c : ClientForms σ) (stored : Value) (host : σ) : Except Fault (Option Value) → σ → Prop :=
  FirstDecisive (fun link => link stored) Link.reading (.error (.error noReader)) c.readers host

theorem read_reads (c : ClientForms σ) (stored : Value) (host : σ) :
    c.Reads stored host ((c.read stored).run host).1 ((c.read stored).run host).2 := by
  unfold Reads read
  generalize c.readers = links
  induction links generalizing host with
  | nil => exact .nil host
  | cons link rest ih =>
    rw [readWith, Step.run_bind, Step.run_guarded]
    rcases hrun : (link stored).run host with ⟨f | client | _ | e, host₁⟩
    · exact .here hrun rfl
    · exact .here hrun (Link.reading_matched client)
    · exact .later hrun rfl (ih host₁)
    · exact .here hrun rfl

theorem reads_iff : c.Reads stored host r host' ↔ (c.read stored).run host = (r, host') := by
  have hreads := c.read_reads stored host
  constructor
  · intro h
    obtain ⟨hr, hhost⟩ := hreads.unique h
    exact Prod.ext hr hhost
  · intro h
    rwa [h] at hreads

theorem Reads.ne_crash (h : c.Reads stored host r host') : r ≠ .error .crash := by
  cases h with
  | @decided _ _ _ answer _ _ _ _ _ hr =>
    rintro rfl
    rcases answer with _ | client | _ | _
    · cases hr
    · rw [Link.reading_matched] at hr
      cases hr
    · cases hr
    · cases hr
  | undecided => exact nofun

end ClientForms

end AuthServer
