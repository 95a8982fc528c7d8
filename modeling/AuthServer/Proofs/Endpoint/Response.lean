import AuthServer.Endpoint.Response

/-!
# How answering a transaction ends

The responders' run decides how `respond` ends. Counting changes the counters
only. Arming changes the transaction's flag and the hooks of the response.
-/

namespace AuthServer

namespace Transaction

/-- What arming makes of a transaction. -/
def armStored (t : Transaction) : Transaction :=
  { t with removalArmed := t.removalArmed || t.id.isSome }

theorem armStored_of_none {t : Transaction} (h : t.id = none) : t.armStored = t := by
  obtain ⟨_⟩ := t
  cases h
  simp [armStored]

theorem armStored_of_some {t : Transaction} {id : String} (h : t.id = some id) :
    t.armStored = t.armRemoval := by
  simp [armStored, armRemoval, h]

theorem armStored_of_armed {t : Transaction} (h : t.removalArmed = true) : t.armStored = t := by
  obtain ⟨_⟩ := t
  cases h
  simp [armStored]

/-- A decision changes nothing else. -/
theorem decide_eq {t t' : Transaction} {d : Decision} (h : t.decide d = .ok t') :
    t' = { t with decision := some d, phase := .decided } := by
  unfold decide at h
  split at h <;> cases h
  rfl

theorem undecided_of_decide {t t' : Transaction} {d : Decision} (h : t.decide d = .ok t') :
    t.decision = none := by
  unfold decide at h
  split at h
  · cases h
  · assumption

theorem redirectUri_decide {t t' : Transaction} {d : Decision} (h : t.decide d = .ok t') :
    t'.redirectUri = t.redirectUri := by
  rw [decide_eq h]

end Transaction

namespace Server

variable {σ : Type} {s : Server σ} {v v' : Visit σ}

/-- A callback of the host under guard does not crash, and acts on the host alone. -/
theorem asHost_guarded_cases {α : Type} {x : Step σ α} {r : Except Fault α}
    (h : (Step.asHost x.guarded).run v = (r, v')) :
    ∃ host, v' = v.withHost host ∧
      ((∃ a, x.guarded.run v.world.host = (.ok a, host) ∧ r = .ok a) ∨
        ∃ e, x.guarded.run v.world.host = (.error (.error e), host) ∧ r = .error (.error e)) := by
  have hcrash := Step.guarded_ne_crash x v.world.host
  rw [Step.run_asHost] at h
  rcases hx : x.guarded.run v.world.host with ⟨(e | _) | a, host⟩ <;> rw [hx] at h hcrash <;> cases h
  · exact ⟨host, rfl, .inr ⟨e, rfl, rfl⟩⟩
  · exact absurd rfl hcrash
  · exact ⟨host, rfl, .inl ⟨a, rfl, rfl⟩⟩

/-! ## Counting -/

section Tally

variable (s : Server σ) (f : Metrics → Metrics) (v : Visit σ)

@[simp] theorem tally_request : (s.tally f v).request = v.request := by
  unfold tally; split <;> rfl

@[simp] theorem tally_response : (s.tally f v).response = v.response := by
  unfold tally; split <;> rfl

@[simp] theorem tally_memories : (s.tally f v).world.memories = v.world.memories := by
  unfold tally; split <;> rfl

@[simp] theorem tally_host : (s.tally f v).world.host = v.world.host := by
  unfold tally; split <;> rfl

@[simp] theorem tally_ids : (s.tally f v).world.ids = v.world.ids := by
  unfold tally; split <;> rfl

end Tally

/-- A counted call ends as the call does; an error is counted after it. -/
theorem counted_cases {α : Type} {x : Step (Visit σ) α} {r : Except Fault α}
    (h : (s.counted x).run v = (r, v')) : ∃ v₁ m, x.run v = (r, v₁) ∧ v' = v₁.withMetrics m := by
  rcases Step.onError_cases (fun e => s.tally (·.countError e.kind)) (fun _ _ => rfl) h with
    ⟨hx, -⟩ | ⟨e, v₁, hx, rfl, rfl⟩
  · exact ⟨v', v'.world.metrics, hx, rfl⟩
  · refine ⟨v₁, (s.tally (·.countError e.kind) v₁).world.metrics, hx, ?_⟩
    unfold tally
    split <;> rfl

/-! ## Answering -/

/-- The end of the responders' run for the transaction `t`. -/
inductive Responding (s : Server σ) (complete : Completion σ) (t : Transaction) (v : Visit σ) :
    Except Fault Unit → Visit σ → Prop where
  | answered {reply : Reply σ} :
    (s.dispatcher.respond t complete).run v.reply = (.ok .done, reply) →
    Responding s complete t v (.ok ()) ((v.withReply reply).holding t.responded)
  | unsupported {reply : Reply σ} :
    (s.dispatcher.respond t complete).run v.reply = (.ok .next, reply) →
    Responding s complete t v
      (.error (.error (.unsupportedResponseType t.request.type.display))) (v.withReply reply)
  | failed {e : Fault} {reply : Reply σ} :
    (s.dispatcher.respond t complete).run v.reply = (.error e, reply) →
    Responding s complete t v (.error e) (v.withReply reply)

theorem respond_cases {complete : Completion σ} {t : Transaction} {r : Except Fault Unit}
    (ht : v.request.transaction = some t) (h : (s.respond complete).run v = (r, v')) :
    Responding s complete t v r v' := by
  simp only [respond, theTransaction, bind_assoc, Step.run_gets_bind, ht, pure_bind] at h
  rw [Step.run_bind, Step.run_asReply] at h
  rcases hr : (s.dispatcher.respond t complete).run v.reply with ⟨e | _ | _, reply⟩ <;>
    rw [hr] at h <;> cases h
  · exact .failed hr
  · exact .answered hr
  · exact .unsupported hr

/-! ## Arming -/

@[simp] theorem arm_world (s : Server σ) (v : Visit σ) : (s.arm v).world = v.world := by
  unfold arm; repeat' split
  all_goals rfl

@[simp] theorem arm_transaction (s : Server σ) (v : Visit σ) :
    (s.arm v).request.transaction = v.request.transaction.map Transaction.armStored := by
  unfold arm
  rcases ht : v.request.transaction with _ | t
  · exact ht
  · rw [Option.map_some]
    rcases hid : t.id with _ | id
    · rw [Transaction.armStored_of_none hid]
      simp only [hid]
      exact ht
    · simp only [hid]
      by_cases ha : t.removalArmed = true
      · rw [if_pos ha, Transaction.armStored_of_armed ha]
        exact ht
      · rw [if_neg ha, Transaction.armStored_of_some hid]
        split <;> rfl

/-- A second removal is not added. -/
theorem arm_response (s : Server σ) (v : Visit σ) :
    (s.arm v).response = v.response ∨
      ∃ id, v.response.hasHook FinishHook.removalKey = false ∧
        (s.arm v).response = v.response.addHook (.removal s.store s.options id) := by
  unfold arm
  repeat' split
  · exact .inl rfl
  · exact .inl rfl
  · exact .inl rfl
  · exact .inl rfl
  · rename_i hnone
    exact .inr ⟨_, by simpa using hnone, rfl⟩

theorem arm_unarmed {t : Transaction} {id : String} (ht : v.request.transaction = some t)
    (hid : t.id = some id) (hunarmed : t.removalArmed = false)
    (hnone : v.response.hasHook FinishHook.removalKey = false) :
    s.arm v = { v.holding t.armRemoval with
      response := v.response.addHook (.removal s.store s.options id) } := by
  simp [arm, ht, hid, hunarmed, hnone]

@[simp] theorem arm_session (s : Server σ) (v : Visit σ) :
    (s.arm v).request.session = v.request.session := by
  unfold arm; repeat' split
  all_goals rfl

end Server

end AuthServer
