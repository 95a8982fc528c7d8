import AuthServer.Proofs.Text.Words
import AuthServer.Transaction.Record

/-!
# Transactions read from their records

Every record that is written can be read. What comes back is the transaction
up to what records do not keep, and all of it where there is nothing of that
kind to lose.
-/

namespace AuthServer

open Json

/-- Null counts as absent. -/
def Json.Value.nonNull : Value → Option Value
  | .null => none
  | v => some v

theorem Json.Value.toOption_ok (v : Value) : v.toOption .ok = .ok v.nonNull := by
  cases v <;> rfl

theorem Json.Value.nonNull_of_ne {v : Value} (h : v ≠ .null) : v.nonNull = some v := by
  cases v <;> first | rfl | exact absurd rfl h

/-! ## Requests and decisions -/

def AuthorizationRequest.reread (r : AuthorizationRequest) : AuthorizationRequest :=
  ⟨TypeSet.parse r.type.display, Entries.remove r.fields "type"⟩

theorem AuthorizationRequest.ofValue_members (r : AuthorizationRequest) :
    AuthorizationRequest.ofValue (.obj r.members) = .ok r.reread := by
  simp only [AuthorizationRequest.ofValue, members, Entries.value?, if_true]
  show Except.ok _ = _
  simp [reread, Entries.remove]

/-- Words, and no type among the fields: nothing is lost. -/
theorem AuthorizationRequest.reread_eq {r : AuthorizationRequest}
    (hwords : ∀ w ∈ r.type.tokens, Text.IsWord w) (huntyped : "type" ∉ r.fields.keys) :
    r.reread = r := by
  unfold reread TypeSet.parse TypeSet.display
  rw [Text.words_joined hwords, Entries.remove_of_notMem huntyped]

def Decision.reread (d : Decision) : Decision := ⟨d.allow, Entries.remove d.fields "allow"⟩

theorem Decision.reread_eq {d : Decision} (h : "allow" ∉ d.fields.keys) : d.reread = d := by
  rw [reread, Entries.remove_of_notMem h]

theorem Decision.ofValue_members (d : Decision) :
    Decision.ofValue (.obj d.members) = .ok d.reread := by
  simp only [Decision.ofValue, members, Entries.value?, if_true]
  show Except.ok _ = _
  simp [reread, Entries.remove]

namespace Transaction

/-- What the record of a transaction gives back. -/
def reread (t : Transaction) : Transaction :=
  { t with
    client := t.client.bind Value.nonNull
    request := t.request.reread
    user := t.user.bind Value.nonNull
    decision := t.decision.map Decision.reread
    phase := .parsed
    removalArmed := false }

/-! ## Reading member by member -/

def readKnown (d : Draft) (m : String × Value) : Decoded Draft :=
  if memberNames.contains m.1 then readMember d m.1 m.2 else .ok d

/-- A member that may be absent sets its part of the draft, or leaves it as it was. -/
theorem foldlM_optional {α : Type} {name : String} {write : α → Value} {d : Draft}
    (set : Option α → Draft) (hnone : set none = d)
    (hsome : ∀ a, readKnown d (name, write a) = .ok (set (some a))) (a : Option α) :
    (optional name write a).foldlM readKnown d = .ok (set a) := by
  cases a with
  | none => rw [hnone]; rfl
  | some a =>
    show (readKnown d (name, write a) >>= fun d => pure d) = _
    rw [hsome a]
    rfl

theorem foldlM_append_ok {xs ys : Params} {d d₁ d₂ : Draft} (hx : xs.foldlM readKnown d = .ok d₁)
    (hy : ys.foldlM readKnown d₁ = .ok d₂) : (xs ++ ys).foldlM readKnown d = .ok d₂ := by
  rw [List.foldlM_append, hx]
  exact hy

theorem readKnown_client (d : Draft) (client : Option Value) :
    readKnown d ("client", client.getD .null) =
      .ok { d with rest := { d.rest with client := client.bind Value.nonNull } } := by
  show (do return { d with rest := { d.rest with client := ← Value.toOption .ok (client.getD .null) } }) = _
  rw [Value.toOption_ok]
  rcases client with _ | v <;> rfl

theorem readKnown_req (d : Draft) (r : AuthorizationRequest) :
    readKnown d ("req", .obj r.members) =
      .ok { d with request := some r.reread } := by
  show (do return { d with request := some (← AuthorizationRequest.ofValue (.obj r.members)) }) = _
  rw [AuthorizationRequest.ofValue_members]
  rfl

theorem readKnown_user (d : Draft) (v : Value) :
    readKnown d ("user", v) = .ok { d with rest := { d.rest with user := v.nonNull } } := by
  show (do return { d with rest := { d.rest with user := ← Value.toOption .ok v } }) = _
  rw [Value.toOption_ok]
  rfl

theorem readKnown_res (d : Draft) (a : Decision) :
    readKnown d ("res", .obj a.members) =
      .ok { d with rest := { d.rest with decision := some a.reread } } := by
  show (do return { d with rest := { d.rest with
    decision := ← Value.toOption Decision.ofValue (.obj a.members) } }) = _
  simp only [Value.toOption]
  rw [Decision.ofValue_members]
  rfl

theorem foldlM_members (t : Transaction) :
    t.members.foldlM readKnown Draft.empty =
      .ok ⟨some t.reread.request, { t.reread with request := default }⟩ := by
  let d₁ : Draft := ⟨none, { ofRequest default with id := t.id }⟩
  let d₂ : Draft := { d₁ with rest := { d₁.rest with client := t.client.bind Value.nonNull } }
  let d₃ : Draft := { d₂ with rest := { d₂.rest with redirectUri := t.redirectUri } }
  let d₄ : Draft := { d₃ with rest := { d₃.rest with webOrigin := t.webOrigin } }
  let d₅ : Draft := { d₄ with request := some t.reread.request }
  let d₆ : Draft := { d₅ with rest := { d₅.rest with user := t.user.bind Value.nonNull } }
  let d₇ : Draft := { d₆ with rest := { d₆.rest with decision := t.reread.decision } }
  let d₈ : Draft := { d₇ with rest := { d₇.rest with info := t.info } }
  have h₁ : (optional "transactionID" .str t.id).foldlM readKnown Draft.empty = .ok d₁ :=
    foldlM_optional (fun id => ⟨none, { ofRequest default with id }⟩) rfl (fun _ => rfl) t.id
  have h₂ : [("client", t.client.getD .null)].foldlM readKnown d₁ = .ok d₂ := by
    rw [List.foldlM_cons, readKnown_client]
    rfl
  have h₃ : (optional "redirectURI" .str t.redirectUri).foldlM readKnown d₂ = .ok d₃ :=
    foldlM_optional (fun redirectUri => { d₂ with rest := { d₂.rest with redirectUri } }) rfl
      (fun _ => rfl) t.redirectUri
  have h₄ : (optional "webOrigin" .str t.webOrigin).foldlM readKnown d₃ = .ok d₄ :=
    foldlM_optional (fun webOrigin => { d₃ with rest := { d₃.rest with webOrigin } }) rfl
      (fun _ => rfl) t.webOrigin
  have h₅ : [("req", Value.obj t.request.members)].foldlM readKnown d₄ = .ok d₅ := by
    rw [List.foldlM_cons, readKnown_req]
    rfl
  have h₆ : (optional "user" (fun u => u) t.user).foldlM readKnown d₅ = .ok d₆ :=
    foldlM_optional (fun u => { d₅ with rest := { d₅.rest with user := u.bind Value.nonNull } }) rfl
      (fun u => readKnown_user d₅ u) t.user
  have h₇ : (optional "res" (fun a => .obj a.members) t.decision).foldlM readKnown d₆ = .ok d₇ :=
    foldlM_optional (fun a => { d₆ with rest := { d₆.rest with decision := a.map Decision.reread } })
      rfl (fun a => readKnown_res d₆ a) t.decision
  have h₈ : (optional "info" .obj t.info).foldlM readKnown d₇ = .ok d₈ :=
    foldlM_optional (fun info => { d₇ with rest := { d₇.rest with info } }) rfl (fun _ => rfl) t.info
  have h₉ : (optional "locals" .obj t.locals).foldlM readKnown d₈ =
      .ok { d₈ with rest := { d₈.rest with locals := t.locals } } :=
    foldlM_optional (fun locals => { d₈ with rest := { d₈.rest with locals } }) rfl (fun _ => rfl)
      t.locals
  have h := foldlM_append_ok (foldlM_append_ok (foldlM_append_ok (foldlM_append_ok
    (foldlM_append_ok (foldlM_append_ok (foldlM_append_ok (foldlM_append_ok h₁ h₂) h₃) h₄) h₅) h₆)
    h₇) h₈) h₉
  exact h

theorem has_req (t : Transaction) : Entries.has t.members "req" = true := by
  have hmem : "req" ∈ Entries.keys t.members := by simp [members, Entries.keys]
  rw [Entries.has, Option.isSome_iff_ne_none]
  exact fun h => (Entries.value?_eq_none_iff _ _).1 h hmem

/-- Every record can be read. -/
theorem ofValue_toValue (t : Transaction) : ofValue t.toValue = .ok t.reread := by
  have h : readRecord "Transaction" memberNames ["req"] ["req"] Draft.empty readMember t.toValue =
      .ok ⟨some t.reread.request, { t.reread with request := default }⟩ := by
    have hpresent : ["req"].find? (fun r => !Entries.has t.members r) = none := by simp [has_req]
    show (t.members.foldlM readKnown Draft.empty >>= _) = _
    rw [foldlM_members]
    simp only [bind, Except.bind, hpresent]
  unfold ofValue
  rw [h]
  rfl

/-! ## What no record says -/

theorem foldlM_keeps {α δ : Type} {P : δ → Prop} {step : δ → α → Decoded δ} {xs : List α}
    (hstep : ∀ d x d', P d → step d x = .ok d' → P d') {d d' : δ} (hd : P d)
    (h : xs.foldlM step d = .ok d') : P d' := by
  induction xs generalizing d with
  | nil => cases h; exact hd
  | cons x rest ih =>
    rw [List.foldlM_cons] at h
    rcases hx : step d x with e | d₁ <;> rw [hx] at h
    · cases h
    · exact ih (hstep d x d₁ hd hx) h

/-- What holds before any member is read, and is kept by each, holds of the record. -/
theorem readRecord_keeps {δ : Type} {P : δ → Prop} {name : String}
    {members required fixed : List String} {empty d : δ} {read : δ → String → Value → Decoded δ}
    {v : Value} (hempty : P empty) (hread : ∀ d name v d', P d → read d name v = .ok d' → P d')
    (h : readRecord name members required fixed empty read v = .ok d) : P d := by
  cases v with
  | obj found =>
    simp only [readRecord] at h
    rcases hfold : found.foldlM (fun d (m : String × Value) =>
      if members.contains m.1 then read d m.1 m.2 else .ok d) empty with e | d₁
    · erw [hfold] at h
      cases h
    · erw [hfold] at h
      have hd₁ : P d₁ := by
        refine foldlM_keeps (fun d m d' hd hstep => ?_) hempty hfold
        split at hstep
        · exact hread d m.1 m.2 d' hd hstep
        · cases hstep
          exact hd
      simp only [bind, Except.bind] at h
      split at h <;> cases h
      exact hd₁
  | arr items =>
    simp only [readRecord] at h
    rcases hfold : (members.zip items).foldlM (fun d (m : String × Value) => read d m.1 m.2) empty
      with e | d₁
    · erw [hfold] at h
      cases h
    · erw [hfold] at h
      have hd₁ : P d₁ := foldlM_keeps (fun d m d' hd hstep => hread d m.1 m.2 d' hd hstep) hempty hfold
      simp only [bind, Except.bind] at h
      repeat' split at h
      all_goals cases h
      exact hd₁
  | _ => cases h

theorem readMember_removalArmed {d d' : Draft} {name : String} {v : Value}
    (hd : d.rest.removalArmed = false) (h : readMember d name v = .ok d') :
    d'.rest.removalArmed = false := by
  have hset : ∀ {α : Type} {x : Decoded α} {f : α → Draft},
      (∀ a, (f a).rest.removalArmed = false) → (do return f (← x)) = Except.ok d' →
        d'.rest.removalArmed = false := by
    intro α x f hf h
    rcases x with e | a <;> cases h
    exact hf a
  unfold readMember at h
  repeat' split at h
  all_goals first
    | refine hset ?_ h
      exact fun _ => hd
    | cases h
      exact hd

theorem ofValue_removalArmed {v : Value} {t : Transaction} (h : ofValue v = .ok t) :
    t.removalArmed = false := by
  unfold ofValue at h
  rcases hr : readRecord "Transaction" memberNames ["req"] ["req"] Draft.empty readMember v
    with e | d <;> rw [hr] at h
  · cases h
  · have hd : d.rest.removalArmed = false :=
      readRecord_keeps (P := fun d : Draft => d.rest.removalArmed = false) rfl
        (fun _ _ _ _ hd hread => readMember_removalArmed hd hread) hr
    simp only [bind, Except.bind] at h
    split at h <;> cases h
    exact hd

/-! ## What is kept -/

/-- Nothing of the kind that records lose. -/
structure Storable (t : Transaction) : Prop where
  words : ∀ w ∈ t.request.type.tokens, Text.IsWord w
  untyped : "type" ∉ t.request.fields.keys
  principal : t.user ≠ some .null
  undecided : t.decision = none

theorem Storable.of_eq {t t' : Transaction} (h : t.Storable) (hr : t'.request = t.request)
    (hu : t'.user = t.user) (hd : t'.decision = t.decision) : t'.Storable :=
  ⟨by rw [hr]; exact h.words, by rw [hr]; exact h.untyped, by rw [hu]; exact h.principal,
    by rw [hd]; exact h.undecided⟩

theorem Storable.reread_request {t : Transaction} (h : t.Storable) : t.request.reread = t.request :=
  AuthorizationRequest.reread_eq h.words h.untyped

theorem Storable.reread_user {t : Transaction} (h : t.Storable) : t.user.bind Value.nonNull = t.user := by
  rcases hu : t.user with _ | u
  · rfl
  · exact Value.nonNull_of_ne fun hnull => h.principal (hnull ▸ hu)

/-- The record gives the transaction back. -/
theorem Storable.reread_eq {t : Transaction} (h : t.Storable) {id : Option String} {stored : Value}
    (hs : stored ≠ .null) :
    { t with id, client := some stored }.reread =
      { t with id, client := some stored, phase := .parsed, removalArmed := false } := by
  unfold reread
  simp only [h.reread_request, h.reread_user, h.undecided, Option.map_none, Option.bind_some,
    Value.nonNull_of_ne hs]

end Transaction

end AuthServer
