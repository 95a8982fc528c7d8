import AuthServer.Proofs.Parsing
import AuthServer.Proofs.Transaction.Reread

/-!
# Transactions survive their wire form

The fields of a request share an object with its type, those of a decision one
with the answer itself. Whatever is done to a transaction, no field ever takes
these names, so its record gives it back: all fields in order, and only phase,
armed removal and a null for client or user are lost.
-/

namespace AuthServer

open Json

namespace Transaction

/-- What can be done to a transaction. No map has a name twice. -/
inductive Change where
  | contribute (fields : Params) (distinct : fields.keys.Nodup)
  | insert (key : String) (v : Value)
  | validate (client : Option Value) (redirectUri webOrigin : Option String)
  | persist (id : String)
  | decide (allow : Bool) (fields : Params) (distinct : fields.keys.Nodup)
  | respond
  | inform (info : Option Params)
  | mergeLocals (locals : Option Params)
  | identify (user : Option Value)
  | arm
  | disarm

/-- A decision that comes too late is refused, and changes nothing. -/
def Change.apply (t : Transaction) : Change → Transaction
  | contribute fields _ => { t with request := t.request.merge fields }
  | insert key v => { t with request := t.request.insert key v }
  | validate client redirectUri webOrigin => t.validated client redirectUri webOrigin
  | persist id => t.persisted id
  | decide allow fields _ => (t.decide (.withFields allow fields)).toOption.getD t
  | respond => t.responded
  | inform info => t.withInfo info
  | mergeLocals locals => t.mergeLocals locals
  | identify user => { t with user }
  | arm => t.armRemoval
  | disarm => t.disarmRemoval

/-- The transaction of a request for `type` after the changes. -/
def built (type : TypeSet) (changes : List Change) : Transaction :=
  changes.foldl Change.apply (ofRequest (.ofType type))

/-- The type asked for, and no field that stands in the place of type or answer. -/
structure Unmixed (type : TypeSet) (t : Transaction) : Prop where
  type_eq : t.request.type = type
  untyped : t.request.Untyped
  unanswered : ∀ d, t.decision = some d → "allow" ∉ d.fields.keys

variable {type : TypeSet} {t : Transaction} {d : Decision}

theorem unmixed_ofRequest (type : TypeSet) : Unmixed type (ofRequest (.ofType type)) :=
  ⟨rfl, List.not_mem_nil, nofun⟩

/-- A change of neither request nor decision. -/
theorem Unmixed.of_eq {t' : Transaction} (h : Unmixed type t) (hrequest : t'.request = t.request)
    (hdecision : t'.decision = t.decision) : Unmixed type t' :=
  ⟨by rw [hrequest]; exact h.type_eq, by rw [hrequest]; exact h.untyped,
    by rw [hdecision]; exact h.unanswered⟩

theorem decide_cases (t : Transaction) (d : Decision) :
    t.decision = none ∧ t.decide d = .ok { t with decision := some d, phase := .decided } ∨
      t.decision.isSome ∧ t.decide d = .error alreadyDecided := by
  unfold decide
  cases t.decision with
  | none => exact .inl ⟨rfl, rfl⟩
  | some => exact .inr ⟨rfl, rfl⟩

theorem Unmixed.apply (h : Unmixed type t) (c : Change) : Unmixed type (c.apply t) := by
  cases c with
  | contribute fields distinct => exact ⟨h.type_eq, h.untyped.merge distinct, h.unanswered⟩
  | insert key v =>
    show Unmixed type { t with request := t.request.insert key v }
    unfold AuthorizationRequest.insert
    split
    · exact h
    · rename_i hkey
      refine ⟨h.type_eq, fun hmem => ?_, h.unanswered⟩
      exact (Entries.mem_keys_put hmem).elim (fun he => hkey he.symm) h.untyped
  | decide allow fields distinct =>
    show Unmixed type ((t.decide _).toOption.getD t)
    rcases t.decide_cases (.withFields allow fields) with ⟨-, hdecide⟩ | ⟨-, hdecide⟩ <;> rw [hdecide]
    · refine ⟨h.type_eq, h.untyped, fun d hd => ?_⟩
      cases hd
      exact Entries.notMem_keys_swapRemove distinct "allow"
    · exact h
  | _ => exact h.of_eq rfl rfl

/-- What is decided stays decided. -/
theorem decision_apply (h : t.decision = some d) (c : Change) : (c.apply t).decision = some d := by
  cases c with
  | decide allow fields distinct =>
    show ((t.decide _).toOption.getD t).decision = some d
    rcases t.decide_cases (.withFields allow fields) with ⟨hnone, -⟩ | ⟨-, hdecide⟩
    · rw [h] at hnone
      cases hnone
    · rw [hdecide]
      exact h
  | _ => exact h

theorem Unmixed.foldl (h : Unmixed type t) (changes : List Change) :
    Unmixed type (changes.foldl Change.apply t) := by
  induction changes generalizing t with
  | nil => exact h
  | cons c rest ih => exact ih (h.apply c)

theorem decision_foldl (h : t.decision = some d) (changes : List Change) :
    (changes.foldl Change.apply t).decision = some d := by
  induction changes generalizing t with
  | nil => exact h
  | cons c rest ih => exact ih (decision_apply h c)

/-- The record gives back all that it holds. -/
theorem Unmixed.ofValue_toValue (h : Unmixed type t) (hwords : ∀ w ∈ type.tokens, Text.IsWord w) :
    ofValue t.toValue =
      .ok { t with
        client := t.client.bind Value.nonNull
        user := t.user.bind Value.nonNull
        phase := .parsed
        removalArmed := false } := by
  have hrequest : t.request.reread = t.request :=
    AuthorizationRequest.reread_eq (by rw [h.type_eq]; exact hwords) h.untyped
  have hdecision : t.decision.map Decision.reread = t.decision := by
    rcases hd : t.decision with _ | d
    · rfl
    · rw [Option.map_some, Decision.reread_eq (h.unanswered d hd)]
  rw [Transaction.ofValue_toValue, reread, hrequest, hdecision]

/-- `t` is what the changes make of a transaction for `type`, and nothing gets lost on the way. -/
structure Survives (type : TypeSet) (changes : List Change) (t : Transaction) : Prop where
  type_eq : t.request.type = type
  untyped : "type" ∉ t.request.fields.keys
  decided : ∀ before rest d, changes = before ++ rest → (built type before).decision = some d →
    t.decision = some d
  reread : ofValue t.toValue =
    .ok { t with
      client := t.client.bind Value.nonNull
      user := t.user.bind Value.nonNull
      phase := .parsed
      removalArmed := false }

theorem wire_form_survives (hwords : ∀ w ∈ type.tokens, Text.IsWord w) (changes : List Change) :
    Survives type changes (built type changes) := by
  have h : Unmixed type (built type changes) := (unmixed_ofRequest type).foldl changes
  refine ⟨h.type_eq, h.untyped, ?_, h.ofValue_toValue hwords⟩
  rintro before rest d rfl hd
  unfold built
  rw [List.foldl_append]
  exact decision_foldl hd rest

/-! ## A transaction that much is done to -/

/-- Fields that would take the names of type and answer, nulls for client and user, and a second
decision. -/
def meddling : List Change :=
  [.contribute [("scope", .str "read"), ("type", .str "token"), ("state", .null)] (by decide),
    .insert "type" (.str "token"), .insert "nonce" (.obj [("b", .int 1), ("a", .null)]),
    .validate (some .null) (some "https://c1.example/cb") none, .persist "7f",
    .identify (some .null), .arm,
    .decide true [("zone", .int 1), ("allow", .bool false), ("scope", .arr [])] (by decide),
    .decide false [] (by decide), .mergeLocals (some [("service", .str "s1")]), .respond]

theorem meddling_survives :
    Survives ⟨["code", "id_token"]⟩ meddling (built ⟨["code", "id_token"]⟩ meddling) ∧
      (built ⟨["code", "id_token"]⟩ meddling).decision =
        some ⟨true, [("zone", .int 1), ("scope", .arr [])]⟩ ∧
      (built ⟨["code", "id_token"]⟩ meddling).request.fields =
        [("scope", .str "read"), ("nonce", .obj [("b", .int 1), ("a", .null)])] := by
  have hwords : ∀ w ∈ (TypeSet.mk ["code", "id_token"]).tokens, Text.IsWord w := by
    intro w hw
    have hw : w ∈ Text.words "code id_token" := hw
    exact Text.isWord_of_mem_words hw
  exact ⟨wire_form_survives hwords meddling, rfl, rfl⟩

end Transaction

end AuthServer
