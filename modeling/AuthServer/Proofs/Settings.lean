import AuthServer.Config.Basic
import AuthServer.Proofs.LoadOutcomes

/-!
# Settings mean what they say

A configuration that passes the check is used as it is written: nothing stands
in for a store, a mode or a key that cannot be had, and every new id can come
back in a request. A configuration that would be used otherwise does not pass.
-/

namespace AuthServer

open Json Store

variable {σ : Type}

/-! ## Names in settings -/

def StoreKind.name : StoreKind → String
  | session => "session"
  | memory => "memory"

/-- The setting is the name, in any case and with blanks around it. -/
def Says (setting name : String) : Prop := Text.lowered (Text.trimmed setting) = name

theorem StoreKind.parse_eq_ok_iff {s : String} {kind : StoreKind} :
    StoreKind.parse s = .ok kind ↔ Says s kind.name := by
  unfold StoreKind.parse Says
  cases kind <;> grind [StoreKind.name]

theorem ErrorMode.parse_eq_ok_iff {s : String} {mode : ErrorMode} :
    ErrorMode.parse s = .ok mode ↔ Says s mode.name := by
  unfold ErrorMode.parse Says
  cases mode <;> grind [ErrorMode.name]

/-! ## Ids in requests -/

/-- The query has the id, or the body has it and the query nothing under the name. -/
inductive Request.Sends (r : Request) (name id : String) : Prop where
  | query : r.query.value? name = some (.str id) → r.Sends name id
  | body : r.query.value? name = none → r.bodyValue? name = some (.str id) → r.Sends name id

theorem Request.Sends.text?_eq {r : Request} {name id : String} (h : r.Sends name id) :
    r.text? name = some id := by
  unfold text? param?
  cases h with
  | query hquery => rw [hquery]; rfl
  | body hquery hbody => rw [hquery, hbody]; rfl

theorem Request.Sends.idParam_eq {o : TransactionOptions} {r : Request} {id : String}
    (h : r.Sends o.field id) (hid : id ≠ "") : idParam o r = .ok id := by
  rw [idParam, h.text?_eq, Option.filter_some, if_pos (by simpa using hid)]

/-- The id of a new entry is drawn, and by either store it has some digits. -/
theorem Server.storeNew_ne_empty {s : Server σ} {number : Nat} {lifetime : Option Nat} {kind : StoreKind}
    (hs : s.store = Store.ofKind number lifetime kind) (hlength : s.options.idLength ≠ 0)
    {t : Transaction} {v v' : Visit σ} {id : String} (h : (s.storeNew t).run v = (.ok id, v')) :
    id ≠ "" := by
  cases kind with
  | memory =>
    have hmemory : s.store = .memory number lifetime := hs
    rw [storeNew_memory hmemory] at h
    cases h
    exact v.world.ids.peek_ne_empty (by decide)
  | session =>
    have hsession : s.store = .session := hs
    obtain ⟨host, ⟨-, e, he⟩ | ⟨session, record, -, -, he, -⟩⟩ := storeNew_session_cases hsession h
    · cases he
    · cases he
      exact v.world.ids.peek_ne_empty (Nat.pos_of_ne_zero hlength)

namespace Config

variable {c : Config}

/-! ## The check -/

section Checks

variable {message : String} {next : Except String Unit}

theorem unless_eq_ok_iff {p : Prop} [Decidable p] {f : PUnit → Except String Unit} :
    (if p then (throw message >>= f) else next) = .ok () ↔ ¬ p ∧ next = .ok () := by
  by_cases h : p
  · rw [if_pos h]
    exact ⟨nofun, fun hp => absurd h hp.1⟩
  · rw [if_neg h, and_iff_right h]

theorem bind_eq_ok_iff {α : Type} {x : Except String α} {f : α → Except String Unit} :
    (x >>= f) = .ok () ↔ ∃ a, x = .ok a ∧ f a = .ok () := by
  cases x with
  | error e => exact ⟨nofun, nofun⟩
  | ok a => exact ⟨fun h => ⟨a, rfl, h⟩, fun ⟨_, ha, h⟩ => by cases ha; exact h⟩

end Checks

/-- All that is asked of a configuration. -/
structure Usable (c : Config) : Prop where
  idLength : c.transactions.idLength ≠ 0
  field : c.transactions.field ≠ ""
  mode : ∃ mode, c.modeOfErrors = .ok mode
  store : ∃ kind, c.storeKind = .ok kind ∧ ¬ (kind = .session ∧ c.transactions.sessionKey = "")
  key : ∀ key, c.sessionKey? = some key → ¬ key.utf8ByteSize < keyLength

theorem validate_eq_ok_iff : c.validate = .ok () ↔ c.Usable := by
  simp only [validate, unless_eq_ok_iff, bind_eq_ok_iff]
  constructor
  · rintro ⟨hlength, hfield, mode, hmode, kind, hkind, hsession, hkey⟩
    refine ⟨hlength, hfield, ⟨mode, hmode⟩, ⟨kind, hkind, hsession⟩, fun key hset hshort => ?_⟩
    rw [hset] at hkey
    simp only [if_pos hshort] at hkey
    cases hkey
  · rintro ⟨hlength, hfield, ⟨mode, hmode⟩, ⟨kind, hkind, hsession⟩, hkey⟩
    refine ⟨hlength, hfield, mode, hmode, kind, hkind, hsession, ?_⟩
    cases hset : c.sessionKey? with
    | none => rfl
    | some key => exact if_neg (hkey key hset)

/-! ## What becomes of the settings -/

theorem ofConfig_eq {number : Nat} {kind : StoreKind} (h : c.storeKind = .ok kind) :
    (Store.ofConfig number c : Except OAuthError (Store σ)) = .ok (ofKind number c.lifetime kind) := by
  rw [Store.ofConfig, h]

theorem errorOptions_mode {mode : ErrorMode} (h : c.modeOfErrors = .ok mode) :
    c.errorOptions.mode = mode := by
  rw [errorOptions, h]

theorem signingKey?_eq {key : String} (h : c.sessionKey? = some key) :
    c.signingKey? = some key ↔ ¬ key.utf8ByteSize < keyLength := by
  simp [signingKey?, h, Option.filter_some]

/-- Nothing stands in for what a setting says, and no id is lost. -/
structure AsWritten (σ : Type) (number : Nat) (c : Config) : Prop where
  store : ∃ kind, Says c.store kind.name ∧
    Store.ofConfig number c = .ok (ofKind number c.lifetime kind : Store σ)
  mode : Says c.errorMode c.errorOptions.mode.name
  key : ∀ key, c.sessionKey? = some key → c.signingKey? = some key
  id : ∀ s : Server σ, Store.ofConfig number c = .ok s.store → s.options = c.transactions →
    ∀ t v id v', (s.storeNew t).run v = (.ok id, v') →
      id ≠ "" ∧ ∀ r : Request, r.Sends c.transactions.field id → idParam c.transactions r = .ok id

/-- A setting would be given up for something else, or ids would be lost. -/
inductive Astray (σ : Type) (number : Nat) (c : Config) : Prop where
  | store {e : OAuthError} :
    (Store.ofConfig number c : Except OAuthError (Store σ)) = .error e → Astray σ number c
  | mode : (∀ mode : ErrorMode, ¬ Says c.errorMode mode.name) → Astray σ number c
  | key {key : String} : c.sessionKey? = some key → c.signingKey? ≠ some key → Astray σ number c
  | id {s : Server σ} {t : Transaction} {v v' : Visit σ} :
    Says c.store StoreKind.session.name → s.store = .session → s.options = c.transactions →
    (s.storeNew t).run v = (.ok "", v') → Astray σ number c

theorem Usable.asWritten (h : c.Usable) (number : Nat) : c.AsWritten σ number := by
  obtain ⟨kind, hkind, -⟩ := h.store
  obtain ⟨mode, hmode⟩ := h.mode
  refine ⟨⟨kind, StoreKind.parse_eq_ok_iff.1 hkind, ofConfig_eq hkind⟩, ?_, ?_, ?_⟩
  · rw [errorOptions_mode hmode]
    exact ErrorMode.parse_eq_ok_iff.1 hmode
  · exact fun key hkey => (signingKey?_eq hkey).2 (h.key key hkey)
  · intro s hs hoptions t v id v' hstore
    rw [ofConfig_eq hkind] at hs
    have hne : id ≠ "" :=
      Server.storeNew_ne_empty (Except.ok.inj hs).symm (hoptions ▸ h.idLength) hstore
    exact ⟨hne, fun r hsends => hsends.idParam_eq hne⟩

theorem AsWritten.not_astray {number : Nat} (h : c.AsWritten σ number) : ¬ c.Astray σ number := by
  obtain ⟨kind, hsays, hstore⟩ := h.store
  intro hastray
  cases hastray with
  | store hfailed =>
    rw [hstore] at hfailed
    cases hfailed
  | mode hunknown => exact hunknown _ h.mode
  | key hkey hignored => exact hignored (h.key _ hkey)
  | @id s t v v' hsession hs hoptions hempty =>
    have hkind : c.storeKind = .ok .session := StoreKind.parse_eq_ok_iff.2 hsession
    exact (h.id s (by rw [ofConfig_eq hkind, hs]; rfl) hoptions t v "" v' hempty).1 rfl

/-- What passes is used as it is written, and what would not be used so does not pass. -/
theorem passes_only_as_written (σ : Type) (number : Nat) (c : Config) :
    (c.validate = .ok () → c.AsWritten σ number) ∧
      (c.Astray σ number → ∃ message, c.validate = .error message) := by
  refine ⟨fun h => (validate_eq_ok_iff.1 h).asWritten number, fun h => ?_⟩
  rcases hvalidate : c.validate with message | _
  · exact ⟨message, rfl⟩
  · exact absurd h ((validate_eq_ok_iff.1 hvalidate).asWritten number).not_astray

/-! ## A store and a mode in capitals -/

/-- The key is of just the length that is asked for. -/
def capitals : Config :=
  { standard with
    store := " MEMORY"
    errorMode := "INDIRECT\t"
    session := some (some (String.ofList (List.replicate 64 'k'))) }

/-- One character less, and the key would be ignored. -/
def shortKey : Config :=
  { capitals with session := some (some (String.ofList (List.replicate 63 'k'))) }

theorem capitals_as_written :
    capitals.validate = .ok () ∧ capitals.AsWritten Unit 0 ∧ capitals.errorOptions.mode = .indirect ∧
      Store.ofConfig 0 capitals = .ok (.memory 0 none : Store Unit) ∧ shortKey.Astray Unit 0 ∧
      (∃ message, shortKey.validate = .error message) ∧ shortKey.signingKey? = none := by
  have hastray : shortKey.Astray Unit 0 := .key rfl (fun h => absurd h (by decide))
  exact ⟨rfl, (passes_only_as_written Unit 0 capitals).1 rfl, rfl, rfl, hastray,
    (passes_only_as_written Unit 0 shortKey).2 hastray, rfl⟩

end Config

end AuthServer
