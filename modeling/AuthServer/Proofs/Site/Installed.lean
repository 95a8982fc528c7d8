import AuthServer.Proofs.Bundled
import AuthServer.Proofs.Sparing
import AuthServer.Site.App

/-!
# What the site installs

One store, one form for clients, the code grant and the implicit grant with one
parser, and two exchanges. A response type or a grant type picks one handler at
most.
-/

namespace AuthServer

open Json

/-! ## One handler for a type -/

theorem TypeSet.equalTo_word {w : String} {type : TypeSet} :
    (⟨[w]⟩ : TypeSet).equalTo type = true ↔ type.tokens = [w] := by
  obtain ⟨tokens⟩ := type
  rcases tokens with _ | ⟨x, _ | ⟨y, rest⟩⟩
  · simp [equalTo]
  · simp [equalTo, contains, eq_comm]
  · simp [equalTo]

theorem Layer.appliesTo_word {η : Type} {w : String} (hw : w ≠ wildcard)
    (hparse : TypeSet.parse w = ⟨[w]⟩) (handler : η) (type : TypeSet) :
    (Layer.ofType w handler).appliesTo type = true ↔ type.tokens = [w] := by
  rw [appliesTo, ofType, if_neg hw, hparse]
  exact TypeSet.equalTo_word

/-- Of a handler for codes and one for tokens one applies, or none. -/
theorem Layer.applicable_cases {η : Type} (code token : η) (type : TypeSet) :
    (type.tokens = ["code"] ∧
      applicable [ofType "code" code, ofType "token" token] type = [ofType "code" code]) ∨
    (type.tokens = ["token"] ∧
      applicable [ofType "code" code, ofType "token" token] type = [ofType "token" token]) ∨
    applicable [ofType "code" code, ofType "token" token] type = [] := by
  have hcode := appliesTo_word (w := "code") (by decide) (by decide) code type
  have htoken := appliesTo_word (w := "token") (by decide) (by decide) token type
  unfold applicable
  by_cases hc : type.tokens = ["code"]
  · have ht : ¬ type.tokens = ["token"] := by rw [hc]; decide
    exact .inl ⟨hc, by simp [hcode.2 hc, mt htoken.1 ht]⟩
  · by_cases ht : type.tokens = ["token"]
    · exact .inr (.inl ⟨ht, by simp [htoken.2 ht, mt hcode.1 hc]⟩)
    · exact .inr (.inr (by simp [mt hcode.1 hc, mt htoken.1 ht]))

theorem Dispatcher.firstDone_singleton {s : Type} (x : Step s Flow) : firstDone [x] = x.guarded := by
  funext st
  show (firstDone [x]).run st = x.guarded.run st
  unfold firstDone
  rw [Step.run_bind]
  rcases x.guarded.run st with ⟨_ | _ | _, _⟩ <;> rfl

namespace Site

/-! ## Clients -/

/-- Clients are listed under their ids. -/
def Directory.Keyed (d : Directory) : Prop := ∀ id c, d.value? id = some c → c.id = id

theorem Directory.keyed_ofList (cs : List Client) : (ofList cs).Keyed := by
  have hput : ∀ (d : Directory) (c : Client), d.Keyed → Keyed (d.put c.id c) := by
    intro d c hd id c' hvalue
    rw [Entries.value?_put] at hvalue
    split at hvalue
    · cases hvalue
      assumption
    · exact hd id c' hvalue
  have hfold : ∀ (cs : List Client) (d : Directory), d.Keyed →
      Keyed (cs.foldl (fun d c => d.put c.id c) d) := by
    intro cs
    induction cs with
    | nil => exact fun _ hd => hd
    | cons c rest ih => exact fun d hd => ih _ (hput d c hd)
  exact hfold cs [] nofun

namespace App

structure Installed (a : App) : Prop where
  store : a.server.store = .session ∨ ∃ lifetime, a.server.store = .memory 0 lifetime
  options : a.server.options = a.config.transactions
  clients : a.server.clients = ⟨[Directory.writeId], [a.clients.readId]⟩
  parsers : a.server.dispatcher.parsers =
    [.ofType "code" (Grant.parser standardSeparators), .ofType "token" (Grant.parser standardSeparators)]
  responders : a.server.dispatcher.responders =
    [.ofType "code" (Grant.responder .standard "query" Issuer.issueCode Grant.codeParams),
      .ofType "token" (Grant.responder .standard "fragment" Issuer.issueToken Grant.tokenParams)]
  errorResponders : a.server.dispatcher.errorResponders =
    [.ofType "code" (Grant.redirectErrors .standard "query"),
      .ofType "token" (Grant.redirectErrors .standard "fragment")]
  exchanges : a.server.dispatcher.exchanges =
    [⟨some "authorization_code", Exchange.authorizationCode .standard Issuer.exchangeCode⟩,
      ⟨some "client_credentials", Exchange.clientCredentials .standard Issuer.exchangeCredentials⟩]
  keyed : a.clients.Keyed

theorem installed_ofConfig {config : Config} {clients : List Client} {a : App}
    (h : App.ofConfig config (.ofList clients) = .ok a) : a.Installed := by
  have hkeyed := Directory.keyed_ofList clients
  unfold App.ofConfig Store.ofConfig at h
  rcases hkind : config.storeKind with e | kind <;> rw [hkind] at h
  · cases h
  · cases h
    refine ⟨?_, rfl, rfl, rfl, rfl, rfl, rfl, hkeyed⟩
    cases kind with
    | session => exact .inl rfl
    | memory => exact .inr ⟨_, rfl⟩

namespace Installed

variable {a : App} (ha : a.Installed)
include ha

theorem write_client (c : Client) (host : Issuer) :
    (a.server.clients.write c.toValue).run host = (.ok (.str c.id), host) := by
  rw [ha.clients]
  rfl

theorem write_keeps (client : Value) (host : Issuer) :
    (a.server.clients.write client).Keeps (· = host) := by
  have hwrite : (Directory.writeId client : Step Issuer _).Keeps (· = host) := by
    unfold Directory.writeId
    split
    · exact Step.keeps_pure _
    · exact Step.keeps_pure _
  rw [ha.clients]
  refine hwrite.guarded.bind fun link => ?_
  cases link with
  | matched v =>
    simp only
    split
    · exact Step.keeps_pure v
    · exact Step.keeps_fail _
  | skip => exact Step.keeps_fail _
  | failed e => exact Step.keeps_fail e

theorem read_client {id : String} {c : Client} (h : a.clients.value? id = some c) (host : Issuer) :
    (a.server.clients.read (.str id)).run host = (.ok (some c.toValue), host) := by
  have hlink : (a.clients.readId (.str id) : Step Issuer _) = pure (.matched (some c.toValue)) := by
    show pure (Link.matched ((a.clients.value? id).map Client.toValue)) = _
    rw [h]
    rfl
  rw [ha.clients, ClientForms.read, ClientForms.readWith, hlink]
  rfl

theorem read_keeps (stored : Value) (host : Issuer) :
    (a.server.clients.read stored).Keeps (· = host) := by
  have hread : (a.clients.readId stored : Step Issuer _).Keeps (· = host) := by
    unfold Directory.readId
    split
    · exact Step.keeps_pure _
    · exact Step.keeps_pure _
  rw [ha.clients]
  refine hread.guarded.bind fun link => ?_
  cases link with
  | matched v => exact Step.keeps_pure _
  | skip => exact Step.keeps_fail _
  | failed e => exact Step.keeps_fail e

/-- The code book is left to those who answer. -/
theorem sparing : a.server.Sparing where
  store := ha.store.imp_right fun ⟨lifetime, hs⟩ => ⟨0, lifetime, hs⟩
  write := ha.write_keeps
  read := ha.read_keeps
  parse := by
    rw [ha.parsers]
    exact List.forall_mem_cons.2 ⟨fun _ _ => Step.keeps_ofExcept _,
      List.forall_mem_singleton.2 fun _ _ => Step.keeps_ofExcept _⟩
  tell := by
    rw [ha.errorResponders]
    exact List.forall_mem_cons.2
      ⟨fun e t _ => Grant.redirectErrors_spares ResponseModes.standard_builtIn "query" e t,
        List.forall_mem_singleton.2
          fun e t _ => Grant.redirectErrors_spares ResponseModes.standard_builtIn "fragment" e t⟩

theorem bundled : a.server.Bundled where
  responders := by
    rw [ha.responders]
    exact List.forall_mem_cons.2
      ⟨⟨.code .standard Issuer.issueCode, .code ResponseModes.standard_builtIn, rfl⟩,
        List.forall_mem_singleton.2
          ⟨.token .standard Issuer.issueToken, .token ResponseModes.standard_builtIn, rfl⟩⟩
  errorResponders := by
    rw [ha.errorResponders]
    exact List.forall_mem_cons.2
      ⟨⟨.code .standard Issuer.issueCode, .code ResponseModes.standard_builtIn, rfl⟩,
        List.forall_mem_singleton.2
          ⟨.token .standard Issuer.issueToken, .token ResponseModes.standard_builtIn, rfl⟩⟩

theorem bundled_exchanges : ∀ l ∈ a.server.dispatcher.exchanges, Exchange.Bundled l.exchange := by
  rw [ha.exchanges]
  exact List.forall_mem_cons.2 ⟨.issuing, List.forall_mem_singleton.2 .issuing⟩

end Installed

end App

end Site

end AuthServer
