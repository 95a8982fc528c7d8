import AuthServer.Proofs.InTurn

/-!
# What the pipelines of a server do with its registrations

Handlers are registered one by one, each under a type or under the wildcard.
Whatever the handlers do: all parsers for a type contribute up to the first
that fails, responders and exchanges are tried until one is done or fails, and
error responders go on after a failure, with the error that it left in play.
-/

namespace AuthServer

open Json

variable {σ η : Type}

/-! ## Registrations -/

/-- A handler and the name it is registered under. -/
structure Registered (η : Type) where
  name : String
  handler : η

namespace Registered

/-- The wildcard serves every type, another name those with its tokens. -/
def serves (type : TypeSet) (r : Registered η) : Bool :=
  r.name = wildcard || (TypeSet.parse r.name).equalTo type

/-- The wildcard serves every grant type and a request without one, another name itself alone. -/
def servesGrant (grantType : Option String) (r : Registered η) : Bool :=
  r.name = wildcard || grantType = some r.name

def layer (r : Registered η) : Layer η := .ofType r.name r.handler

def exchangeLayer (r : Registered (Exchange σ)) : ExchangeLayer σ :=
  ⟨if r.name = wildcard then none else some r.name, r.handler⟩

theorem appliesTo_layer (r : Registered η) (type : TypeSet) :
    r.layer.appliesTo type = r.serves type := by
  unfold layer Layer.ofType Layer.appliesTo serves
  by_cases h : r.name = wildcard <;> simp [h]

theorem isSome_layer (r : Registered η) : r.layer.type.isSome = decide (r.name ≠ wildcard) := by
  unfold layer Layer.ofType
  by_cases h : r.name = wildcard <;> simp [h]

theorem applicable_layers (rs : List (Registered η)) (type : TypeSet) :
    Layer.applicable (rs.map layer) type = (rs.filter (·.serves type)).map layer := by
  unfold Layer.applicable
  rw [List.filter_map]
  exact congrArg _ (List.filter_congr fun r _ => appliesTo_layer r type)

theorem appliesTo_exchangeLayer (r : Registered (Exchange σ)) (grantType : Option String) :
    r.exchangeLayer.appliesTo grantType = r.servesGrant grantType := by
  unfold exchangeLayer ExchangeLayer.appliesTo servesGrant
  by_cases h : r.name = wildcard <;> simp [h]

end Registered

inductive Registration (σ : Type) where
  | parser (r : Registered (RequestParser σ))
  | responder (r : Registered (Responder σ))
  | errorResponder (r : Registered (ErrorResponder σ))
  | exchange (r : Registered (Exchange σ))

namespace Registration

def parsers (rs : List (Registration σ)) : List (Registered (RequestParser σ)) :=
  rs.filterMap fun | parser r => some r | _ => none

def responders (rs : List (Registration σ)) : List (Registered (Responder σ)) :=
  rs.filterMap fun | responder r => some r | _ => none

def errorResponders (rs : List (Registration σ)) : List (Registered (ErrorResponder σ)) :=
  rs.filterMap fun | errorResponder r => some r | _ => none

def exchanges (rs : List (Registration σ)) : List (Registered (Exchange σ)) :=
  rs.filterMap fun | exchange r => some r | _ => none

end Registration

namespace Dispatcher

def register (d : Dispatcher σ) : Registration σ → Dispatcher σ
  | .parser r => d.addParser r.name r.handler
  | .responder r => d.addResponder r.name r.handler
  | .errorResponder r => d.addErrorResponder r.name r.handler
  | .exchange r => d.addExchange r.name r.handler

/-- The dispatcher that these registrations make, the first one first. -/
def ofRegistrations (rs : List (Registration σ)) : Dispatcher σ := rs.foldl register empty

theorem foldl_register (rs : List (Registration σ)) (d : Dispatcher σ) :
    rs.foldl register d =
      ⟨d.parsers ++ (Registration.parsers rs).map Registered.layer,
        d.responders ++ (Registration.responders rs).map Registered.layer,
        d.errorResponders ++ (Registration.errorResponders rs).map Registered.layer,
        d.exchanges ++ (Registration.exchanges rs).map Registered.exchangeLayer⟩ := by
  induction rs generalizing d with
  | nil => simp [Registration.parsers, Registration.responders, Registration.errorResponders,
      Registration.exchanges]
  | cons r rest ih =>
    rw [List.foldl_cons, ih]
    cases r <;>
      simp [register, addParser, addResponder, addErrorResponder, addExchange, Registration.parsers,
        Registration.responders, Registration.errorResponders, Registration.exchanges,
        Registered.layer, Registered.exchangeLayer]

theorem ofRegistrations_eq (rs : List (Registration σ)) :
    ofRegistrations rs =
      ⟨(Registration.parsers rs).map Registered.layer, (Registration.responders rs).map Registered.layer,
        (Registration.errorResponders rs).map Registered.layer,
        (Registration.exchanges rs).map Registered.exchangeLayer⟩ :=
  foldl_register rs empty

end Dispatcher

/-! ## Parsers -/

/-- What outputs add up to: deep merges in order, without a type among them. -/
def contributed (fields : Params) (outputs : List Params) : Params :=
  outputs.foldl (fun fields output => merge fields (output.swapRemove "type")) fields

/-- All parsers are tried and none fails, or they are tried up to the first that fails. -/
inductive Contributing (req : Request) (parsers : List (Registered (RequestParser σ))) (host : σ) :
    Except Fault (List Params) → σ → Prop where
  | all {trials : List (Trial (Registered (RequestParser σ)) Params)} {outputs : List Params}
    {host' : σ} :
    InTurn (fun p => p.handler req) host trials host' →
    parsers = trials.map Trial.handler → trials.map Trial.answer = outputs.map .ok →
    Contributing req parsers host (.ok outputs) host'
  | failed {earlier : List (Trial (Registered (RequestParser σ)) Params)}
    {p : Registered (RequestParser σ)} {later : List (Registered (RequestParser σ))}
    {outputs : List Params} {f : Fault} {host' : σ} :
    InTurn (fun p => p.handler req) host (earlier ++ [⟨p, .error f⟩]) host' →
    parsers = earlier.map Trial.handler ++ p :: later →
    earlier.map Trial.answer = outputs.map .ok →
    Contributing req parsers host (.error (.error f.report)) host'

section Parsers

variable {req : Request} {p : Registered (RequestParser σ)}
  {rest : List (Registered (RequestParser σ))} {host host₁ host' : σ}

theorem Contributing.here {f : Fault} (hrun : (p.handler req).run host = (.error f, host')) :
    Contributing req (p :: rest) host (.error (.error f.report)) host' := by
  have hturn : InTurn (fun p => p.handler req) host ([] ++ [⟨p, .error f⟩]) host' := .single hrun
  exact .failed hturn rfl (List.map_nil.trans List.map_nil.symm)

theorem Contributing.later {output : Params} {r : Except Fault (List Params)}
    (hrun : (p.handler req).run host = (.ok output, host₁))
    (hrest : Contributing req rest host₁ r host') :
    Contributing req (p :: rest) host (r.map (output :: ·)) host' := by
  cases hrest with
  | all hturn hrest hok =>
    exact .all (.cons hrun hturn) (by rw [hrest]; rfl) (by rw [List.map_cons, hok]; rfl)
  | @failed earlier p₁ _ outputs f _ hturn hrest hok =>
    have hturn : InTurn (fun p => p.handler req) host ((⟨p, .ok output⟩ :: earlier) ++ [⟨p₁, .error f⟩])
        host' := .cons hrun hturn
    have hok : (⟨p, .ok output⟩ :: earlier).map Trial.answer = (output :: outputs).map .ok := by
      rw [List.map_cons, hok]
      rfl
    exact .failed hturn (by rw [hrest]; rfl) hok

end Parsers

/-- `q` is what the parsers before these made of the request. -/
theorem Dispatcher.parseWith_contributing (req : Request)
    (parsers : List (Registered (RequestParser σ))) (q : Parsed) (host : σ) :
    ∃ r host', Contributing req parsers host r host' ∧
      (parseWith req (parsers.map Registered.layer) q).run host =
        (r.map fun outputs =>
          ⟨{ q.request with fields := contributed q.request.fields outputs },
            q.recognized || parsers.any (·.name ≠ wildcard)⟩, host') := by
  induction parsers generalizing q host with
  | nil => exact ⟨.ok [], host, .all (.nil host) rfl rfl, by simp [parseWith, contributed]; rfl⟩
  | cons p rest ih =>
    rw [List.map_cons, parseWith, Step.run_bind, Step.run_guarded]
    rcases hrun : (p.handler req).run host with ⟨f | output, host₁⟩ <;>
      rw [show (p.layer.handler req).run host = _ from hrun]
    · exact ⟨_, host₁, .here hrun, rfl⟩
    · obtain ⟨r, host', hrest, hparse⟩ :=
        ih ⟨q.request.merge output, q.recognized || p.layer.type.isSome⟩ host₁
      refine ⟨_, host', hrest.later hrun, ?_⟩
      show (parseWith req (rest.map Registered.layer)
        ⟨q.request.merge output, q.recognized || p.layer.type.isSome⟩).run host₁ = _
      rw [hparse, Registered.isSome_layer]
      cases r with
      | error => rfl
      | ok outputs => simp [Except.map, contributed, AuthorizationRequest.merge, Bool.or_assoc]

/-! ## Error responders -/

/-- What a trial failed with. -/
def Trial.failure? {α : Type} (t : Trial η α) : Option Fault :=
  match t.answer with
  | .error f => some f
  | .ok _ => none

/-- The error in play after these trials: the last that one of them failed with, or the one before. -/
def inPlay (e : OAuthError) (trials : List (Trial η Flow)) : OAuthError :=
  ((trials.filterMap Trial.failure?).getLast?.map Fault.report).getD e

theorem inPlay_append (e : OAuthError) (trials more : List (Trial η Flow)) :
    inPlay e (trials ++ more) = inPlay (inPlay e trials) more := by
  unfold inPlay
  rw [List.filterMap_append, List.getLast?_append]
  cases (more.filterMap Trial.failure?).getLast? <;> simp

/-- Each handler is tried with the error in play, up to the first that is done. -/
structure Chained (t : Transaction) (handlers : List (Registered (ErrorResponder σ))) (e : OAuthError)
    (reply : Reply σ) (trials : List (Trial (Registered (ErrorResponder σ) × OAuthError) Flow))
    (r : Except Fault Unit) (reply' : Reply σ) : Prop where
  inTurn : InTurn (fun h => h.1.handler h.2 t) reply trials reply'
  inOrder : trials.map (·.handler.1) <+: handlers
  given : ∀ earlier x later, trials = earlier ++ x :: later → x.handler.2 = inPlay e earlier
  last : ∀ earlier x later, trials = earlier ++ x :: later → x.answer = .ok .done → later = []
  ok_iff : r = .ok () ↔ ∃ x ∈ trials, x.answer = .ok .done
  /-- Nobody is left to ask. -/
  handedBack : r ≠ .ok () →
    trials.map (·.handler.1) = handlers ∧ r = .error (.error (inPlay e trials))

namespace Chained

variable {t : Transaction} {h : Registered (ErrorResponder σ)}
  {rest : List (Registered (ErrorResponder σ))} {e : OAuthError} {reply reply₁ reply' : Reply σ}
  {trials : List (Trial (Registered (ErrorResponder σ) × OAuthError) Flow)} {r : Except Fault Unit}

theorem nil (t : Transaction) (e : OAuthError) (reply : Reply σ) :
    Chained t [] e reply [] (.error (.error e)) reply where
  inTurn := .nil reply
  inOrder := List.prefix_refl _
  given earlier _ _ h := by cases earlier <;> cases h
  last earlier _ _ h := by cases earlier <;> cases h
  ok_iff := ⟨nofun, fun ⟨_, hmem, _⟩ => absurd hmem List.not_mem_nil⟩
  handedBack _ := ⟨rfl, rfl⟩

theorem here (hrun : (h.handler e t).run reply = (.ok .done, reply')) :
    Chained t (h :: rest) e reply [⟨(h, e), .ok .done⟩] (.ok ()) reply' where
  inTurn := .single hrun
  inOrder := ⟨rest, rfl⟩
  given earlier x later hsplit := by
    rcases earlier with _ | ⟨y, earlier⟩
    · obtain ⟨rfl, -⟩ := List.cons.inj hsplit
      rfl
    · cases earlier <;> cases (List.cons.inj hsplit).2
  last earlier x later hsplit _ := by
    rcases earlier with _ | ⟨y, earlier⟩
    · exact (List.cons.inj hsplit).2.symm
    · cases earlier <;> cases (List.cons.inj hsplit).2
  ok_iff := ⟨fun _ => ⟨_, List.mem_singleton_self _, rfl⟩, fun _ => rfl⟩
  handedBack hne := absurd rfl hne

/-- The rest is tried with the error that the first one left in play. -/
theorem later {answer : Except Fault Flow} (hrun : (h.handler e t).run reply = (answer, reply₁))
    (hgoes : answer ≠ .ok .done)
    (hrest : Chained t rest (inPlay e [⟨(h, e), answer⟩]) reply₁ trials r reply') :
    Chained t (h :: rest) e reply (⟨(h, e), answer⟩ :: trials) r reply' where
  inTurn := .cons hrun hrest.inTurn
  inOrder := List.prefix_cons_inj _ |>.2 hrest.inOrder
  given earlier x later hsplit := by
    rcases earlier with _ | ⟨y, earlier⟩
    · obtain ⟨rfl, -⟩ := List.cons.inj hsplit
      rfl
    · obtain ⟨rfl, hrestsplit⟩ := List.cons.inj hsplit
      rw [hrest.given earlier x later hrestsplit]
      exact (inPlay_append e [⟨(h, e), answer⟩] earlier).symm
  last earlier x later hsplit hdone := by
    rcases earlier with _ | ⟨y, earlier⟩
    · obtain ⟨rfl, -⟩ := List.cons.inj hsplit
      exact absurd hdone hgoes
    · exact hrest.last earlier x later (List.cons.inj hsplit).2 hdone
  ok_iff := by
    rw [hrest.ok_iff]
    simp only [List.mem_cons, exists_eq_or_imp, hgoes, false_or]
  handedBack hne := by
    obtain ⟨hall, hr⟩ := hrest.handedBack hne
    exact ⟨congrArg (h :: ·) hall, hr.trans (by rw [← inPlay_append]; rfl)⟩

end Chained

theorem Dispatcher.respondErrorWith_chained (t : Transaction)
    (handlers : List (Registered (ErrorResponder σ))) (e : OAuthError) (reply : Reply σ) :
    ∃ trials, Chained t handlers e reply trials
      ((respondErrorWith t (handlers.map Registered.layer) e).run reply).1
      ((respondErrorWith t (handlers.map Registered.layer) e).run reply).2 := by
  induction handlers generalizing e reply with
  | nil => exact ⟨[], .nil t e reply⟩
  | cons h rest ih =>
    rw [List.map_cons, respondErrorWith, Step.run_bind, Step.run_attempt]
    rcases hrun : (h.handler e t).run reply with ⟨f | _ | _, reply₁⟩ <;>
      rw [show (h.layer.handler e t).run reply = _ from hrun]
    · obtain ⟨trials, hrest⟩ := ih f.report reply₁
      exact ⟨_, .later hrun nofun hrest⟩
    · exact ⟨_, .here hrun⟩
    · obtain ⟨trials, hrest⟩ := ih e reply₁
      exact ⟨_, .later hrun nofun hrest⟩

/-! ## The whole -/

/-- Handlers are tried in order up to the first that is done or fails. -/
structure Piped {s : Type} (run : η → Step s Flow) (handlers : List η) (st : s) (r : Except Fault Flow)
    (st' : s) : Prop where
  firstDecisive : FirstDecisive run Flow.verdict (.ok .next) handlers st r st'
  next_iff : r = .ok .next ↔ ∃ trials, InTurn run st trials st' ∧
    handlers = trials.map Trial.handler ∧ ∀ t ∈ trials, t.answer = .ok .next

theorem Dispatcher.firstDone_piped {s : Type} (run : η → Step s Flow) (handlers : List η) (st : s) :
    Piped run handlers st ((firstDone (handlers.map run)).run st).1
      ((firstDone (handlers.map run)).run st).2 := by
  have hfirst := firstDone_firstDecisive run handlers st
  refine ⟨hfirst, (hfirst.eq_otherwise_iff Flow.verdict_ne_next).trans ?_⟩
  simp only [Flow.verdict_eq_none_iff]

/-- The pipelines do with the registrations what their order says. -/
structure Dispatcher.Follows (d : Dispatcher σ) (rs : List (Registration σ)) : Prop where
  parse : ∀ type req host, ∃ r host',
    Contributing req ((Registration.parsers rs).filter (·.serves type)) host r host' ∧
      (d.parse type req).run host =
        (r.map fun outputs => ⟨⟨type, contributed [] outputs⟩,
          ((Registration.parsers rs).filter (·.serves type)).any (·.name ≠ wildcard)⟩, host')
  respond : ∀ t complete reply,
    Piped (fun h => h.handler t complete)
      ((Registration.responders rs).filter (·.serves t.request.type)) reply
      ((d.respond t complete).run reply).1 ((d.respond t complete).run reply).2
  exchange : ∀ grantType req reply,
    Piped (fun h => h.handler req) ((Registration.exchanges rs).filter (·.servesGrant grantType)) reply
      ((d.exchange grantType req).run reply).1 ((d.exchange grantType req).run reply).2
  respondError : ∀ e t reply, ∃ trials,
    Chained t ((Registration.errorResponders rs).filter (·.serves t.request.type)) e reply trials
      ((d.respondError e t).run reply).1 ((d.respondError e t).run reply).2

theorem Dispatcher.follows_registrations (rs : List (Registration σ)) :
    (ofRegistrations rs).Follows rs := by
  rw [ofRegistrations_eq]
  constructor
  · intro type req host
    unfold parse
    rw [Registered.applicable_layers]
    obtain ⟨r, host', hcontributing, hparse⟩ := parseWith_contributing req
      ((Registration.parsers rs).filter (·.serves type)) ⟨.ofType type, false⟩ host
    refine ⟨r, host', hcontributing, hparse.trans ?_⟩
    rw [Bool.false_or]
    rfl
  · intro t complete reply
    unfold respond
    rw [Registered.applicable_layers, List.map_map]
    exact firstDone_piped _ _ reply
  · intro grantType req reply
    unfold exchange
    have hserving : ((Registration.exchanges rs).map Registered.exchangeLayer).filter
        (·.appliesTo grantType) =
        ((Registration.exchanges rs).filter (·.servesGrant grantType)).map
          Registered.exchangeLayer := by
      rw [List.filter_map]
      exact congrArg _ (List.filter_congr fun r _ => r.appliesTo_exchangeLayer grantType)
    rw [hserving, List.map_map]
    exact firstDone_piped _ _ reply
  · intro e t reply
    unfold respondError
    rw [Registered.applicable_layers]
    exact respondErrorWith_chained t _ e reply

end AuthServer
