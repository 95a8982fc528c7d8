import AuthServer.Proofs.Bundled
import AuthServer.Proofs.Redirects

/-!
# The ledger of redirect URIs

Beside the traffic of a server runs a ledger of what the host's validations
returned. A suspended transaction takes its entry into the store, a loaded one
takes it back out. Calls redirect to what the ledger has for the transaction
at hand, and where it has nothing they do not redirect at all.
-/

namespace AuthServer

open Json Store

variable {σ : Type}

/-- The redirect URIs that validations returned: for the transaction of each pair, and for what is
stored in each place by id. -/
structure Ledger where
  current : Nat → Option String
  stored : Nat → String → Option String

namespace Archive

/-- The pairs share one place, or each has its own. -/
def place : Archive → Nat → Nat
  | shared _, _ => 0
  | carried _, i => i

/-- What a request brings along in its session. -/
def Brings (k : Archive) (request : Request) (id : String) (u : Option String) : Prop :=
  match k with
  | shared _ => False
  | carried reach => reach request.session id u

end Archive

/-- A call of the authorization endpoints, errors rendered in the built-in modes. -/
def Call.Confined : Call σ → Prop
  | renderError renderer _ => renderer.modes.BuiltIn
  | token => False
  | _ => True

namespace Server

variable {s : Server σ} {k : Archive} {u : Option String} {o : String → Option String}
  {v v' : Visit σ}

/-- What a call makes of the URI of the request's transaction and of those in the store. Only a
validation brings a new one in. -/
def account (s : Server σ) (c : Call σ) (v : Visit σ) (r : Except Fault (Option Outcome))
    (u : Option String) (o : String → Option String) : Option String × (String → Option String) :=
  match c with
  | .authorize cb =>
    match s.validation cb v with
    | none => (u, o)
    | some u' => (u', recorded o u' r)
  | .load => (s.loadedUri o u v r, o)
  | .resume _ _ => (u, recorded o u r)
  | _ => (u, o)

theorem call_guided (hk : s.Archived k) (hb : s.Bundled) {c : Call σ} (hc : c.Confined)
    (hv : Guided s k u o v.response v) {r : Except Fault (Option Outcome)}
    (h : (c.run s).run v = (r, v')) :
    Guided s k (s.account c v r u o).1 (s.account c v r u o).2 v.response v' := by
  cases c with
  | authorize cb =>
    obtain ⟨r₁, hrun, rfl⟩ := Step.map_cases h
    rcases authorize_guided hk hb hv hrun with ⟨hu, hguided⟩ | ⟨u', hu, hguided⟩
    · simp only [account, hu]
      exact hguided
    · simp only [account, hu]
      exact hguided
  | load =>
    obtain ⟨r₁, hrun, rfl⟩ := Step.map_cases h
    exact load_guided hk hv hrun
  | resume immediate completion =>
    obtain ⟨r₁, hrun, rfl⟩ := Step.map_cases h
    exact resume_guided hk hb hv hrun
  | decide d cb =>
    obtain ⟨r₁, hrun, rfl⟩ := Step.map_cases h
    exact decide_guided hb hv hrun
  | redirectError e =>
    obtain ⟨r₁, hrun, rfl⟩ := Step.map_cases h
    exact redirectError_guided hb hv hrun
  | renderError renderer e =>
    obtain ⟨r₁, hrun, rfl⟩ := Step.map_cases h
    exact render_guided hc hv hrun
  | token => cases hc
  | finish =>
    obtain ⟨r₁, hrun, rfl⟩ := Step.map_cases h
    exact finish_guided hk hv hrun

end Server

/-! ## Entries -/

namespace Ledger

variable {s : Server σ} {k : Archive} {T : Traffic σ} {L : Ledger}

def empty : Ledger := ⟨fun _ => none, fun _ _ => none⟩

def enter (L : Ledger) (k : Archive) (i : Nat) (u : Option String) (o : String → Option String) :
    Ledger :=
  ⟨Function.update L.current i u, Function.update L.stored (k.place i) o⟩

/-- After the call `c` of the pair `i`, which ended with `r`. -/
def after (L : Ledger) (s : Server σ) (k : Archive) (i : Nat) (c : Call σ) (v : Visit σ)
    (r : Except Fault (Option Outcome)) : Ledger :=
  let a := s.account c v r (L.current i) (L.stored (k.place i))
  L.enter k i a.1 a.2

theorem enter_self (L : Ledger) (k : Archive) (i : Nat) :
    L.enter k i (L.current i) (L.stored (k.place i)) = L := by
  rw [enter, Function.update_eq_self, Function.update_eq_self]

@[simp] theorem current_enter (L : Ledger) (k : Archive) (i : Nat) (u : Option String)
    (o : String → Option String) : (L.enter k i u o).current i = u :=
  Function.update_self ..

/-- Every pair is on the way that the ledger tells. -/
def Sound (L : Ledger) (s : Server σ) (k : Archive) (T : Traffic σ) : Prop :=
  ∀ i, Server.Guided s k (L.current i) (L.stored (k.place i)) (T.visit i).response (T.visit i)

/-- A new visit of one pair leaves the others where they are, though the world is shared. -/
theorem Sound.enter (hL : L.Sound s k T) {i : Nat} {u : Option String} {o : String → Option String}
    {v : Visit σ} (hv : Server.Guided s k u o v.response v) :
    (L.enter k i u o).Sound s k (T.put i v) := by
  intro j
  by_cases hj : j = i
  · subst hj
    rw [Traffic.visit_put, current_enter]
    simp only [Ledger.enter, Function.update_self]
    exact hv
  · obtain ⟨⟨-, hhooks, hdistinct, horigin⟩, hcarried⟩ := hL j
    rw [Traffic.visit_put_ne T hj]
    simp only [Ledger.enter, Function.update_of_ne hj]
    refine ⟨⟨.kept rfl, hhooks, hdistinct, fun id u' hat => ?_⟩, hcarried⟩
    cases k with
    | shared reach =>
      simp only [Archive.place, Function.update_self]
      exact hv.traced.origin id u' hat
    | carried reach =>
      simp only [Archive.place, Function.update_of_ne hj]
      exact horigin id u' hat

end Ledger

/-! ## Runs -/

/-- Traffic of a server with its ledger. Requests come without a transaction, in a new session or
in the session that some pair has by then. Between the calls the host may do what it likes, but
for the sessions and the transactions. -/
inductive Tracked (s : Server σ) (k : Archive) : Traffic σ → Ledger → Prop where
  | start {T : Traffic σ} :
    (∀ i, (T.pairs i).1.transaction = none ∧ (T.pairs i).1.Distinct s.options.sessionKey ∧
      (T.pairs i).2.hooks = [] ∧ ∀ id u, ¬ k.At (T.visit i) id u) →
    Tracked s k T .empty
  | arrive {T : Traffic σ} {L : Ledger} {request : Request} {response : Response σ} (i : Nat) :
    Tracked s k T L → request.transaction = none → request.Distinct s.options.sessionKey →
    response.hooks = [] → (∀ id u, ¬ k.Brings request id u) →
    Tracked s k (T.put i ⟨request, response, T.world⟩) (L.enter k i none (L.stored (k.place i)))
  | revisit {T : Traffic σ} {L : Ledger} {request : Request} {response : Response σ} (i j : Nat) :
    Tracked s k T L → request.transaction = none → request.session = (T.pairs j).1.session →
    response.hooks = [] →
    Tracked s k (T.put i ⟨request, response, T.world⟩) (L.enter k i none (L.stored (k.place j)))
  | work {T : Traffic σ} {L : Ledger} {request : Request} {response : Response σ}
    {hooks : List (FinishHook σ)} (i : Nat) (host : σ) :
    Tracked s k T L → (∀ t, request.transaction = some t → (T.pairs i).1.transaction = some t) →
    request.session = (T.pairs i).1.session → response.hooks = (T.pairs i).2.hooks ++ hooks →
    (∀ hook ∈ hooks, hook.Harmless s) →
    Tracked s k (T.put i ⟨request, response, { T.world with host }⟩) L
  | call {T : Traffic σ} {L : Ledger} {c : Call σ} (i : Nat) :
    Tracked s k T L → c.Confined →
    Tracked s k (T.call s i c).2 (L.after s k i c (T.visit i) (T.call s i c).1)

section Runs

variable {s : Server σ} {k : Archive} (hk : s.Archived k) (hb : s.Bundled)
include hk hb

theorem sound_of_tracked {T : Traffic σ} {L : Ledger} (hT : Tracked s k T L) : L.Sound s k T := by
  induction hT with
  | @start T hfresh =>
    intro i
    obtain ⟨hnew, hdistinct, hhooks, hnothing⟩ := hfresh i
    refine ⟨⟨.kept rfl, ?_, hdistinct, fun id u hat => absurd hat (hnothing id u)⟩, fun t ht => ?_⟩
    · show ∀ hook ∈ (T.pairs i).2.hooks, _
      rw [hhooks]
      exact nofun
    · cases hnew.symm.trans ht
  | @arrive T L request response i _ hnew hdistinct hhooks hnothing ih =>
    refine ih.enter ⟨⟨.kept rfl, ?_, hdistinct, fun id u hat => ?_⟩, fun t ht => ?_⟩
    · show ∀ hook ∈ response.hooks, _
      rw [hhooks]
      exact nofun
    · cases k with
      | shared reach => exact (ih i).traced.origin id u hat
      | carried reach => exact absurd hat (hnothing id u)
    · cases hnew.symm.trans ht
  | @revisit T L request response i j _ hnew hsession hhooks ih =>
    refine ih.enter ⟨⟨.kept rfl, ?_, (ih j).traced.congr hsession rfl⟩, fun t ht => ?_⟩
    · show ∀ hook ∈ response.hooks, _
      rw [hhooks]
      exact nofun
    · cases hnew.symm.trans ht
  | @work T L request response hooks i host _ hsame hsession hhooks hharmless ih =>
    rw [← L.enter_self k i]
    refine ih.enter ⟨⟨.kept rfl, ?_, (ih i).traced.congr hsession rfl⟩, fun t ht => ?_⟩
    · intro hook hmem
      rw [hhooks] at hmem
      rcases List.mem_append.1 hmem with hmem | hmem
      · exact (ih i).hooks hook hmem
      · exact hharmless hook hmem
    · exact (ih i).carried t (hsame t ht)
  | @call T L c i _ hc ih =>
    have hguided := Server.call_guided hk hb hc (ih i) rfl
    exact ih.enter ⟨⟨.kept rfl, hguided.hooks, hguided.traced⟩, hguided.carried⟩

/-- A call leaves the location of its response, or redirects to the URI that the ledger has for the
transaction it leaves on the request. The other responses stay. -/
theorem located_by_ledger {T T' : Traffic σ} {L : Ledger} (hT : Tracked s k T L) {i : Nat}
    {c : Call σ} (hc : c.Confined) {r : Except Fault (Option Outcome)} (h : T.call s i c = (r, T')) :
    Located ((L.after s k i c (T.visit i) r).current i) (T.visit i).response (T'.visit i).response ∧
      ∀ j ≠ i, (T'.visit j).response = (T.visit j).response := by
  rcases hrun : (c.run s).run (T.visit i) with ⟨r₁, v'⟩
  rw [Traffic.call, hrun, Prod.mk.injEq] at h
  obtain ⟨rfl, rfl⟩ := h
  refine ⟨?_, fun j hj => by rw [Traffic.visit_put_ne T hj]⟩
  rw [Traffic.visit_put, Ledger.after, Ledger.current_enter]
  exact (Server.call_guided hk hb hc (sound_of_tracked hk hb hT i) hrun).located

end Runs

/-! ## A lure -/

namespace Server

def granting : AuthorizationCallbacks Unit :=
  { trusting with immediate := some fun _ => pure ⟨true, none, none⟩ }

/-- Every request asks for a code, to be sent elsewhere. -/
def luring : Traffic Unit := ⟨fun _ => (codeRequest, .empty), asking.world⟩

def lured : Traffic Unit := (luring.call (coding (.memory 0 none)) 0 (.authorize granting)).2

theorem luring_tracked : Tracked (coding (.memory 0 none)) (.memory 0) luring .empty := by
  refine .start fun i => ⟨rfl, ?_, rfl, ?_⟩
  · intro session records hsession hrecords
    cases hsession
    cases hrecords
  · rintro id u ⟨t, ht, -⟩
    cases ht

/-- The code goes to the URI that the host knows. -/
theorem lured_located : ∃ p,
    (lured.visit 0).response.header? "Location" =
        some (Redirect.appendQuery "https://c1.example/cb" p) ∨
      (lured.visit 0).response.header? "Location" =
        some (Redirect.replaceFragment "https://c1.example/cb" p) := by
  have hcall : luring.call (coding (.memory 0 none)) 0 (.authorize granting) = (.ok (some .responded), lured) := rfl
  obtain ⟨hlocated, -⟩ :=
    located_by_ledger (archived_memory rfl) (coding_bundled _) luring_tracked
      (c := .authorize granting) trivial hcall
  have huri : (Ledger.empty.after (coding (.memory 0 none)) (.memory 0) 0 (.authorize granting)
      (luring.visit 0) (.ok (some .responded))).current 0 = some "https://c1.example/cb" := rfl
  rw [huri] at hlocated
  cases hlocated with
  | kept hkept => cases hkept
  | @query _ p hu hl =>
    cases hu
    exact ⟨p, .inl hl⟩
  | @fragment _ p hu hl =>
    cases hu
    exact ⟨p, .inr hl⟩

end Server

end AuthServer
