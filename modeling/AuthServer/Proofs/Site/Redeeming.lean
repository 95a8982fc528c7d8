import AuthServer.Proofs.Site.Serving

/-!
# Codes are handed in once, and after consent

Every code in the book was given out by a decision of the resource owner about a
transaction that a client had asked for, and every code that was handed in is out
of the book. A turn keeps both, so they hold after any row of turns.
-/

namespace AuthServer.Site

open Json Store

/-- The scope that comes with the tokens: the words of the one that was asked for. -/
def grantedScope (request : Request) : Option String :=
  (((request.text? "scope").map (splitScope standardSeparators)).filter (!·.isEmpty)).map (joined " ")

namespace App

variable (a : App)

/-- Some transaction that a client asked for waits under the id as `t`. -/
def Asked (hs : List Turn) (id : String) (t : Transaction) : Prop :=
  ∃ h ∈ hs, ∃ request, a.Asks h request id t

/-- The resource owner let the client have the code: the client had asked with this request, to be
answered at one of its URIs, and the decision sent the code to this URI. -/
def Consent (hs : List Turn) (c : Client) (request : Request) (uri code : String) : Prop :=
  ∃ earlier decided later asked id t,
    hs = earlier ++ decided :: later ∧ asked ∈ earlier ∧
    a.Asks asked request id t ∧ request.text? "client_id" = some c.id ∧ t.client = some c.toValue ∧
    t.redirectUri = some uri ∧ uri ∈ c.redirectUris ∧
    a.Allows decided t ∧ a.Redirects decided uri code

/-- No two turns generate the same code. -/
def DistinctCodes (hs : List Turn) : Prop :=
  hs.Pairwise fun h h' => a.Generates h → a.Generates h' → h.code ≠ h'.code

/-- What is noted beside a code is what the resource owner consented to. -/
structure Booked (hs : List Turn) (code : String) (g : GrantedCode) : Prop where
  consent : ∃ c request uri, a.Consent hs c request uri code ∧ a.clients.value? c.id = some c ∧
    g.clientId = c.id ∧ g.redirectUri = some uri ∧
    g.scope = (request.text? "scope").map (splitScope standardSeparators)
  generated : ∃ h ∈ hs, a.Generates h ∧ h.code = code

/-- After the turns `hs` everything in the world is accounted for. -/
structure Accounted (hs : List Turn) (w : World Issuer) : Prop where
  memory : ∀ m ∈ w.memories 0, a.Asked hs m.1 (m.2.persisted m.1)
  sessions : ∀ h ∈ hs, a.Filed (a.Asked hs) (a.sessionAfter h)
  book : ∀ code g, w.host.codes.value? code = some g → a.Booked hs code g
  spent : ∀ h ∈ hs, ∀ request code, a.Redeems h request code →
    w.host.codes.value? code = none ∧ ∃ h' ∈ hs, a.Generates h' ∧ h'.code = code

variable {a} {hs : List Turn} {h : Turn} {w : World Issuer}

theorem Asked.append {id : String} {t : Transaction} (ht : a.Asked hs id t) (more : List Turn) :
    a.Asked (hs ++ more) id t := by
  obtain ⟨h, hmem, hasks⟩ := ht
  exact ⟨h, List.mem_append_left more hmem, hasks⟩

theorem Consent.append {c : Client} {request : Request} {uri code : String}
    (hc : a.Consent hs c request uri code) (more : List Turn) :
    a.Consent (hs ++ more) c request uri code := by
  obtain ⟨earlier, decided, later, asked, id, t, rfl, hrest⟩ := hc
  exact ⟨earlier, decided, later ++ more, asked, id, t, by simp, hrest⟩

theorem Booked.append {code : String} {g : GrantedCode} (hg : a.Booked hs code g)
    (more : List Turn) : a.Booked (hs ++ more) code g := by
  obtain ⟨⟨c, request, uri, hconsent, hrest⟩, h, hmem, hgenerated⟩ := hg
  exact ⟨⟨c, request, uri, hconsent.append more, hrest⟩, h, List.mem_append_left more hmem, hgenerated⟩

/-! ## One turn -/

theorem Asked.undecided (ha : a.Installed) {id : String} {t : Transaction} (ht : a.Asked hs id t) :
    t.decision = none := by
  obtain ⟨_, _, _, hasks⟩ := ht
  obtain ⟨_, _, _, happlied, rfl⟩ := hasks.applied ha
  exact happlied.unstored.storable.undecided

theorem Accounted.backed (hacc : a.Accounted hs h.world)
    (hsession : h.session = [] ∨ ∃ h' ∈ hs, h.session = a.sessionAfter h') :
    a.Backed (a.Asked hs) h := by
  refine ⟨hacc.memory, ?_⟩
  obtain hempty | ⟨h', hmem, hafter⟩ := hsession
  · rw [hempty]
    exact filed_nil
  · rw [hafter]
    exact hacc.sessions h' hmem

theorem Issues.generates {uri : String} {t : Transaction} {g : GrantedCode} {host : Issuer}
    (hissues : a.Issues h t uri g host) (hhost : (a.worldAfter h).host = host) : a.Generates h := by
  refine ⟨t, hissues.allows, hissues.type, ?_⟩
  rw [hhost, hissues.tokens]
  show h.world.host.tokens.used + Supply.tokenLength ≠ _
  simp [Supply.tokenLength]

/-- A code that goes into the book is one that was consented to. -/
theorem Issues.booked (ha : a.Installed) {id uri : String} {t : Transaction} {g : GrantedCode}
    {host : Issuer} (hissues : a.Issues h t uri g host) (hasked : a.Asked hs id t)
    (hhost : (a.worldAfter h).host = host) : a.Booked (hs ++ [h]) h.code g := by
  refine ⟨?_, h, by simp, hissues.generates hhost, rfl⟩
  obtain ⟨asked, hmem, request, hasks⟩ := hasked
  obtain ⟨c, uri', t₀, happlied, rfl⟩ := hasks.applied ha
  obtain rfl : uri' = uri := Option.some.inj (happlied.redirectUri.symm.trans hissues.redirectUri)
  have hclient : (t₀.persisted id).client = some c.toValue := happlied.client
  have hid : g.clientId = c.id := by
    have hgranted := hissues.client
    rw [hclient] at hgranted
    exact (Option.some.inj hgranted).symm
  refine ⟨c, request, uri', ?_, happlied.listed, hid, hissues.grantedUri,
    hissues.scope.trans happlied.scope⟩
  exact ⟨hs, h, [], asked, id, _, rfl, hmem, hasks, happlied.named, hclient, hissues.redirectUri,
    happlied.registered, hissues.allows, hissues.redirects⟩

section Turning

variable {host : Issuer} (hturning : Turning a (a.Asked hs) h host)
  (hhost : (a.worldAfter h).host = host)
include hturning hhost

theorem Turning.booked (ha : a.Installed)
    (hbook : ∀ code g, h.world.host.codes.value? code = some g → a.Booked hs code g) {code : String}
    {g : GrantedCode} (hg : host.codes.value? code = some g) : a.Booked (hs ++ [h]) code g := by
  cases hturning with
  | kept hsame =>
    rw [hsame] at hg
    exact (hbook code g hg).append [h]
  | taken _ htaken =>
    rw [htaken, Entries.value?_remove] at hg
    split at hg
    · cases hg
    · exact (hbook code g hg).append [h]
  | issued hasked hissues =>
    rw [hissues.codes, Entries.value?_put] at hg
    split at hg
    · rename_i hcode
      cases hg
      exact hcode ▸ hissues.booked ha hasked hhost
    · exact (hbook code g hg).append [h]

/-- Only a turn that generates a code puts it in the book. -/
theorem Turning.absent {code : String} (hnone : h.world.host.codes.value? code = none)
    (hother : a.Generates h → h.code ≠ code) : host.codes.value? code = none := by
  cases hturning with
  | kept hsame => rw [hsame, hnone]
  | taken _ htaken => rw [htaken, Entries.value?_remove, hnone, ite_self]
  | issued _ hissues =>
    rw [hissues.codes, Entries.value?_put, if_neg (hother (hissues.generates hhost)), hnone]

end Turning

theorem Accounted.turn (ha : a.Installed) (hacc : a.Accounted hs h.world)
    (hsession : h.session = [] ∨ ∃ h' ∈ hs, h.session = a.sessionAfter h')
    (hcodes : a.DistinctCodes (hs ++ [h])) : a.Accounted (hs ++ [h]) (a.worldAfter h) := by
  have hb := hacc.backed hsession
  have hmono : ∀ id t, a.Asked hs id t → a.Asked (hs ++ [h]) id t := fun _ _ ht => ht.append [h]
  obtain ⟨host, hsound, hturning⟩ := turn_sound ha hb (fun _ _ ht => ht.undecided ha) hmono
    fun request id t hasks => ⟨h, by simp, request, hasks⟩
  have hhost : (a.worldAfter h).host = host := hsound.host
  refine ⟨hsound.standing.memory, ?_, ?_, ?_⟩
  · intro h' hmem
    rcases List.mem_append.1 hmem with hmem | hmem
    · exact (hacc.sessions h' hmem).mono hmono
    · obtain rfl := List.mem_singleton.1 hmem
      exact hsound.session
  · intro code g hg
    rw [hhost] at hg
    exact hturning.booked hhost ha hacc.book hg
  · intro h' hmem request code hredeems
    rcases List.mem_append.1 hmem with hmem | hmem
    -- spent before: to put the code back, this turn would have to generate it again
    · obtain ⟨hnone, h₁, hmem₁, hgenerates, hcode⟩ := hacc.spent h' hmem request code hredeems
      refine ⟨?_, h₁, List.mem_append_left [h] hmem₁, hgenerates, hcode⟩
      have hdistinct := (List.pairwise_append.1 hcodes).2.2 h₁ hmem₁ h (List.mem_singleton_self h)
      rw [hhost]
      exact hturning.absent hhost hnone fun hgenerates' =>
        hcode ▸ (hdistinct hgenerates hgenerates').symm
    -- spent in this turn: it was in the book, so an earlier turn had generated it
    · obtain rfl := List.mem_singleton.1 hmem
      obtain ⟨g, c, token, refresh, -, hg, -, -, hafter, -⟩ := hredeems.given ha hb
      obtain ⟨h', hmem', hgenerated⟩ := (hacc.book code g hg).generated
      exact ⟨by rw [hafter, Entries.value?_remove, if_pos rfl], h', List.mem_append_left _ hmem',
        hgenerated⟩

/-! ## Any row of turns -/

theorem Served.accounted (ha : a.Installed) {w₀ : World Issuer} (hmemory : w₀.memories 0 = [])
    (hbook : w₀.host.codes = []) (hserved : a.Served w₀ hs w) (hcodes : a.DistinctCodes hs) :
    a.Accounted hs w := by
  induction hserved with
  | start =>
    refine ⟨by rw [hmemory]; exact fun _ => nofun, nofun, fun code g hg => ?_, nofun⟩
    rw [hbook] at hg
    cases hg
  | turn hprevious hsession ih =>
    exact (ih (List.pairwise_append.1 hcodes).1).turn ha hsession hcodes

theorem scope_members (token refresh : String) (scope : Option (List String)) :
    Entries.value? (Issued.mk token (some refresh) (Issuer.tokenParams scope)).members "scope" =
      ((scope.filter (!·.isEmpty)).map (joined " ")).map .str := by
  rcases scope with _ | _ | _ <;> rfl

theorem client_of_authenticated (ha : a.Installed) {request : Request} {c : Client}
    (hclient : a.authenticated request = some c) : a.clients.value? c.id = some c := by
  unfold authenticated at hclient
  obtain ⟨id, -, hclient⟩ := Option.bind_eq_some_iff.1 hclient
  obtain ⟨secret, -, hclient⟩ := Option.bind_eq_some_iff.1 hclient
  obtain ⟨hlisted, -⟩ := Option.filter_eq_some_iff.1 hclient
  rw [ha.keyed _ _ hlisted]
  exact hlisted

/-- Tokens are given for a code once, and only to the client that the resource owner gave the code
to, with the scope that this client had asked for. -/
theorem redeemed_once_after_consent {config : Config} {clients : List Client}
    (hconfig : App.ofConfig config (.ofList clients) = .ok a) {w₀ : World Issuer}
    {before after : List Turn} (hmemory : w₀.memories 0 = []) (hbook : w₀.host.codes = [])
    (hserved : a.Served w₀ (before ++ h :: after) w)
    (hcodes : a.DistinctCodes (before ++ h :: after)) {request : Request} {c : Client} {code : String}
    (hredeems : a.Redeems h request code) (hclient : a.authenticated request = some c) :
    (∀ h' ∈ before, ∀ request', ¬ a.Redeems h' request' code) ∧
      ∃ asked uri members, a.Consent before c asked uri code ∧
        (∀ uri', request.bodyText? "redirect_uri" = some uri' → uri' = uri) ∧
        (a.answer h).body = (Value.obj members).text ∧
        Entries.value? members "scope" = (grantedScope asked).map .str := by
  have ha := installed_ofConfig hconfig
  -- everything is about the world that the turn met, so what came after plays no part
  obtain ⟨hbefore, hsession⟩ := hserved.before rfl
  have hacc := hbefore.accounted ha hmemory hbook (List.pairwise_append.1 hcodes).1
  obtain ⟨g, c', token, refresh, hclient', hg, hid, huri, -, hbody⟩ :=
    hredeems.given ha (hacc.backed hsession)
  obtain rfl : c = c' := Option.some.inj (hclient.symm.trans hclient')
  obtain ⟨⟨c', asked, uri, hconsent, hlisted, hgid, hguri, hscope⟩, -⟩ := hacc.book code g hg
  obtain rfl : c' = c := by
    rw [← hgid, hid, client_of_authenticated ha hclient] at hlisted
    exact (Option.some.inj hlisted).symm
  refine ⟨fun h' hmem request' hearlier => ?_, asked, uri, _, hconsent, fun uri' huri' => ?_, hbody, ?_⟩
  · obtain ⟨hnone, -⟩ := hacc.spent h' hmem request' code hearlier
    rw [hg] at hnone
    cases hnone
  · exact Option.some.inj ((huri uri' huri').symm.trans hguri)
  · rw [scope_members, hscope]
    rfl

/-! ## The standard site -/

def demoClient : Client :=
  ⟨"demo-client", "demo-secret", "Demo Client", ["http://localhost:3000/callback"]⟩

/-- The site with the standard settings and its one client. -/
def standard : App :=
  match App.ofConfig .standard (.ofList [demoClient]) with
  | .ok a => a
  | .error _ => ⟨.standard, [], .ofStore .session⟩

/-- The client asks on a fresh site. -/
def asking : Turn where
  world := ⟨fun _ => [], ⟨fun _ => 0, 0⟩, .zero, ⟨[], ⟨fun _ => 0, 0⟩⟩⟩
  session := []
  request := .ofUri "GET" "/oauth/authorize?response_type=code&client_id=demo-client&scope=read" "" []

/-- The resource owner allows it. -/
def allowing : Turn where
  world := standard.worldAfter asking
  session := standard.sessionAfter asking
  request := .ofUri "POST" "/oauth/decision" "application/x-www-form-urlencoded"
    (Text.Utf8.bytes "transaction_id=0000000000000000")

def handedIn : Request :=
  { Request.empty with
    body := some [("grant_type", .str "authorization_code"), ("client_id", .str "demo-client"),
      ("client_secret", .str "demo-secret"), ("code", .str "00000000000000000000000000000000")] }

/-- The client hands in the code that it got. -/
def redeeming : Turn where
  world := standard.worldAfter allowing
  session := standard.sessionAfter allowing
  request := .ofUri "POST" "/oauth/token" "application/x-www-form-urlencoded"
    (Text.Utf8.bytes ("grant_type=authorization_code&client_id=demo-client&client_secret=demo-secret" ++
      "&code=00000000000000000000000000000000"))

theorem standard_ofConfig : App.ofConfig .standard (.ofList [demoClient]) = .ok standard := rfl

theorem redeeming_read : redeeming.request.read = .ok handedIn := by
  have hquery : Text.Form.decode redeeming.request.query = [] := by decide +kernel
  have hform : redeeming.request.mediaType = "application/x-www-form-urlencoded" := by decide +kernel
  have hbody : Text.Form.decode redeeming.request.body =
      [("grant_type", "authorization_code"), ("client_id", "demo-client"),
        ("client_secret", "demo-secret"), ("code", "00000000000000000000000000000000")] := by
    decide +kernel
  rw [HttpRequest.read, HttpRequest.queryParams, HttpRequest.bodyParams, if_pos hform,
    HttpRequest.pairs, HttpRequest.pairs, hquery, hbody]
  rfl

theorem redeeming_redeems : standard.Redeems redeeming handedIn allowing.code where
  path := by decide +kernel
  method := by decide +kernel
  reads := redeeming_read
  grantType := by decide +kernel
  code := by decide +kernel
  status := by decide +kernel

theorem redeeming_served : standard.Served asking.world ([asking, allowing] ++ redeeming :: [])
    (standard.worldAfter redeeming) := by
  have hasked : standard.Served asking.world [asking] allowing.world := .turn .start (.inl rfl)
  have hallowed : standard.Served asking.world [asking, allowing] redeeming.world :=
    .turn hasked (.inr ⟨asking, by simp, rfl⟩)
  exact .turn hallowed (.inr ⟨allowing, by simp, rfl⟩)

/-- Only one of the turns decides. -/
theorem redeeming_distinctCodes : standard.DistinctCodes ([asking, allowing] ++ redeeming :: []) := by
  have hasking : ¬ standard.Generates asking := fun ⟨_, hallows, _⟩ =>
    absurd hallows.path (by decide +kernel)
  have hredeeming : ¬ standard.Generates redeeming := fun ⟨_, hallows, _⟩ =>
    absurd hallows.path (by decide +kernel)
  refine .cons (fun _ _ h => absurd h hasking) (.cons (fun h' hmem _ h => ?_) (.cons nofun .nil))
  obtain rfl := List.mem_singleton.1 hmem
  exact absurd h hredeeming

theorem standard_redeemed_once :
    (∀ h' ∈ [asking, allowing], ∀ request', ¬ standard.Redeems h' request' allowing.code) ∧
      ∃ asked uri members, standard.Consent [asking, allowing] demoClient asked uri allowing.code ∧
        (∀ uri', handedIn.bodyText? "redirect_uri" = some uri' → uri' = uri) ∧
        (standard.answer redeeming).body = (Value.obj members).text ∧
        Entries.value? members "scope" = (grantedScope asked).map .str :=
  redeemed_once_after_consent standard_ofConfig rfl rfl redeeming_served redeeming_distinctCodes
    redeeming_redeems (by decide +kernel)

end App

end AuthServer.Site
