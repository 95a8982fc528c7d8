import AuthServer.Endpoint.Error

/-!
# The order of the tokens of a type

Types are compared by number of tokens and by membership both ways. That is an
equivalence, and without duplicates it holds between permutations alone. What
branches on a type cannot tell equal types apart: the pipelines select the same
handlers in the same order, and errors are redirected in the same mode.
-/

namespace AuthServer

variable {σ η : Type}

/-! ## Comparing -/

namespace TypeSet

variable {a b c : TypeSet}

theorem contains_iff {token : String} : a.contains token = true ↔ token ∈ a.tokens := by
  simp [contains]

theorem equalTo_iff :
    a.equalTo b = true ↔
      a.tokens.length = b.tokens.length ∧ b.tokens ⊆ a.tokens ∧ a.tokens ⊆ b.tokens := by
  simp only [equalTo, Bool.and_eq_true, decide_eq_true_eq, List.all_eq_true, contains_iff, and_assoc]
  rfl

theorem equalTo_refl (a : TypeSet) : a.equalTo a = true :=
  equalTo_iff.2 ⟨rfl, List.Subset.refl _, List.Subset.refl _⟩

theorem equalTo_symm (h : a.equalTo b = true) : b.equalTo a = true := by
  obtain ⟨hlength, hba, hab⟩ := equalTo_iff.1 h
  exact equalTo_iff.2 ⟨hlength.symm, hab, hba⟩

theorem equalTo_trans (h : a.equalTo b = true) (h' : b.equalTo c = true) : a.equalTo c = true := by
  obtain ⟨hlength, hba, hab⟩ := equalTo_iff.1 h
  obtain ⟨hlength', hcb, hbc⟩ := equalTo_iff.1 h'
  exact equalTo_iff.2 ⟨hlength.trans hlength', List.Subset.trans hcb hba, List.Subset.trans hab hbc⟩

theorem equalTo_iff_perm (ha : a.tokens.Nodup) (hb : b.tokens.Nodup) :
    a.equalTo b = true ↔ a.tokens.Perm b.tokens := by
  rw [equalTo_iff]
  constructor
  · rintro ⟨-, hba, hab⟩
    exact (List.perm_ext_iff_of_nodup ha hb).2 fun token => ⟨fun h => hab h, fun h => hba h⟩
  · intro hperm
    exact ⟨hperm.length_eq, hperm.symm.subset, hperm.subset⟩

/-- A third type does not tell them apart. -/
theorem equalTo_congr (h : a.equalTo b = true) (c : TypeSet) : c.equalTo a = c.equalTo b :=
  Bool.eq_iff_iff.2 ⟨fun h' => equalTo_trans h' h, fun h' => equalTo_trans h' (equalTo_symm h)⟩

theorem isEmpty_congr (h : a.equalTo b = true) : a.isEmpty = b.isEmpty := by
  have hlength := (equalTo_iff.1 h).1
  unfold isEmpty
  rw [Bool.eq_iff_iff, List.isEmpty_iff_length_eq_zero, List.isEmpty_iff_length_eq_zero, hlength]

end TypeSet

/-! ## Pipelines -/

theorem Layer.applicable_congr {a b : TypeSet} (h : a.equalTo b = true) (layers : List (Layer η)) :
    applicable layers a = applicable layers b := by
  refine List.filter_congr fun l _ => ?_
  unfold appliesTo
  cases l.type with
  | none => rfl
  | some own => exact TypeSet.equalTo_congr h own

/-- No type that lacks one of the layer's own tokens, or has one that is not its own. -/
theorem Layer.not_appliesTo {l : Layer η} {own type : TypeSet} (hown : l.type = some own)
    (h : ¬ own.tokens ⊆ type.tokens ∨ ¬ type.tokens ⊆ own.tokens) : l.appliesTo type = false := by
  rw [appliesTo, hown, Option.all_some, Bool.eq_false_iff, Ne, TypeSet.equalTo_iff]
  rintro ⟨-, hsuper, hsub⟩
  exact h.elim (fun hn => hn hsub) fun hn => hn hsuper

/-- The same parsing result for another type. -/
def Parsed.retyped (type : TypeSet) (p : Parsed) : Parsed := { p with request := { p.request with type } }

/-- The same transaction for another type. -/
def Transaction.retyped (t : Transaction) (type : TypeSet) : Transaction :=
  { t with request := { t.request with type } }

theorem Dispatcher.parseWith_retyped (req : Request) (layers : List (Layer (RequestParser σ)))
    (p : Parsed) (type : TypeSet) :
    parseWith req layers (p.retyped type) = Parsed.retyped type <$> parseWith req layers p := by
  induction layers generalizing p with
  | nil => rw [parseWith, parseWith, map_pure]
  | cons l rest ih =>
    rw [parseWith, parseWith, map_bind]
    refine bind_congr fun fields => ?_
    exact ih ⟨p.request.merge fields, p.recognized || l.type.isSome⟩

/-! ## The renderer -/

namespace ErrorRenderer

variable {a b : TypeSet}

theorem usesFragment_congr (h : a.equalTo b = true) (options : ErrorOptions) :
    usesFragment options a = usesFragment options b := by
  unfold usesFragment
  rw [TypeSet.isEmpty_congr h]
  exact congrArg _ (congrArg (options.fragment.any ·)
    (funext fun f => TypeSet.equalTo_congr h (TypeSet.parse f)))

theorem mode?_of_none (renderer : ErrorRenderer σ) (request : AuthorizationRequest)
    (hmode : request.responseMode = none) :
    renderer.mode? request =
      some (if usesFragment renderer.options request.type then .fragment else .query) := by
  unfold mode?
  rw [hmode]

/-- Without a mode of its own a request is answered in one that reads its redirect URI alone. -/
theorem renderIndirect_retyped (h : a.equalTo b = true) (renderer : ErrorRenderer σ) (e : OAuthError)
    {t : Transaction} (hmode : t.request.responseMode = none) :
    renderer.renderIndirect e (t.retyped a) = renderer.renderIndirect e (t.retyped b) := by
  unfold renderIndirect
  rw [mode?_of_none renderer (t.retyped a).request hmode,
    mode?_of_none renderer (t.retyped b).request hmode]
  have hfragment : usesFragment renderer.options (t.retyped a).request.type =
      usesFragment renderer.options (t.retyped b).request.type := usesFragment_congr h _
  rw [hfragment]
  cases usesFragment renderer.options (t.retyped b).request.type <;> rfl

end ErrorRenderer

/-! ## The whole -/

/-- Nothing that branches on a type tells the two apart. -/
structure TypeSet.Indistinct (a b : TypeSet) : Prop where
  selects : ∀ {η : Type} (layers : List (Layer η)), Layer.applicable layers a = Layer.applicable layers b
  /-- Same fields and recognized alike, or the same error; only the type is the one asked for. -/
  parse : ∀ {σ : Type} (d : Dispatcher σ) (req : Request),
    d.parse b req = Parsed.retyped b <$> d.parse a req
  respond : ∀ {σ : Type} (d : Dispatcher σ) (t : Transaction) (complete : Completion σ),
    t.request.type = a →
    d.respond t complete =
      Dispatcher.firstDone ((Layer.applicable d.responders b).map fun l => l.handler t complete)
  respondError : ∀ {σ : Type} (d : Dispatcher σ) (e : OAuthError) (t : Transaction),
    t.request.type = a →
    d.respondError e t = Dispatcher.respondErrorWith t (Layer.applicable d.errorResponders b) e
  mode : ∀ {σ : Type} (renderer : ErrorRenderer σ) (r r' : AuthorizationRequest),
    r.type = a → r'.type = b → r.responseMode = none → r'.responseMode = none →
    renderer.mode? r = renderer.mode? r' ∧
      (renderer.mode? r = some .query ∨ renderer.mode? r = some .fragment)
  render : ∀ {σ : Type} (renderer : ErrorRenderer σ) (e : OAuthError) (t : Transaction),
    t.request.responseMode = none →
    renderer.renderIndirect e (t.retyped a) = renderer.renderIndirect e (t.retyped b)

theorem TypeSet.indistinct_of_equalTo {a b : TypeSet} (h : a.equalTo b = true) : Indistinct a b where
  selects := Layer.applicable_congr h
  parse d req := by
    unfold Dispatcher.parse
    rw [Layer.applicable_congr h]
    exact Dispatcher.parseWith_retyped req _ ⟨.ofType a, false⟩ b
  respond d t complete ht := by
    unfold Dispatcher.respond
    rw [ht, Layer.applicable_congr h]
  respondError d e t ht := by
    unfold Dispatcher.respondError
    rw [ht, Layer.applicable_congr h]
  mode renderer r r' hr hr' hmode hmode' := by
    rw [renderer.mode?_of_none r hmode, renderer.mode?_of_none r' hmode', hr, hr',
      ErrorRenderer.usesFragment_congr h]
    refine ⟨rfl, ?_⟩
    split
    · exact .inr rfl
    · exact .inl rfl
  render renderer e t hmode := renderer.renderIndirect_retyped h e hmode

/-- The order of the tokens of a type never matters, and tokens missing or added always do. -/
theorem TypeSet.order_never_matters :
    Equivalence (fun a b : TypeSet => a.equalTo b = true) ∧
      (∀ a b : TypeSet, a.tokens.Nodup → b.tokens.Nodup →
        (a.equalTo b = true ↔ a.tokens.Perm b.tokens)) ∧
      (∀ a b : TypeSet, a.equalTo b = true → Indistinct a b) ∧
      ∀ {η : Type} (l : Layer η) (own type : TypeSet), l.type = some own →
        own.tokens.Nodup → type.tokens.Nodup →
        (type.tokens ⊆ own.tokens ∧ ¬ own.tokens ⊆ type.tokens) ∨
          (own.tokens ⊆ type.tokens ∧ ¬ type.tokens ⊆ own.tokens) →
        l.appliesTo type = false := by
  refine ⟨⟨equalTo_refl, equalTo_symm, equalTo_trans⟩, fun a b => equalTo_iff_perm,
    fun a b => indistinct_of_equalTo, fun l own type hown _ _ hproper => ?_⟩
  exact Layer.not_appliesTo hown (hproper.imp And.right And.right)

theorem TypeSet.code_idToken_order :
    (⟨["code", "id_token"]⟩ : TypeSet).Indistinct ⟨["id_token", "code"]⟩ ∧
      ["code", "id_token"].Perm ["id_token", "code"] ∧
      (Layer.ofType "code id_token" ()).appliesTo ⟨["code"]⟩ = false := by
  obtain ⟨-, hperm, hindistinct, hlayer⟩ := order_never_matters
  refine ⟨hindistinct _ _ (by decide), (hperm ⟨_⟩ ⟨_⟩ (by decide) (by decide)).1 (by decide), ?_⟩
  exact hlayer _ ⟨["code", "id_token"]⟩ _ (by decide) (by decide) (by decide)
    (.inl ⟨by decide, by decide⟩)

end AuthServer
