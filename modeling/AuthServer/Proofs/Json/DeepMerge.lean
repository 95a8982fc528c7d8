import AuthServer.Json.Merge

/-!
# Deep merge along paths

A path of names leads from an object through objects in it. At every path the
source wins with whatever is no null; null and silence leave the target as it
was. The names of the target keep their place, new ones follow in the order of
the source, and a source that is merged again changes nothing.
-/

namespace AuthServer

open Json

namespace Json

/-! ## Paths -/

namespace Value

/-- What stands at the end of a path of names. -/
def at? : Value → List String → Option Value
  | v, [] => some v
  | v, key :: path => (v.member? key).bind fun w => at? w path

/-- A scalar other than null, or an array. -/
def IsLeaf : Value → Prop
  | null | obj _ => False
  | _ => True

/-- No object that a path leads to has two members of one name. -/
def Distinct (v : Value) : Prop :=
  ∀ path members, v.at? path = some (.obj members) → (Entries.keys members).Nodup

variable {v w : Value} {members : Params} {key : String} {path : List String}

@[simp] theorem at?_nil (v : Value) : v.at? [] = some v := rfl

theorem at?_obj_cons (members : Params) (key : String) (path : List String) :
    (obj members).at? (key :: path) = (members.value? key).bind (·.at? path) := rfl

/-- Only an object has anything below it. -/
theorem eq_obj_of_at?_cons (h : v.at? (key :: path) = some w) : ∃ members, v = .obj members := by
  cases v with
  | obj members => exact ⟨members, rfl⟩
  | _ => cases h

theorem eq_obj_of_at?_obj (h : v.at? path = some (.obj members)) : ∃ members, v = .obj members := by
  cases path with
  | nil => exact ⟨members, Option.some.inj h⟩
  | cons => exact eq_obj_of_at?_cons h

/-- On the way to a value there are objects. -/
theorem exists_obj_of_prefix {front : List String} (hv : v.at? path = some w)
    (hpart : front <+: path) (hne : front ≠ path) : ∃ members, v.at? front = some (.obj members) := by
  induction front generalizing v path with
  | nil =>
    cases path with
    | nil => exact absurd rfl hne
    | cons key path =>
      obtain ⟨members, rfl⟩ := eq_obj_of_at?_cons hv
      exact ⟨members, rfl⟩
  | cons key front ih =>
    obtain ⟨path, rfl, hrest⟩ := List.cons_prefix_iff.1 hpart
    obtain ⟨members, rfl⟩ := eq_obj_of_at?_cons hv
    rw [at?_obj_cons, Option.bind_eq_some_iff] at hv
    obtain ⟨inner, hinner, hv⟩ := hv
    obtain ⟨found, hfound⟩ := ih hv hrest fun h => hne (h ▸ rfl)
    exact ⟨found, by rw [at?_obj_cons, hinner]; exact hfound⟩

theorem Distinct.keys (h : (obj members).Distinct) : (Entries.keys members).Nodup := h [] members rfl

theorem Distinct.member (h : (obj members).Distinct) (hw : members.value? key = some w) :
    w.Distinct := by
  intro path inner hpath
  exact h (key :: path) inner (by rw [at?_obj_cons, hw]; exact hpath)

theorem distinct_obj_iff :
    (obj members).Distinct ↔ (Entries.keys members).Nodup ∧ ∀ m ∈ members, m.2.Distinct := by
  constructor
  · intro h
    exact ⟨h.keys, fun m hmem => h.member (Entries.value?_of_mem h.keys hmem)⟩
  · rintro ⟨hkeys, hmembers⟩ path inner hpath
    cases path with
    | nil =>
      cases hpath
      exact hkeys
    | cons key path =>
      rw [at?_obj_cons, Option.bind_eq_some_iff] at hpath
      obtain ⟨w, hw, hpath⟩ := hpath
      exact hmembers _ (Entries.mem_of_value? hw) path inner hpath

/-- What is no object is distinct. -/
theorem distinct_of_ne (h : ∀ members, v ≠ .obj members) : v.Distinct := by
  intro path members hpath
  obtain ⟨members, hv⟩ := eq_obj_of_at?_obj hpath
  exact absurd hv (h members)

/-- Objects within objects are reached at last. -/
theorem inner_induction {P : Params → Prop}
    (step : ∀ members, (∀ key inner, (key, .obj inner) ∈ members → P inner) → P members)
    (members : Params) : P members :=
  step members fun _ inner _ => inner_induction step inner
termination_by sizeOf members
decreasing_by
  rename_i hmem
  have hlt := List.sizeOf_lt_of_mem hmem
  simp only [Prod.mk.sizeOf_spec, obj.sizeOf_spec] at hlt
  omega

end Value

/-! ## One member -/

/-- What stands under a name when `v` is merged into what stood there. -/
def mergeValue (old : Option Value) : Value → Option Value
  | .null => old
  | .obj incoming =>
    match old with
    | some (.obj existing) => some (.obj (merge existing incoming))
    | _ => some (.obj incoming)
  | v => some v

variable {target source existing incoming : Params} {old : Option Value} {v w : Value}
  {key : String} {path : List String}

theorem mergeValue_of_leaf (h : v.IsLeaf) : mergeValue old v = some v := by
  cases v <;> first | rfl | cases h

theorem mergeValue_obj_of_ne (h : ∀ existing, old ≠ some (.obj existing)) :
    mergeValue old (.obj incoming) = some (.obj incoming) := by
  rcases old with _ | (_ | _ | _ | _ | _ | _ | existing) <;> first | rfl | exact absurd rfl (h existing)

theorem value?_mergeMember (target : Params) (k key : String) (v : Value) :
    (mergeMember target k v).value? key =
      if k = key then mergeValue (target.value? k) v else target.value? key := by
  unfold mergeMember
  split
  · by_cases h : k = key
    · simp [mergeValue, h]
    · simp [h]
  · split <;> rename_i hold <;> rw [Entries.value?_put]
    · simp [mergeValue, hold]
    · rw [mergeValue_obj_of_ne hold]
  · rename_i hnull hobj
    rw [Entries.value?_put, mergeValue_of_leaf]
    cases v <;> first | trivial | exact absurd rfl hnull | exact absurd rfl (hobj _)

theorem value?_merge (hs : source.keys.Nodup) (target : Params) (key : String) :
    (merge target source).value? key =
      (source.value? key).elim (target.value? key) (mergeValue (target.value? key)) := by
  induction source generalizing target with
  | nil => rw [merge_nil]; rfl
  | cons m rest ih =>
    obtain ⟨k, v⟩ := m
    obtain ⟨hk, hrest⟩ : k ∉ Entries.keys rest ∧ (Entries.keys rest).Nodup := by
      simpa [Entries.keys] using hs
    rw [merge, ih hrest, value?_mergeMember]
    by_cases h : k = key
    · subst h
      simp [Entries.value?, (Entries.value?_eq_none_iff rest k).2 hk]
    · simp [Entries.value?, h]

/-- A leaf takes any place, an object any but that of an object. -/
def Replaces (old : Option Value) (v : Value) : Prop :=
  v.IsLeaf ∨ (∃ incoming, v = .obj incoming) ∧ ∀ existing, old ≠ some (.obj existing)

/-- Two objects are merged; silence and null leave the old value; anything else is put in its place. -/
inductive MergesTo (old : Option Value) : Option Value → Option Value → Prop where
  | inner {existing incoming : Params} :
    old = some (.obj existing) → MergesTo old (some (.obj incoming)) (some (.obj (merge existing incoming)))
  | left {new : Option Value} : new = none ∨ new = some .null → MergesTo old new old
  | placed {v : Value} : Replaces old v → MergesTo old (some v) (some v)

theorem merge_mergesTo (hs : source.keys.Nodup) (target : Params) (key : String) :
    MergesTo (target.value? key) (source.value? key) ((merge target source).value? key) := by
  rw [value?_merge hs]
  generalize target.value? key = old
  rcases source.value? key with _ | v
  · exact .left (.inl rfl)
  cases v with
  | null => exact .left (.inr rfl)
  | obj incoming =>
    by_cases hold : ∃ existing, old = some (.obj existing)
    · obtain ⟨existing, rfl⟩ := hold
      exact .inner rfl
    · have hne : ∀ existing, old ≠ some (.obj existing) := fun existing h => hold ⟨existing, h⟩
      rw [Option.elim_some, mergeValue_obj_of_ne hne]
      exact .placed (.inr ⟨⟨incoming, rfl⟩, hne⟩)
  | _ => exact .placed (.inl trivial)

/-! ## All members -/

/-- The new names of a source, those without a value apart. -/
def newKeys (target source : Params) : List String :=
  Entries.keys (source.filter fun m => !(m.2 matches .null) && !target.has m.1)

theorem keys_mergeMember (target : Params) (key : String) (v : Value) :
    (mergeMember target key v).keys = target.keys ++ newKeys target [(key, v)] := by
  have hput : ∀ w, (target.put key w).keys =
      target.keys ++ Entries.keys ([(key, v)].filter fun m => !target.has m.1) := by
    intro w
    rw [Entries.keys_put]
    cases h : target.has key <;> simp [h, Entries.keys]
  cases v with
  | null => simp [mergeMember, newKeys, Entries.keys]
  | obj incoming =>
    unfold mergeMember
    split <;> exact hput _
  | _ => exact hput _

/-- The names of the target first, then the new ones. -/
theorem keys_merge (hs : source.keys.Nodup) (target : Params) :
    (merge target source).keys = target.keys ++ newKeys target source := by
  induction source generalizing target with
  | nil => simp [newKeys, Entries.keys]
  | cons m rest ih =>
    obtain ⟨k, v⟩ := m
    obtain ⟨hk, hrest⟩ : k ∉ Entries.keys rest ∧ (Entries.keys rest).Nodup := by
      simpa [Entries.keys] using hs
    have hold : newKeys (mergeMember target k v) rest = newKeys target rest := by
      unfold newKeys
      congr 1
      refine List.filter_congr fun m hmem => ?_
      have hne : k ≠ m.1 := fun he => hk (he ▸ List.mem_map_of_mem hmem)
      rw [Entries.has, Entries.has, value?_mergeMember, if_neg hne]
    have happend : newKeys target ((k, v) :: rest) = newKeys target [(k, v)] ++ newKeys target rest := by
      rw [newKeys, newKeys, newKeys, Entries.keys, Entries.keys, Entries.keys, ← List.map_append,
        ← List.filter_append]
      rfl
    rw [merge, ih hrest, keys_mergeMember, hold, happend, List.append_assoc]

/-! ## Merging again -/

theorem mergeMember_self (hv : target.value? key = some v)
    (hobj : ∀ incoming, v = .obj incoming → merge incoming incoming = incoming) :
    mergeMember target key v = target := by
  cases v with
  | null => rfl
  | obj incoming => simp only [mergeMember, hv, hobj incoming rfl, Entries.put_self hv]
  | _ => exact Entries.put_self hv

/-- What leaves the target as it is member by member leaves it as it is. -/
theorem merge_eq_self (h : ∀ m ∈ source, mergeMember target m.1 m.2 = target) :
    merge target source = target := by
  induction source with
  | nil => exact merge_nil target
  | cons m rest ih =>
    obtain ⟨hm, hrest⟩ := List.forall_mem_cons.1 h
    rw [merge, hm, ih hrest]

theorem merge_self (source : Params) (hs : (Value.obj source).Distinct) :
    merge source source = source := by
  induction source using Value.inner_induction with
  | step source ih =>
    obtain ⟨hkeys, hmembers⟩ := Value.distinct_obj_iff.1 hs
    refine merge_eq_self fun m hmem => ?_
    obtain ⟨k, v⟩ := m
    refine mergeMember_self (Entries.value?_of_mem hkeys hmem) ?_
    rintro incoming rfl
    exact ih k incoming hmem (hmembers _ hmem)

theorem merge_merge (source : Params) (hs : (Value.obj source).Distinct) (target : Params) :
    merge (merge target source) source = merge target source := by
  induction source using Value.inner_induction generalizing target with
  | step source ih =>
    obtain ⟨hkeys, hmembers⟩ := Value.distinct_obj_iff.1 hs
    refine merge_eq_self fun m hmem => ?_
    obtain ⟨k, v⟩ := m
    have hmerges := merge_mergesTo hkeys target k
    rw [Entries.value?_of_mem hkeys hmem] at hmerges
    generalize hnew : some v = new at hmerges
    generalize hr : (merge target source).value? k = r at hmerges
    cases hmerges with
    | @inner existing incoming hold =>
      cases hnew
      simp only [mergeMember, hr, ih k incoming hmem (hmembers _ hmem) existing, Entries.put_self hr]
    | left hnone =>
      rcases hnone with rfl | rfl <;> cases hnew
      rfl
    | placed =>
      cases hnew
      refine mergeMember_self hr ?_
      rintro incoming rfl
      exact merge_self incoming (hmembers _ hmem)

/-! ## Along paths -/

/-- A path leads to two objects, or the source stops saying anything on the way, or from some point
on the source alone speaks. -/
theorem at?_merge_cases (target : Params) (hs : (Value.obj source).Distinct) (path : List String) :
    (∃ existing incoming, (Value.obj target).at? path = some (.obj existing) ∧
        (Value.obj source).at? path = some (.obj incoming) ∧
        (Value.obj (merge target source)).at? path = some (.obj (merge existing incoming))) ∨
      (((Value.obj source).at? path = none ∨ (Value.obj source).at? path = some .null) ∧
        (Value.obj (merge target source)).at? path = (Value.obj target).at? path) ∨
      ∃ front w, front <+: path ∧ (Value.obj source).at? front = some w ∧
        Replaces ((Value.obj target).at? front) w ∧
        (Value.obj (merge target source)).at? path = (Value.obj source).at? path := by
  induction path generalizing source target with
  | nil => exact .inl ⟨target, source, rfl, rfl, rfl⟩
  | cons key path ih =>
    have hmerges := merge_mergesTo hs.keys target key
    simp only [Value.at?_obj_cons]
    generalize hnew : source.value? key = new at hmerges
    generalize hresult : (merge target source).value? key = result at hmerges
    cases hmerges with
    | @inner existing incoming hold =>
      rw [hold]
      refine (ih existing (hs.member hnew)).imp_right (.imp_right ?_)
      rintro ⟨front, w, hpart, hw, hreplaces, hmerge⟩
      refine ⟨key :: front, w, (List.prefix_cons_inj key).2 hpart, ?_, ?_, hmerge⟩
      · rw [Value.at?_obj_cons, hnew]
        exact hw
      · rw [Value.at?_obj_cons, hold]
        exact hreplaces
    | left hnone =>
      refine .inr (.inl ⟨?_, rfl⟩)
      rcases hnone with rfl | rfl
      · exact .inl rfl
      · cases path with
        | nil => exact .inr rfl
        | cons => exact .inl rfl
    | @placed v hreplaces =>
      refine .inr (.inr ⟨[key], v, (List.prefix_cons_inj key).2 List.nil_prefix, ?_, ?_, rfl⟩)
      · rw [Value.at?_obj_cons, hnew]
        rfl
      · rw [Value.at?_obj_cons]
        cases hold : target.value? key <;> rw [hold] at hreplaces <;> exact hreplaces

/-- Below what is replaced nothing is left of the target. -/
theorem Replaces.isLeaf {front : List String} (h : Replaces ((Value.obj target).at? front) v)
    (hpart : front <+: path) (hne : front ≠ path) (ht : (Value.obj target).at? path = some w) :
    v.IsLeaf := by
  obtain ⟨existing, hold⟩ := Value.exists_obj_of_prefix ht hpart hne
  exact h.resolve_right fun ⟨_, hnone⟩ => hnone existing hold

/-- Where both still have something at the end of the path, that end is what is replaced. -/
theorem Replaces.at_end {front : List String} {x : Value}
    (h : Replaces ((Value.obj target).at? front) v) (hv : (Value.obj source).at? front = some v)
    (hpart : front <+: path) (ht : (Value.obj target).at? path = some w)
    (hs : (Value.obj source).at? path = some x) : Replaces ((Value.obj target).at? path) x := by
  by_cases hfront : front = path
  · subst hfront
    rw [hv] at hs
    cases hs
    exact h
  · obtain ⟨members, hmembers⟩ := Value.exists_obj_of_prefix hs hpart hfront
    have hleaf := h.isLeaf hpart hfront ht
    rw [hv] at hmembers
    cases hmembers
    cases hleaf

/-! ## The whole -/

/-- `result` is the deep merge of `source` into `target`, told along paths. -/
structure DeepMerged (target source result : Params) : Prop where
  overwritten : ∀ path v, (Value.obj source).at? path = some v → v.IsLeaf →
    (Value.obj result).at? path = some v
  placed : ∀ path incoming, (Value.obj source).at? path = some (.obj incoming) →
    (∀ existing, (Value.obj target).at? path ≠ some (.obj existing)) →
    (Value.obj result).at? path = some (.obj incoming)
  spared : ∀ path v, (Value.obj source).at? path = some .null → (Value.obj target).at? path = some v →
    (Value.obj result).at? path = some v
  /-- A null on the way does no harm. -/
  kept : ∀ path v, (Value.obj target).at? path = some v → (Value.obj source).at? path = none →
    (∀ front w, front <+: path → front ≠ path → (Value.obj source).at? front = some w →
      ¬ w.IsLeaf) →
    (Value.obj result).at? path = some v
  /-- The names of the target keep their place, the new ones follow in the order of the source. -/
  ordered : ∀ path existing incoming, (Value.obj target).at? path = some (.obj existing) →
    (Value.obj source).at? path = some (.obj incoming) →
    ∃ members, (Value.obj result).at? path = some (.obj members) ∧
      Entries.keys members = Entries.keys existing ++ newKeys existing incoming
  settled : merge result source = result

theorem merge_deepMerged (target : Params) {source : Params} (hs : (Value.obj source).Distinct) :
    DeepMerged target source (merge target source) where
  overwritten path v hv hleaf := by
    rcases at?_merge_cases target hs path with ⟨_, _, -, hobj, -⟩ | ⟨hnone | hnull, -⟩ |
      ⟨_, _, -, -, -, heq⟩
    · rw [hobj] at hv; cases hv; cases hleaf
    · rw [hnone] at hv; cases hv
    · rw [hnull] at hv; cases hv; cases hleaf
    · rw [heq, hv]
  placed path incoming hv hnone := by
    rcases at?_merge_cases target hs path with ⟨_, _, hobj, -, -⟩ | ⟨hsilent | hnull, -⟩ |
      ⟨_, _, -, -, -, heq⟩
    · exact absurd hobj (hnone _)
    · rw [hsilent] at hv; cases hv
    · rw [hnull] at hv; cases hv
    · rw [heq, hv]
  spared path v hnull hv := by
    rcases at?_merge_cases target hs path with ⟨_, _, -, hobj, -⟩ | ⟨-, heq⟩ |
      ⟨front, w, hpart, hw, hreplaces, -⟩
    · rw [hobj] at hnull; cases hnull
    · rw [heq, hv]
    · rcases hreplaces.at_end hw hpart hv hnull with hleaf | ⟨⟨_, hobj⟩, -⟩
      · cases hleaf
      · cases hobj
  kept path v hv hsilent hclear := by
    rcases at?_merge_cases target hs path with ⟨_, _, -, hobj, -⟩ | ⟨-, heq⟩ |
      ⟨front, w, hpart, hw, hreplaces, -⟩
    · rw [hobj] at hsilent; cases hsilent
    · rw [heq, hv]
    · have hne : front ≠ path := by
        rintro rfl
        rw [hw] at hsilent
        cases hsilent
      exact absurd (hreplaces.isLeaf hpart hne hv) (hclear front w hpart hne hw)
  ordered path existing incoming ht hv := by
    rcases at?_merge_cases target hs path with ⟨e, i, he, hi, heq⟩ | ⟨hsilent | hnull, -⟩ |
      ⟨front, w, hpart, hw, hreplaces, -⟩
    · rw [ht] at he
      rw [hv] at hi
      cases he
      cases hi
      exact ⟨_, heq, keys_merge (hs path incoming hv) existing⟩
    · rw [hsilent] at hv; cases hv
    · rw [hnull] at hv; cases hv
    · rcases hreplaces.at_end hw hpart ht hv with hleaf | ⟨-, hnone⟩
      · cases hleaf
      · exact absurd ht (hnone existing)
  settled := merge_merge source hs target

/-! ## Two settings -/

/-- Settings of one deployment. -/
def base : Params :=
  [("mode", .str "code"), ("limits", .obj [("rate", .int 10), ("burst", .obj [("size", .int 3)])]),
    ("tags", .arr [.str "a"]), ("owner", .str "u1")]

/-- Nulls at two depths, an object in the place of a text, one with a null of its own, new names. -/
def overlay : Params :=
  [("extra", .obj [("hint", .null)]), ("limits", .obj [("burst", .null), ("window", .int 60),
    ("rate", .int 20)]), ("owner", .obj [("id", .str "u2")]), ("mode", .null), ("absent", .null)]

theorem overlay_deepMerged :
    (Value.obj overlay).Distinct ∧ DeepMerged base overlay (merge base overlay) ∧
      merge base overlay =
        [("mode", .str "code"), ("limits", .obj [("rate", .int 20),
          ("burst", .obj [("size", .int 3)]), ("window", .int 60)]), ("tags", .arr [.str "a"]),
          ("owner", .obj [("id", .str "u2")]), ("extra", .obj [("hint", .null)])] := by
  have hdistinct : (Value.obj overlay).Distinct := by
    simp [overlay, Value.distinct_obj_iff, Value.distinct_of_ne, Entries.keys]
  exact ⟨hdistinct, merge_deepMerged base hdistinct, rfl⟩

end Json

end AuthServer
