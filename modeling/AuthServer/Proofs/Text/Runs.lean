import AuthServer.Proofs.Text.Words
import Mathlib.Data.List.Sort
import Mathlib.Order.Interval.Basic
import Mathlib.Order.Minimal

/-!
# Maximal runs

The positions of a text form intervals. The runs of a text are what stands at
the maximal intervals without separators, from left to right, and at no other.
-/

namespace AuthServer.Text

/-! ## Intervals of positions -/

/-- The first interval ends in front of the second one. -/
def Ahead (i j : NonemptyInterval ℕ) : Prop := i.snd < j.fst

instance : Std.Irrefl Ahead := ⟨fun i h => absurd i.fst_le_snd (Nat.not_le.2 h)⟩

instance : Std.Antisymm Ahead := ⟨fun i j hij hji => by
  have hi := i.fst_le_snd
  have hj := j.fst_le_snd
  simp only [Ahead] at hij hji
  omega⟩

/-- The interval `n` positions further on. -/
def shifted (n : ℕ) (i : NonemptyInterval ℕ) : NonemptyInterval ℕ :=
  ⟨(n + i.fst, n + i.snd), Nat.add_le_add_left i.fst_le_snd n⟩

@[simp] theorem shifted_fst (n : ℕ) (i : NonemptyInterval ℕ) : (shifted n i).fst = n + i.fst := rfl

@[simp] theorem shifted_snd (n : ℕ) (i : NonemptyInterval ℕ) : (shifted n i).snd = n + i.snd := rfl

theorem shifted_le_shifted {n : ℕ} {i j : NonemptyInterval ℕ} : shifted n i ≤ shifted n j ↔ i ≤ j := by
  simp only [NonemptyInterval.le_def, shifted_fst, shifted_snd, Nat.add_le_add_iff_left]

theorem ahead_shifted {n : ℕ} {i j : NonemptyInterval ℕ} :
    Ahead (shifted n i) (shifted n j) ↔ Ahead i j := Nat.add_lt_add_iff_left

theorem Ahead.not_le {i j : NonemptyInterval ℕ} (h : Ahead i j) : ¬ i ≤ j := fun hle =>
  absurd (hle.1.trans i.fst_le_snd) (Nat.not_le.2 h)

theorem Ahead.not_ge {i j : NonemptyInterval ℕ} (h : Ahead i j) : ¬ j ≤ i := fun hle =>
  absurd (j.fst_le_snd.trans hle.2) (Nat.not_le.2 h)

theorem eq_shifted {n : ℕ} {i : NonemptyInterval ℕ} (h : n ≤ i.fst) : ∃ j, shifted n j = i := by
  have hle := i.fst_le_snd
  refine ⟨⟨(i.fst - n, i.snd - n), by dsimp only; omega⟩, NonemptyInterval.ext (Prod.ext ?_ ?_)⟩
  · show n + (i.fst - n) = i.fst
    omega
  · show n + (i.snd - n) = i.snd
    omega

section

variable {α : Type} {sep : α → Bool} {cs xs ys : List α} {i : NonemptyInterval ℕ}

/-- What stands in the text from the first to the last position of the interval. -/
def slice (cs : List α) (i : NonemptyInterval ℕ) : List α := (cs.take (i.snd + 1)).drop i.fst

/-- The interval lies in the text, and no separator stands in it. -/
def FreeAt (sep : α → Bool) (cs : List α) (i : NonemptyInterval ℕ) : Prop :=
  ∀ k ∈ i, ∃ c ∈ cs[k]?, sep c = false

/-- What stands at the maximal intervals without separators, from left to right. -/
def MaximalRuns (sep : α → Bool) (cs : List α) (rs : List (List α)) : Prop :=
  ∃ places : List (NonemptyInterval ℕ), places.Pairwise Ahead ∧
    (∀ i, i ∈ places ↔ Maximal (FreeAt sep cs) i) ∧ rs = places.map (slice cs)

/-- There is one such list at most. -/
theorem MaximalRuns.unique {rs rs' : List (List α)} (h : MaximalRuns sep cs rs)
    (h' : MaximalRuns sep cs rs') : rs = rs' := by
  obtain ⟨places, hahead, hmem, rfl⟩ := h
  obtain ⟨places', hahead', hmem', rfl⟩ := h'
  rw [hahead.eq_of_mem_iff hahead' fun i => (hmem i).trans (hmem' i).symm]

theorem FreeAt.snd_lt (h : FreeAt sep cs i) : i.snd < cs.length := by
  obtain ⟨c, hc, -⟩ := h i.snd ⟨i.fst_le_snd, le_rfl⟩
  exact (List.getElem?_eq_some_iff.1 hc).1

theorem FreeAt.ahead (h : FreeAt sep xs i) (c : α) (j : NonemptyInterval ℕ) :
    Ahead i (shifted (xs ++ [c]).length j) := by
  have hlt := h.snd_lt
  show i.snd < (xs ++ [c]).length + j.fst
  rw [List.length_append]
  omega

/-! ## Texts without separators -/

theorem maximalRuns_nil : MaximalRuns sep ([] : List α) [] := by
  refine ⟨[], .nil, fun i => ⟨nofun, fun hi => ?_⟩, rfl⟩
  exact absurd hi.prop.snd_lt (Nat.not_lt_zero _)

/-- All positions of a text that is not empty. -/
def whole (cs : List α) : NonemptyInterval ℕ := ⟨(0, cs.length - 1), Nat.zero_le _⟩

theorem slice_whole (hne : cs ≠ []) : slice cs (whole cs) = cs := by
  show (cs.take (cs.length - 1 + 1)).drop 0 = cs
  rw [Nat.sub_add_cancel (List.length_pos_iff.2 hne), List.take_length, List.drop_zero]

theorem FreeAt.le_whole (h : FreeAt sep cs i) : i ≤ whole cs :=
  ⟨Nat.zero_le _, Nat.le_sub_one_of_lt h.snd_lt⟩

theorem freeAt_whole (h : ∀ c ∈ cs, sep c = false) (hne : cs ≠ []) : FreeAt sep cs (whole cs) := by
  intro k hk
  have hlt : k < cs.length := lt_of_le_of_lt hk.2 (Nat.sub_one_lt_of_lt (List.length_pos_iff.2 hne))
  exact ⟨cs[k], List.getElem?_eq_getElem hlt, h _ (List.getElem_mem hlt)⟩

theorem maximal_iff_eq_whole (h : ∀ c ∈ cs, sep c = false) (hne : cs ≠ []) :
    Maximal (FreeAt sep cs) i ↔ i = whole cs := by
  constructor
  · exact fun hi => hi.eq_of_le (freeAt_whole h hne) hi.prop.le_whole
  · rintro rfl
    exact ⟨freeAt_whole h hne, fun _ hj _ => hj.le_whole⟩

theorem maximalRuns_of_free (h : ∀ c ∈ cs, sep c = false) : MaximalRuns sep cs (runs sep cs) := by
  by_cases hne : cs = []
  · subst hne
    exact maximalRuns_nil
  · refine ⟨[whole cs], List.pairwise_singleton _ _, fun i => ?_, ?_⟩
    · rw [List.mem_singleton, maximal_iff_eq_whole h hne]
    · rw [runs_of_free h hne, List.map_singleton, slice_whole hne]

/-! ## Cutting at a separator -/

theorem slice_append_of_lt (h : i.snd < xs.length) (ys : List α) : slice (xs ++ ys) i = slice xs i := by
  rw [slice, List.take_append_of_le_length h, slice]

theorem slice_shifted (xs ys : List α) (i : NonemptyInterval ℕ) :
    slice (xs ++ ys) (shifted xs.length i) = slice ys i := by
  rw [slice, shifted_snd, shifted_fst, Nat.add_assoc, List.take_length_add_append,
    List.drop_length_add_append, slice]

theorem freeAt_append_of_lt (h : i.snd < xs.length) (ys : List α) :
    FreeAt sep (xs ++ ys) i ↔ FreeAt sep xs i := by
  refine forall₂_congr fun k hk => ?_
  rw [List.getElem?_append_left (lt_of_le_of_lt hk.2 h)]

theorem freeAt_shifted (xs ys : List α) (i : NonemptyInterval ℕ) :
    FreeAt sep (xs ++ ys) (shifted xs.length i) ↔ FreeAt sep ys i := by
  constructor
  · intro h k hk
    have := h (xs.length + k) ⟨Nat.add_le_add_left hk.1 _, Nat.add_le_add_left hk.2 _⟩
    rwa [List.getElem?_append_right (Nat.le_add_right _ _), Nat.add_sub_cancel_left] at this
  · intro h k hk
    have hle : xs.length ≤ k := le_trans (Nat.le_add_right _ _) hk.1
    rw [List.getElem?_append_right hle]
    refine h (k - xs.length) ⟨?_, ?_⟩
    · have : xs.length + i.fst ≤ k := hk.1
      omega
    · have : k ≤ xs.length + i.snd := hk.2
      omega

section Cut

variable {c : α} (hc : sep c = true)
include hc

/-- No free interval goes across a separator. -/
theorem freeAt_split : FreeAt sep (xs ++ c :: ys) i ↔
    FreeAt sep xs i ∨ ∃ j, FreeAt sep ys j ∧ shifted (xs ++ [c]).length j = i := by
  constructor
  · intro h
    have houtside : xs.length ∉ i := fun hmem => by
      obtain ⟨c', hget, hfree⟩ := h _ hmem
      rw [List.getElem?_append_right le_rfl, Nat.sub_self, List.getElem?_cons_zero,
        Option.mem_some_iff] at hget
      rw [← hget, hc] at hfree
      cases hfree
    rcases Nat.lt_or_ge i.snd xs.length with hlt | hge
    · exact .inl ((freeAt_append_of_lt hlt _).1 h)
    · have hle : (xs ++ [c]).length ≤ i.fst := by
        rw [List.length_append, List.length_singleton]
        exact Nat.lt_of_not_le fun hle => houtside ⟨hle, hge⟩
      obtain ⟨j, rfl⟩ := eq_shifted hle
      rw [List.append_cons, freeAt_shifted] at h
      exact .inr ⟨j, h, rfl⟩
  · rintro (h | ⟨j, h, rfl⟩)
    · exact (freeAt_append_of_lt h.snd_lt _).2 h
    · rw [List.append_cons]
      exact (freeAt_shifted _ _ j).2 h

theorem maximal_split : Maximal (FreeAt sep (xs ++ c :: ys)) i ↔
    Maximal (FreeAt sep xs) i ∨ ∃ j, Maximal (FreeAt sep ys) j ∧ shifted (xs ++ [c]).length j = i := by
  constructor
  · intro hi
    rcases (freeAt_split hc).1 hi.prop with hx | ⟨j, hj, rfl⟩
    · exact .inl ⟨hx, fun k hk hle => hi.2 ((freeAt_split hc).2 (.inl hk)) hle⟩
    · refine .inr ⟨j, ⟨hj, fun k hk hle => ?_⟩, rfl⟩
      have hk' : FreeAt sep (xs ++ c :: ys) (shifted (xs ++ [c]).length k) :=
        (freeAt_split hc).2 (.inr ⟨k, hk, rfl⟩)
      exact shifted_le_shifted.1 (hi.2 hk' (shifted_le_shifted.2 hle))
  -- an interval on the other side of the separator includes none on this side
  · rintro (hi | ⟨j, hj, rfl⟩)
    · refine ⟨(freeAt_split hc).2 (.inl hi.prop), fun k hk hle => ?_⟩
      rcases (freeAt_split hc).1 hk with hx | ⟨j, -, rfl⟩
      · exact hi.2 hx hle
      · exact absurd hle (hi.prop.ahead c j).not_le
    · refine ⟨(freeAt_split hc).2 (.inr ⟨j, hj.prop, rfl⟩), fun k hk hle => ?_⟩
      rcases (freeAt_split hc).1 hk with hx | ⟨j', hj', rfl⟩
      · exact absurd hle (hx.ahead c j).not_ge
      · exact shifted_le_shifted.2 (hj.2 hj' (shifted_le_shifted.1 hle))

theorem MaximalRuns.split {rs rs' : List (List α)} (h : MaximalRuns sep xs rs)
    (h' : MaximalRuns sep ys rs') : MaximalRuns sep (xs ++ c :: ys) (rs ++ rs') := by
  obtain ⟨places, hahead, hmem, rfl⟩ := h
  obtain ⟨places', hahead', hmem', rfl⟩ := h'
  refine ⟨places ++ places'.map (shifted (xs ++ [c]).length), ?_, fun i => ?_, ?_⟩
  · refine List.pairwise_append.2
      ⟨hahead, List.pairwise_map.2 (hahead'.imp ahead_shifted.2), fun i hi k hk => ?_⟩
    obtain ⟨j, -, rfl⟩ := List.mem_map.1 hk
    exact ((hmem i).1 hi).prop.ahead c j
  · rw [List.mem_append, List.mem_map, maximal_split hc, hmem]
    simp only [hmem']
  · rw [List.map_append, List.map_map]
    refine congrArg₂ _ (List.map_congr_left fun i hi => ?_) (List.map_congr_left fun i _ => ?_)
    · exact (slice_append_of_lt ((hmem i).1 hi).prop.snd_lt _).symm
    · rw [Function.comp_apply, List.append_cons, slice_shifted]

end Cut

/-! ## The runs of a text -/

/-- By recursion on the text behind a front that is free, which a separator ends. -/
theorem maximalRuns_append (front : List α) (h : ∀ c ∈ front, sep c = false) (cs : List α) :
    MaximalRuns sep (front ++ cs) (runs sep (front ++ cs)) := by
  induction cs generalizing front with
  | nil =>
    rw [List.append_nil]
    exact maximalRuns_of_free h
  | cons c cs ih =>
    cases hc : sep c with
    | true =>
      rw [runs_split front cs hc]
      exact (maximalRuns_of_free h).split hc (ih [] nofun)
    | false =>
      rw [List.append_cons]
      exact ih _ (List.forall_mem_append.2 ⟨h, List.forall_mem_singleton.2 hc⟩)

theorem maximalRuns_iff {rs : List (List α)} : MaximalRuns sep cs rs ↔ rs = runs sep cs := by
  have hruns : MaximalRuns sep cs (runs sep cs) := maximalRuns_append [] nofun cs
  exact ⟨fun h => h.unique hruns, fun h => h ▸ hruns⟩

end

end AuthServer.Text
