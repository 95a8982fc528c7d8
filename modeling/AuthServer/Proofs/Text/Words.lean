import AuthServer.Json.Writer
import AuthServer.Text.Blank

/-!
# Words

Texts without separators come back when the text that joins them is cut. Words
are the case of blanks.
-/

namespace AuthServer.Text

section Pieces

variable {α : Type} {sep : α → Bool}

theorem pieces_of_free {cs : List α} (h : ∀ c ∈ cs, sep c = false) : pieces sep cs = [cs] := by
  induction cs with
  | nil => rfl
  | cons c cs ih =>
    obtain ⟨hc, hcs⟩ := List.forall_mem_cons.1 h
    simp [pieces, hc, ih hcs]

/-- Every separator ends a piece. -/
theorem pieces_split (xs ys : List α) {c : α} (hc : sep c = true) :
    pieces sep (xs ++ c :: ys) = pieces sep xs ++ pieces sep ys := by
  induction xs with
  | nil => simp [pieces, hc]
  | cons x xs ih =>
    by_cases hx : sep x = true
    · simp [pieces, hx, ih]
    · rcases hp : pieces sep xs with _ | ⟨piece, rest⟩
      · exact absurd hp (pieces_ne_nil sep xs)
      · simp [pieces, hx, ih, hp]

/-- What is free of separators goes on with the last piece. -/
theorem pieces_append_free (xs : List α) :
    ∃ front last, ∀ ys : List α, (∀ y ∈ ys, sep y = false) →
      pieces sep (xs ++ ys) = front ++ [last ++ ys] := by
  induction xs with
  | nil => exact ⟨[], [], fun ys hy => pieces_of_free hy⟩
  | cons x xs ih =>
    obtain ⟨front, last, h⟩ := ih
    by_cases hx : sep x = true
    · exact ⟨[] :: front, last, fun ys hy => by simp [pieces, hx, h ys hy]⟩
    · cases front with
      | nil => exact ⟨[], x :: last, fun ys hy => by simp [pieces, hx, h ys hy]⟩
      | cons piece front =>
        exact ⟨(x :: piece) :: front, last, fun ys hy => by simp [pieces, hx, h ys hy]⟩

/-! ## Runs -/

theorem runs_split (xs ys : List α) {c : α} (hc : sep c = true) :
    runs sep (xs ++ c :: ys) = runs sep xs ++ runs sep ys := by
  rw [runs, pieces_split xs ys hc, List.filter_append]
  rfl

theorem runs_of_free {cs : List α} (h : ∀ c ∈ cs, sep c = false) (hne : cs ≠ []) :
    runs sep cs = [cs] := by
  rw [runs, pieces_of_free h]
  simp [hne]

theorem not_sep_of_mem_runs {cs run : List α} (h : run ∈ runs sep cs) : ∀ c ∈ run, sep c = false :=
  fun _ hc => not_sep_of_mem_pieces (List.mem_filter.1 h).1 hc

theorem ne_nil_of_mem_runs {cs run : List α} (h : run ∈ runs sep cs) : run ≠ [] := by
  simpa using (List.mem_filter.1 h).2

/-- The runs are the text without its separators. -/
theorem flatten_runs (sep : α → Bool) (cs : List α) : (runs sep cs).flatten = cs.filter fun c => !sep c := by
  rw [runs, List.flatten_filter_not_isEmpty, flatten_pieces]

/-- Behind a character that separates nothing no further run begins. -/
theorem length_runs_append_free (xs : List α) {x : α} {ys : List α} (hx : sep x = false)
    (hy : ∀ y ∈ ys, sep y = false) :
    (runs sep (xs ++ x :: ys)).length = (runs sep (xs ++ [x])).length := by
  obtain ⟨front, last, h⟩ := @pieces_append_free α sep xs
  have hshort := h [x] (List.forall_mem_singleton.2 hx)
  have hlong := h (x :: ys) (List.forall_mem_cons.2 ⟨hx, hy⟩)
  simp [runs, hshort, hlong]

end Pieces

/-! ## Runs as texts -/

section Runs

variable {sep : Char → Bool}

theorem unseparated_of_mem_runs {s w : String} (h : w ∈ (runs sep s.toList).map String.ofList) :
    w ≠ "" ∧ ∀ c ∈ w.toList, sep c = false := by
  obtain ⟨run, hrun, rfl⟩ := List.mem_map.1 h
  rw [String.toList_ofList]
  exact ⟨fun hempty => ne_nil_of_mem_runs hrun (String.ofList_eq_empty_iff.1 hempty), not_sep_of_mem_runs hrun⟩

/-- Texts with a separator between them are cut at just these separators. -/
theorem runs_joined {c : Char} (hc : sep c = true) {ws : List String}
    (h : ∀ w ∈ ws, w ≠ "" ∧ ∀ x ∈ w.toList, sep x = false) :
    (runs sep (Json.joined (String.singleton c) ws).toList).map String.ofList = ws := by
  induction ws with
  | nil => rfl
  | cons w rest ih =>
    obtain ⟨⟨hne, hfree⟩, hrest⟩ := List.forall_mem_cons.1 h
    have hrun : runs sep w.toList = [w.toList] :=
      runs_of_free hfree fun hnil => hne (String.toList_eq_nil_iff.1 hnil)
    cases rest with
    | nil =>
      show (runs sep w.toList).map String.ofList = [w]
      rw [hrun, List.map_singleton, String.ofList_toList]
    | cons w' rest =>
      have hlist : (Json.joined (String.singleton c) (w :: w' :: rest)).toList =
          w.toList ++ c :: (Json.joined (String.singleton c) (w' :: rest)).toList := by
        simp [Json.joined]
      rw [hlist, runs_split _ _ hc, hrun, List.map_append, ih hrest, List.map_singleton,
        String.ofList_toList, List.singleton_append]

end Runs

/-! ## Words -/

/-- Free of blanks, and not empty. -/
def IsWord (w : String) : Prop := w ≠ "" ∧ ∀ c ∈ w.toList, isBlank c = false

theorem isWord_of_mem_words {s w : String} (h : w ∈ words s) : IsWord w := unseparated_of_mem_runs h

theorem words_joined {ws : List String} (h : ∀ w ∈ ws, IsWord w) :
    words (Json.joined " " ws) = ws := runs_joined (c := ' ') (by decide) h

end AuthServer.Text
