/-!
# Blank characters

The Unicode property White_Space, and the words and margins of a text by it.
-/

namespace AuthServer.Text

/-- The code points with property White_Space, as inclusive ranges. -/
def blankRanges : List (Nat × Nat) :=
  [(0x09, 0x0D), (0x20, 0x20), (0x85, 0x85), (0xA0, 0xA0), (0x1680, 0x1680), (0x2000, 0x200A),
   (0x2028, 0x2029), (0x202F, 0x202F), (0x205F, 0x205F), (0x3000, 0x3000)]

def isBlank (c : Char) : Bool :=
  blankRanges.any fun (lo, hi) => lo ≤ c.toNat && c.toNat ≤ hi

/-- Twenty-five code points, the count of the property's table. -/
example : (blankRanges.map fun (lo, hi) => hi - lo + 1).sum = 25 := by decide

/-! ## Cutting at separators -/

/-- The pieces between separators, empty ones included. -/
def pieces {α : Type} (sep : α → Bool) : List α → List (List α)
  | [] => [[]]
  | c :: cs =>
    if sep c then [] :: pieces sep cs
    else
      match pieces sep cs with
      | [] => [[c]]
      | piece :: rest => (c :: piece) :: rest

/-- The maximal runs free of separators. -/
def runs {α : Type} (sep : α → Bool) (cs : List α) : List (List α) :=
  (pieces sep cs).filter fun piece => !piece.isEmpty

theorem pieces_ne_nil {α : Type} (sep : α → Bool) (cs : List α) : pieces sep cs ≠ [] := by
  cases cs with
  | nil => simp [pieces]
  | cons c cs =>
    simp only [pieces]
    split
    · simp
    · split <;> simp

/-- The pieces are the text without its separators. -/
theorem flatten_pieces {α : Type} (sep : α → Bool) (cs : List α) :
    (pieces sep cs).flatten = cs.filter fun c => !sep c := by
  induction cs with
  | nil => rfl
  | cons c cs ih =>
    by_cases h : sep c
    · simp [pieces, h, ih]
    · cases hp : pieces sep cs with
      | nil => exact absurd hp (pieces_ne_nil sep cs)
      | cons piece rest =>
        rw [hp] at ih
        simp [pieces, h, hp, ← ih]

theorem not_sep_of_mem_pieces {α : Type} {sep : α → Bool} {cs piece : List α}
    (h : piece ∈ pieces sep cs) {c : α} (hc : c ∈ piece) : sep c = false := by
  have : c ∈ (pieces sep cs).flatten := List.mem_flatten.2 ⟨piece, h, hc⟩
  rw [flatten_pieces] at this
  simpa using (List.mem_filter.1 this).2

/-- The words of a text: its runs free of blanks. -/
def words (s : String) : List String := (runs isBlank s.toList).map String.ofList

def trimmed (s : String) : String :=
  String.ofList ((s.toList.dropWhile isBlank).reverse.dropWhile isBlank).reverse

/-- Only the letters `A` to `Z` change. -/
def lowered (s : String) : String := String.ofList (s.toList.map Char.toLower)

/-- Equal up to the case of ASCII letters. -/
def sameName (a b : String) : Bool := lowered a = lowered b

end AuthServer.Text
