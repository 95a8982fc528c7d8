import AuthServer.Entries
import AuthServer.Proofs.Text.Html
import AuthServer.Proofs.Text.Words

/-!
# Markup

A page is made of text, declarations and tags, and a tag of a name and quoted
attributes. Where the texts bring no markup of their own, the page reads back as
the tags that it was written with.
-/

namespace AuthServer.Text.Markup

structure Tag where
  name : String
  attributes : Entries String
  deriving DecidableEq, Repr

inductive Part where
  | text (s : String)
  | declaration (s : String)
  | tag (t : Tag)

/-! ## Writing -/

def attributeChars (a : String × String) : List Char :=
  ' ' :: a.1.toList ++ '=' :: '"' :: a.2.toList ++ ['"']

def Tag.chars (t : Tag) : List Char := t.name.toList ++ t.attributes.flatMap attributeChars

/-- What the part writes between angle brackets. -/
def Part.mark? : Part → Option (List Char)
  | text _ => none
  | declaration s => some ('!' :: s.toList)
  | tag t => some t.chars

def Part.chars : Part → List Char
  | text s => s.toList
  | declaration s => '<' :: '!' :: s.toList ++ ['>']
  | tag t => '<' :: t.chars ++ ['>']

def Part.tag? : Part → Option Tag
  | tag t => some t
  | _ => none

/-! ## Reading -/

/-- What stands between a `<` and the next `>`. -/
def marks (page : List Char) : List (List Char) :=
  ((pieces (· = '<') page).drop 1).map (·.takeWhile (· ≠ '>'))

/-- Between quotes stand the values, and in front of each a blank, its name and the `=`. -/
def readAttributes : List (List Char) → Entries String
  | key :: value :: rest =>
    (String.ofList ((key.drop 1).takeWhile (· ≠ '=')), String.ofList value) :: readAttributes rest
  | _ => []

def Tag.read (cs : List Char) : Tag :=
  ⟨String.ofList (cs.takeWhile (· ≠ ' ')), readAttributes (pieces (· = '"') (cs.dropWhile (· ≠ ' ')))⟩

/-- The tags of a page, declarations left out. -/
def readTags (page : List Char) : List Tag :=
  ((marks page).filter (·.head? ≠ some '!')).map Tag.read

/-! ## Texts without markup -/

structure Tag.Plain (t : Tag) : Prop where
  name : Free ['<', '>', '!', ' '] t.name.toList
  keys : ∀ a ∈ t.attributes, Free ['<', '>', '"', '='] a.1.toList
  values : ∀ a ∈ t.attributes, Free ['<', '>', '"'] a.2.toList

def Part.Plain : Part → Prop
  | text s => Free ['<'] s.toList
  | declaration s => Free ['<', '>'] s.toList
  | tag t => t.Plain

instance (t : Tag) : Decidable t.Plain :=
  decidable_of_iff
    (Free ['<', '>', '!', ' '] t.name.toList ∧ (∀ a ∈ t.attributes, Free ['<', '>', '"', '='] a.1.toList) ∧
      ∀ a ∈ t.attributes, Free ['<', '>', '"'] a.2.toList)
    ⟨fun ⟨name, keys, values⟩ => ⟨name, keys, values⟩, fun h => ⟨h.name, h.keys, h.values⟩⟩

instance : (x : Part) → Decidable x.Plain
  | .text s => inferInstanceAs (Decidable (Free ['<'] s.toList))
  | .declaration s => inferInstanceAs (Decidable (Free ['<', '>'] s.toList))
  | .tag t => inferInstanceAs (Decidable t.Plain)

section Pieces

variable {α : Type} {sep : α → Bool}

/-- What is free of separators goes on with the first piece. -/
theorem pieces_free_append {xs : List α} (h : ∀ x ∈ xs, sep x = false) (ys : List α) :
    ∃ first, pieces sep (xs ++ ys) = (xs ++ first) :: (pieces sep ys).drop 1 := by
  induction xs with
  | nil =>
    rcases hp : pieces sep ys with _ | ⟨first, rest⟩
    · exact absurd hp (pieces_ne_nil sep ys)
    · exact ⟨first, hp⟩
  | cons x xs ih =>
    obtain ⟨hx, hxs⟩ := List.forall_mem_cons.1 h
    obtain ⟨first, hfirst⟩ := ih hxs
    exact ⟨first, by simp [pieces, hx, hfirst]⟩

theorem pieces_free_split {xs : List α} (h : ∀ x ∈ xs, sep x = false) {c : α} (hc : sep c = true)
    (ys : List α) : pieces sep (xs ++ c :: ys) = xs :: pieces sep ys := by
  rw [pieces_split xs ys hc, pieces_of_free h, List.singleton_append]

end Pieces

/-! ## Attributes -/

theorem readAttributes_chars {es : Entries String}
    (hkeys : ∀ a ∈ es, Free ['<', '>', '"', '='] a.1.toList)
    (hvalues : ∀ a ∈ es, Free ['<', '>', '"'] a.2.toList) :
    readAttributes (pieces (· = '"') (es.flatMap attributeChars)) = es := by
  induction es with
  | nil => rfl
  | cons a rest ih =>
    obtain ⟨hkey, hkeys⟩ := List.forall_mem_cons.1 hkeys
    obtain ⟨hvalue, hvalues⟩ := List.forall_mem_cons.1 hvalues
    have hchars : List.flatMap attributeChars (a :: rest) =
        (' ' :: a.1.toList ++ ['=']) ++ '"' :: (a.2.toList ++ '"' :: rest.flatMap attributeChars) := by
      simp [attributeChars]
    have hfree : Free ['"'] (' ' :: a.1.toList ++ ['=']) :=
      free_append.2 ⟨free_cons.2 ⟨by decide, hkey.mono (by decide)⟩, by decide⟩
    rw [hchars, pieces_free_split (hfree.sep (by decide)) (by decide),
      pieces_free_split (hvalue.sep (by decide)) (by decide), readAttributes, ih hkeys hvalues,
      List.cons_append, List.drop_one, List.tail_cons, hkey.takeWhile_split (by decide),
      String.ofList_toList, String.ofList_toList]

theorem Tag.read_chars {t : Tag} (h : t.Plain) : read t.chars = t := by
  have hname : ∀ c ∈ t.name.toList, decide (c ≠ ' ') = true :=
    fun c hc => decide_eq_true fun e => h.name c hc (by rw [e]; decide)
  have hattributes : (t.attributes.flatMap attributeChars).takeWhile (· ≠ ' ') = [] ∧
      (t.attributes.flatMap attributeChars).dropWhile (· ≠ ' ') = t.attributes.flatMap attributeChars := by
    cases t.attributes with
    | nil => exact ⟨rfl, rfl⟩
    | cons a rest => simp [attributeChars]
  unfold read chars
  rw [List.takeWhile_append_of_pos hname, List.dropWhile_append_of_pos hname, hattributes.1,
    hattributes.2, List.append_nil, String.ofList_toList, readAttributes_chars h.keys h.values]

/-! ## Pages -/

theorem marks_text {s : List Char} (h : Free ['<'] s) (page : List Char) :
    marks (s ++ page) = marks page := by
  obtain ⟨first, hfirst⟩ := pieces_free_append (h.sep (c := '<') (by decide)) page
  rw [marks, hfirst]
  rfl

theorem marks_mark {mark : List Char} (h : Free ['<', '>'] mark) (page : List Char) :
    marks ('<' :: mark ++ '>' :: page) = mark :: marks page := by
  have hfree : Free ['<'] (mark ++ ['>']) := free_append.2 ⟨h.mono (by decide), by decide⟩
  obtain ⟨first, hfirst⟩ := pieces_free_append (hfree.sep (c := '<') (by decide)) page
  have hpieces : pieces (· = '<') ('<' :: mark ++ '>' :: page) =
      [] :: (mark ++ '>' :: first) :: (pieces (· = '<') page).drop 1 := by
    rw [List.cons_append, pieces, if_pos (by decide), List.append_cons mark '>' page, hfirst,
      List.append_assoc, List.singleton_append]
  rw [marks, hpieces, List.drop_one, List.tail_cons, List.map_cons, h.takeWhile_split (by decide)]
  rfl

theorem Tag.Plain.free_chars {t : Tag} (h : t.Plain) : Free ['<', '>'] t.chars := by
  refine free_append.2 ⟨h.name.mono (by decide), fun c hc => ?_⟩
  obtain ⟨a, ha, hc⟩ := List.mem_flatMap.1 hc
  have hattribute : Free ['<', '>'] (attributeChars a) := by
    refine free_append.2 ⟨free_append.2 ⟨free_cons.2 ⟨by decide, (h.keys a ha).mono (by decide)⟩, ?_⟩, by decide⟩
    exact free_cons.2 ⟨by decide, free_cons.2 ⟨by decide, (h.values a ha).mono (by decide)⟩⟩
  exact hattribute c hc

theorem Part.Plain.marks_append {x : Part} (h : x.Plain) (page : List Char) :
    marks (x.chars ++ page) = x.mark?.toList ++ marks page := by
  cases x with
  | text s => exact marks_text h page
  | declaration s =>
    have hfree : Free ['<', '>'] ('!' :: s.toList) := free_cons.2 ⟨by decide, h⟩
    rw [chars, List.append_assoc]
    exact marks_mark hfree page
  | tag t =>
    rw [chars, List.append_assoc]
    exact marks_mark (Tag.Plain.free_chars h) page

theorem Tag.Plain.head?_chars {t : Tag} (h : t.Plain) : t.chars.head? ≠ some '!' := by
  intro hhead
  rcases hname : t.name.toList with _ | ⟨c, rest⟩
  · rw [chars, hname] at hhead
    rcases hattributes : t.attributes with _ | ⟨a, rest⟩ <;> rw [hattributes] at hhead
    · cases hhead
    · exact absurd hhead (by simp [attributeChars])
  · rw [chars, hname] at hhead
    have hc : c ∈ t.name.toList := hname ▸ List.mem_cons_self
    obtain rfl : c = '!' := Option.some.inj hhead
    exact h.name _ hc (by decide)

theorem Part.Plain.readTags_append {x : Part} (h : x.Plain) (page : List Char) :
    readTags (x.chars ++ page) = x.tag?.toList ++ readTags page := by
  rw [readTags, h.marks_append, List.filter_append, List.map_append]
  refine congrArg (· ++ readTags page) ?_
  cases x with
  | text s => rfl
  | declaration s => rfl
  | tag t => simp [mark?, tag?, Tag.Plain.head?_chars h, Tag.read_chars h]

/-- A page reads back as the tags that it was written with. -/
theorem readTags_chars {parts : List Part} (h : ∀ x ∈ parts, x.Plain) :
    readTags (parts.flatMap Part.chars) = parts.filterMap Part.tag? := by
  induction parts with
  | nil => rfl
  | cons x rest ih =>
    obtain ⟨hx, hrest⟩ := List.forall_mem_cons.1 h
    rw [List.flatMap_cons, hx.readTags_append, ih hrest, List.filterMap_cons]
    cases x.tag? <;> rfl

end AuthServer.Text.Markup
