import AuthServer.Text.Html
import Mathlib.Logic.Function.Basic

/-!
# Escaped text

Escaping leaves no markup in a text, and an ampersand only in front of an
entity. Reading the entities gives the text back.
-/

namespace AuthServer.Text

/-! ## Texts without some characters -/

/-- The text has none of the characters. -/
def Free (cs : List Char) (s : List Char) : Prop := ∀ c ∈ s, c ∉ cs

-- goes through the text: instance search may choose to go through all characters there are
instance (cs s : List Char) : Decidable (Free cs s) := List.decidableBAll (fun c => c ∉ cs) s

section Free

variable {cs ds s t : List Char} {c : Char}

theorem Free.mono (h : Free cs s) (hsub : ds ⊆ cs) : Free ds s := fun c hc hd => h c hc (hsub hd)

theorem Free.notMem (h : Free cs s) (hc : c ∈ cs) : c ∉ s := fun hs => h c hs hc

theorem free_cons : Free cs (c :: s) ↔ c ∉ cs ∧ Free cs s := List.forall_mem_cons

theorem free_append : Free cs (s ++ t) ↔ Free cs s ∧ Free cs t := List.forall_mem_append

theorem Free.sep (h : Free cs s) (hc : c ∈ cs) : ∀ x ∈ s, decide (x = c) = false := fun x hx =>
  decide_eq_false fun e => h x hx (e ▸ hc)

theorem Free.takeWhile_split (h : Free cs s) (hc : c ∈ cs) (t : List Char) :
    (s ++ c :: t).takeWhile (· ≠ c) = s := by
  have hne : ∀ x ∈ s, decide (x ≠ c) = true := fun x hx => decide_eq_true fun e => h x hx (by rwa [e])
  rw [List.takeWhile_append_of_pos hne]
  simp

end Free

namespace Html

/-- Reads the entities of the five characters with a meaning in markup, and nothing else. -/
def unescapeChars : List Char → List Char
  | '&' :: 'a' :: 'm' :: 'p' :: ';' :: cs => '&' :: unescapeChars cs
  | '&' :: 'l' :: 't' :: ';' :: cs => '<' :: unescapeChars cs
  | '&' :: 'g' :: 't' :: ';' :: cs => '>' :: unescapeChars cs
  | '&' :: 'q' :: 'u' :: 'o' :: 't' :: ';' :: cs => '"' :: unescapeChars cs
  | '&' :: '#' :: '3' :: '9' :: ';' :: cs => '\'' :: unescapeChars cs
  | c :: cs => c :: unescapeChars cs
  | [] => []

def unescape (s : String) : String := String.ofList (unescapeChars s.toList)

def entities : List (Char × String) :=
  [('&', "&amp;"), ('<', "&lt;"), ('>', "&gt;"), ('"', "&quot;"), ('\'', "&#39;")]

theorem mem_entities {c : Char} {e : String} (h : entity? c = some e) : (c, e) ∈ entities := by
  unfold entity? at h
  grind [entities]

/-- An entity starts with its ampersand, and has no second one and nothing else of markup. -/
theorem entity?_shape {c : Char} {e : String} (h : entity? c = some e) :
    ∃ body, e.toList = '&' :: body ∧ Free ['&', '<', '>', '"', '\''] body := by
  have hall : ∀ m ∈ entities, m.2.toList = '&' :: m.2.toList.tail ∧
      Free ['&', '<', '>', '"', '\''] m.2.toList.tail := by decide
  obtain ⟨hstart, hfree⟩ := hall _ (mem_entities h)
  exact ⟨_, hstart, hfree⟩

theorem entity?_eq_none_iff {c : Char} : entity? c = none ↔ c ∉ ['&', '<', '>', '"', '\''] := by
  unfold entity?
  grind

theorem escapeChars_cons (c : Char) (cs : List Char) :
    escapeChars (c :: cs) = escapeChar c ++ escapeChars cs := List.flatMap_cons

theorem escapeChar_of_plain {c : Char} (h : entity? c = none) : escapeChar c = [c] := by
  rw [escapeChar, h]

theorem escapeChar_of_entity {c : Char} {e : String} (h : entity? c = some e) : escapeChar c = e.toList := by
  rw [escapeChar, h]

theorem free_escapeChars (cs : List Char) : Free ['<', '>', '"', '\''] (escapeChars cs) := by
  intro c h
  obtain ⟨x, -, hc⟩ := List.mem_flatMap.1 h
  rcases he : entity? x with _ | e
  · rw [escapeChar_of_plain he, List.mem_singleton] at hc
    rw [hc]
    exact fun hm => entity?_eq_none_iff.1 he (List.mem_cons_of_mem _ hm)
  · obtain ⟨body, hbody, hfree⟩ := entity?_shape he
    rw [escapeChar_of_entity he, hbody, List.mem_cons] at hc
    rcases hc with rfl | hc
    · decide
    · exact fun hm => hfree c hc (List.mem_cons_of_mem _ hm)

/-- Where an ampersand stands, an entity begins. -/
theorem entity_of_ampersand {cs front rest : List Char} (h : escapeChars cs = front ++ '&' :: rest) :
    ∃ c e, entity? c = some e ∧ e.toList <+: '&' :: rest := by
  induction cs generalizing front with
  | nil => simp [escapeChars] at h
  | cons c cs ih =>
    rw [escapeChars_cons] at h
    rcases List.append_eq_append_iff.1 h with ⟨front', -, hlater⟩ | ⟨here, hhere, hrest⟩
    · exact ih hlater
    -- the ampersand is in what the first character became, unless that ends before it
    rcases here with _ | ⟨x, here⟩
    · have hnext : escapeChars cs = [] ++ '&' :: rest := hrest.symm
      exact ih hnext
    obtain rfl : '&' = x := (List.cons.inj hrest).1
    rcases he : entity? c with _ | e
    · rw [escapeChar_of_plain he] at hhere
      have hmem : '&' ∈ [c] := hhere ▸ List.mem_append_right front List.mem_cons_self
      rw [← List.mem_singleton.1 hmem] at he
      cases he
    · obtain ⟨body, hbody, hfree⟩ := entity?_shape he
      rw [escapeChar_of_entity he] at hhere
      cases front with
      | nil => exact ⟨c, e, he, by rw [hhere, hrest]; exact List.prefix_append _ _⟩
      | cons y front =>
        rw [hbody] at hhere
        have hmem : '&' ∈ body :=
          (List.cons.inj hhere).2 ▸ List.mem_append_right front List.mem_cons_self
        exact absurd hmem (hfree.notMem List.mem_cons_self)

theorem unescapeChars_cons {c : Char} (h : c ≠ '&') (cs : List Char) :
    unescapeChars (c :: cs) = c :: unescapeChars cs := by
  rw [unescapeChars] <;> intros <;> simp_all

theorem unescapeChars_entity {c : Char} {e : String} (h : entity? c = some e) (cs : List Char) :
    unescapeChars (e.toList ++ cs) = c :: unescapeChars cs := by
  have hall : ∀ m ∈ entities, unescapeChars (m.2.toList ++ cs) = m.1 :: unescapeChars cs := by
    simp [entities, unescapeChars]
  exact hall _ (mem_entities h)

theorem unescapeChars_escapeChars (cs : List Char) : unescapeChars (escapeChars cs) = cs := by
  induction cs with
  | nil => rfl
  | cons c cs ih =>
    rw [escapeChars_cons]
    rcases he : entity? c with _ | e
    · have hne : c ≠ '&' := fun h => entity?_eq_none_iff.1 he (h ▸ List.mem_cons_self)
      rw [escapeChar_of_plain he, List.singleton_append, unescapeChars_cons hne, ih]
    · rw [escapeChar_of_entity he, unescapeChars_entity he, ih]

theorem unescape_escape (s : String) : unescape (escape s) = s := by
  rw [unescape, escape, String.toList_ofList, unescapeChars_escapeChars, String.ofList_toList]

/-- `e` says what `s` says, without markup. -/
structure Faithful (s e : String) : Prop where
  clean : Free ['<', '>', '"', '\''] e.toList
  ampersand : ∀ front rest, e.toList = front ++ '&' :: rest →
    ∃ entity ∈ entities.map Prod.snd, entity.toList <+: '&' :: rest
  unescape : unescape e = s

theorem faithful_escape (s : String) : Faithful s (escape s) where
  clean := by
    rw [escape, String.toList_ofList]
    exact free_escapeChars s.toList
  ampersand front rest h := by
    rw [escape, String.toList_ofList] at h
    obtain ⟨c, e, he, hprefix⟩ := entity_of_ampersand h
    exact ⟨e, List.mem_map.2 ⟨(c, e), mem_entities he, rfl⟩, hprefix⟩
  unescape := unescape_escape s

end Html

end AuthServer.Text
