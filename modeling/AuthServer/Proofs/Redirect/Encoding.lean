import AuthServer.Proofs.Text.Percent
import AuthServer.Proofs.Text.Words
import AuthServer.Redirect
import AuthServer.Site.Transport

/-!
# Encoded parameters read back

A form reader gives back the pairs that the parameters were encoded as, in
order and nothing else. A map of texts is thereby read back as the same map.
-/

namespace AuthServer

open Json

namespace Text.Form

/-- An ampersand stands between pairs. -/
theorem decode_split (as bs : List UInt8) : decode (as ++ 0x26 :: bs) = decode as ++ decode bs := by
  rw [decode, runs_split as bs rfl, List.map_append]
  rfl

end Text.Form

namespace Json

theorem mem_joined {sep : String} {ss : List String} {c : Char} (h : c ∈ (joined sep ss).toList) :
    c ∈ sep.toList ∨ ∃ s ∈ ss, c ∈ s.toList := by
  induction ss with
  | nil => cases h
  | cons s rest ih =>
    cases rest with
    | nil => exact .inr ⟨s, List.mem_cons_self, h⟩
    | cons s' rest =>
      change c ∈ (s ++ sep ++ joined sep (s' :: rest)).toList at h
      rw [String.toList_append, String.toList_append, List.mem_append, List.mem_append] at h
      rcases h with (h | h) | h
      · exact .inr ⟨s, List.mem_cons_self, h⟩
      · exact .inl h
      · obtain hsep | ⟨s₁, hmem, hc⟩ := ih h
        · exact .inl hsep
        · exact .inr ⟨s₁, List.mem_cons_of_mem _ hmem, hc⟩

end Json

namespace Redirect

open Text

theorem bytes_append (s t : String) : Utf8.bytes (s ++ t) = Utf8.bytes s ++ Utf8.bytes t := by
  rw [Utf8.bytes, String.toList_append, Utf8.encode_append]
  rfl

/-! ## One pair -/

theorem bytes_encodePair (name value : String) :
    Utf8.bytes (encodePair name value) =
      Utf8.bytes (Percent.encode name) ++ 0x3D :: Utf8.bytes (Percent.encode value) := by
  have hmark : Utf8.bytes "=" = [0x3D] := rfl
  rw [encodePair, bytes_append, bytes_append, List.append_assoc, hmark, List.singleton_append]

/-- The ampersand and the equality sign are no marks of percent-encoded text. -/
theorem mark_notMem_encode (s : String) :
    0x26 ∉ Utf8.bytes (Percent.encode s) ∧ 0x3D ∉ Utf8.bytes (Percent.encode s) :=
  ⟨Percent.notMem_bytes_encode (d := '&') (by decide) (by decide) s,
    Percent.notMem_bytes_encode (d := '=') (by decide) (by decide) s⟩

theorem encodePair_free {name value : String} {b : UInt8}
    (h : b ∈ Utf8.bytes (encodePair name value)) : decide (b = 0x26) = false := by
  rw [decide_eq_false_iff_not]
  rintro rfl
  rw [bytes_encodePair, List.mem_append, List.mem_cons] at h
  rcases h with h | h | h
  · exact (mark_notMem_encode name).1 h
  · exact absurd h (by decide)
  · exact (mark_notMem_encode value).1 h

theorem decodePair_encodePair (name value : String) :
    Form.decodePair (Utf8.bytes (encodePair name value)) = (name, value) := by
  have hname : ∀ b ∈ Utf8.bytes (Percent.encode name), decide (b ≠ 0x3D) = true := by
    intro b hb
    rw [decide_eq_true_eq]
    rintro rfl
    exact (mark_notMem_encode name).2 hb
  rw [bytes_encodePair, Form.decodePair, List.takeWhile_append_of_pos hname,
    List.dropWhile_append_of_pos hname]
  simp [Form.decodeText_encode]

theorem decode_encodePair (name value : String) :
    Form.decode (Utf8.bytes (encodePair name value)) = [(name, value)] := by
  have hne : Utf8.bytes (encodePair name value) ≠ [] := by simp [bytes_encodePair]
  rw [Form.decode, runs_of_free (fun _ => encodePair_free) hne, List.map_singleton,
    decodePair_encodePair]

/-! ## All pairs -/

/-- The text of some pairs. -/
def encodePairs (es : List (String × String)) : String := joined "&" (es.map fun e => encodePair e.1 e.2)

theorem encode_eq (p : Params) : encode p = encodePairs (pairs p) := rfl

theorem encodePairs_cons (e e' : String × String) (es : List (String × String)) :
    Utf8.bytes (encodePairs (e :: e' :: es)) =
      Utf8.bytes (encodePair e.1 e.2) ++ 0x26 :: Utf8.bytes (encodePairs (e' :: es)) := by
  have hmark : Utf8.bytes "&" = [0x26] := rfl
  show Utf8.bytes (encodePair e.1 e.2 ++ "&" ++ encodePairs (e' :: es)) = _
  rw [bytes_append, bytes_append, List.append_assoc, hmark, List.singleton_append]

theorem decode_encodePairs (es : List (String × String)) :
    Form.decode (Utf8.bytes (encodePairs es)) = es := by
  induction es with
  | nil => rfl
  | cons e rest ih =>
    cases rest with
    | nil => exact decode_encodePair e.1 e.2
    | cons e' rest => rw [encodePairs_cons, Form.decode_split, decode_encodePair, ih]; rfl

theorem decode_encode (p : Params) : Form.decode (Utf8.bytes (encode p)) = pairs p := by
  rw [encode_eq, decode_encodePairs]

/-- The values that a parameter tells of: none for null, each item of a list. -/
def told : Value → List Value
  | .null => []
  | .arr items => items
  | v => [v]

theorem pairs_told (p : Params) :
    pairs p = p.flatMap fun e => (told e.2).map fun v => (e.1, v.asString?.getD v.text) := by
  have htext : ∀ v : Value, valueText v = v.asString?.getD v.text := by
    intro v
    cases v <;> rfl
  have hpair : ∀ e : String × Value,
      pairsOf e.1 e.2 = (told e.2).map fun v => (e.1, v.asString?.getD v.text) := by
    rintro ⟨name, v⟩
    cases v <;> simp [pairsOf, told, htext]
  exact congrArg (fun f => p.flatMap f) (funext hpair)

/-- The characters of encoded parameters. -/
def isEncoded (c : Char) : Bool := Percent.isEncoded c || c = '=' || c = '&'

theorem isEncoded_encode {p : Params} {c : Char} (h : c ∈ (encode p).toList) : isEncoded c = true := by
  rcases mem_joined h with h | ⟨s, hs, h⟩
  · obtain rfl := List.mem_singleton.1 h
    decide
  · obtain ⟨e, -, rfl⟩ := List.mem_map.1 hs
    simp only [encodePair, String.toList_append, List.mem_append] at h
    rcases h with (h | h) | h
    · rw [isEncoded, Percent.isEncoded_encode h]
      rfl
    · obtain rfl := List.mem_singleton.1 h
      decide
    · rw [isEncoded, Percent.isEncoded_encode h]
      rfl

end Redirect

/-! ## A map of decoded pairs -/

namespace Site.HttpRequest

open Text

/-- The texts as parameters. -/
def texts (es : List (String × String)) : Params := es.map fun e => (e.1, .str e.2)

theorem keys_texts (es : List (String × String)) : (texts es).keys = Entries.keys es := by
  simp [texts, Entries.keys]

theorem addPairs_eq (what : String) (es : List (String × String)) {p : Params} (hp : p.keys.Nodup) :
    addPairs what p es =
      if (p.keys ++ Entries.keys es).Nodup then .ok (p ++ texts es) else .error (duplicate what) := by
  induction es generalizing p with
  | nil =>
    have hkeys : p.keys ++ Entries.keys ([] : List (String × String)) = p.keys := List.append_nil _
    rw [addPairs, hkeys, if_pos hp, texts, List.map_nil, List.append_nil]
  | cons e rest ih =>
    obtain ⟨k, v⟩ := e
    have hkeys : Entries.keys ((k, v) :: rest) = k :: Entries.keys rest := rfl
    rw [addPairs, hkeys]
    by_cases hk : k ∈ p.keys
    · have hdup : ¬ (p.keys ++ k :: Entries.keys rest).Nodup := by
        rw [List.nodup_append]
        exact fun h => h.2.2 k hk k List.mem_cons_self rfl
      rw [if_pos ((p.has_iff_mem_keys k).2 hk), if_neg hdup]
    · have hlonger : Entries.keys (p ++ [(k, Value.str v)]) = p.keys ++ [k] := by
        simp [Entries.keys]
      have hnodup : (Entries.keys (p ++ [(k, Value.str v)])).Nodup := by
        rw [hlonger, List.nodup_append]
        refine ⟨hp, by simp, fun a ha b hb => ?_⟩
        obtain rfl := List.mem_singleton.1 hb
        rintro rfl
        exact hk ha
      rw [if_neg (fun hhas => hk ((p.has_iff_mem_keys k).1 hhas)), ih hnodup, hlonger,
        List.append_assoc, List.append_assoc]
      rfl

theorem pairs_eq (what : String) (bs : List UInt8) :
    pairs what bs =
      if (Entries.keys (Form.decode bs)).Nodup then .ok (texts (Form.decode bs))
      else .error (duplicate what) :=
  addPairs_eq what (Form.decode bs) List.nodup_nil

/-- A map of texts is its pairs. -/
theorem texts_pairs {p : Params} (h : ∀ e ∈ p, ∃ s, e.2 = .str s) : texts (Redirect.pairs p) = p := by
  induction p with
  | nil => rfl
  | cons e rest ih =>
    obtain ⟨k, v⟩ := e
    obtain ⟨⟨s, rfl⟩, hrest⟩ := List.forall_mem_cons.1 h
    show (k, Value.str s) :: texts (Redirect.pairs rest) = _
    rw [ih hrest]

end Site.HttpRequest

/-! ## The redirect -/

namespace Redirect

open Text Site

theorem toList_replaceFragment (uri : String) (p : Params) :
    (replaceFragment uri p).toList = uri.toList.takeWhile (· ≠ '#') ++ '#' :: (encode p).toList := by
  simp [replaceFragment, splitFragment]

/-- Encoded parameters are read back as pairs in their order: none for null, one for each item of a
list and for any other value, texts as they are and other values as JSON. The encoded text has plain
characters only, none of which ends a query or a fragment or leaves a header, and takes the place of
a fragment. A map of texts comes back as it was; pairs are refused just when they name one parameter
twice. -/
theorem parameters_survive (p : Params) (uri what : String) (bs : List UInt8) (hmap : p.keys.Nodup) :
    Form.decode (Utf8.bytes (encode p)) =
        (p.flatMap fun e => (told e.2).map fun v => (e.1, v.asString?.getD v.text)) ∧
      (∀ c ∈ (encode p).toList,
        c.isAlphanum = true ∨ c ∈ ['-', '_', '.', '~', '%', '=', '&']) ∧
      (replaceFragment uri p).toList = uri.toList.takeWhile (· ≠ '#') ++ '#' :: (encode p).toList ∧
      ((∀ e ∈ p, ∃ s, e.2 = .str s) → HttpRequest.pairs what (Utf8.bytes (encode p)) = .ok p) ∧
      ((∃ e, HttpRequest.pairs what bs = .error e) ↔ ¬ (Entries.keys (Form.decode bs)).Nodup) := by
  refine ⟨(decode_encode p).trans (pairs_told p), ?_, toList_replaceFragment uri p, ?_, ?_⟩
  · intro c hc
    have hencoded := isEncoded_encode hc
    simp only [isEncoded, Percent.isEncoded, Bool.or_eq_true, List.contains_iff_mem,
      decide_eq_true_eq, List.mem_cons, List.not_mem_nil, or_false] at hencoded ⊢
    rcases hencoded with ((halpha | hmark) | heq) | hamp
    · exact .inl halpha
    · rcases hmark with h | h | h | h | h <;> simp [h]
    · simp [heq]
    · simp [hamp]
  · intro htexts
    have hpairs := HttpRequest.texts_pairs htexts
    have hkeys : (Entries.keys (pairs p)).Nodup := by
      rw [← HttpRequest.keys_texts, hpairs]
      exact hmap
    rw [HttpRequest.pairs_eq, decode_encode, if_pos hkeys, hpairs]
  · rw [HttpRequest.pairs_eq]
    split
    · rename_i hnodup
      refine iff_of_false ?_ (not_not_intro hnodup)
      rintro ⟨e, he⟩
      cases he
    · rename_i hdup
      exact ⟨fun _ => hdup, fun _ => ⟨_, rfl⟩⟩

/-- Marks of every kind, in names and in values. -/
def marked : Params := [("+ä&", .str "=%41 é#"), ("", .str "")]

/-- A list, null and a number. -/
def listed : Params := [("x", .arr [.null, .int 7]), ("gone", .null), ("", .bool true)]

theorem marked_survives :
    marked.keys.Nodup ∧ (∀ e ∈ marked, ∃ s, e.2 = .str s) ∧
      HttpRequest.pairs "query" (Utf8.bytes (encode marked)) = .ok marked ∧
      Form.decode (Utf8.bytes (encode listed)) = [("x", "null"), ("x", "7"), ("", "true")] := by
  have hmarked : marked.keys.Nodup := by decide
  have htexts : ∀ e ∈ marked, ∃ s, e.2 = .str s :=
    List.forall_mem_cons.2 ⟨⟨_, rfl⟩, List.forall_mem_singleton.2 ⟨_, rfl⟩⟩
  obtain ⟨-, -, -, hpairs, -⟩ :=
    parameters_survive marked "https://c1.example/cb#old" "query" [] hmarked
  obtain ⟨hlisted, -⟩ := parameters_survive listed "" "form" [] (by decide)
  exact ⟨hmarked, htexts, hpairs htexts, hlisted⟩

end Redirect

end AuthServer
