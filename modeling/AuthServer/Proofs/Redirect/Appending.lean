import AuthServer.Proofs.Redirect.Encoding

/-!
# Parameters added to a query

A URI is a path, a query behind the first `?` and a fragment behind the first
`#`. Adding parameters leaves path and fragment alone. The pairs of the query
stay as they were, in front of the new ones, unless the query ends in a
question mark: the name of the first new pair then continues its last pair.
-/

namespace AuthServer.Redirect

open Json Text

/-! ## Cutting at a mark -/

/-- The part before the first `c`, and what follows it. -/
def cut (c : Char) : List Char → List Char × Option (List Char)
  | [] => ([], none)
  | x :: cs => if x = c then ([], some cs) else (x :: (cut c cs).1, (cut c cs).2)

/-- A part and what follows behind the mark `c`. -/
def glue (c : Char) (front : List Char) : Option (List Char) → List Char
  | none => front
  | some rest => front ++ c :: rest

theorem glue_cut (c : Char) (cs : List Char) : glue c (cut c cs).1 (cut c cs).2 = cs := by
  induction cs with
  | nil => rfl
  | cons x cs ih =>
    rw [cut]
    split
    · rename_i hx
      rw [hx]
      rfl
    · cases hrest : (cut c cs).2 with
      | none => rw [hrest] at ih; exact congrArg (x :: ·) ih
      | some rest => rw [hrest] at ih; exact congrArg (x :: ·) ih

theorem cut_glue {c : Char} {front : List Char} (h : c ∉ front) (rest : Option (List Char)) :
    cut c (glue c front rest) = (front, rest) := by
  induction front with
  | nil => cases rest <;> simp [glue, cut]
  | cons x front ih =>
    obtain ⟨hx, hfront⟩ : ¬ x = c ∧ c ∉ front := by
      rw [List.mem_cons, not_or] at h
      exact ⟨fun e => h.1 e.symm, h.2⟩
    have hcons : glue c (x :: front) rest = x :: glue c front rest := by cases rest <;> rfl
    rw [hcons, cut, if_neg hx, ih hfront]

theorem notMem_cut (c : Char) (cs : List Char) : c ∉ (cut c cs).1 := by
  induction cs with
  | nil => exact List.not_mem_nil
  | cons x cs ih =>
    rw [cut]
    split
    · exact List.not_mem_nil
    · rename_i hx
      exact fun h => (List.mem_cons.1 h).elim (fun e => hx e.symm) ih

theorem splitFragment_eq (uri : String) :
    splitFragment uri =
      (String.ofList (cut '#' uri.toList).1, (cut '#' uri.toList).2.map String.ofList) := by
  have hcut : ∀ cs : List Char, cut '#' cs =
      (cs.takeWhile (· ≠ '#'), match cs.dropWhile (· ≠ '#') with
        | [] => none
        | _ :: fragment => some fragment) := by
    intro cs
    induction cs with
    | nil => rfl
    | cons x cs ih =>
      by_cases hx : x = '#'
      · simp [cut, hx]
      · simp [cut, hx, ih]
  rw [splitFragment, hcut]
  cases List.dropWhile (· ≠ '#') uri.toList <;> rfl

/-! ## The parts of a URI -/

structure Parts where
  path : List Char
  query : Option (List Char)
  fragment : Option (List Char)

/-- The fragment is what follows the first `#`, the query what follows the first `?` before it. -/
def parts (uri : String) : Parts :=
  let base := cut '#' uri.toList
  ⟨(cut '?' base.1).1, (cut '?' base.1).2, base.2⟩

/-- The pairs of the query, none where there is no query. -/
def Parts.pairs (u : Parts) : List (String × String) := Form.decode (Utf8.encode (u.query.getD []))

/-- The query with encoded pairs behind it. -/
def extended (encoded : List Char) : Option (List Char) → List Char
  | none => encoded
  | some q =>
    if q = [] ∨ q.getLast? = some '?' ∨ q.getLast? = some '&' then q ++ encoded
    else q ++ '&' :: encoded

theorem base_extended {path : List Char} (hpath : '?' ∉ path) (query : Option (List Char))
    (encoded : List Char) :
    glue '?' path query ++ (separator (String.ofList (glue '?' path query))).toList ++ encoded =
      glue '?' path (some (extended encoded query)) := by
  cases query with
  | none => simp [glue, separator, extended, hpath]
  | some q =>
    have hlast : (path ++ '?' :: q).getLast? = some (q.getLast?.getD '?') := by
      rw [List.getLast?_append, List.getLast?_cons]
      rfl
    simp only [glue, separator, extended, String.toList_ofList, hlast]
    rcases List.eq_nil_or_concat q with rfl | ⟨front, c, rfl⟩
    · simp
    · by_cases hc : c = '?' ∨ c = '&' <;> simp [hc]

theorem notMem_separator (base : String) : '#' ∉ (separator base).toList := by
  simp only [separator]
  split
  · decide
  · split <;> decide

theorem parts_appendQuery (uri : String) {p : Params} (h : pairs p ≠ []) :
    parts (appendQuery uri p) =
      { parts uri with query := some (extended (encode p).toList (parts uri).query) } := by
  have hbase : (cut '#' uri.toList).1 = glue '?' (parts uri).path (parts uri).query :=
    (glue_cut '?' _).symm
  have hpath : '?' ∉ (parts uri).path := notMem_cut '?' _
  have hencoded : '#' ∉ (encode p).toList := fun hmem => absurd (isEncoded_encode hmem) (by decide)
  have hfree : '#' ∉ glue '?' (parts uri).path
      (some (extended (encode p).toList (parts uri).query)) := by
    rw [← base_extended hpath, ← hbase, List.mem_append, List.mem_append]
    rintro ((hmem | hmem) | hmem)
    · exact notMem_cut '#' _ hmem
    · exact notMem_separator _ hmem
    · exact hencoded hmem
  have hresult : (appendQuery uri p).toList = glue '#' (glue '?' (parts uri).path
      (some (extended (encode p).toList (parts uri).query))) (parts uri).fragment := by
    rw [← base_extended hpath, ← hbase, appendQuery, if_neg (by simpa using h), splitFragment_eq]
    show (_ : String).toList = glue '#' _ (cut '#' uri.toList).2
    cases (cut '#' uri.toList).2 <;> simp [glue]
  rw [parts, hresult, cut_glue hfree, cut_glue hpath]

/-! ## The pairs of the longer query -/

/-- Behind a question mark the first new pair is lost in the pair before it. -/
theorem length_decode_question (bs : List UInt8) (e : String × String) (es : List (String × String)) :
    (Form.decode (bs ++ 0x3F :: Utf8.bytes (encodePairs (e :: es)))).length =
      (Form.decode (bs ++ [0x3F])).length + es.length := by
  have hfirst : (Form.decode (bs ++ 0x3F :: Utf8.bytes (encodePair e.1 e.2))).length =
      (Form.decode (bs ++ [0x3F])).length := by
    rw [Form.decode, List.length_map, length_runs_append_free bs rfl fun _ => encodePair_free,
      Form.decode, List.length_map]
  cases es with
  | nil => exact hfirst
  | cons e' es =>
    rw [encodePairs_cons, ← List.cons_append, ← List.append_assoc, Form.decode_split,
      List.length_append, hfirst, decode_encodePairs]

theorem decode_extended_question (front : List Char) {p : Params} (h : pairs p ≠ []) :
    Form.decode (Utf8.encode (extended (encode p).toList (some (front ++ ['?'])))) ≠
      Form.decode (Utf8.encode (front ++ ['?'])) ++ Form.decode (Utf8.bytes (encode p)) := by
  obtain ⟨e, es, hpairs⟩ := List.exists_cons_of_ne_nil h
  have hmark : Utf8.encode (front ++ ['?']) = Utf8.encode front ++ [0x3F] := Utf8.encode_append _ _
  have hlong : Utf8.encode (extended (encode p).toList (some (front ++ ['?']))) =
      Utf8.encode front ++ 0x3F :: Utf8.bytes (encodePairs (e :: es)) := by
    rw [extended, if_pos (by simp), Utf8.encode_append, hmark, List.append_assoc, ← hpairs]
    rfl
  intro hsame
  have hlength := congrArg List.length hsame
  rw [hlong, length_decode_question, hmark, List.length_append, decode_encode, hpairs,
    List.length_cons] at hlength
  omega

theorem decode_extended {query : Option (List Char)}
    (h : ∀ q, query = some q → q.getLast? ≠ some '?') (p : Params) :
    Form.decode (Utf8.encode (extended (encode p).toList query)) =
      Form.decode (Utf8.encode (query.getD [])) ++ Form.decode (Utf8.bytes (encode p)) := by
  cases query with
  | none => rfl
  | some q =>
    have hquestion := h q rfl
    rw [extended, Option.getD_some]
    split
    · rename_i hlast
      rcases hlast with rfl | hlast | hlast
      · rfl
      · exact absurd hlast hquestion
      · -- the ampersand that the query ends in already ends its last pair
        obtain ⟨front, rfl⟩ := List.getLast?_eq_some_iff.1 hlast
        have hmark : Utf8.encode (front ++ ['&']) = Utf8.encode front ++ [0x26] :=
          Utf8.encode_append _ _
        have hempty : Form.decode [] = [] := rfl
        rw [Utf8.encode_append, hmark, List.append_assoc, List.singleton_append, Form.decode_split,
          Form.decode_split, hempty, List.append_nil]
        rfl
    · have hmark : Utf8.encode ('&' :: (encode p).toList) = 0x26 :: Utf8.bytes (encode p) := rfl
      rw [Utf8.encode_append, hmark, Form.decode_split]

theorem decode_extended_iff (query : Option (List Char)) {p : Params} (h : pairs p ≠ []) :
    Form.decode (Utf8.encode (extended (encode p).toList query)) =
        Form.decode (Utf8.encode (query.getD [])) ++ Form.decode (Utf8.bytes (encode p)) ↔
      ¬ ∃ front, query = some (front ++ ['?']) := by
  constructor
  · rintro hsame ⟨front, rfl⟩
    exact decode_extended_question front h hsame
  · intro hnone
    refine decode_extended (fun q hq hlast => ?_) p
    obtain ⟨front, rfl⟩ := List.getLast?_eq_some_iff.1 hlast
    exact hnone ⟨front, hq⟩

/-- Added parameters leave the path and the fragment as they were. The query tells of its own pairs
and then of the new ones exactly when it does not end in a question mark. -/
theorem appended_iff_no_question (uri : String) (p : Params) (h : pairs p ≠ []) :
    (parts (appendQuery uri p)).path = (parts uri).path ∧
      (parts (appendQuery uri p)).fragment = (parts uri).fragment ∧
      ((parts (appendQuery uri p)).pairs =
          (parts uri).pairs ++ Form.decode (Utf8.bytes (encode p)) ↔
        ¬ ∃ front, (parts uri).query = some (front ++ ['?'])) := by
  rw [parts_appendQuery uri h]
  exact ⟨rfl, rfl, decode_extended_iff (parts uri).query h⟩

/-- A code to be told. -/
def coded : Params := [("code", .str "x")]

theorem coded_appended :
    pairs coded ≠ [] ∧
      (parts (appendQuery "https://c1.example/cb?a=b&#old" coded)).pairs =
        [("a", "b"), ("code", "x")] := by
  obtain ⟨-, -, hpairs⟩ :=
    appended_iff_no_question "https://c1.example/cb?a=b&#old" coded (by decide)
  refine ⟨by decide, (hpairs.2 ?_).trans (by decide +kernel)⟩
  have hquery : (parts "https://c1.example/cb?a=b&#old").query = some ['a', '=', 'b', '&'] := by
    decide +kernel
  rintro ⟨front, hfront⟩
  have hlast := List.getLast?_eq_some_iff.2 ⟨front, Option.some.inj (hquery.symm.trans hfront)⟩
  exact absurd hlast (by decide)

/-- Behind a question mark the code is taken for part of the value before it. -/
theorem coded_swallowed :
    pairs coded ≠ [] ∧
      (parts (appendQuery "https://c1.example/cb?a=b?" coded)).pairs = [("a", "b?code=x")] ∧
      (parts (appendQuery "https://c1.example/cb?a=b?" coded)).pairs ≠
        (parts "https://c1.example/cb?a=b?").pairs ++ Form.decode (Utf8.bytes (encode coded)) := by
  decide +kernel

end AuthServer.Redirect
