import AuthServer.Proofs.FinishHooks
import AuthServer.Proofs.Location
import AuthServer.Site.Transport

/-!
# Headers are a map

Whatever is done to a response, it has one header for every name that was set,
the case of ASCII letters apart. The value is the last one; the place and the
spelling are those of the first setting.
-/

namespace AuthServer

open Json

variable {σ : Type}

namespace Text

theorem sameName_iff {a b : String} : sameName a b = true ↔ lowered a = lowered b := decide_eq_true_iff

theorem sameName_comm (a b : String) : sameName a b = sameName b a := by
  rw [Bool.eq_iff_iff, sameName_iff, sameName_iff, eq_comm]

/-- Names that are the same are the same as the same others. -/
theorem sameName_congr {a b : String} (h : sameName a b = true) (c : String) :
    sameName a c = sameName b c := by
  rw [Bool.eq_iff_iff, sameName_iff, sameName_iff, sameName_iff.1 h]

end Text

namespace Response

open Text

/-! ## What was set -/

section Settings

variable {settings headers : List (String × String)}

/-- The value that was set last under the name. -/
def lastSet (settings : List (String × String)) (name : String) : Option String :=
  (settings.filter fun s => sameName s.1 name).getLast?.map (·.2)

/-- The names in the order in which they were first set, as they were spelled then. -/
def spellings : List (String × String) → List String
  | [] => []
  | s :: rest => s.1 :: (spellings rest).filter fun name => !sameName s.1 name

theorem lastSet_concat (settings : List (String × String)) (s : String × String) (name : String) :
    lastSet (settings ++ [s]) name = if sameName s.1 name then some s.2 else lastSet settings name := by
  unfold lastSet
  rw [List.filter_append]
  cases h : sameName s.1 name <;> simp [h]

theorem lastSet_eq_none_iff {name : String} :
    lastSet settings name = none ↔ ∀ s ∈ settings, sameName s.1 name = false := by
  rw [lastSet, Option.map_eq_none_iff, List.getLast?_eq_none_iff, List.filter_eq_nil_iff]
  simp only [Bool.not_eq_true]

/-- A name that is spelled already is left alone, and another one goes last. -/
theorem spellings_concat (settings : List (String × String)) (s : String × String) :
    spellings (settings ++ [s]) =
      if (spellings settings).any (sameName · s.1) then spellings settings
      else spellings settings ++ [s.1] := by
  induction settings with
  | nil => rfl
  | cons t rest ih =>
    rw [List.cons_append, spellings, ih, spellings]
    by_cases hrest : (spellings rest).any (sameName · s.1) = true
    · obtain ⟨name, hname, hsame⟩ := List.any_eq_true.1 hrest
      rw [if_pos hrest, if_pos]
      rw [List.any_cons, Bool.or_eq_true]
      -- if the first setting hides the name of the rest, it has this name itself
      by_cases hfirst : sameName t.1 name = true
      · exact .inl ((sameName_congr hfirst s.1).trans hsame)
      · exact .inr (List.any_eq_true.2
          ⟨name, List.mem_filter.2 ⟨hname, by rw [Bool.eq_false_iff.2 hfirst]; rfl⟩, hsame⟩)
    · have hhidden : ((spellings rest).filter fun name => !sameName t.1 name).any (sameName · s.1) = false :=
        Bool.eq_false_iff.2 fun h => by
          obtain ⟨name, hname, hsame⟩ := List.any_eq_true.1 h
          exact hrest (List.any_eq_true.2 ⟨name, (List.mem_filter.1 hname).1, hsame⟩)
      rw [if_neg hrest, List.filter_append, List.any_cons, hhidden, Bool.or_false]
      cases hfirst : sameName t.1 s.1 <;> simp [hfirst]

theorem names_setHeaderIn (name value : String) (headers : List (String × String)) :
    (setHeaderIn name value headers).map (·.1) =
      if (headers.map (·.1)).any (sameName · name) then headers.map (·.1)
      else headers.map (·.1) ++ [name] := by
  induction headers with
  | nil => rfl
  | cons h rest ih =>
    unfold setHeaderIn
    cases hsame : sameName h.1 name with
    | true => simp [hsame]
    | false =>
      simp only [Bool.false_eq_true, if_false, List.map_cons, ih, List.any_cons, hsame, Bool.false_or,
        List.cons_append]
      split <;> rfl

/-- A look-up does not see in which case a name is spelled. -/
theorem headerIn_congr {name name' : String} (h : sameName name name' = true) :
    headerIn headers name = headerIn headers name' := by
  unfold headerIn
  simp only [sameName_comm _ name, sameName_comm _ name', sameName_congr h]

/-- One header for every name that was set. -/
structure HeadersOf (settings headers : List (String × String)) : Prop where
  distinct : (headers.map (·.1)).Pairwise fun a b => sameName a b = false
  names : headers.map (·.1) = spellings settings
  value : ∀ name, headerIn headers name = lastSet settings name

theorem headersOf_nil : HeadersOf [] [] := ⟨.nil, rfl, fun _ => rfl⟩

theorem HeadersOf.set (h : HeadersOf settings headers) (s : String × String) :
    HeadersOf (settings ++ [s]) (setHeaderIn s.1 s.2 headers) where
  distinct := by
    rw [names_setHeaderIn]
    split
    · exact h.distinct
    · rename_i hnew
      refine List.pairwise_append.2 ⟨h.distinct, List.pairwise_singleton _ _, fun name hname _ hs => ?_⟩
      rw [List.mem_singleton.1 hs, Bool.eq_false_iff]
      exact fun hsame => hnew (List.any_eq_true.2 ⟨name, hname, hsame⟩)
  names := by rw [names_setHeaderIn, spellings_concat, h.names]
  value name := by
    rw [lastSet_concat]
    cases hsame : sameName s.1 name with
    | true =>
      rw [if_pos rfl, ← headerIn_congr hsame]
      exact headerIn_setHeaderIn
    | false =>
      rw [if_neg Bool.false_ne_true, headerIn_setHeaderIn_ne hsame]
      exact h.value name

end Settings

end Response

/-! ## Along the calls -/

namespace ResponseCall

open Response Text

/-- The header that a call sets. -/
def setting? : ResponseCall σ → Option (String × String)
  | setHeader name value => some (name, value)
  | redirect location => some ("Location", location)
  | sendJson .. => some ("Content-Type", "application/json")
  | _ => none

/-- The headers that the calls set, in order. -/
def settings (calls : List (ResponseCall σ)) : List (String × String) := calls.filterMap setting?

theorem settings_concat (calls : List (ResponseCall σ)) (c : ResponseCall σ) :
    settings (calls ++ [c]) = settings calls ++ c.setting?.toList := by
  rw [settings, List.filterMap_append]
  cases h : c.setting? <;> simp [settings, h]

theorem apply_headers (r : Response σ) (c : ResponseCall σ) :
    (c.apply r).headers =
      match c.setting? with
      | some s => setHeaderIn s.1 s.2 r.headers
      | none => r.headers := by
  cases c with
  | finish request world =>
    rw [apply, Visit.finish_response]
    split <;> rfl
  | _ => rfl

theorem headersOf_apply {calls : List (ResponseCall σ)} {r : Response σ}
    (h : HeadersOf (settings calls) r.headers) (c : ResponseCall σ) :
    HeadersOf (settings (calls ++ [c])) (c.apply r).headers := by
  rw [settings_concat, apply_headers]
  cases c.setting? with
  | none => simpa using h
  | some s => exact h.set s

theorem headersOf_foldl {before : List (ResponseCall σ)} {r : Response σ}
    (h : HeadersOf (settings before) r.headers) (calls : List (ResponseCall σ)) :
    HeadersOf (settings (before ++ calls)) (calls.foldl ResponseCall.apply r).headers := by
  induction calls generalizing before r with
  | nil =>
    rw [List.append_nil]
    exact h
  | cons c rest ih =>
    rw [List.append_cons]
    exact ih (headersOf_apply h c)

/-- A call leaves the headers alone that it does not set. -/
theorem header?_apply (r : Response σ) {c : ResponseCall σ} {name : String}
    (h : ∀ s ∈ c.setting?, sameName s.1 name = false) : (c.apply r).header? name = r.header? name := by
  unfold header?
  rw [apply_headers]
  cases hs : c.setting? with
  | none => rfl
  | some s => exact headerIn_setHeaderIn_ne (h s hs)

end ResponseCall

namespace Response

open ResponseCall Text

/-- Names in lower case are still distinct, so no header is sent twice. -/
theorem HeadersOf.nodup_sent {settings : List (String × String)} {r : Response σ}
    (h : HeadersOf settings r.headers) :
    ((Site.HttpAnswer.ofResponse r).headers.map (·.1)).Nodup := by
  have hdistinct : r.headers.Pairwise fun a b => lowered a.1 ≠ lowered b.1 := by
    refine (List.pairwise_map.1 h.distinct).imp fun hne hsame => ?_
    rw [sameName_iff.2 hsame] at hne
    cases hne
  unfold Site.HttpAnswer.ofResponse
  rw [List.map_map, List.Nodup, List.pairwise_map]
  exact hdistinct.sublist List.filter_sublist

/-- The headers are a map whose names have no case, in the order of first settings. -/
theorem headers_form_map (calls : List (ResponseCall σ)) :
    HeadersOf (settings calls) (ofCalls calls).headers ∧
      (∀ name, (ofCalls calls).header? name = none ↔ ∀ s ∈ settings calls, sameName s.1 name = false) ∧
      (∀ c name, (∀ s ∈ c.setting?, sameName s.1 name = false) →
        (ofCalls (calls ++ [c])).header? name = (ofCalls calls).header? name) ∧
      ((Site.HttpAnswer.ofResponse (ofCalls calls)).headers.map (·.1)).Nodup := by
  have hempty : HeadersOf (settings ([] : List (ResponseCall σ))) (empty : Response σ).headers :=
    headersOf_nil
  have hheaders : HeadersOf (settings calls) (ofCalls calls).headers := headersOf_foldl hempty calls
  refine ⟨hheaders, fun name => ?_, fun c name h => ?_, hheaders.nodup_sent⟩
  · rw [header?, hheaders.value]
    exact lastSet_eq_none_iff
  · rw [ofCalls, List.foldl_append]
    exact header?_apply _ h

/-- Set in three spellings, and by a redirect and a body. -/
def spelled : List (ResponseCall Unit) :=
  [.setHeader "x-id" "1", .setHeader "LOCATION" "/", .sendJson 200 (.obj []), .setStatus 418,
    .setHeader "X-Id" "2", .redirect "/done", .setHeader "content-type" "text/html"]

theorem spelled_form_map :
    HeadersOf (settings spelled) (ofCalls spelled).headers ∧
      (ofCalls spelled).headers =
        [("x-id", "2"), ("LOCATION", "/done"), ("Content-Type", "text/html")] ∧
      (ofCalls (spelled ++ [.setHeader "X-ID" "3"])).header? "location" = some "/done" := by
  obtain ⟨hheaders, -, hothers, -⟩ := headers_form_map spelled
  have hother : ∀ s ∈ (ResponseCall.setHeader "X-ID" "3" : ResponseCall Unit).setting?,
      sameName s.1 "location" = false := by
    rintro _ ⟨⟩
    decide
  exact ⟨hheaders, rfl, (hothers _ "location" hother).trans rfl⟩

end Response

end AuthServer
