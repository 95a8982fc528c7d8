import AuthServer.Grant.Param
import AuthServer.Proofs.Text.Runs

/-!
# Scopes

A scope is read as the maximal runs between the characters of its separators.
Nothing else of it is lost, and a text that joins the items by any one of these
characters is read as the same items.
-/

namespace AuthServer

open Json Text

/-- The character stands in one of the separators. -/
def Separates (separators : List String) (c : Char) : Prop :=
  ∃ separator ∈ separators, c ∈ separator.toList

instance (separators : List String) : DecidablePred (Separates separators) := fun c =>
  inferInstanceAs (Decidable (∃ separator ∈ separators, c ∈ separator.toList))

section

variable {separators : List String}

theorem isSeparator_iff {c : Char} : isSeparator separators c = true ↔ Separates separators c := by
  simp [isSeparator, Separates]

theorem isSeparator_eq : isSeparator separators = fun c => decide (Separates separators c) := by
  funext c
  rw [Bool.eq_iff_iff, isSeparator_iff, decide_eq_true_iff]

theorem map_toList_splitScope (s : String) :
    (splitScope separators s).map String.toList = runs (isSeparator separators) s.toList := by
  simp [splitScope]

/-- The items are the maximal runs, and no other list of texts is. -/
theorem maximalRuns_iff_eq_splitScope {s : String} {items : List String} :
    MaximalRuns (Separates separators ·) s.toList (items.map String.toList) ↔
      items = splitScope separators s := by
  rw [maximalRuns_iff, ← isSeparator_eq, ← map_toList_splitScope]
  exact (List.map_injective_iff.2 fun _ _ => String.toList_inj.1).eq_iff

theorem join_splitScope (s : String) :
    String.join (splitScope separators s) = String.ofList (s.toList.filter (¬ Separates separators ·)) := by
  have hchars : (String.join (splitScope separators s)).toList =
      s.toList.filter (¬ Separates separators ·) := by
    rw [String.toList_join, List.flatMap_def, map_toList_splitScope, flatten_runs, isSeparator_eq]
    simp only [decide_not]
  rw [← hchars, String.ofList_toList]

theorem unseparated_of_mem_splitScope {s item : String} (h : item ∈ splitScope separators s) :
    item ≠ "" ∧ ∀ c ∈ item.toList, ¬ Separates separators c := by
  obtain ⟨hne, hfree⟩ := unseparated_of_mem_runs h
  exact ⟨hne, fun c hc hsep => by rw [← isSeparator_iff, hfree c hc] at hsep; cases hsep⟩

theorem splitScope_joined {c : Char} (hc : Separates separators c) (s : String) :
    splitScope separators (joined (String.singleton c) (splitScope separators s)) =
      splitScope separators s :=
  runs_joined (isSeparator_iff.2 hc) fun _ => unseparated_of_mem_runs

end

theorem EndpointKind.scope_str (e : EndpointKind) (separators : List String) (s : String) :
    e.scope separators (some (.str s)) = .ok (some (splitScope separators s)) := rfl

/-- Every text is read at either endpoint as its maximal runs, which are all of it but the
separating characters, and is read so again when they are joined by any of these. -/
theorem scope_loses_nothing (separators : List String) (s : String) :
    ∃ items : List String,
      (∀ e : EndpointKind, e.scope separators (some (.str s)) = .ok (some items)) ∧
      (∀ item ∈ items, item ≠ "" ∧ ∀ c ∈ item.toList, ¬ Separates separators c) ∧
      (∀ others : List String,
        MaximalRuns (Separates separators ·) s.toList (others.map String.toList) ↔ others = items) ∧
      String.join items = String.ofList (s.toList.filter (¬ Separates separators ·)) ∧
      ∀ c, Separates separators c → ∀ e : EndpointKind,
        e.scope separators (some (.str (joined (String.singleton c) items))) = .ok (some items) := by
  refine ⟨splitScope separators s, fun e => e.scope_str separators s,
    fun _ => unseparated_of_mem_splitScope, fun _ => maximalRuns_iff_eq_splitScope,
    join_splitScope s, fun c hc e => ?_⟩
  rw [e.scope_str, splitScope_joined hc]

/-- One separator is empty, another one is two characters, and the text begins and ends with some. -/
theorem littered_loses_nothing :
    EndpointKind.token.scope ["", " ", ",;"] (some (.str ", read;; write,")) =
        .ok (some ["read", "write"]) ∧
      String.join ["read", "write"] = "readwrite" ∧
      Separates ["", " ", ",;"] ';' ∧
      EndpointKind.token.scope ["", " ", ",;"] (some (.str "read;write")) =
        .ok (some ["read", "write"]) := by
  have hread : EndpointKind.token.scope ["", " ", ",;"] (some (.str ", read;; write,")) =
      .ok (some ["read", "write"]) := rfl
  have hsemicolon : Separates ["", " ", ",;"] ';' := by decide
  obtain ⟨items, hscope, -, -, hjoin, hagain⟩ := scope_loses_nothing ["", " ", ",;"] ", read;; write,"
  obtain rfl : items = ["read", "write"] :=
    Option.some.inj (Except.ok.inj ((hscope .token).symm.trans hread))
  exact ⟨hread, hjoin.trans (by decide), hsemicolon, hagain ';' hsemicolon .token⟩

end AuthServer
