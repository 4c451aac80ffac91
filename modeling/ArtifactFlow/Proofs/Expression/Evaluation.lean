import ArtifactFlow.Expression.Evaluate
import ArtifactFlow.Proofs.Expression.Chains
import ArtifactFlow.Proofs.Placeholder.Plain

/-!
Equations of evaluation. To evaluate a name is to look it up and to settle what is found. A value
without placeholders is settled; a text is rendered, and what comes of it settles with one pass
less, unless it is the same text again.
-/

namespace ArtifactFlow

/-- The value is no text, or a text that no placeholder stands in. -/
def Value.Settled (v : Value) : Prop :=
  ∀ s, v = .string s → hasPlaceholders s = false

theorem Value.exists_of_not_settled {v : Value} (h : ¬ v.Settled) :
    ∃ s, v = .string s ∧ hasPlaceholders s := by
  simpa [Settled] using h

theorem Mapping.lookup?_dotless {root : Mapping} {name : String} (h : '.' ∉ name.toList) :
    Mapping.lookup? root name = Fields.get? name root := by
  rw [lookup?, Text.splitString_of_notMem h]
  cases hget : Fields.get? name root <;> simp [hget, Value.descend?]

theorem Mapping.lookup?_name {root : Mapping} {name : String} (h : Text.IsName name) :
    Mapping.lookup? root name = Fields.get? name root :=
  lookup?_dotless (h.notMem (by simp [Text.marks]))

namespace Text.IsName

variable {name : String} (h : Text.IsName name)
include h

theorem hasPlaceholders_eq : hasPlaceholders name = false := by
  have hbrace : '\x7b' ∉ name.toList := h.notMem (by simp [Text.marks])
  have hparse := Segment.parse_literal h.1 (Piece.legible_chars hbrace)
  rw [String.ofList_toList] at hparse
  exact hasPlaceholders_eq_false.2 ⟨_, hparse, rfl⟩

theorem parse_chain : Chain.parse name.toList = .ok ⟨name, []⟩ := by
  have hhead : Chain.IsDottedHead name :=
    ⟨h.1, fun c hc => Text.isHeadChar_iff.2 (.inl (h.2 c hc))⟩
  have hnone : ∀ c ∈ ([] : List Char).head?, c = '[' := nofun
  have hparse := hhead.parse_append Text.blank_nil Text.blank_nil hnone
  simpa [Chain.operations_nil, Except.map] using hparse

end Text.IsName

namespace Expression

theorem substitute_plain {resolve : Placeholder → Except Fault Value} {expression text : String}
    {passes : Nat} (h : hasPlaceholders text = false) :
    substitute resolve expression passes text = .ok (some text) := by
  obtain ⟨found, hparse, hnone⟩ := hasPlaceholders_eq_false.1 h
  rw [substitute.eq_def, hparse, ok_bind, hnone]
  rfl

/-- A text rendered inside an expression in which others may be nested `levels` deep. -/
def renderWithin (scope : Scope) (levels : Nat) (text : String) : Except Fault Value :=
  renderText (fun p => return some (← resolve scope (evaluateWithin scope levels) p)) text

theorem evaluateWithin_name {scope : Scope} {name : String} {v : Value} (h : Text.IsName name)
    (hget : Fields.get? name scope.args = some v) (levels : Nat) :
    evaluateWithin scope (levels + 1) name =
      settle (renderWithin scope levels) name maxRounds v := by
  have htrim : Text.trimString name = name := by
    rw [Text.trimString, h.trim_eq, String.ofList_toList]
  have hchain : applyChain scope name name = .ok v := by
    simp only [applyChain, h.parse_chain, Mapping.lookup?_name h, hget]
    rfl
  rw [evaluateWithin, substitute_plain h.hasPlaceholders_eq, ok_bind]
  simp only [htrim, hchain, ok_bind]
  rfl

/-- The outcome says that an expression could not be resolved. -/
def Unresolved (outcome : Except Fault Value) : Prop :=
  ∃ expression reason, outcome = .error (.unresolvedExpression expression reason)

theorem unresolved_exhausted (expression : String) : Unresolved (.error (exhausted expression)) :=
  ⟨_, _, rfl⟩

theorem unresolved_circular (expression : String) : Unresolved (.error (circular expression)) :=
  ⟨_, _, rfl⟩

section Settle

variable {render : String → Except Fault Value} {expression s : String} {passes : Nat} {v : Value}

theorem settle_settled (h : v.Settled) : settle render expression passes v = .ok v := by
  cases v with
  | string s =>
      rw [settle.eq_def]
      simp only [h s rfl, Bool.not_false, if_true]
  | null | bool | int | float | list | mapping => rw [settle.eq_def]

theorem settle_zero (h : hasPlaceholders s) :
    settle render expression 0 (.string s) = .error (exhausted expression) := by
  rw [settle.eq_def]
  simp only [h, Bool.not_true, Bool.false_eq_true, if_false]

theorem settle_error (h : hasPlaceholders s) {fault : Fault} (hrender : render s = .error fault) :
    settle render expression (passes + 1) (.string s) = .error fault := by
  rw [settle.eq_def]
  simp only [h, hrender, Bool.not_true, Bool.false_eq_true, if_false, error_bind]

/-- A text that is rendered to itself would be rendered for ever. -/
theorem settle_same (h : hasPlaceholders s) (hrender : render s = .ok (.string s)) :
    settle render expression (passes + 1) (.string s) = .error (circular expression) := by
  rw [settle.eq_def]
  simp only [h, hrender, Bool.not_true, Bool.false_eq_true, if_false, if_true, ok_bind]
  rfl

theorem settle_succ (h : hasPlaceholders s) (hrender : render s = .ok v) (hne : v ≠ .string s) :
    settle render expression (passes + 1) (.string s) = settle render expression passes v := by
  rw [settle.eq_def]
  simp only [h, hrender, Bool.not_true, Bool.false_eq_true, if_false, ok_bind]
  cases v with
  | string t =>
      have hts : t ≠ s := fun heq => hne (heq ▸ rfl)
      simp only [hts, if_false]
  | null | bool | int | float | list | mapping =>
      rw [settle_settled (by intro t ht; cases ht)]
      rfl

/-- Passes that end with a value began with it, or rendered a text first. -/
theorem settle_eq_ok {w : Value} (h : settle render expression passes v = .ok w) :
    v.Settled ∧ v = w ∨ ∃ s left u, v = .string s ∧ hasPlaceholders s ∧ passes = left + 1 ∧
      render s = .ok u ∧ u ≠ v ∧ settle render expression left u = .ok w := by
  by_cases settled : v.Settled
  · rw [settle_settled settled] at h
    exact .inl ⟨settled, Except.ok.inj h⟩
  · obtain ⟨s, rfl, hs⟩ := Value.exists_of_not_settled settled
    cases passes with
    | zero =>
        rw [settle_zero hs] at h
        exact nomatch h
    | succ left =>
        cases hrender : render s with
        | error fault =>
            rw [settle_error hs hrender] at h
            exact nomatch h
        | ok u =>
            by_cases same : u = .string s
            · rw [settle_same hs (same ▸ hrender)] at h
              exact nomatch h
            · rw [settle_succ hs hrender same] at h
              exact .inr ⟨s, left, u, rfl, hs, rfl, hrender, same, h⟩

end Settle

end Expression
end ArtifactFlow
