import ArtifactFlow.Proofs.Expression.Evaluation

/-!
What evaluation may end with. A text with an opener in it, closed or not, is rendered again or is an
error, so that no opener is in a text that comes out, whichever passes it went through.
-/

namespace ArtifactFlow

open Placeholder

theorem Value.settled_string_iff {s : String} :
    (Value.string s).Settled ↔ ∀ kind : Kind, ¬ kind.opener <:+: s.toList := by
  rw [← Piece.legible_map_char_iff, ← hasPlaceholders_eq_false_iff]
  constructor
  · intro h
    exact h s rfl
  · rintro h t ⟨rfl⟩
    exact h

namespace Expression

variable {scope : Scope} {v w : Value}

/-- Passes end with a settled value or not at all, whatever a pass makes of a text. -/
theorem settled_of_settle {render : String → Except Fault Value} {expression : String}
    {passes : Nat} (h : settle render expression passes v = .ok w) : w.Settled := by
  induction passes generalizing v with
  | zero =>
      rcases settle_eq_ok h with ⟨settled, rfl⟩ | ⟨s, left, u, -, -, hpasses, -⟩
      · exact settled
      · exact nomatch hpasses
  | succ passes ih =>
      rcases settle_eq_ok h with ⟨settled, rfl⟩ | ⟨s, left, u, -, -, hpasses, -, -, hrest⟩
      · exact settled
      · obtain rfl := Nat.succ.inj hpasses
        exact ih hrest

/-- A lookup without a value is settled at once; all other results come out of the last loop. -/
theorem settled_of_evaluateWithin {levels : Nat} {body : String}
    (h : evaluateWithin scope levels body = .ok v) : v.Settled := by
  cases levels with
  | zero => exact nomatch h
  | succ levels =>
      obtain ⟨substituted, -, h⟩ := bind_eq_ok.1 h
      cases substituted with
      | none =>
          obtain rfl := Except.ok.inj h
          exact nofun
      | some text =>
          obtain ⟨u, -, h⟩ := bind_eq_ok.1 h
          exact settled_of_settle h

/-- A text that an expression evaluates to holds no opener, neither of a placeholder nor of a
malformed one, and every later pass of rendering leaves it as it is. -/
theorem evaluate_final {body s : String} (h : evaluate scope body = .ok (.string s)) :
    (∀ kind : Kind, ¬ kind.opener <:+: s.toList) ∧
      ∀ later mode, ArtifactFlow.renderText later mode s = .ok (.string s) := by
  have final := Value.settled_string_iff.1 (settled_of_evaluateWithin h)
  exact ⟨final, fun _ _ => renderText_of_legible (Piece.legible_map_char_iff.2 final)⟩

theorem eq_ok_string {x : Except Fault Value} {s : String}
    (h : x.toOption.bind Value.asString? = some s) : x = .ok (.string s) := by
  obtain ⟨v, hv, hs⟩ := Option.bind_eq_some_iff.1 h
  cases x with
  | error e => exact nomatch hv
  | ok u =>
      obtain rfl := Option.some.inj hv
      cases u with
      | string t => rw [Option.some.inj hs]
      | _ => exact nomatch hs

/-- A note that is chosen by an argument, and into which another one is put. -/
def menuScope : Scope :=
  ⟨⟨[("notes", .mapping [("monday", .string "rate \x7b!\x7b n \x7d\x7d")])], []⟩,
    [("day", .string "monday"), ("n", .int 5)], "menu"⟩

/-- Lone braces stay in the text, which is final all the same. -/
theorem evaluate_final_menu :
    evaluate menuScope "notes[!\x7b day \x7d]" = .ok (.string "rate \x7b5\x7d") ∧
      (∀ kind : Kind, ¬ kind.opener <:+: "rate \x7b5\x7d".toList) ∧
        ∀ later mode, ArtifactFlow.renderText later mode "rate \x7b5\x7d" =
          .ok (.string "rate \x7b5\x7d") := by
  have h : evaluate menuScope "notes[!\x7b day \x7d]" = .ok (.string "rate \x7b5\x7d") :=
    eq_ok_string (by decide +kernel)
  exact ⟨h, evaluate_final h⟩

end Expression
end ArtifactFlow
