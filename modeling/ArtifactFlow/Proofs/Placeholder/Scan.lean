import ArtifactFlow.Proofs.Except
import ArtifactFlow.Proofs.Placeholder.Span
import Mathlib.Logic.Relation

/-!
Reading a text for placeholders as a walk. It counts the openers and the closers of expressions that
it meets and passes over all other placeholders as a whole. The walk through the inside of an
expression ends behind its closer, at the end of the text, or at a placeholder that is never closed.
-/

namespace ArtifactFlow.Placeholder

/-- How far a text is read: the openers and closers of expressions so far, and what is left. -/
structure Scan where
  opened : Nat
  closed : Nat
  rest : List Char

namespace Scan

/-- What is read next. Outside of expressions a closer of expressions is literal text. -/
inductive Step : Scan → Scan → Prop where
  | opener {opened closed : Nat} {rest : List Char} :
      Step ⟨opened, closed, Kind.expression.opener ++ rest⟩ ⟨opened + 1, closed, rest⟩
  | closer {opened closed : Nat} {rest : List Char} : closed < opened →
      Step ⟨opened, closed, Kind.expression.closer ++ rest⟩ ⟨opened, closed + 1, rest⟩
  | passed {opened closed : Nat} {kind : Kind} {inner rest : List Char} :
      kind ≠ .expression → Text.UpTo kind.closer inner →
        Step ⟨opened, closed, kind.opener ++ inner ++ kind.closer ++ rest⟩ ⟨opened, closed, rest⟩
  | char {opened closed : Nat} {c : Char} {rest : List Char} :
      (∀ kind : Kind, ¬ kind.opener <+: c :: rest) →
      (closed < opened → ¬ Kind.expression.closer <+: c :: rest) →
        Step ⟨opened, closed, c :: rest⟩ ⟨opened, closed, rest⟩

def Reaches : Scan → Scan → Prop :=
  Relation.ReflTransGen Step

variable {x y z : Scan} {start s : List Char} {depth : Nat}

theorem Step.exists_front (h : Step x y) : ∃ front, front ≠ [] ∧ x.rest = front ++ y.rest := by
  cases h with
  | opener => exact ⟨Kind.expression.opener, by simp [Kind.opener], rfl⟩
  | closer => exact ⟨Kind.expression.closer, by simp [Kind.closer], rfl⟩
  | @passed _ _ kind inner =>
      exact ⟨kind.opener ++ inner ++ kind.closer, by cases kind <;> simp [Kind.opener], rfl⟩
  | @char _ _ c => exact ⟨[c], List.cons_ne_nil _ _, rfl⟩

theorem Step.length_lt (h : Step x y) : y.rest.length < x.rest.length := by
  obtain ⟨front, hne, hrest⟩ := h.exists_front
  have hfront := List.length_pos_iff.2 hne
  rw [hrest, List.length_append]
  omega

theorem Reaches.exists_front (h : Reaches x y) : ∃ front, x.rest = front ++ y.rest := by
  induction h with
  | refl => exact ⟨[], rfl⟩
  | tail _ step ih =>
      obtain ⟨front, hfront⟩ := ih
      obtain ⟨more, -, hmore⟩ := step.exists_front
      exact ⟨front ++ more, by rw [hfront, hmore, List.append_assoc]⟩

/-- The only step that there can be. -/
def next (x : Scan) : Scan :=
  match opening? x.rest with
  | some (.expression, rest) => ⟨x.opened + 1, x.closed, rest⟩
  | some (kind, rest) =>
      match Text.cutAt? kind.closer rest with
      | some (_, after) => ⟨x.opened, x.closed, after⟩
      | none => x
  | none =>
      if x.closed < x.opened ∧ Kind.expression.closer <+: x.rest then
        ⟨x.opened, x.closed + 1, x.rest.drop Kind.expression.closer.length⟩
      else ⟨x.opened, x.closed, x.rest.tail⟩

theorem Step.eq_next (h : Step x y) : y = x.next := by
  cases h with
  | opener => rw [next, opening?_opener]
  | @closer _ _ rest hlt =>
      have hopen : opening? (Kind.expression.closer ++ rest) = none := rfl
      simp only [next, hopen]
      rw [if_pos ⟨hlt, List.prefix_append _ _⟩, List.drop_left]
  | @passed _ _ kind inner rest hkind hupTo =>
      have hcut := hupTo.cutAt?_eq rest
      rw [List.append_assoc] at hcut
      rw [List.append_assoc, List.append_assoc, next, opening?_opener]
      cases kind with
      | expression => exact absurd rfl hkind
      | static => simp only [hcut]
      | dynamic => simp only [hcut]
  | @char _ _ c rest hopen hclose =>
      simp only [next, opening?_eq_none_iff_opener.2 hopen]
      rw [if_neg fun h => hclose h.1 h.2, List.tail_cons]

/-- There is one walk through a text only. -/
theorem Step.unique (h : Step x y) (h' : Step x z) : y = z :=
  h.eq_next.trans h'.eq_next.symm

/-- Inside of an expression a step ends it, or leaves the search for its end to what follows. -/
theorem Step.spanExpression (h : Step x y) (inside : x.opened = x.closed + depth + 1)
    (start : List Char) :
    (y.closed = y.opened ∧
      Placeholder.spanExpression start depth x.rest = .ok ([], y.rest)) ∨
    ∃ left front, y.opened = y.closed + left + 1 ∧
      Placeholder.spanExpression start depth x.rest =
        (Placeholder.spanExpression start left y.rest).map
          fun (body, after) => (front ++ body, after) := by
  cases h with
  | opener =>
      refine .inr ⟨depth + 1, _, ?_, spanExpression_opener⟩
      dsimp only at inside ⊢
      omega
  | closer =>
      dsimp only at inside ⊢
      cases depth with
      | zero => exact .inl ⟨inside.symm, spanExpression_closed⟩
      | succ depth => exact .inr ⟨depth, _, by omega, spanExpression_closer⟩
  | passed hkind hupTo => exact .inr ⟨depth, _, inside, spanExpression_passed hkind hupTo⟩
  | @char _ _ c _ hopen hclose =>
      have hclose := hclose (by dsimp only at inside; omega)
      refine .inr ⟨depth, [c], inside, ?_⟩
      exact spanExpression_char (opening?_eq_none_iff_opener.2 hopen) hclose

/-- There is a next step before the end of the text, unless a placeholder stands there that is never
closed. -/
theorem exists_step (opened closed : Nat) (h : s ≠ []) :
    (∃ y, Step ⟨opened, closed, s⟩ y) ∨
      ∃ (kind : Kind) (after : List Char), kind ≠ .expression ∧ s = kind.opener ++ after ∧
        ¬ kind.closer <:+: after := by
  obtain ⟨c, cs, rfl⟩ := List.exists_cons_of_ne_nil h
  cases ho : opening? (c :: cs) with
  | none =>
      have hopen := opening?_eq_none_iff_opener.1 ho
      by_cases hclose : closed < opened ∧ Kind.expression.closer <+: c :: cs
      · obtain ⟨hlt, rest, hrest⟩ := hclose
        rw [← hrest]
        exact .inl ⟨_, .closer hlt⟩
      · exact .inl ⟨_, .char hopen fun hlt hprefix => hclose ⟨hlt, hprefix⟩⟩
  | some found =>
      obtain ⟨kind, rest⟩ := found
      rw [opening?_eq_some ho]
      by_cases hkind : kind = .expression
      · subst hkind
        exact .inl ⟨_, .opener⟩
      · cases hcut : Text.cutAt? kind.closer rest with
        | none => exact .inr ⟨kind, rest, hkind, rfl, Text.cutAt?_eq_none_iff.1 hcut⟩
        | some cut =>
            obtain ⟨inner, behind⟩ := cut
            have hstep : Step ⟨opened, closed, kind.opener ++ inner ++ kind.closer ++ behind⟩
                ⟨opened, closed, behind⟩ := .passed hkind (Text.upTo_of_cutAt? hcut)
            rw [Text.cutAt?_eq_some hcut, ← List.append_assoc, ← List.append_assoc]
            exact .inl ⟨_, hstep⟩

/-- Where the walk through the inside of an expression ends, and what is found of it then. -/
inductive Ends (start : List Char) : Scan → Except Flaw (List Char × List Char) → Prop where
  | closed {count : Nat} {body after : List Char} :
      Ends start ⟨count, count, after⟩ (.ok (body, after))
  | exhausted {opened closed : Nat} :
      Ends start ⟨opened, closed, []⟩ (.error ⟨.unclosed .expression, start⟩)
  | blocked {opened closed : Nat} {kind : Kind} {after : List Char} :
      kind ≠ .expression → ¬ kind.closer <:+: after →
        Ends start ⟨opened, closed, kind.opener ++ after⟩
          (.error ⟨.unclosed kind, kind.opener ++ after⟩)

theorem exists_ends (start : List Char) (x : Scan) (depth : Nat)
    (inside : x.opened = x.closed + depth + 1) :
    ∃ y, Reaches x y ∧ Ends start y (Placeholder.spanExpression start depth x.rest) := by
  induction hlength : x.rest.length using Nat.strongRecOn generalizing x depth with
  | ind length ih =>
      obtain ⟨opened, closed, s⟩ := x
      by_cases hs : s = []
      · subst hs
        rw [spanExpression_nil]
        exact ⟨_, .refl, .exhausted⟩
      · rcases exists_step opened closed hs with ⟨y, step⟩ | ⟨kind, after, hkind, rfl, hnone⟩
        · rcases step.spanExpression inside start with ⟨hclosed, hspan⟩ | ⟨left, front, hin, hspan⟩
          · obtain ⟨opened', closed', rest⟩ := y
            obtain rfl : closed' = opened' := hclosed
            rw [hspan]
            exact ⟨_, .single step, .closed⟩
          · obtain ⟨z, walk, ends⟩ := ih y.rest.length (hlength ▸ step.length_lt) y left hin rfl
            refine ⟨z, walk.head step, ?_⟩
            rw [hspan]
            cases hrest : Placeholder.spanExpression start left y.rest with
            | error e =>
                rw [hrest] at ends
                exact ends
            | ok found =>
                rw [hrest] at ends
                cases ends
                exact .closed
        · rw [spanExpression_unclosed hkind hnone]
          exact ⟨_, .refl, .blocked hkind hnone⟩

/-- While the search for the end of an expression fails, the walk stays inside of it. -/
theorem Reaches.inside {flaw : Flaw} (h : Reaches x y)
    (fails : Placeholder.spanExpression start depth x.rest = .error flaw)
    (inside : x.opened = x.closed + depth + 1) :
    ∃ left, y.opened = y.closed + left + 1 ∧
      Placeholder.spanExpression start left y.rest = .error flaw := by
  induction h with
  | refl => exact ⟨depth, inside, fails⟩
  | tail _ step ih =>
      obtain ⟨left, hin, hfails⟩ := ih
      rcases step.spanExpression hin start with ⟨-, hspan⟩ | ⟨less, front, hless, hspan⟩
      · exact absurd (hfails.symm.trans hspan) (by simp)
      · refine ⟨less, hless, ?_⟩
        rw [hspan] at hfails
        exact map_eq_error.1 hfails

end Scan
end ArtifactFlow.Placeholder
