import ArtifactFlow.Placeholder.Render
import ArtifactFlow.Proofs.Except
import ArtifactFlow.Proofs.Placeholder.Segments

/-!
Rendering a text piece by piece. What a placeholder is bound to depends on its kind and its body;
where it stands makes no difference.
-/

namespace ArtifactFlow

open Placeholder

/-- Placeholders of one kind and body are bound alike. -/
def Expression.Binder.Positionless (bind : Expression.Binder) : Prop :=
  ∀ p q : Placeholder, p.kind = q.kind → p.body = q.body → bind p = bind q

theorem RenderMode.binder_positionless (mode : RenderMode) (scope : Scope) :
    (mode.binder scope).Positionless := by
  intro p q hkind hbody
  simp only [binder, hkind, hbody]

theorem Expression.concat_literals (bind : Binder) (collected : List Char)
    (found : List Segment) : concat bind (Segment.literals collected ++ found) =
      (concat bind found).map (String.ofList collected.reverse ++ ·) := by
  rw [Segment.literals]
  split
  · rename_i h
    rw [List.isEmpty_iff.1 h, List.nil_append]
    cases concat bind found <;> simp [Except.map]
  · rw [List.singleton_append, concat]
    cases concat bind found <;> rfl

namespace Piece

/-- The text of pieces, with bound placeholders replaced by the text of their values. -/
def concat (bind : Expression.Binder) : List Piece → Except Fault (List Char)
  | [] => .ok []
  | .char c :: rest => return c :: (← concat bind rest)
  | .span kind inner :: rest => do
      let piece := match ← bind (placeholder kind inner 0) with
        | some v => v.stringify.toList
        | none => (span kind inner).text
      return piece ++ (← concat bind rest)

variable {bind : Expression.Binder} {ps : List Piece}

theorem concat_segments (positionless : bind.Positionless) (total : Nat) (collected : List Char)
    (ps : List Piece) : Expression.concat bind (segments total collected ps) =
      (concat bind ps).map fun cs => String.ofList (collected.reverse ++ cs) := by
  induction ps generalizing collected with
  | nil =>
      have h := Expression.concat_literals bind collected []
      rw [List.append_nil] at h
      rw [segments, h]
      simp [Expression.concat, concat, Except.map]
  | cons p rest ih =>
      cases p with
      | char c =>
          rw [segments, ih, concat]
          cases concat bind rest <;> simp [Except.map]
      | span kind inner =>
          have hbind : bind (placeholder kind inner
              (total - Text.byteLength (join (.span kind inner :: rest)))) =
                bind (placeholder kind inner 0) :=
            positionless _ _ rfl rfl
          rw [segments, Expression.concat_literals, Expression.concat, hbind, ih, concat]
          rcases bind (placeholder kind inner 0) with e | _ | v
          · rfl
          · cases concat bind rest <;> simp [Except.map, placeholder, text, String.append_assoc]
          · cases concat bind rest <;> simp [Except.map]

theorem concat_chars (bind : Expression.Binder) (cs : List Char) (rest : List Piece) :
    concat bind (cs.map char ++ rest) = (concat bind rest).map (cs ++ ·) := by
  induction cs with
  | nil => cases h : concat bind rest <;> simp [h, Except.map]
  | cons c cs ih =>
      rw [List.map_cons, List.cons_append, concat, ih]
      cases concat bind rest <;> rfl

theorem eq_nil_of_join {ps : List Piece} (h : join ps = []) : ps = [] := by
  cases ps with
  | nil => rfl
  | cons p rest =>
      rw [join_cons, List.append_eq_nil_iff] at h
      cases p with
      | char c => exact absurd h.1 (by simp [text])
      | span kind inner => cases kind <;> exact absurd h.1 (by simp [text, Kind.opener])

/-- A single placeholder segment comes from a single span. -/
theorem segments_eq_singleton {total : Nat} {p : Placeholder}
    (h : segments total [] ps = [.placeholder p]) : ∃ kind inner, ps = [.span kind inner] := by
  have hchars := chars_segments total [] ps
  rw [h] at hchars
  obtain ⟨qs, kind, inner, rest, rfl, -, rfl⟩ :=
    segments_eq_append (h.trans (List.nil_append _).symm)
  simp only [Segment.chars_cons, Segment.chars_nil, raw_placeholder, join_append, join_cons,
    List.reverse_nil, List.nil_append, List.append_nil] at hchars
  have hlength := congrArg List.length hchars
  simp only [List.length_append] at hlength
  have hqs := eq_nil_of_join (List.eq_nil_of_length_eq_zero (by omega : (join qs).length = 0))
  have hrest := eq_nil_of_join (List.eq_nil_of_length_eq_zero (by omega : (join rest).length = 0))
  exact ⟨kind, inner, by rw [hqs, hrest, List.nil_append]⟩

/-- A text that is one placeholder takes the value that it is bound to. -/
theorem renderText_span {kind : Kind} {inner : List Char} (h : Legible [.span kind inner]) :
    Expression.renderText bind (String.ofList (span kind inner).text) =
      (bind (placeholder kind inner 0)).map
        (·.getD (.string (String.ofList (span kind inner).text))) := by
  obtain ⟨hspan, hbody, -⟩ := legible_span.1 h
  have hparse := Segment.parse_span hspan hbody
  rw [Expression.renderText, hparse, ok_bind]
  dsimp only
  cases bind (placeholder kind inner 0) <;> rfl

/-- Any other text is put together from its pieces. -/
theorem renderText_pieces (positionless : bind.Positionless) (h : Legible ps)
    (mixed : ∀ kind inner, ps ≠ [.span kind inner]) :
    Expression.renderText bind (String.ofList (join ps)) =
      (concat bind ps).map fun cs => .string (String.ofList cs) := by
  have hparse : Segment.parse (String.ofList (join ps)) =
      .ok (segments (Text.byteLength (join ps)) [] ps) :=
    Segment.parse_eq_ok.2 ⟨ps, h, by simp, by simp⟩
  have hconcat := concat_segments positionless (Text.byteLength (join ps)) [] ps
  rw [Expression.renderText, hparse, ok_bind]
  split
  · rename_i p heq
    obtain ⟨kind, inner, rfl⟩ := segments_eq_singleton heq
    exact absurd rfl (mixed kind inner)
  · rw [hconcat]
    cases concat bind ps <;> rfl

end Piece
end ArtifactFlow
