import ArtifactFlow.Proofs.Placeholder.Span

/-!
Text as pieces: characters that open nothing, and placeholders. A text has segments exactly if it
can be read as pieces, and the segments are the pieces with runs of characters put together.
-/

namespace ArtifactFlow

open Placeholder

inductive Piece where
  | char (c : Char)
  | span (kind : Kind) (inner : List Char)

namespace Piece

def text : Piece → List Char
  | .char c => [c]
  | .span kind inner => kind.opener ++ inner ++ kind.closer

/-- The text of pieces one after another. -/
def join (ps : List Piece) : List Char :=
  ps.flatMap text

@[simp] theorem join_nil : join [] = [] := rfl

@[simp] theorem join_cons (p : Piece) (ps : List Piece) : join (p :: ps) = p.text ++ join ps := rfl

@[simp] theorem join_append (ps qs : List Piece) : join (ps ++ qs) = join ps ++ join qs :=
  List.flatMap_append

@[simp] theorem join_map_char (cs : List Char) : join (cs.map char) = cs := by
  induction cs with
  | nil => rfl
  | cons c cs ih => rw [List.map_cons, join_cons, ih]; rfl

/-- The pieces are those that their text is read as: no character opens a placeholder together with
what follows, and every placeholder has a body. -/
inductive Legible : List Piece → Prop where
  | nil : Legible []
  | char {c : Char} {rest : List Piece} :
      opening? (c :: join rest) = none → Legible rest → Legible (.char c :: rest)
  | span {kind : Kind} {inner : List Char} {rest : List Piece} :
      Spans kind inner → Text.trim inner ≠ [] → Legible rest → Legible (.span kind inner :: rest)

theorem legible_char {c : Char} {rest : List Piece} :
    Legible (.char c :: rest) ↔ opening? (c :: join rest) = none ∧ Legible rest := by
  constructor
  · intro h
    cases h with
    | char hopen hrest => exact ⟨hopen, hrest⟩
  · intro ⟨hopen, hrest⟩
    exact .char hopen hrest

theorem legible_span {kind : Kind} {inner : List Char} {rest : List Piece} :
    Legible (.span kind inner :: rest) ↔
      Spans kind inner ∧ Text.trim inner ≠ [] ∧ Legible rest := by
  constructor
  · intro h
    cases h with
    | span hspan hbody hrest => exact ⟨hspan, hbody, hrest⟩
  · intro ⟨hspan, hbody, hrest⟩
    exact .span hspan hbody hrest

/-- The placeholder of a span. -/
def placeholder (kind : Kind) (inner : List Char) (position : Nat) : Placeholder where
  kind
  body := String.ofList (Text.trim inner)
  raw := String.ofList (kind.opener ++ inner ++ kind.closer)
  position

/-- The segments of pieces at the end of a text of `total` bytes, behind characters that were
collected in reverse. -/
def segments (total : Nat) (collected : List Char) : List Piece → List Segment
  | [] => Segment.literals collected
  | .char c :: rest => segments total (c :: collected) rest
  | .span kind inner :: rest =>
      Segment.literals collected ++
        .placeholder (placeholder kind inner
          (total - Text.byteLength (join (.span kind inner :: rest)))) ::
        segments total [] rest

theorem split_of_legible {ps : List Piece} (h : Legible ps) (total : Nat) (collected : List Char) :
    Segment.split total collected (join ps) = .ok (segments total collected ps) := by
  induction ps generalizing collected with
  | nil =>
      rw [join_nil, Segment.split]
      rfl
  | cons p rest ih =>
      cases p with
      | char c =>
          obtain ⟨hopen, hrest⟩ := legible_char.1 h
          rw [join_cons, text, List.singleton_append, Segment.split]
          split
          · exact ih hrest (c :: collected)
          · rename_i ho
            exact absurd ho (by simp [hopen])
      | span kind inner =>
          obtain ⟨hspan, hbody, hrest⟩ := legible_span.1 h
          have hopen := opening?_opener kind (inner ++ kind.closer ++ join rest)
          have hjoin : join (.span kind inner :: rest) =
              kind.opener ++ (inner ++ kind.closer ++ join rest) := by
            simp [text]
          rw [segments, hjoin]
          cases hs : kind.opener ++ (inner ++ kind.closer ++ join rest) with
          | nil =>
              rw [hs] at hopen
              exact absurd hopen (by simp)
          | cons c cs =>
              rw [hs] at hopen
              rw [Segment.split]
              split
              · rename_i ho
                exact absurd ho (by simp [hopen])
              · rename_i ho
                rw [hopen] at ho
                obtain ⟨rfl, rfl⟩ := Prod.mk.inj (Option.some.inj ho)
                split
                · rename_i hfail
                  rw [hspan] at hfail
                  exact absurd hfail (by simp)
                · rename_i hfound
                  rw [hspan] at hfound
                  obtain ⟨rfl, rfl⟩ := Prod.mk.inj (Except.ok.inj hfound)
                  simp only [List.isEmpty_iff, hbody, if_false, ih hrest []]
                  rfl

theorem exists_legible {total : Nat} {collected s : List Char} {found : List Segment}
    (h : Segment.split total collected s = .ok found) :
    ∃ ps, Legible ps ∧ join ps = s ∧ segments total collected ps = found := by
  fun_induction Segment.split total collected s generalizing found with
  | case1 collected =>
      exact ⟨[], .nil, rfl, Except.ok.inj h⟩
  | case2 collected c cs ho ih =>
      obtain ⟨ps, hps, rfl, hfound⟩ := ih h
      exact ⟨.char c :: ps, .char ho hps, rfl, hfound⟩
  | case3 => exact absurd h (by simp)
  | case4 => exact absurd h (by simp)
  | case5 => exact absurd h (by simp)
  | case6 collected c cs kind rest ho inner after hs body hbody others hothers =>
      rename_i ih
      obtain ⟨ps, hps, rfl, hfound⟩ := ih hothers
      have hjoin : join (.span kind inner :: ps) = c :: cs := by
        rw [opening?_eq_some ho, span_eq_ok hs]
        simp [text]
      refine ⟨.span kind inner :: ps, .span (spans_of_span hs) ?_ hps, hjoin, ?_⟩
      · simpa [body] using hbody
      · rw [← Except.ok.inj h, segments, hjoin, hfound]
        rfl

end Piece

/-- Where the segments of a text come from. -/
theorem Segment.parse_eq_ok {s : String} {found : List Segment} :
    Segment.parse s = .ok found ↔ ∃ ps, Piece.Legible ps ∧ Piece.join ps = s.toList ∧
      Piece.segments (Text.byteLength s.toList) [] ps = found := by
  have hparse : Segment.parse s = .ok found ↔
      Segment.split (Text.byteLength s.toList) [] s.toList = .ok found := by
    rw [parse, ofChars]
    cases Segment.split (Text.byteLength s.toList) [] s.toList <;> simp
  rw [hparse]
  constructor
  · exact Piece.exists_legible
  · rintro ⟨ps, hps, hjoin, rfl⟩
    rw [← hjoin]
    exact Piece.split_of_legible hps _ _

end ArtifactFlow
