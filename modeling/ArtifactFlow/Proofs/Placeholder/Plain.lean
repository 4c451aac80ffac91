import ArtifactFlow.Proofs.Placeholder.Concat

/-!
Texts without openers, and values without an opening brace in their text. No placeholder is in them,
so that every pass of rendering leaves them as they are. A text in which an opener stands counts as
one with placeholders, whether it can be read or not.
-/

namespace ArtifactFlow

open Placeholder

namespace Json

theorem mem_quote {s : String} {c : Char} (hc : c ∈ s.toList) (plain : escapeChar c = [c]) :
    c ∈ quote s := by
  have hmem : c ∈ escape s.toList := List.mem_flatMap.2 ⟨c, hc, by simp [plain]⟩
  simp [quote, hmem]

theorem mem_compactItems {v : Value} {items : List Value} (hv : v ∈ items) {c : Char}
    (hc : c ∈ compact v) : c ∈ compactItems items := by
  induction items with
  | nil => exact absurd hv (by simp)
  | cons first rest ih =>
      cases rest with
      | nil =>
          obtain rfl := List.mem_singleton.1 hv
          exact hc
      | cons second rest =>
          rw [compactItems]
          · rcases List.mem_cons.1 hv with rfl | hrest
            · exact List.mem_append_left _ hc
            · exact List.mem_append_right _ (List.mem_cons_of_mem _ (ih hrest))
          · simp

end Json

namespace Piece

/-- Characters are read one by one exactly if no opener stands among them, be it closed or not. -/
theorem legible_map_char_iff {cs : List Char} :
    Legible (cs.map char) ↔ ∀ kind : Kind, ¬ kind.opener <:+: cs := by
  induction cs with
  | nil =>
      refine ⟨fun _ kind hopener => ?_, fun _ => .nil⟩
      have hnil := List.eq_nil_of_infix_nil hopener
      cases kind <;> exact absurd hnil (by simp [Kind.opener])
  | cons c cs ih =>
      rw [List.map_cons, legible_char, join_map_char, ih, opening?_eq_none_iff_opener,
        ← forall_and]
      refine forall_congr' fun kind => ?_
      rw [List.infix_cons_iff, not_or]

theorem legible_chars {cs : List Char} (h : '\x7b' ∉ cs) : Legible (cs.map char) := by
  refine legible_map_char_iff.2 fun kind hopener => h (hopener.subset ?_)
  cases kind <;> simp [Kind.opener]

end Piece

theorem hasPlaceholders_eq_false {s : String} : hasPlaceholders s = false ↔
    ∃ found, Segment.parse s = .ok found ∧ found.any Segment.isPlaceholder = false := by
  rw [hasPlaceholders]
  cases Segment.parse s <;> simp

theorem Segment.parse_chars {s : String} (h : Piece.Legible (s.toList.map .char)) :
    parse s = .ok (literals s.toList.reverse) := by
  refine parse_eq_ok.2 ⟨s.toList.map .char, h, Piece.join_map_char _, ?_⟩
  rw [Piece.segments_map_char, List.append_nil]

/-- A text without placeholders is read character by character. -/
theorem hasPlaceholders_eq_false_iff {s : String} :
    hasPlaceholders s = false ↔ Piece.Legible (s.toList.map .char) := by
  rw [hasPlaceholders_eq_false]
  constructor
  · rintro ⟨found, hparse, hnone⟩
    obtain ⟨ps, legible, hjoin, rfl⟩ := Segment.parse_eq_ok.1 hparse
    rwa [← hjoin, ← Piece.eq_map_char_of_segments hnone]
  · intro legible
    refine ⟨_, Segment.parse_chars legible, ?_⟩
    rw [Segment.literals]
    split <;> rfl

/-- A text counts as one with placeholders exactly if an opener stands in it, be it malformed or not.
All other texts are read as at most one literal, and only they are. -/
theorem hasPlaceholders_iff_opener (s : String) :
    (hasPlaceholders s ↔ ∃ kind : Kind, kind.opener <:+: s.toList) ∧
      ((Segment.parse s = .ok [] ∨ ∃ text, Segment.parse s = .ok [.literal text]) ↔
        ∀ kind : Kind, ¬ kind.opener <:+: s.toList) := by
  have hplain : hasPlaceholders s = false ↔ ∀ kind : Kind, ¬ kind.opener <:+: s.toList := by
    rw [hasPlaceholders_eq_false_iff, Piece.legible_map_char_iff]
  refine ⟨?_, ?_, ?_⟩
  · rw [← Bool.not_eq_false, hplain]
    push Not
    rfl
  · intro h
    refine hplain.1 (hasPlaceholders_eq_false.2 ?_)
    rcases h with h | ⟨text, h⟩
    · exact ⟨_, h, rfl⟩
    · exact ⟨_, h, rfl⟩
  · intro h
    have hparse := Segment.parse_chars (Piece.legible_map_char_iff.2 h)
    rw [Segment.literals] at hparse
    split at hparse
    · exact .inl hparse
    · exact .inr ⟨_, hparse⟩

variable {scope : Scope} {mode : RenderMode}

/-- A text that is read character by character is rendered as it is. -/
theorem renderText_of_legible {s : String} (h : Piece.Legible (s.toList.map .char)) :
    renderText scope mode s = .ok (.string s) := by
  have hpieces := Piece.renderText_pieces (mode.binder_positionless scope) h (by
    intro kind inner heq
    cases hs : s.toList <;> rw [hs] at heq <;> simp at heq)
  have hconcat := Piece.concat_chars (mode.binder scope) s.toList []
  rw [List.append_nil] at hconcat
  rw [Piece.join_map_char, String.ofList_toList, hconcat] at hpieces
  rw [renderText, hpieces]
  simp [Piece.concat, Except.map]

theorem renderText_plain {s : String} (h : '\x7b' ∉ s.toList) :
    renderText scope mode s = .ok (.string s) :=
  renderText_of_legible (Piece.legible_chars h)

mutual

theorem renderValue_of_compact : ∀ v : Value, '\x7b' ∉ Json.compact v →
    renderValue scope mode v = .ok v
  | .string s, h => renderText_plain fun hmem => h (Json.mem_quote hmem rfl)
  | .list items, h => by
      have hitems := renderItems_of_compact items fun v hv hmem =>
        h (by simp [Json.compact, Json.mem_compactItems hv hmem])
      rw [renderValue, hitems]
      rfl
  | .mapping fields, h => absurd (by simp [Json.compact]) h
  | .null, _ => rfl
  | .bool _, _ => rfl
  | .int _, _ => rfl
  | .float _, _ => rfl
  termination_by structural v => v

theorem renderItems_of_compact : ∀ items : List Value, (∀ v ∈ items, '\x7b' ∉ Json.compact v) →
    renderItems scope mode items = .ok items
  | [], _ => rfl
  | v :: rest, h => by
      obtain ⟨hv, hrest⟩ := List.forall_mem_cons.1 h
      rw [renderItems, renderValue_of_compact v hv, renderItems_of_compact rest hrest]
      rfl
  termination_by structural items => items

end

/-- A value whose text holds no opening brace is rendered as it is. -/
theorem renderValue_plain {v : Value} (h : '\x7b' ∉ v.stringify.toList) :
    renderValue scope mode v = .ok v := by
  cases v with
  | string s => exact renderText_plain h
  | null => rfl
  | bool b => rfl
  | int n => rfl
  | float d => rfl
  | list items =>
      exact renderValue_of_compact _ (by simpa [Value.stringify, Json.compactString] using h)
  | mapping fields =>
      exact renderValue_of_compact _ (by simpa [Value.stringify, Json.compactString] using h)

end ArtifactFlow
