import ArtifactFlow.Proofs.Placeholder.Pieces
import Mathlib.Data.List.Chain

/-!
What the segments of a text have to do with the text: they make it up without gaps, placeholders
know where they stand, and each segment taken by itself is read as it is read inside the text.
-/

namespace ArtifactFlow

open Placeholder

/-- Bytes counted by characters are the bytes of the string. -/
theorem Text.byteLength_eq (cs : List Char) :
    Text.byteLength cs = (String.ofList cs).utf8ByteSize := by
  induction cs with
  | nil => rfl
  | cons c cs ih =>
      rw [← List.singleton_append, String.ofList_append, String.utf8ByteSize_append, ← ih,
        ← String.singleton_eq_ofList, String.utf8ByteSize_singleton]
      rfl

theorem Text.byteLength_append (cs ds : List Char) :
    Text.byteLength (cs ++ ds) = Text.byteLength cs + Text.byteLength ds := by
  rw [byteLength_eq, String.ofList_append, String.utf8ByteSize_append, ← byteLength_eq,
    ← byteLength_eq]

namespace Segment

/-- The segment as the first one of a text. -/
def atFront : Segment → Segment
  | .literal text => .literal text
  | .placeholder p => .placeholder { p with position := 0 }

/-- The segments are a faithful account of a text. -/
structure Account (s : String) (found : List Segment) : Prop where
  joined : String.join (found.map raw) = s
  positions : ∀ before p after, found = before ++ .placeholder p :: after →
    p.position = (String.join (before.map raw)).utf8ByteSize
  no_empty_literal : ∀ text, .literal text ∈ found → text ≠ ""
  literals_apart : found.IsChain fun a b => a.isPlaceholder ∨ b.isPlaceholder
  bodies : ∀ p, .placeholder p ∈ found → p.body ≠ "" ∧ ∃ inner,
    p.raw = String.ofList p.kind.opener ++ inner ++ String.ofList p.kind.closer ∧
      p.body = Text.trimString inner
  alone : ∀ segment ∈ found, parse segment.raw = .ok [segment.atFront]

theorem literals_reverse {cs : List Char} (h : cs ≠ []) :
    literals cs.reverse = [.literal (String.ofList cs)] := by
  simp [literals, h]

theorem mem_literals {collected : List Char} {segment : Segment}
    (h : segment ∈ literals collected) :
    collected ≠ [] ∧ segment = .literal (String.ofList collected.reverse) := by
  rw [literals] at h
  split at h
  · exact absurd h (by simp)
  · rename_i hne
    exact ⟨fun heq => hne (heq ▸ rfl), List.mem_singleton.1 h⟩

/-- The raw texts of segments one after another. -/
def chars (found : List Segment) : List Char :=
  found.flatMap (·.raw.toList)

@[simp] theorem chars_nil : chars [] = [] := rfl

@[simp] theorem chars_cons (segment : Segment) (found : List Segment) :
    chars (segment :: found) = segment.raw.toList ++ chars found := rfl

@[simp] theorem chars_append (found others : List Segment) :
    chars (found ++ others) = chars found ++ chars others :=
  List.flatMap_append

theorem chars_eq (found : List Segment) :
    String.ofList (chars found) = String.join (found.map raw) := by
  rw [← String.toList_inj, String.toList_join, String.toList_ofList, List.flatMap_map]
  rfl

@[simp] theorem chars_literals (collected : List Char) :
    chars (literals collected) = collected.reverse := by
  rw [literals]
  split
  · rename_i h
    rw [List.isEmpty_iff.1 h]
    rfl
  · simp [chars, raw]

end Segment

namespace Piece

open Segment

variable {total : Nat} {collected : List Char} {ps : List Piece}

@[simp] theorem raw_placeholder (kind : Kind) (inner : List Char) (position : Nat) :
    (Segment.placeholder (placeholder kind inner position)).raw.toList = (span kind inner).text :=
  String.toList_ofList

theorem chars_segments (total : Nat) (collected : List Char) (ps : List Piece) :
    chars (segments total collected ps) = collected.reverse ++ join ps := by
  induction ps generalizing collected with
  | nil => simp [segments, chars_literals]
  | cons p rest ih =>
      cases p with
      | char c => simp [segments, ih, text]
      | span kind inner => rw [segments, chars_append, chars_cons, ih]; simp

/-- A placeholder among the segments was a span, and what stands before it came from the pieces
before that span. -/
theorem segments_eq_append {before after : List Segment} {p : Placeholder}
    (h : segments total collected ps = before ++ .placeholder p :: after) :
    ∃ qs kind inner rest, ps = qs ++ .span kind inner :: rest ∧
      chars before = collected.reverse ++ join qs ∧
      p = placeholder kind inner (total - Text.byteLength (join (.span kind inner :: rest))) := by
  induction ps generalizing collected before with
  | nil =>
      have hmem : .placeholder p ∈ literals collected := by
        rw [segments] at h
        simp [h]
      exact absurd (mem_literals hmem).2 (by simp)
  | cons first rest ih =>
      cases first with
      | char c =>
          obtain ⟨qs, kind, inner, others, rfl, hbefore, hp⟩ := ih h
          exact ⟨.char c :: qs, kind, inner, others, rfl, by simp [hbefore, text], hp⟩
      | span kind inner =>
          rw [segments] at h
          rcases List.append_eq_append_iff.1 h with ⟨more, rfl, hmore⟩ | ⟨more, hcut, hmore⟩
          · cases more with
            | nil =>
                obtain ⟨hp, -⟩ := List.cons_eq_cons.1 hmore
                obtain rfl := Segment.placeholder.inj hp
                exact ⟨[], kind, inner, rest, rfl, by simp [chars_literals], rfl⟩
            | cons segment more =>
                obtain ⟨rfl, hrest⟩ := List.cons_eq_cons.1 hmore
                obtain ⟨qs, k, i, others, rfl, hbefore, hp⟩ := ih hrest
                refine ⟨.span kind inner :: qs, k, i, others, rfl, ?_, hp⟩
                rw [chars_append, chars_cons, hbefore]
                simp
          · cases more with
            | nil =>
                obtain ⟨hp, -⟩ := List.cons_eq_cons.1 hmore
                obtain rfl := Segment.placeholder.inj hp
                refine ⟨[], kind, inner, rest, rfl, ?_, rfl⟩
                rw [← chars_literals, hcut]
                simp
            | cons segment more =>
                obtain ⟨rfl, -⟩ := List.cons_eq_cons.1 hmore
                have hmem : .placeholder p ∈ literals collected := by simp [hcut]
                exact absurd (mem_literals hmem).2 (by simp)

theorem Legible.of_append {qs : List Piece} (h : Legible (qs ++ ps)) : Legible ps := by
  induction qs with
  | nil => exact h
  | cons q qs ih =>
      cases h with
      | char _ hrest => exact ih hrest
      | span _ _ hrest => exact ih hrest

theorem legible_of_chars {cs : List Char} (h : Legible (cs.map char ++ ps)) :
    Legible (cs.map char) := by
  induction cs with
  | nil => exact .nil
  | cons c cs ih =>
      obtain ⟨hopen, hrest⟩ := legible_char.1 h
      refine .char (opening?_of_append (join ps) ?_) (ih hrest)
      rwa [List.cons_append, ← join_append]

/-- A literal segment is a run of characters that is read in the same way by itself. -/
theorem literal_mem_segments (h : Legible (collected.reverse.map char ++ ps)) {text : String}
    (hmem : .literal text ∈ segments total collected ps) :
    ∃ cs, cs ≠ [] ∧ text = String.ofList cs ∧ Legible (cs.map char) := by
  induction ps generalizing collected with
  | nil =>
      obtain ⟨hne, htext⟩ := mem_literals hmem
      exact ⟨collected.reverse, by simpa using hne, Segment.literal.inj htext, legible_of_chars h⟩
  | cons p rest ih =>
      cases p with
      | char c => exact ih (by simpa using h) hmem
      | span kind inner =>
          rw [segments, List.mem_append, List.mem_cons] at hmem
          rcases hmem with hmem | hmem | hmem
          · obtain ⟨hne, htext⟩ := mem_literals hmem
            exact ⟨collected.reverse, by simpa using hne, Segment.literal.inj htext,
              legible_of_chars h⟩
          · exact absurd hmem (by simp)
          · obtain ⟨-, -, hrest⟩ := legible_span.1 h.of_append
            exact @ih [] hrest hmem

theorem segments_append_char (total : Nat) (collected cs : List Char) (ps : List Piece) :
    segments total collected (cs.map char ++ ps) = segments total (cs.reverse ++ collected) ps := by
  induction cs generalizing collected with
  | nil => rfl
  | cons c cs ih =>
      rw [List.map_cons, List.cons_append, segments, ih]
      simp

theorem segments_map_char (total : Nat) (collected cs : List Char) :
    segments total collected (cs.map char) = literals (cs.reverse ++ collected) := by
  have h := segments_append_char total collected cs []
  rwa [List.append_nil] at h

/-- Characters are read before other pieces as they are read by themselves, unless the last one
opens a placeholder with what follows. -/
theorem legible_append_chars {cs : List Char} (hcs : Legible (cs.map char)) (h : Legible ps)
    (apart : ∀ c ∈ cs.getLast?, Opens c → (join ps).head? ≠ some '\x7b') :
    Legible (cs.map char ++ ps) := by
  induction cs with
  | nil => exact h
  | cons c cs ih =>
      obtain ⟨hopen, hrest⟩ := legible_char.1 hcs
      cases cs with
      | nil =>
          refine .char (opening?_eq_none_iff.2 ?_) h
          exact fun ⟨hc, hhead⟩ => apart c rfl hc hhead
      | cons d cs =>
          have hhead :
              (join ((d :: cs).map char)).head? = (join ((d :: cs).map char ++ ps)).head? := by
            rw [join_append]
            rfl
          refine .char ?_ (ih hrest fun e he => apart e (by rwa [List.getLast?_cons_cons]))
          exact (opening?_eq_none_congr hhead).1 hopen

/-- Pieces without a placeholder among their segments are characters. -/
theorem eq_map_char_of_segments
    (h : (segments total collected ps).any Segment.isPlaceholder = false) :
    ps = (join ps).map char := by
  induction ps generalizing collected with
  | nil => rfl
  | cons p rest ih =>
      cases p with
      | char c =>
          rw [join_cons, text, List.singleton_append, List.map_cons, ← ih h]
      | span kind inner => exact absurd h (by simp [segments, isPlaceholder])

theorem isChain_segments (total : Nat) (collected : List Char) (ps : List Piece) :
    (segments total collected ps).IsChain fun a b => a.isPlaceholder ∨ b.isPlaceholder := by
  induction ps generalizing collected with
  | nil =>
      rw [segments, literals]
      split
      · exact .nil
      · exact .singleton _
  | cons p rest ih =>
      cases p with
      | char c => exact ih (c :: collected)
      | span kind inner =>
          have htail : (.placeholder (placeholder kind inner (total -
              Text.byteLength (join (.span kind inner :: rest)))) ::
                segments total [] rest).IsChain fun a b => a.isPlaceholder ∨ b.isPlaceholder :=
            List.isChain_cons.2 ⟨fun _ _ => .inl rfl, ih []⟩
          rw [segments, literals]
          split
          · exact htail
          · refine List.isChain_cons.2 ⟨fun b hb => .inr ?_, htail⟩
            obtain rfl := Option.some.inj hb
            rfl

end Piece

namespace Segment

open Piece

/-- Every literal is read by itself as it is read inside the text. -/
theorem parse_literal {cs : List Char} (hne : cs ≠ []) (h : Legible (cs.map char)) :
    parse (String.ofList cs) = .ok [.literal (String.ofList cs)] := by
  refine parse_eq_ok.2 ⟨cs.map char, h, by simp, ?_⟩
  rw [segments_map_char, List.append_nil, literals_reverse hne]

theorem parse_span {kind : Kind} {inner : List Char} (hspan : Spans kind inner)
    (hbody : Text.trim inner ≠ []) :
    parse (String.ofList (Piece.span kind inner).text) =
      .ok [.placeholder (Piece.placeholder kind inner 0)] := by
  refine parse_eq_ok.2 ⟨[.span kind inner], .span hspan hbody .nil, by simp, ?_⟩
  rw [segments, String.toList_ofList, join_cons, join_nil, List.append_nil, Nat.sub_self]
  rfl

/-- Splitting a text gives a faithful account of it. -/
theorem parse_account {s : String} {found : List Segment} (h : parse s = .ok found) :
    Account s found := by
  obtain ⟨ps, legible, hjoin, rfl⟩ := parse_eq_ok.1 h
  have hplaceholder : ∀ before p after,
      segments (Text.byteLength s.toList) [] ps = before ++ .placeholder p :: after →
        ∃ kind inner, Spans kind inner ∧ Text.trim inner ≠ [] ∧
          p = Piece.placeholder kind inner (String.join (before.map raw)).utf8ByteSize := by
    intro before p after heq
    obtain ⟨qs, kind, inner, rest, rfl, hbefore, rfl⟩ := segments_eq_append heq
    obtain ⟨hspan, hbody, -⟩ := legible_span.1 legible.of_append
    refine ⟨kind, inner, hspan, hbody, congrArg (Piece.placeholder kind inner) ?_⟩
    rw [← chars_eq, hbefore, ← hjoin, join_append, Text.byteLength_append, ← Text.byteLength_eq]
    simp
  constructor
  · rw [← chars_eq, chars_segments, hjoin]
    simp
  · intro before p after heq
    obtain ⟨kind, inner, -, -, rfl⟩ := hplaceholder before p after heq
    rfl
  · intro text hmem
    obtain ⟨cs, hne, rfl, -⟩ := literal_mem_segments (by simpa using legible) hmem
    simpa using hne
  · exact isChain_segments _ _ _
  · intro p hmem
    obtain ⟨before, after, heq⟩ := List.append_of_mem hmem
    obtain ⟨kind, inner, -, hbody, rfl⟩ := hplaceholder before p after heq
    refine ⟨by simpa [Piece.placeholder] using hbody, String.ofList inner, ?_, ?_⟩
    · simp [Piece.placeholder, String.append_assoc]
    · simp [Piece.placeholder, Text.trimString]
  · intro segment hmem
    cases segment with
    | literal text =>
        obtain ⟨cs, hne, rfl, hcs⟩ := literal_mem_segments (by simpa using legible) hmem
        exact parse_literal hne hcs
    | placeholder p =>
        obtain ⟨before, after, heq⟩ := List.append_of_mem hmem
        obtain ⟨kind, inner, hspan, hbody, rfl⟩ := hplaceholder before p after heq
        exact parse_span hspan hbody

/-- A placeholder inside an expression, and another one behind it. -/
theorem parse_account_nested : Account "é+\x7bb[!\x7bc\x7d]\x7d+ \x7b\x7b d\x7d\x7d"
    [.literal "é", .placeholder ⟨.expression, "b[!\x7bc\x7d]", "+\x7bb[!\x7bc\x7d]\x7d+", 2⟩,
      .literal " ", .placeholder ⟨.static, "d", "\x7b\x7b d\x7d\x7d", 14⟩] := by
  have h : ofChars "é+\x7bb[!\x7bc\x7d]\x7d+ \x7b\x7b d\x7d\x7d".toList = .ok
      [.literal "é", .placeholder ⟨.expression, "b[!\x7bc\x7d]", "+\x7bb[!\x7bc\x7d]\x7d+", 2⟩,
        .literal " ", .placeholder ⟨.static, "d", "\x7b\x7b d\x7d\x7d", 14⟩] := by
    decide +kernel
  exact parse_account (by rw [parse, h])

end Segment
end ArtifactFlow
