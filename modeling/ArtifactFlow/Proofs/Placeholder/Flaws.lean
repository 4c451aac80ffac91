import ArtifactFlow.Proofs.Placeholder.Scan
import ArtifactFlow.Proofs.Placeholder.Segments
import ArtifactFlow.Proofs.Text.Blank

/-!
Texts that cannot be split. The reported position is a place on the walk through the text where an
opener stands, and the reason is true of the text there. A static or dynamic placeholder that is
never closed is reported wherever it stands, all else only where no expression is open.
-/

namespace ArtifactFlow

theorem Text.blank_of_trim {s : List Char} (h : trim s = []) : Blank s := by
  obtain ⟨left, right, hleft, hright, hs⟩ := exists_blank_trim s
  rw [hs, h, List.append_nil]
  exact hleft.append hright

open Placeholder

namespace Placeholder.Scan

/-- The reason is true of what is left to read. For an expression that is never closed, the walk on
from behind its opener gets to the end of the text, and at every place on it fewer closers than
openers were met. -/
inductive Shows : Scan → Reason → Prop where
  | unclosed {opened closed : Nat} {kind : Kind} {after : List Char} :
      kind ≠ .expression → ¬ kind.closer <:+: after →
        Shows ⟨opened, closed, kind.opener ++ after⟩ (.unclosed kind)
  | unclosedExpression {count : Nat} {after : List Char} :
      (∃ y, Reaches ⟨1, 0, after⟩ y ∧ y.rest = []) →
      (∀ y, Reaches ⟨1, 0, after⟩ y → y.closed < y.opened) →
        Shows ⟨count, count, Kind.expression.opener ++ after⟩ (.unclosed .expression)
  | emptyBody {count : Nat} {kind : Kind} {inner after : List Char} : Text.Blank inner →
      Shows ⟨count, count, kind.opener ++ inner ++ kind.closer ++ after⟩ .emptyBody

variable {x : Scan} {start s inner after : List Char} {kind : Kind} {flaw : Flaw} {reason : Reason}

theorem Shows.exists_opener (h : x.Shows reason) : ∃ kind : Kind, kind.opener <+: x.rest := by
  cases h with
  | unclosed => exact ⟨_, List.prefix_append _ _⟩
  | unclosedExpression => exact ⟨_, List.prefix_append _ _⟩
  | emptyBody =>
      rw [List.append_assoc, List.append_assoc]
      exact ⟨_, List.prefix_append _ _⟩

theorem reaches_of_span (h : span kind start s = .ok (inner, after)) (count : Nat) :
    ∃ count', Reaches ⟨count, count, kind.opener ++ s⟩ ⟨count', count', after⟩ := by
  by_cases hkind : kind = .expression
  · subst hkind
    obtain ⟨y, walk, ends⟩ := exists_ends start ⟨count + 1, count, s⟩ 0 rfl
    rw [span] at h
    rw [h] at ends
    cases ends
    exact ⟨_, walk.head .opener⟩
  · have hcut := (span_eq_ok_iff_cutAt? hkind).1 h
    rw [Text.cutAt?_eq_some hcut, ← List.append_assoc, ← List.append_assoc]
    exact ⟨count, .single (.passed hkind (Text.upTo_of_cutAt? hcut))⟩

theorem exists_shows_of_span (h : span kind (kind.opener ++ s) s = .error flaw) (count : Nat) :
    ∃ x, Reaches ⟨count, count, kind.opener ++ s⟩ x ∧ x.rest = flaw.rest ∧ x.Shows flaw.reason := by
  by_cases hkind : kind = .expression
  · subst hkind
    rw [span] at h
    obtain ⟨y, walk, ends⟩ :=
      exists_ends (Kind.expression.opener ++ s) ⟨count + 1, count, s⟩ 0 rfl
    rw [h] at ends
    cases ends with
    | exhausted =>
        refine ⟨_, .refl, rfl, .unclosedExpression ?_ fun y hy => ?_⟩
        · obtain ⟨y, walk, ends⟩ := exists_ends (Kind.expression.opener ++ s) ⟨1, 0, s⟩ 0 rfl
          rw [h] at ends
          cases ends with
          | exhausted => exact ⟨_, walk, rfl⟩
          | blocked hne => exact absurd rfl hne
        · obtain ⟨left, hin, -⟩ := hy.inside h rfl
          omega
    | blocked hne hnone => exact ⟨_, walk.head .opener, rfl, .unclosed hne hnone⟩
  · obtain ⟨hnone, rfl⟩ := (span_eq_error_iff_cutAt? hkind).1 h
    exact ⟨_, .refl, rfl, .unclosed hkind (Text.cutAt?_eq_none_iff.1 hnone)⟩

/-- Outside of expressions, splitting stops at a place on the walk, for a reason that is true
there. -/
theorem exists_shows {total : Nat} {collected : List Char}
    (h : Segment.split total collected s = .error flaw) (count : Nat) :
    ∃ x, Reaches ⟨count, count, s⟩ x ∧ x.rest = flaw.rest ∧ x.Shows flaw.reason := by
  fun_induction Segment.split total collected s generalizing count with
  | case1 => exact absurd h (by simp)
  | case2 collected c cs ho ih =>
      obtain ⟨x, walk, hx⟩ := ih h count
      have step : Step ⟨count, count, c :: cs⟩ ⟨count, count, cs⟩ :=
        .char (opening?_eq_none_iff_opener.1 ho) fun hlt => absurd hlt (Nat.lt_irrefl count)
      exact ⟨x, walk.head step, hx⟩
  | case3 collected c cs kind rest ho e hs =>
      obtain rfl := Except.error.inj h
      rw [opening?_eq_some ho] at hs ⊢
      exact exists_shows_of_span hs count
  | case4 collected c cs kind rest ho inner after hs body hbody =>
      obtain rfl := Except.error.inj h
      have hblank : Text.Blank inner := Text.blank_of_trim (by simpa [body] using hbody)
      have hcs : c :: cs = kind.opener ++ inner ++ kind.closer ++ after := by
        rw [opening?_eq_some ho, span_eq_ok hs, List.append_assoc, List.append_assoc,
          List.append_assoc]
      rw [hcs]
      exact ⟨_, .refl, rfl, .emptyBody hblank⟩
  | case5 collected c cs kind rest ho inner after hs body hbody e he ih =>
      obtain rfl := Except.error.inj h
      obtain ⟨count', passed⟩ := reaches_of_span hs count
      obtain ⟨x, walk, hx⟩ := ih he count'
      rw [opening?_eq_some ho]
      exact ⟨x, passed.trans walk, hx⟩
  | case6 => exact absurd h (by simp)

end Placeholder.Scan

namespace Segment

/-- Where a text cannot be split, the walk through it comes to an opener, the position is the number
of bytes before it, and the reason is true of the text from there on. -/
theorem parse_eq_error {input : String} {fault : Fault} (h : parse input = .error fault) :
    ∃ (reason : Reason) (before : String) (x : Scan),
      fault = .malformedPlaceholder input before.utf8ByteSize reason.message ∧
      input = before ++ String.ofList x.rest ∧ (∃ kind : Kind, kind.opener <+: x.rest) ∧
      Scan.Reaches ⟨0, 0, input.toList⟩ x ∧ x.Shows reason := by
  rw [parse] at h
  split at h
  · exact absurd h (by simp)
  · rename_i flaw hflaw
    obtain ⟨x, walk, hrest, shows⟩ := Scan.exists_shows hflaw 0
    obtain ⟨before, hbefore⟩ := walk.exists_front
    refine ⟨flaw.reason, String.ofList before, x, ?_, ?_, shows.exists_opener, walk, shows⟩
    · rw [← Except.error.inj h]
      have hinput : input.toList = before ++ flaw.rest := hrest ▸ hbefore
      rw [hinput, Text.byteLength_append, Nat.add_sub_cancel, Text.byteLength_eq]
    · rw [← String.ofList_append]
      exact String.toList_inj.1 (hbefore.trans String.toList_ofList.symm)

/-- A stray closer, and an expression that is never closed around one that is. -/
def orphan : String :=
  "é\x7d+ +\x7b a[+\x7bb\x7d+] !\x7bc\x7d"

theorem parse_eq_error_orphan :
    parse orphan = .error (.malformedPlaceholder orphan 5 "unclosed '+\x7b'") ∧
    ∃ (before : String) (x : Scan), before.utf8ByteSize = 5 ∧
      orphan = before ++ String.ofList x.rest ∧ Scan.Reaches ⟨0, 0, orphan.toList⟩ x ∧
      x.Shows (.unclosed .expression) := by
  have hparse : parse orphan = .error (.malformedPlaceholder orphan 5 "unclosed '+\x7b'") := by
    have hflaw : ofChars orphan.toList =
        .error ⟨.unclosed .expression, "+\x7b a[+\x7bb\x7d+] !\x7bc\x7d".toList⟩ := by
      decide +kernel
    rw [parse, hflaw]
    rfl
  refine ⟨hparse, ?_⟩
  obtain ⟨reason, before, x, hfault, hinput, -, walk, shows⟩ := parse_eq_error hparse
  obtain ⟨-, hposition, hmessage⟩ := Fault.malformedPlaceholder.inj hfault
  have hreason : reason = .unclosed .expression := by
    cases reason with
    | emptyBody => exact absurd hmessage (by decide)
    | unclosed kind =>
        cases kind with
        | expression => rfl
        | static => exact absurd hmessage (by decide)
        | dynamic => exact absurd hmessage (by decide)
  exact ⟨before, x, hposition.symm, hinput, walk, hreason ▸ shows⟩

end Segment
end ArtifactFlow
