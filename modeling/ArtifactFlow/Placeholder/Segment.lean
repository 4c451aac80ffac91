import ArtifactFlow.Failure.Basic
import ArtifactFlow.Text.Blank
import ArtifactFlow.Text.Split

/-!
Text with placeholders as a list of segments. There are three kinds of placeholders: static ones
stand for configuration paths, dynamic ones for arguments, and expressions for lookups; an
expression may hold placeholders of all three kinds. A lone brace is literal text. Splitting is
lexical: nothing is resolved here.
-/

namespace ArtifactFlow

namespace Placeholder

inductive Kind where
  | static
  | dynamic
  | expression
  deriving DecidableEq, Repr

namespace Kind

def opener : Kind → List Char
  | .static => ['\x7b', '\x7b']
  | .dynamic => ['!', '\x7b']
  | .expression => ['+', '\x7b']

def closer : Kind → List Char
  | .static => ['\x7d', '\x7d']
  | .dynamic => ['\x7d']
  | .expression => ['\x7d', '+']

end Kind

/-- Why a text cannot be split. -/
inductive Reason where
  | unclosed (kind : Kind)
  | emptyBody
  deriving DecidableEq, Repr

def Reason.message : Reason → String
  | .unclosed kind => "unclosed '" ++ String.ofList kind.opener ++ "'"
  | .emptyBody => "placeholder body is empty"

/-- A reason together with the text from the offending opener on. -/
structure Flaw where
  reason : Reason
  rest : List Char
  deriving DecidableEq, Repr

/-- The kind of placeholder that opens at the front of a text, and the text behind the opener. -/
def opening? : List Char → Option (Kind × List Char)
  | '\x7b' :: '\x7b' :: rest => some (.static, rest)
  | '!' :: '\x7b' :: rest => some (.dynamic, rest)
  | '+' :: '\x7b' :: rest => some (.expression, rest)
  | _ => none

theorem opening?_eq_some {s rest : List Char} {kind : Kind}
    (h : opening? s = some (kind, rest)) : s = kind.opener ++ rest := by
  unfold opening? at h
  split at h
  · obtain ⟨rfl, rfl⟩ := Prod.mk.inj (Option.some.inj h); rfl
  · obtain ⟨rfl, rfl⟩ := Prod.mk.inj (Option.some.inj h); rfl
  · obtain ⟨rfl, rfl⟩ := Prod.mk.inj (Option.some.inj h); rfl
  · exact absurd h (by simp)

theorem length_of_opening? {s rest : List Char} {kind : Kind}
    (h : opening? s = some (kind, rest)) : rest.length < s.length := by
  have := congrArg List.length (opening?_eq_some h)
  cases kind <;> simp [Kind.opener] at this <;> omega

/-- The body of an expression and the text behind its closer, given the text behind its opener.
`depth` counts the expressions that are open inside the body; static and dynamic placeholders are
passed over as a whole. `start` is the text from the expression's own opener on. -/
def spanExpression (start : List Char) (depth : Nat) (s : List Char) :
    Except Flaw (List Char × List Char) :=
  match s with
  | [] => .error ⟨.unclosed .expression, start⟩
  | c :: cs =>
      match _ho : opening? (c :: cs) with
      | some (.expression, rest) =>
          match spanExpression start (depth + 1) rest with
          | .ok (body, after) => .ok (Kind.expression.opener ++ body, after)
          | .error e => .error e
      | some (kind, rest) =>
          match _hc : Text.cutAt? kind.closer rest with
          | none => .error ⟨.unclosed kind, c :: cs⟩
          | some (inner, behind) =>
              match spanExpression start depth behind with
              | .ok (body, after) =>
                  .ok (kind.opener ++ inner ++ kind.closer ++ body, after)
              | .error e => .error e
      | none =>
          match _hp : Kind.expression.closer.isPrefixOf? (c :: cs) with
          | some behind =>
              match depth with
              | 0 => .ok ([], behind)
              | depth + 1 =>
                  match spanExpression start depth behind with
                  | .ok (body, after) => .ok (Kind.expression.closer ++ body, after)
                  | .error e => .error e
          | none =>
              match spanExpression start depth cs with
              | .ok (body, after) => .ok (c :: body, after)
              | .error e => .error e
  termination_by s.length
  decreasing_by
    · exact length_of_opening? _ho
    · have h1 := length_of_opening? _ho
      have h2 := Text.length_of_cutAt? _hc
      omega
    · have := congrArg List.length (Text.isPrefixOf?_eq_some _hp)
      simp [Kind.closer] at this
      simp only [List.length_cons]
      omega
    · simp

/-- The body of a placeholder and the text behind its closer, given the text behind its opener. -/
def span (kind : Kind) (start rest : List Char) : Except Flaw (List Char × List Char) :=
  match kind with
  | .expression => spanExpression start 0 rest
  | kind =>
      match Text.cutAt? kind.closer rest with
      | some found => .ok found
      | none => .error ⟨.unclosed kind, start⟩

/-- A span loses nothing but the closer. -/
theorem spanExpression_eq_ok {start s body after : List Char} {depth : Nat}
    (h : spanExpression start depth s = .ok (body, after)) :
    s = body ++ Kind.expression.closer ++ after := by
  fun_induction spanExpression start depth s generalizing body after with
  | case1 => exact absurd h (by simp)
  | case2 depth c cs rest ho b a hr ih =>
      obtain ⟨rfl, rfl⟩ : Kind.expression.opener ++ b = body ∧ a = after := by simpa using h
      rw [opening?_eq_some ho, ih hr]
      simp
  | case3 => exact absurd h (by simp)
  | case4 => exact absurd h (by simp)
  | case5 depth c cs kind rest hne ho inner behind hc b a hr ih =>
      obtain ⟨rfl, rfl⟩ : kind.opener ++ inner ++ kind.closer ++ b = body ∧ a = after := by
        simpa using h
      rw [opening?_eq_some ho, Text.cutAt?_eq_some hc, ih hr]
      simp
  | case6 => exact absurd h (by simp)
  | case7 c cs ho behind hp =>
      obtain ⟨rfl, rfl⟩ : [] = body ∧ behind = after := by simpa using h
      simpa using Text.isPrefixOf?_eq_some hp
  | case8 c cs ho behind hp depth b a hr ih =>
      obtain ⟨rfl, rfl⟩ : Kind.expression.closer ++ b = body ∧ a = after := by simpa using h
      rw [Text.isPrefixOf?_eq_some hp, ih hr]
      simp
  | case9 => exact absurd h (by simp)
  | case10 depth c cs ho hp b a hr ih =>
      obtain ⟨rfl, rfl⟩ : c :: b = body ∧ a = after := by simpa using h
      rw [ih hr]
      simp
  | case11 => exact absurd h (by simp)

theorem span_eq_ok {kind : Kind} {start rest body after : List Char}
    (h : span kind start rest = .ok (body, after)) : rest = body ++ kind.closer ++ after := by
  cases kind with
  | expression => exact spanExpression_eq_ok h
  | _ =>
      simp only [span] at h
      split at h
      · rename_i found hc
        obtain rfl : found = (body, after) := by simpa using h
        exact Text.cutAt?_eq_some hc
      · exact absurd h (by simp)

end Placeholder

structure Placeholder where
  kind : Placeholder.Kind
  /-- The text between the delimiters, without surrounding blanks. -/
  body : String
  /-- The text with the delimiters. -/
  raw : String
  /-- Position of the opener, in bytes. -/
  position : Nat
  deriving DecidableEq, Repr

/-- A part of a text: a run of literal characters or a placeholder. -/
inductive Segment where
  | literal (text : String)
  | placeholder (p : Placeholder)
  deriving DecidableEq, Repr

namespace Segment

def raw : Segment → String
  | .literal text => text
  | .placeholder p => p.raw

def isPlaceholder : Segment → Bool
  | .literal _ => false
  | .placeholder _ => true

/-- The literal segment of characters that were collected in reverse, if there are any. -/
def literals (collected : List Char) : List Segment :=
  if collected.isEmpty then [] else [.literal (String.ofList collected.reverse)]

/-- The segments of the rest of a text of `total` bytes. `collected` holds, in reverse, the literal
characters since the last placeholder. -/
def split (total : Nat) (collected : List Char) (s : List Char) :
    Except Placeholder.Flaw (List Segment) :=
  match s with
  | [] => .ok (literals collected)
  | c :: cs =>
      match _ho : Placeholder.opening? (c :: cs) with
      | none => split total (c :: collected) cs
      | some (kind, rest) =>
          match _hs : Placeholder.span kind (c :: cs) rest with
          | .error e => .error e
          | .ok (inner, after) =>
              let body := Text.trim inner
              if body.isEmpty then .error ⟨.emptyBody, c :: cs⟩
              else
                match split total [] after with
                | .error e => .error e
                | .ok segments =>
                    .ok (literals collected ++ .placeholder
                      { kind
                        body := String.ofList body
                        raw := String.ofList (kind.opener ++ inner ++ kind.closer)
                        position := total - Text.byteLength (c :: cs) } :: segments)
  termination_by s.length
  decreasing_by
    · simp
    · have h1 := Placeholder.length_of_opening? _ho
      have h2 := congrArg List.length (Placeholder.span_eq_ok _hs)
      simp only [List.length_append] at h2
      omega

/-- The segments of a text, or the flaw that keeps it from having any. -/
def ofChars (s : List Char) : Except Placeholder.Flaw (List Segment) :=
  split (Text.byteLength s) [] s

def parse (input : String) : Except Fault (List Segment) :=
  let s := input.toList
  match ofChars s with
  | .ok segments => .ok segments
  | .error flaw =>
      .error (.malformedPlaceholder input (Text.byteLength s - Text.byteLength flaw.rest)
        flaw.reason.message)

end Segment

/-- Whether a text holds a placeholder. A malformed text counts as one that does, so that its flaw
comes to light when it is rendered. -/
def hasPlaceholders (input : String) : Bool :=
  match Segment.parse input with
  | .ok segments => segments.any Segment.isPlaceholder
  | .error _ => true

end ArtifactFlow
