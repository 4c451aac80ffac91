import ArtifactFlow.Placeholder.Segment
import ArtifactFlow.Proofs.Text.Split

/-!
Where placeholders begin and end. Whether one opens is decided by two characters, and where it ends
by the text up to its closer, whatever follows.
-/

namespace ArtifactFlow.Placeholder

/-- The characters that an opener may begin with. -/
def Opens (c : Char) : Prop :=
  c = '\x7b' ∨ c = '!' ∨ c = '+'

@[simp] theorem opening?_nil : opening? [] = none := rfl

@[simp] theorem opening?_opener (kind : Kind) (rest : List Char) :
    opening? (kind.opener ++ rest) = some (kind, rest) := by
  cases kind <;> rfl

theorem opening?_eq_none_iff {c : Char} {cs : List Char} :
    opening? (c :: cs) = none ↔ ¬ (Opens c ∧ cs.head? = some '\x7b') := by
  constructor
  · rintro hnone ⟨hc, hhead⟩
    obtain ⟨rest, rfl⟩ := List.head?_eq_some_iff.1 hhead
    rcases hc with rfl | rfl | rfl <;> exact absurd hnone (by simp [opening?])
  · intro h
    refine Option.eq_none_iff_forall_ne_some.2 fun ⟨kind, rest⟩ hsome => h ?_
    have hs := opening?_eq_some hsome
    cases kind <;> obtain ⟨rfl, rfl⟩ := List.cons_eq_cons.1 hs <;> simp [Opens]

/-- Nothing opens at the front of a text exactly if no opener stands there. -/
theorem opening?_eq_none_iff_opener {s : List Char} :
    opening? s = none ↔ ∀ kind : Kind, ¬ kind.opener <+: s := by
  constructor
  · rintro hnone kind ⟨rest, rfl⟩
    exact absurd hnone (by simp)
  · intro h
    refine Option.eq_none_iff_forall_ne_some.2 fun ⟨kind, rest⟩ hsome => ?_
    exact h kind ⟨rest, (opening?_eq_some hsome).symm⟩

/-- Openers are found by what stands directly behind. -/
theorem opening?_eq_none_congr {c : Char} {cs ds : List Char} (h : cs.head? = ds.head?) :
    opening? (c :: cs) = none ↔ opening? (c :: ds) = none := by
  rw [opening?_eq_none_iff, opening?_eq_none_iff, h]

theorem opening?_of_append {s : List Char} (x : List Char) (h : opening? (s ++ x) = none) :
    opening? s = none := by
  cases s with
  | nil => rfl
  | cons c cs =>
      rw [List.cons_append, opening?_eq_none_iff] at h
      refine opening?_eq_none_iff.2 fun ⟨hc, hhead⟩ => h ⟨hc, ?_⟩
      obtain ⟨rest, rfl⟩ := List.head?_eq_some_iff.1 hhead
      rfl

/-- Expressions end at two characters as well. -/
theorem closes_iff {c : Char} {cs : List Char} :
    Kind.expression.closer <+: c :: cs ↔ c = '\x7d' ∧ cs.head? = some '+' := by
  rw [Kind.closer, List.cons_prefix_cons, List.head?_eq_some_iff, eq_comm]
  refine and_congr_right fun _ => ⟨fun ⟨rest, h⟩ => ⟨rest, h.symm⟩, fun ⟨rest, h⟩ => ⟨rest, h.symm⟩⟩

section Expressions

variable {start s body after rest : List Char} {depth : Nat}

theorem spanExpression_nil :
    spanExpression start depth [] = .error ⟨.unclosed .expression, start⟩ := by
  rw [spanExpression]

theorem spanExpression_opener :
    spanExpression start depth (Kind.expression.opener ++ rest) =
      (spanExpression start (depth + 1) rest).map
        fun (body, after) => (Kind.expression.opener ++ body, after) := by
  change spanExpression start depth ('+' :: '\x7b' :: rest) = _
  rw [spanExpression]
  split
  · rename_i ho
    obtain ⟨-, rfl⟩ := Prod.mk.inj (Option.some.inj ho)
    cases spanExpression start (depth + 1) rest <;> rfl
  · rename_i hne ho
    exact absurd (Prod.mk.inj (Option.some.inj ho)).1.symm hne
  · rename_i ho
    exact absurd ho (by simp [opening?])

theorem spanExpression_placeholder {kind : Kind} (hkind : kind ≠ .expression) :
    spanExpression start depth (kind.opener ++ rest) =
      match Text.cutAt? kind.closer rest with
      | none => .error ⟨.unclosed kind, kind.opener ++ rest⟩
      | some (inner, behind) => (spanExpression start depth behind).map
          fun (body, after) => (kind.opener ++ inner ++ kind.closer ++ body, after) := by
  have hopen := opening?_opener kind rest
  cases hs : kind.opener ++ rest with
  | nil =>
      rw [hs] at hopen
      exact absurd hopen (by simp)
  | cons c cs =>
      rw [hs] at hopen
      rw [spanExpression]
      split
      · rename_i ho
        rw [hopen] at ho
        exact absurd (Prod.mk.inj (Option.some.inj ho)).1 hkind
      · rename_i hne ho
        rw [hopen] at ho
        obtain ⟨rfl, rfl⟩ := Prod.mk.inj (Option.some.inj ho)
        split
        · rename_i hc
          rw [hc]
        · rename_i inner behind hc
          rw [hc]
          cases h : spanExpression start depth behind <;> simp [h, Except.map]
      · rename_i ho
        rw [hopen] at ho
        exact absurd ho (by simp)

/-- Static and dynamic placeholders are passed over as a whole. -/
theorem spanExpression_passed {kind : Kind} (hkind : kind ≠ .expression) {inner : List Char}
    (h : Text.UpTo kind.closer inner) :
    spanExpression start depth (kind.opener ++ inner ++ kind.closer ++ rest) =
      (spanExpression start depth rest).map
        fun (body, after) => (kind.opener ++ inner ++ kind.closer ++ body, after) := by
  rw [List.append_assoc, List.append_assoc, spanExpression_placeholder hkind,
    ← List.append_assoc inner, h.cutAt?_eq rest]

theorem spanExpression_unclosed {kind : Kind} (hkind : kind ≠ .expression)
    (h : ¬ kind.closer <:+: rest) : spanExpression start depth (kind.opener ++ rest) =
      .error ⟨.unclosed kind, kind.opener ++ rest⟩ := by
  rw [spanExpression_placeholder hkind, Text.cutAt?_eq_none_iff.2 h]

theorem spanExpression_closed :
    spanExpression start 0 (Kind.expression.closer ++ rest) = .ok ([], rest) := by
  change spanExpression start 0 ('\x7d' :: '+' :: rest) = _
  rw [spanExpression]
  split
  · rename_i ho
    exact absurd ho (by simp [opening?])
  · rename_i ho
    exact absurd ho (by simp [opening?])
  · split
    · rename_i hp
      rw [List.append_cancel_left (Text.isPrefixOf?_eq_some hp)]
    · rename_i hp
      exact absurd ⟨rest, rfl⟩ (Text.isPrefixOf?_eq_none_iff.1 hp)

theorem spanExpression_closer :
    spanExpression start (depth + 1) (Kind.expression.closer ++ rest) =
      (spanExpression start depth rest).map
        fun (body, after) => (Kind.expression.closer ++ body, after) := by
  change spanExpression start (depth + 1) ('\x7d' :: '+' :: rest) = _
  rw [spanExpression]
  split
  · rename_i ho
    exact absurd ho (by simp [opening?])
  · rename_i ho
    exact absurd ho (by simp [opening?])
  · split
    · rename_i hp
      rw [← List.append_cancel_left (Text.isPrefixOf?_eq_some hp)]
      cases h : spanExpression start depth rest <;> simp only [h, Except.map]
    · rename_i hp
      exact absurd ⟨rest, rfl⟩ (Text.isPrefixOf?_eq_none_iff.1 hp)

theorem spanExpression_char {c : Char} {cs : List Char} (hopen : opening? (c :: cs) = none)
    (hclose : ¬ Kind.expression.closer <+: c :: cs) :
    spanExpression start depth (c :: cs) =
      (spanExpression start depth cs).map fun (body, after) => (c :: body, after) := by
  rw [spanExpression]
  split
  · rename_i ho
    exact absurd ho (by simp [hopen])
  · rename_i ho
    exact absurd ho (by simp [hopen])
  · split
    · rename_i hp
      exact absurd ⟨_, (Text.isPrefixOf?_eq_some hp).symm⟩ hclose
    · cases spanExpression start depth cs <;> rfl

/-- The end of an expression does not depend on what follows its closer. -/
theorem spanExpression_local (h : spanExpression start depth s = .ok (body, after))
    (other x : List Char) :
    spanExpression other depth (body ++ Kind.expression.closer ++ x) = .ok (body, x) := by
  fun_induction spanExpression start depth s generalizing body after with
  | case1 => exact absurd h (by simp)
  | case2 depth c cs rest ho b a hr ih =>
      obtain ⟨rfl, rfl⟩ : Kind.expression.opener ++ b = body ∧ a = after := by simpa using h
      rw [List.append_assoc, List.append_assoc, ← List.append_assoc b, spanExpression_opener, ih hr]
      rfl
  | case3 => exact absurd h (by simp)
  | case4 => exact absurd h (by simp)
  | case5 depth c cs kind rest hne ho inner behind hc b a hr ih =>
      obtain ⟨rfl, rfl⟩ : kind.opener ++ inner ++ kind.closer ++ b = body ∧ a = after := by
        simpa using h
      rw [List.append_assoc, List.append_assoc, ← List.append_assoc b,
        spanExpression_passed hne (Text.upTo_of_cutAt? hc), ih hr]
      rfl
  | case6 => exact absurd h (by simp)
  | case7 c cs ho behind hp =>
      obtain ⟨rfl, rfl⟩ : [] = body ∧ behind = after := by simpa using h
      exact spanExpression_closed
  | case8 c cs ho behind hp depth b a hr ih =>
      obtain ⟨rfl, rfl⟩ : Kind.expression.closer ++ b = body ∧ a = after := by simpa using h
      rw [List.append_assoc, List.append_assoc, ← List.append_assoc b, spanExpression_closer, ih hr]
      rfl
  | case9 => exact absurd h (by simp)
  | case10 depth c cs ho hp b a hr ih =>
      obtain ⟨rfl, rfl⟩ : c :: b = body ∧ a = after := by simpa using h
      have hcs : cs = b ++ Kind.expression.closer ++ a := spanExpression_eq_ok hr
      -- Openers and closers are told by two characters, and the second one is in the body or is
      -- the brace of the closer, whatever follows.
      have hhead : cs.head? = (b ++ Kind.expression.closer ++ x).head? := by
        rw [hcs]
        cases b <;> rfl
      have hopen := (opening?_eq_none_congr hhead).1 ho
      have hclose : ¬ Kind.expression.closer <+: c :: (b ++ Kind.expression.closer ++ x) := by
        rw [Text.isPrefixOf?_eq_none_iff, closes_iff, hhead] at hp
        exact mt closes_iff.1 hp
      rw [List.cons_append, List.cons_append, spanExpression_char hopen hclose, ih hr]
      rfl
  | case11 => exact absurd h (by simp)

end Expressions

section Others

variable {kind : Kind} {start rest : List Char}

/-- Static and dynamic placeholders end at the first closer. -/
theorem span_eq_cutAt? (hkind : kind ≠ .expression) :
    span kind start rest = match Text.cutAt? kind.closer rest with
      | some found => .ok found
      | none => .error ⟨.unclosed kind, start⟩ := by
  cases kind with
  | expression => exact absurd rfl hkind
  | static => rfl
  | dynamic => rfl

theorem span_eq_ok_iff_cutAt? (hkind : kind ≠ .expression) {found : List Char × List Char} :
    span kind start rest = .ok found ↔ Text.cutAt? kind.closer rest = some found := by
  rw [span_eq_cutAt? hkind]
  cases Text.cutAt? kind.closer rest <;> simp

theorem span_eq_error_iff_cutAt? (hkind : kind ≠ .expression) {flaw : Flaw} :
    span kind start rest = .error flaw ↔
      Text.cutAt? kind.closer rest = none ∧ flaw = ⟨.unclosed kind, start⟩ := by
  rw [span_eq_cutAt? hkind]
  cases Text.cutAt? kind.closer rest <;> simp [eq_comm]

end Others

/-- The text between an opener and its closer: with any text behind the closer it is found again. -/
def Spans (kind : Kind) (inner : List Char) : Prop :=
  ∀ start x, span kind start (inner ++ kind.closer ++ x) = .ok (inner, x)

theorem spans_of_span {kind : Kind} {start rest inner after : List Char}
    (h : span kind start rest = .ok (inner, after)) : Spans kind inner := by
  intro other x
  by_cases hkind : kind = .expression
  · subst hkind
    exact spanExpression_local h other x
  · have hcut := (span_eq_ok_iff_cutAt? hkind).1 h
    exact (span_eq_ok_iff_cutAt? hkind).2 ((Text.upTo_of_cutAt? hcut).cutAt?_eq x)

/-- The body of an expression may be any text without braces. -/
theorem spans_expression {inner : List Char} (hopen : '\x7b' ∉ inner) (hclose : '\x7d' ∉ inner) :
    Spans .expression inner := by
  intro start x
  rw [span, List.append_assoc]
  induction inner with
  | nil => exact spanExpression_closed
  | cons c cs ih =>
      obtain ⟨-, hopens⟩ := not_or.1 (mt List.mem_cons.2 hopen)
      obtain ⟨hc, hcloses⟩ := not_or.1 (mt List.mem_cons.2 hclose)
      have hhead : (cs ++ (Kind.expression.closer ++ x)).head? ≠ some '\x7b' := by
        cases cs with
        | nil => simp [Kind.closer]
        | cons d ds => exact fun h => hopens (Option.some.inj h ▸ List.mem_cons_self)
      rw [List.cons_append, spanExpression_char (opening?_eq_none_iff.2 fun h => hhead h.2)
        (fun h => hc (closes_iff.1 h).1.symm), ih hopens hcloses]
      rfl

end ArtifactFlow.Placeholder
