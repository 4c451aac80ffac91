import ArtifactFlow.Json.Printer
import ArtifactFlow.Proofs.Fields
import ArtifactFlow.Proofs.Json.Numerals
import ArtifactFlow.Proofs.Json.Strings

/-!
Texts that spell given tokens. Blanks stand anywhere between tokens, and a word ends where another
sort of character begins. The compact and the indented text of a value spell the same tokens.
-/

namespace ArtifactFlow

/-- The value is one that JSON text can hold without loss, nested at most so many levels deep: its
integers are of 64 bits, with a sign or without one, it has no doubles, and no key comes twice. -/
inductive Value.Textual : Nat → Value → Prop where
  | null {levels : Nat} : Textual levels .null
  | bool {levels : Nat} (b : Bool) : Textual levels (.bool b)
  | int {levels : Nat} {n : Int} : -Nat.pow 2 63 ≤ n → n < Nat.pow 2 64 → Textual levels (.int n)
  | string {levels : Nat} (s : String) : Textual levels (.string s)
  | list {levels : Nat} {items : List Value} : (∀ v ∈ items, Textual levels v) →
      Textual (levels + 1) (.list items)
  | mapping {levels : Nat} {fields : Mapping} : Fields.Distinct fields →
      (∀ entry ∈ fields, Textual levels entry.2) → Textual (levels + 1) (.mapping fields)

namespace Json

open Lexer

/-- No word goes on in the text. -/
def Breaks (s : List Char) : Prop :=
  ∀ c ∈ s.head?, isWordChar c = false

theorem breaks_cons {c : Char} {s : List Char} (h : isWordChar c = false) : Breaks (c :: s) := by
  rintro d hd
  obtain rfl := Option.some.inj hd
  exact h

theorem breaks_newLine (level : Nat) (s : List Char) : Breaks (newLine level ++ s) :=
  breaks_cons rfl

/-- The characters of tokens one after another, with blanks between them or without. -/
inductive Spells : List Char → List Token → Prop where
  | nil : Spells [] []
  | space {c : Char} {s : List Char} {ts : List Token} :
      isSpace c → Spells s ts → Spells (c :: s) ts
  | mark {c : Char} {t : Token} {s : List Char} {ts : List Token} :
      punctuation? c = some t → Spells s ts → Spells (c :: s) (t :: ts)
  | text (text : String) {s : List Char} {ts : List Token} :
      Spells s ts → Spells (quote text ++ s) (.scalar (.string text) :: ts)
  | word {word s : List Char} {v : Value} {ts : List Token} :
      word? word = some v → word ≠ [] → (∀ c ∈ word, isWordChar c) → Breaks s → Spells s ts →
      Spells (word ++ s) (.scalar v :: ts)

namespace Lexer

/-- The tokens of a text, behind what has been read of it. -/
def rest? (l : Lexer) (s : List Char) : Option (List Token) :=
  s.foldlM step? l >>= finish?

theorem rest?_cons (l : Lexer) (c : Char) (s : List Char) :
    l.rest? (c :: s) = (l.step? c).bind (·.rest? s) := by
  rw [rest?, List.foldlM_cons, Option.bind_eq_bind, Option.bind_eq_bind, Option.bind_assoc]
  rfl

theorem rest?_append {l m : Lexer} {first : List Char} (h : first.foldlM step? l = some m)
    (s : List Char) : l.rest? (first ++ s) = m.rest? s := by
  rw [rest?, List.foldlM_append, h]
  rfl

theorem begin?_mark {c : Char} {t : Token} (h : punctuation? c = some t) (done : List Token) :
    begin? done c = some ⟨.nothing, t :: done⟩ := by
  unfold punctuation? at h
  split at h <;> cases h <;> rfl

theorem begin?_word {c : Char} (h : isWordChar c) (done : List Token) :
    begin? done c = some ⟨.word [c], done⟩ := by
  have hspace : isSpace c = false := by
    rw [Bool.eq_false_iff]
    intro hc
    simp only [isSpace, Bool.or_eq_true, beq_iff_eq] at hc
    rcases hc with ((rfl | rfl) | rfl) | rfl <;> exact absurd h (by decide)
  have hquote : c ≠ '"' := by
    rintro rfl
    exact absurd h (by decide)
  simp [begin?, hspace, hquote, h]

theorem foldlM_word {cs : List Char} (h : ∀ c ∈ cs, isWordChar c) (chars : List Char)
    (done : List Token) : cs.foldlM step? ⟨.word chars, done⟩ =
      some ⟨.word (cs.reverse ++ chars), done⟩ := by
  induction cs generalizing chars with
  | nil => rfl
  | cons c cs ih =>
      obtain ⟨hc, hcs⟩ := List.forall_mem_cons.1 h
      have hstep : step? ⟨.word chars, done⟩ c = some ⟨.word (c :: chars), done⟩ := by
        simp [step?, hc]
      rw [List.foldlM_cons, hstep, Option.bind_eq_bind, Option.bind_some, ih hcs,
        List.reverse_cons, List.append_assoc, List.singleton_append]

/-- Where a word breaks off, it is as if its token had been there already. -/
theorem rest?_word {chars s : List Char} {v : Value} (hword : word? chars.reverse = some v)
    (breaks : Breaks s) (done : List Token) :
    rest? ⟨.word chars, done⟩ s = rest? ⟨.nothing, .scalar v :: done⟩ s := by
  cases s with
  | nil => simp [rest?, finish?, endWord?, hword]
  | cons c s =>
      have hc : isWordChar c = false := breaks c rfl
      have hstep : step? ⟨.word chars, done⟩ c = step? ⟨.nothing, .scalar v :: done⟩ c := by
        simp [step?, hc, endWord?, hword]
      rw [rest?_cons, rest?_cons, hstep]

theorem rest?_of_spells {s : List Char} {ts : List Token} (h : Spells s ts) (done : List Token) :
    rest? ⟨.nothing, done⟩ s = some (done.reverse ++ ts) := by
  induction h generalizing done with
  | nil => simp [rest?, finish?]
  | @space c s ts hc _ ih =>
      have hstep : step? ⟨.nothing, done⟩ c = some ⟨.nothing, done⟩ := by simp [step?, begin?, hc]
      rw [rest?_cons, hstep]
      exact ih done
  | @mark c t s ts hc _ ih =>
      rw [rest?_cons, step?, begin?_mark hc]
      refine (ih (t :: done)).trans ?_
      rw [List.reverse_cons, List.append_assoc, List.singleton_append]
  | text text _ ih =>
      rw [rest?_append (foldlM_quote text done), ih, List.reverse_cons, List.append_assoc,
        List.singleton_append]
  | @word word s v ts hvalue hne hchars breaks _ ih =>
      cases word with
      | nil => exact absurd rfl hne
      | cons c cs =>
          obtain ⟨hc, hcs⟩ := List.forall_mem_cons.1 hchars
          have hword : word? (cs.reverse ++ [c]).reverse = some v := by simpa using hvalue
          rw [List.cons_append, rest?_cons, step?, begin?_word hc, Option.bind_some,
            rest?_append (foldlM_word hcs [c] done), rest?_word hword breaks, ih,
            List.reverse_cons, List.append_assoc, List.singleton_append]

end Lexer

theorem tokens?_of_spells {s : List Char} {ts : List Token} (h : Spells s ts) :
    tokens? s = some ts :=
  rest?_of_spells h []

mutual

/-- The tokens of a value. -/
def tokensOf : Value → List Token
  | .list items => .listOpen :: itemTokens items ++ [.listClose]
  | .mapping fields => .mappingOpen :: fieldTokens fields ++ [.mappingClose]
  | v => [.scalar v]
  termination_by structural v => v

def itemTokens : List Value → List Token
  | [] => []
  | [v] => tokensOf v
  | v :: rest => tokensOf v ++ .comma :: itemTokens rest
  termination_by structural items => items

def fieldTokens : List (String × Value) → List Token
  | [] => []
  | [(k, v)] => .scalar (.string k) :: .colon :: tokensOf v
  | (k, v) :: rest =>
      .scalar (.string k) :: .colon :: tokensOf v ++ .comma :: fieldTokens rest
  termination_by structural fields => fields

end

namespace Spells

variable {s : List Char} {ts : List Token}

theorem newLine (level : Nat) (h : Spells s ts) : Spells (newLine level ++ s) ts := by
  have blanks (count : Nat) : Spells (List.replicate count ' ' ++ s) ts := by
    induction count with
    | zero => exact h
    | succ count ih => exact .space rfl ih
  exact .space rfl (blanks _)

theorem name {name : String} {v : Value} (hvalue : word? name.toList = some v)
    (hne : name.toList ≠ []) (hchars : name.toList.all isWordChar = true) (breaks : Breaks s)
    (h : Spells s ts) : Spells (name.toList ++ s) (.scalar v :: ts) :=
  .word hvalue hne (List.all_eq_true.1 hchars) breaks h

theorem bool (b : Bool) (breaks : Breaks s) (h : Spells s ts) :
    Spells ((if b then "true" else "false").toList ++ s) (.scalar (.bool b) :: ts) := by
  cases b <;> exact .name rfl (by simp) rfl breaks h

theorem int {n : Int} (low : -Nat.pow 2 63 ≤ n) (high : n < Nat.pow 2 64) (breaks : Breaks s)
    (h : Spells s ts) : Spells (intText n ++ s) (.scalar (.int n) :: ts) :=
  .word (word?_intText low high) (intText_ne_nil n) (fun _ => isWordChar_of_mem_intText) breaks h

end Spells

mutual

theorem spells_compact {levels : Nat} {s : List Char} {ts : List Token} :
    ∀ v : Value, v.Textual levels → Breaks s → Spells s ts →
      Spells (compact v ++ s) (tokensOf v ++ ts)
  | .null, _, breaks, h => .name rfl (by simp) rfl breaks h
  | .bool b, _, breaks, h => .bool b breaks h
  | .int n, textual, breaks, h => by
      cases textual with
      | int low high => exact .int low high breaks h
  | .float d, textual, _, _ => nomatch textual
  | .string text, _, _, h => .text text h
  | .list items, textual, _, h => by
      cases textual with
      | list hitems =>
          have hclose := spells_compactItems items hitems (breaks_cons rfl)
            (.mark (c := ']') rfl h)
          simpa [compact, tokensOf] using Spells.mark (c := '[') rfl hclose
  | .mapping fields, textual, _, h => by
      cases textual with
      | mapping _ hfields =>
          have hclose := spells_compactFields fields hfields (breaks_cons rfl)
            (.mark (c := '\x7d') rfl h)
          simpa [compact, tokensOf] using Spells.mark (c := '\x7b') rfl hclose
  termination_by structural v => v

theorem spells_compactItems {levels : Nat} {s : List Char} {ts : List Token} :
    ∀ items : List Value, (∀ v ∈ items, v.Textual levels) → Breaks s → Spells s ts →
      Spells (compactItems items ++ s) (itemTokens items ++ ts)
  | [], _, _, h => h
  | [v], textual, breaks, h => spells_compact v (textual v List.mem_cons_self) breaks h
  | v :: w :: rest, textual, breaks, h => by
      obtain ⟨hv, hrest⟩ := List.forall_mem_cons.1 textual
      have hafter := spells_compactItems (w :: rest) hrest breaks h
      have hcomma := spells_compact v hv (breaks_cons rfl) (.mark (c := ',') rfl hafter)
      simpa [compactItems, itemTokens] using hcomma
  termination_by structural items => items

theorem spells_compactFields {levels : Nat} {s : List Char} {ts : List Token} :
    ∀ fields : List (String × Value), (∀ entry ∈ fields, entry.2.Textual levels) → Breaks s →
      Spells s ts → Spells (compactFields fields ++ s) (fieldTokens fields ++ ts)
  | [], _, _, h => h
  | [(k, v)], textual, breaks, h => by
      have hv := spells_compact v (textual (k, v) List.mem_cons_self) breaks h
      simpa [compactFields, fieldTokens] using Spells.text k (.mark (c := ':') rfl hv)
  | (k, v) :: entry :: rest, textual, breaks, h => by
      obtain ⟨hv, hrest⟩ := List.forall_mem_cons.1 textual
      have hafter := spells_compactFields (entry :: rest) hrest breaks h
      have hcomma := spells_compact v hv (breaks_cons rfl) (.mark (c := ',') rfl hafter)
      simpa [compactFields, fieldTokens] using Spells.text k (.mark (c := ':') rfl hcomma)
  termination_by structural fields => fields

end

mutual

theorem spells_pretty {levels : Nat} {s : List Char} {ts : List Token} :
    ∀ (level : Nat) (v : Value), v.Textual levels → Breaks s → Spells s ts →
      Spells (pretty level v ++ s) (tokensOf v ++ ts)
  | _, .list [], _, _, h => .mark (c := '[') rfl (.mark (c := ']') rfl h)
  | level, .list (v :: rest), textual, _, h => by
      cases textual with
      | list hitems =>
          have hclose := spells_prettyItems (level + 1) (v :: rest) hitems (breaks_newLine level _)
            (.newLine level (.mark (c := ']') rfl h))
          simpa [pretty, tokensOf] using Spells.mark (c := '[') rfl hclose
  | _, .mapping [], _, _, h => .mark (c := '\x7b') rfl (.mark (c := '\x7d') rfl h)
  | level, .mapping (entry :: rest), textual, _, h => by
      cases textual with
      | mapping _ hfields =>
          have hclose := spells_prettyFields (level + 1) (entry :: rest) hfields
            (breaks_newLine level _) (.newLine level (.mark (c := '\x7d') rfl h))
          simpa [pretty, tokensOf] using Spells.mark (c := '\x7b') rfl hclose
  | _, .null, textual, breaks, h => spells_compact .null textual breaks h
  | _, .bool b, textual, breaks, h => spells_compact (.bool b) textual breaks h
  | _, .int n, textual, breaks, h => spells_compact (.int n) textual breaks h
  | _, .float d, textual, breaks, h => spells_compact (.float d) textual breaks h
  | _, .string text, textual, breaks, h => spells_compact (.string text) textual breaks h
  termination_by structural _ v => v

theorem spells_prettyItems {levels : Nat} {s : List Char} {ts : List Token} :
    ∀ (level : Nat) (items : List Value), (∀ v ∈ items, v.Textual levels) → Breaks s →
      Spells s ts → Spells (prettyItems level items ++ s) (itemTokens items ++ ts)
  | _, [], _, _, h => h
  | level, [v], textual, breaks, h => by
      have hv := spells_pretty level v (textual v List.mem_cons_self) breaks h
      simpa [prettyItems, itemTokens] using hv.newLine level
  | level, v :: w :: rest, textual, breaks, h => by
      obtain ⟨hv, hrest⟩ := List.forall_mem_cons.1 textual
      have hafter := spells_prettyItems level (w :: rest) hrest breaks h
      have hcomma := spells_pretty level v hv (breaks_cons rfl) (.mark (c := ',') rfl hafter)
      simpa [prettyItems, itemTokens] using hcomma.newLine level
  termination_by structural _ items => items

theorem spells_prettyFields {levels : Nat} {s : List Char} {ts : List Token} :
    ∀ (level : Nat) (fields : List (String × Value)),
      (∀ entry ∈ fields, entry.2.Textual levels) → Breaks s → Spells s ts →
      Spells (prettyFields level fields ++ s) (fieldTokens fields ++ ts)
  | _, [], _, _, h => h
  | level, [(k, v)], textual, breaks, h => by
      have hv := spells_pretty level v (textual (k, v) List.mem_cons_self) breaks h
      have hkey := Spells.text k (.mark (c := ':') rfl (.space (c := ' ') rfl hv))
      simpa [prettyFields, fieldTokens] using hkey.newLine level
  | level, (k, v) :: entry :: rest, textual, breaks, h => by
      obtain ⟨hv, hrest⟩ := List.forall_mem_cons.1 textual
      have hafter := spells_prettyFields level (entry :: rest) hrest breaks h
      have hcomma := spells_pretty level v hv (breaks_cons rfl) (.mark (c := ',') rfl hafter)
      have hkey := Spells.text k (.mark (c := ':') rfl (.space (c := ' ') rfl hcomma))
      simpa [prettyFields, fieldTokens] using hkey.newLine level
  termination_by structural _ fields => fields

end

theorem tokens?_compact {levels : Nat} {v : Value} (h : v.Textual levels) :
    tokens? (compact v) = some (tokensOf v) := by
  have hspells := spells_compact v h (s := []) (fun _ hc => nomatch hc) .nil
  simpa using tokens?_of_spells hspells

theorem tokens?_pretty {levels : Nat} {v : Value} (h : v.Textual levels) (level : Nat) :
    tokens? (pretty level v) = some (tokensOf v) := by
  have hspells := spells_pretty level v h (s := []) (fun _ hc => nomatch hc) .nil
  simpa using tokens?_of_spells hspells

end Json
end ArtifactFlow
