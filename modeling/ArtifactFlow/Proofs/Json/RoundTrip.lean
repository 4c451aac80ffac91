import ArtifactFlow.Json.Reader
import ArtifactFlow.Proofs.Json.Spelling

/-!
Values through JSON text and back. The reader is taken through the tokens of a value: where a value
may stand, it ends up with that value delivered to the innermost open container.
-/

namespace ArtifactFlow

namespace Json

namespace Reader

/-- The tokens take the reader from one state to another. -/
def Reads (r : Reader) (ts : List Token) (q : Reader) : Prop :=
  ts.foldlM step? r = some q

namespace Reads

variable {r q u : Reader} {t : Token} {ts more : List Token}

theorem nil : Reads r [] r := rfl

theorem cons (h : r.step? t = some q) (hrest : Reads q ts u) : Reads r (t :: ts) u := by
  rw [Reads, List.foldlM_cons, h]
  exact hrest

theorem append (h : Reads r ts q) (hmore : Reads q more u) : Reads r (ts ++ more) u := by
  rw [Reads, List.foldlM_append, h]
  exact hmore

end Reads

/-- A value may come next. -/
def Expects (awaits : Awaits) : Prop :=
  awaits = .value ∨ awaits = .itemOrClose

section Open

variable {stack : List Frame} {awaits : Awaits}

theorem reads_scalar (expects : Expects awaits) (v : Value) :
    Reads ⟨stack, awaits⟩ [.scalar v] (deliver stack v) := by
  rcases expects with rfl | rfl <;> rfl

theorem step?_listOpen (expects : Expects awaits) (room : stack.length + 1 < maxNesting) :
    step? ⟨stack, awaits⟩ .listOpen = some ⟨.list [] :: stack, .itemOrClose⟩ := by
  rcases expects with rfl | rfl <;> exact if_pos room

theorem step?_mappingOpen (expects : Expects awaits) (room : stack.length + 1 < maxNesting) :
    step? ⟨stack, awaits⟩ .mappingOpen = some ⟨stack, .keyOrClose []⟩ := by
  rcases expects with rfl | rfl <;> exact if_pos room

theorem step?_key {fields : Mapping}
    (expects : awaits = .keyOrClose fields ∨ awaits = .key fields) (key : String) :
    step? ⟨stack, awaits⟩ (.scalar (.string key)) = some ⟨stack, .colon fields key⟩ := by
  rcases expects with rfl | rfl <;> rfl

end Open

mutual

theorem reads_tokensOf {levels : Nat} (stack : List Frame) {awaits : Awaits} :
    ∀ v : Value, v.Textual levels → stack.length + levels < maxNesting → Expects awaits →
      Reads ⟨stack, awaits⟩ (tokensOf v) (deliver stack v)
  | .list items, textual, room, expects => by
      cases textual with
      | @list n _ hitems =>
          have hroom : stack.length + 1 + n < maxNesting := by omega
          have hclose := reads_itemTokens stack [] items hitems hroom (.inr rfl) fun _ => rfl
          exact .cons (step?_listOpen expects (by omega)) hclose
  | .mapping fields, textual, room, expects => by
      cases textual with
      | @mapping n _ distinct hfields =>
          have hroom : stack.length + 1 + n < maxNesting := by omega
          have hinto : Fields.insertAll [] fields = fields := Fields.insertAll_eq_append distinct
          have hclose := reads_fieldTokens stack [] fields hfields hroom (.inl rfl) fun _ => rfl
          rw [hinto] at hclose
          exact .cons (step?_mappingOpen expects (by omega)) hclose
  | .null, _, _, expects => reads_scalar expects .null
  | .bool b, _, _, expects => reads_scalar expects (.bool b)
  | .int n, _, _, expects => reads_scalar expects (.int n)
  | .float d, _, _, expects => reads_scalar expects (.float d)
  | .string s, _, _, expects => reads_scalar expects (.string s)
  termination_by structural v => v

theorem reads_itemTokens {levels : Nat} (stack : List Frame) {awaits : Awaits}
    (before : List Value) : ∀ items : List Value, (∀ v ∈ items, v.Textual levels) →
      stack.length + 1 + levels < maxNesting → Expects awaits →
      (items = [] → awaits = .itemOrClose) →
      Reads ⟨.list before :: stack, awaits⟩ (itemTokens items ++ [.listClose])
        (deliver stack (.list (before.reverse ++ items)))
  | [], _, _, _, hempty => by
      rw [hempty rfl, List.append_nil]
      exact .cons rfl .nil
  | [v], textual, room, expects, _ => by
      have hv := reads_tokensOf (.list before :: stack) v (textual v List.mem_cons_self) room
        expects
      rw [← List.reverse_cons]
      exact hv.append (.cons rfl .nil)
  | v :: w :: rest, textual, room, expects, _ => by
      obtain ⟨hv, hrest⟩ := List.forall_mem_cons.1 textual
      have hfirst := reads_tokensOf (.list before :: stack) v hv room expects
      have hafter := reads_itemTokens stack (v :: before) (w :: rest) hrest room (.inl rfl)
        fun h => nomatch h
      have htokens : itemTokens (v :: w :: rest) ++ [.listClose] =
        tokensOf v ++ .comma :: (itemTokens (w :: rest) ++ [.listClose]) := by simp [itemTokens]
      rw [List.reverse_cons, List.append_assoc, List.singleton_append] at hafter
      rw [htokens]
      exact hfirst.append (.cons rfl hafter)
  termination_by structural items => items

theorem reads_fieldTokens {levels : Nat} (stack : List Frame) {awaits : Awaits}
    (before : Mapping) : ∀ fields : List (String × Value),
      (∀ entry ∈ fields, entry.2.Textual levels) → stack.length + 1 + levels < maxNesting →
      awaits = .keyOrClose before ∨ awaits = .key before →
      (fields = [] → awaits = .keyOrClose before) →
      Reads ⟨stack, awaits⟩ (fieldTokens fields ++ [.mappingClose])
        (deliver stack (.mapping (Fields.insertAll before fields)))
  | [], _, _, _, hempty => by
      rw [hempty rfl]
      exact .cons rfl .nil
  | [(k, v)], textual, room, expects, _ => by
      have hv := reads_tokensOf (.mapping before k :: stack) v
        (textual (k, v) List.mem_cons_self) room (.inl rfl)
      exact .cons (step?_key expects k) (.cons rfl (hv.append (.cons rfl .nil)))
  | (k, v) :: entry :: rest, textual, room, expects, _ => by
      obtain ⟨hv, hrest⟩ := List.forall_mem_cons.1 textual
      have hfirst := reads_tokensOf (.mapping before k :: stack) v hv room (.inl rfl)
      have hafter := reads_fieldTokens stack (Fields.insert k v before) (entry :: rest) hrest
        room (.inr rfl) fun h => nomatch h
      have htokens : fieldTokens ((k, v) :: entry :: rest) ++ [.mappingClose] =
          .scalar (.string k) :: .colon :: (tokensOf v ++
            .comma :: (fieldTokens (entry :: rest) ++ [.mappingClose])) := by simp [fieldTokens]
      rw [htokens]
      exact .cons (step?_key expects k) (.cons rfl (hfirst.append (.cons rfl hafter)))
  termination_by structural fields => fields

end

end Reader

theorem parse?_of_tokens {v : Value} {s : List Char} (textual : v.Textual 127)
    (h : tokens? s = some (tokensOf v)) : parse? s = some v := by
  have hread : (tokensOf v).foldlM Reader.step? Reader.start = some (Reader.deliver [] v) :=
    Reader.reads_tokensOf [] v textual (by decide) (.inl rfl)
  rw [parse?, h, Option.bind_eq_bind, Option.bind_some, hread]
  rfl

theorem parseString?_compactString {v : Value} (textual : v.Textual 127) :
    parseString? (compactString v) = some v := by
  rw [parseString?, compactString, String.toList_ofList]
  exact parse?_of_tokens textual (tokens?_compact textual)

theorem parseString?_prettyString {v : Value} (textual : v.Textual 127) :
    parseString? (prettyString v) = some v := by
  rw [parseString?, prettyString, String.toList_ofList]
  exact parse?_of_tokens textual (tokens?_pretty textual 0)

end Json
end ArtifactFlow
