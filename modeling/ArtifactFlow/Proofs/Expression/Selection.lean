import ArtifactFlow.Proofs.Expression.Chains
import ArtifactFlow.Proofs.Expression.Evaluation
import ArtifactFlow.Proofs.Fields

/-!
Keys chosen by an argument. The argument becomes part of the text of the expression before that is
read as an index chain, so that a key is found under its own name exactly if it can be written
between the brackets.
-/

namespace ArtifactFlow

open Placeholder

namespace Expression

/-- An expression with a place for the argument `sel`. -/
def selector (front back : String) : String :=
  front ++ "!\x7b sel \x7d" ++ back

def selPlaceholder (position : Nat) : Placeholder :=
  Piece.placeholder .dynamic " sel ".toList position

def selectorSegments (front back : String) (position : Nat) : List Segment :=
  Segment.literals front.toList.reverse ++ .placeholder (selPlaceholder position) ::
    Segment.literals back.toList.reverse

variable {front back key expression : String} {resolve : Placeholder → Except Fault Value}
  {position passes : Nat}

theorem substitutePass_literals (resolve : Placeholder → Except Fault Value) (done : String)
    (cs : List Char) (rest : List Segment) :
    substitutePass resolve done (Segment.literals cs.reverse ++ rest) =
      substitutePass resolve (done ++ String.ofList cs) rest := by
  cases cs with
  | nil =>
      rw [String.ofList_nil, String.append_empty]
      rfl
  | cons c cs =>
      rw [Segment.literals_reverse (List.cons_ne_nil c cs)]
      rfl

theorem substitutePass_selector (h : resolve (selPlaceholder position) = .ok (.string key)) :
    substitutePass resolve "" (selectorSegments front back position) =
      .ok (some (front ++ key ++ back)) := by
  have hback := substitutePass_literals resolve (front ++ key) back.toList []
  rw [List.append_nil, String.ofList_toList, substitutePass] at hback
  rw [selectorSegments, substitutePass_literals, String.ofList_toList, String.empty_append,
    substitutePass, h, ok_bind]
  exact hback

theorem applyIndex_mapping {head : String} {fields : Mapping} {i : Index} {v : Value} :
    applyIndex expression head (.mapping fields) i = .ok v ↔
      Fields.get? i.key fields = some v := by
  cases i with
  | quoted key | bare key =>
      simp only [applyIndex, Index.key]
      cases Fields.get? key fields <;> simp

section Pasting

variable (hfront : '\x7b' ∉ front.toList) (hback : '\x7b' ∉ back.toList)
  (apart : ∀ c ∈ front.toList.getLast?, ¬ Opens c)
include hfront hback apart

theorem parse_selector : ∃ position,
    Segment.parse (selector front back) = .ok (selectorSegments front back position) := by
  have hspan : Spans .dynamic " sel ".toList := fun start x => rfl
  have legible : Piece.Legible (front.toList.map .char ++
      .span .dynamic " sel ".toList :: back.toList.map .char) :=
    Piece.legible_append_chars (Piece.legible_chars hfront)
      (.span hspan (by decide) (Piece.legible_chars hback))
      fun c hc hopens => absurd hopens (apart c hc)
  have hjoin : Piece.join (front.toList.map .char ++
      .span .dynamic " sel ".toList :: back.toList.map .char) = (selector front back).toList := by
    simp only [selector, Piece.join_append, Piece.join_map_char, Piece.join_cons, Piece.text,
      Kind.opener, Kind.closer, String.toList_append, List.append_assoc]
    rfl
  have hparse := Segment.parse_eq_ok.2 ⟨_, legible, hjoin, rfl⟩
  rw [Piece.segments_append_char, Piece.segments, Piece.segments_map_char, List.append_nil,
    List.append_nil] at hparse
  exact ⟨_, hparse⟩

/-- With a key in place the text has no placeholders left. -/
theorem hasPlaceholders_pasted (plain : hasPlaceholders key = false) :
    hasPlaceholders (front ++ key ++ back) = false := by
  rw [hasPlaceholders_eq_false_iff] at plain ⊢
  have hrest := Piece.legible_append_chars plain (Piece.legible_chars hback) fun c hc hopens => by
    rw [Piece.join_map_char]
    intro hhead
    exact hback (List.mem_of_mem_head? hhead)
  rw [String.toList_append, String.toList_append, List.append_assoc, List.map_append,
    List.map_append]
  exact Piece.legible_append_chars (Piece.legible_chars hfront) hrest fun c hc hopens =>
    absurd hopens (apart c hc)

theorem substitute_selector (plain : hasPlaceholders key = false)
    (h : ∀ position, resolve (selPlaceholder position) = .ok (.string key)) :
    substitute resolve expression (passes + 1) (selector front back) =
      .ok (some (front ++ key ++ back)) := by
  obtain ⟨position, hparse⟩ := parse_selector hfront hback apart
  have pasted := hasPlaceholders_pasted hfront hback apart plain
  have hany : (selectorSegments front back position).any Segment.isPlaceholder = true := by
    simp [selectorSegments, Segment.isPlaceholder]
  have hne : front ++ key ++ back ≠ selector front back := by
    intro heq
    rw [heq, hasPlaceholders, hparse] at pasted
    exact absurd (pasted.symm.trans hany) (by decide)
  rw [substitute, hparse, ok_bind, hany, substitutePass_selector (h position)]
  simp only [Bool.not_true, Bool.false_eq_true, if_false, ok_bind, hne, substitute_plain pasted]

end Pasting

section Reading

variable {head : String} (hhead : Chain.IsHead head) {inner : List Char}
include hhead

theorem trimString_chain :
    Text.trimString (String.ofList (head.toList ++ '[' :: (inner ++ [']']))) =
      String.ofList (head.toList ++ '[' :: (inner ++ [']'])) := by
  obtain ⟨c, cs, hchars⟩ := List.exists_cons_of_ne_nil hhead.ne_nil
  have hfront : ¬ Text.isBlank c :=
    Text.not_isBlank_of_isHeadChar (hhead.chars c (hchars ▸ List.mem_cons_self))
  have hsnoc : c :: cs ++ '[' :: (inner ++ [']']) = (c :: cs ++ '[' :: inner) ++ [']'] := by
    simp
  have hend := Text.trimEnd_snoc (c := ']') (by decide) (c :: cs ++ '[' :: inner)
  rw [Text.trimString, String.toList_ofList, Text.trim, hchars, List.cons_append,
    Text.trimStart_cons hfront, ← List.cons_append, hsnoc, hend]

theorem applyChain_single {scope : Scope} {v : Value} {i : Index}
    (hlookup : (Mapping.lookup? scope.args head <|> scope.config.get? head) = some v)
    (hindex : Chain.index inner = .ok (i, [])) :
    applyChain scope expression (String.ofList (head.toList ++ '[' :: inner)) =
      applyIndex expression head v i := by
  have hparse : Chain.parse (head.toList ++ '[' :: inner) = .ok ⟨head, [i]⟩ := by
    rw [hhead.parse_append, Chain.operations_bracket, hindex, ok_bind]
    simp only [Chain.operations_nil]
    rfl
  simp only [applyChain, String.toList_ofList, hparse, hlookup, List.foldlM_cons, List.foldlM_nil]
  cases applyIndex expression head v i <;> rfl

/-- A chain that has a value has a first index, and that index leads somewhere. -/
theorem exists_index_of_applyChain {scope : Scope} {v w : Value}
    (hlookup : (Mapping.lookup? scope.args head <|> scope.config.get? head) = some v)
    (h : applyChain scope expression (String.ofList (head.toList ++ '[' :: inner)) = .ok w) :
    ∃ i rest u, Chain.index inner = .ok (i, rest) ∧ applyIndex expression head v i = .ok u := by
  rw [applyChain, String.toList_ofList, hhead.parse_append, Chain.operations_bracket] at h
  cases hindex : Chain.index inner with
  | error flaw =>
      rw [hindex] at h
      cases h
  | ok found =>
      obtain ⟨i, rest⟩ := found
      rw [hindex, ok_bind] at h
      dsimp only at h
      cases hrest : Chain.operations rest with
      | error flaw =>
          rw [hrest] at h
          cases h
      | ok more =>
          simp only [hrest, ok_bind, pure_eq_ok, Except.map, hlookup, List.foldlM_cons] at h
          obtain ⟨u, hu, -⟩ := bind_eq_ok.1 h
          exact ⟨i, rest, u, rfl, hu⟩

end Reading

/-- The scope of a call with a single argument. -/
def selecting (config : StaticConfig) (key artifact : String) : Scope :=
  ⟨config, [("sel", .string key)], artifact⟩

section Selecting

variable {config : StaticConfig} {artifact head : String} {v : Value}

theorem resolve_sel (body : String → Except Fault Value) (position : Nat) :
    Expression.resolve (selecting config key artifact) body (selPlaceholder position) =
      .ok (.string key) := by
  have hbody : String.ofList (Text.trim " sel ".toList) = "sel" := by decide
  change resolveArgument _ (String.ofList (Text.trim " sel ".toList)) _ = _
  rw [hbody, resolveArgument, Mapping.lookup?_dotless (by decide)]
  rfl

theorem lookup?_selecting (key artifact : String) (hhead : Chain.IsHead head) (hsel : head ≠ "sel")
    (h : Fields.get? head config.merged = some v) :
    (Mapping.lookup? (selecting config key artifact).args head <|>
      (selecting config key artifact).config.get? head) = some v := by
  have hargs : Fields.get? head [("sel", Value.string key)] = none := by
    simp [Fields.get?, Ne.symm hsel]
  rw [StaticConfig.get?, Mapping.lookup?_dotless hhead.dotless,
    Mapping.lookup?_dotless hhead.dotless]
  simp only [selecting, hargs, h]
  rfl

/-- The expression that puts the argument between brackets, and between marks inside of them. -/
def bracketed (head : String) (mark : List Char) : String :=
  selector (String.ofList (head.toList ++ '[' :: mark)) (String.ofList (mark ++ [']']))

theorem bracketed_nil (head : String) : bracketed head [] = head ++ "[!\x7b sel \x7d]" := by
  rw [← String.toList_inj]
  simp [bracketed, selector]

theorem bracketed_mark (head : String) : bracketed head ['\''] = head ++ "['!\x7b sel \x7d']" := by
  rw [← String.toList_inj]
  simp [bracketed, selector]

section

variable (hhead : Chain.IsHead head) (plain : hasPlaceholders key = false)
  {mark : List Char} (hmark : mark = [] ∨ mark = ['\''])
include hhead plain hmark

/-- Evaluation reads the text with the key in place. -/
theorem evaluate_bracketed : evaluate (selecting config key artifact) (bracketed head mark) =
    applyChain (selecting config key artifact) (bracketed head mark)
        (String.ofList (head.toList ++ '[' :: (mark ++ key.toList ++ mark ++ [']']))) >>=
      settle (renderWithin (selecting config key artifact) 7) (bracketed head mark) maxRounds := by
  have hbrace : '\x7b' ∉ head.toList := hhead.notMem (by simp [Text.marks])
  have hfront : '\x7b' ∉ (String.ofList (head.toList ++ '[' :: mark)).toList := by
    rcases hmark with rfl | rfl <;> simp [hbrace]
  have hback : '\x7b' ∉ (String.ofList (mark ++ [']'])).toList := by
    rcases hmark with rfl | rfl <;> simp
  have apart : ∀ c ∈ (String.ofList (head.toList ++ '[' :: mark)).toList.getLast?, ¬ Opens c := by
    rcases hmark with rfl | rfl <;> simp [Opens]
  have hpasted :
      String.ofList (head.toList ++ '[' :: mark) ++ key ++ String.ofList (mark ++ [']']) =
      String.ofList (head.toList ++ '[' :: (mark ++ key.toList ++ mark ++ [']'])) := by
    rw [← String.toList_inj]
    simp
  change evaluateWithin _ (7 + 1) _ = _
  rw [evaluateWithin, bracketed, maxRounds,
    substitute_selector hfront hback apart plain (resolve_sel _), ok_bind]
  simp only [hpasted]
  rw [trimString_chain hhead]
  rfl

variable (hsel : head ≠ "sel") {fields : Mapping}
  (hmapping : Fields.get? head config.merged = some (.mapping fields))
include hsel hmapping

theorem evaluate_of_index (hkey : Fields.get? key fields = some v) (settled : v.Settled)
    {i : Index} (hi : i.key = key)
    (hindex : Chain.index (mark ++ key.toList ++ mark ++ [']']) = .ok (i, [])) :
    evaluate (selecting config key artifact) (bracketed head mark) = .ok v := by
  have hlookup := lookup?_selecting key artifact hhead hsel hmapping
  rw [evaluate_bracketed hhead plain hmark, applyChain_single hhead hlookup hindex,
    applyIndex_mapping.2 (hi ▸ hkey), ok_bind, settle_settled settled]

/-- Where the mapping holds nothing but the key, a value is found only if the key is read back. -/
theorem index_of_evaluate {w : Value} (hsole : fields = [(key, v)])
    (h : evaluate (selecting config key artifact) (bracketed head mark) = .ok w) :
    ∃ i rest, Chain.index (mark ++ key.toList ++ mark ++ [']']) = .ok (i, rest) ∧ i.key = key := by
  have hlookup := lookup?_selecting key artifact hhead hsel hmapping
  rw [evaluate_bracketed hhead plain hmark] at h
  obtain ⟨u, hchain, -⟩ := bind_eq_ok.1 h
  obtain ⟨i, rest, x, hindex, happly⟩ := exists_index_of_applyChain hhead hlookup hchain
  have hfound := Fields.mem_of_get?_eq_some (applyIndex_mapping.1 happly)
  rw [hsole, List.mem_singleton] at hfound
  exact ⟨i, rest, hindex, (Prod.mk.inj hfound).1⟩

end

variable {fields : Mapping} (hhead : Chain.IsHead head) (hsel : head ≠ "sel")
  (hmapping : Fields.get? head config.merged = some (.mapping fields))
  (plain : hasPlaceholders key = false)
include hhead hsel hmapping plain

/-- A key that is given as an argument is found in a mapping of the configuration: between quotation
marks if there are none in it, and without them if it ends at the bracket and neither starts with a
mark nor has blanks at its ends. -/
theorem evaluate_selected (hkey : Fields.get? key fields = some v) (settled : v.Settled) :
    ('\'' ∉ key.toList →
      evaluate ⟨config, [("sel", .string key)], artifact⟩ (head ++ "['!\x7b sel \x7d']") = .ok v) ∧
    (Chain.Bare key.toList →
      evaluate ⟨config, [("sel", .string key)], artifact⟩ (head ++ "[!\x7b sel \x7d]") = .ok v) := by
  rw [← bracketed_mark, ← bracketed_nil]
  constructor
  · intro hquote
    have hindex := Chain.quotedIndex_of_notMem hquote
    rw [← Chain.index_quoted] at hindex
    exact evaluate_of_index hhead plain (.inr rfl) hsel hmapping hkey settled
      (i := .quoted _) String.ofList_toList (by simpa using hindex)
  · intro bare
    have hindex := Chain.index_bare bare
    exact evaluate_of_index hhead plain (.inl rfl) hsel hmapping hkey settled
      (i := .bare _) String.ofList_toList (by simpa using hindex)

/-- No key that fails these conditions is found where it is the only one. -/
theorem conditions_of_evaluate {w : Value} (hsole : fields = [(key, v)]) :
    (evaluate ⟨config, [("sel", .string key)], artifact⟩ (head ++ "['!\x7b sel \x7d']") = .ok w →
      '\'' ∉ key.toList) ∧
    (evaluate ⟨config, [("sel", .string key)], artifact⟩ (head ++ "[!\x7b sel \x7d]") = .ok w →
      Chain.Bare key.toList) := by
  rw [← bracketed_mark, ← bracketed_nil]
  constructor
  · intro h
    obtain ⟨i, rest, hindex, hi⟩ := index_of_evaluate hhead plain (.inr rfl) hsel hmapping hsole h
    have hquoted : Chain.quotedIndex '\'' (key.toList ++ ['\'', ']']) = .ok (i, rest) := by
      rw [← Chain.index_quoted]
      simpa using hindex
    exact Chain.notMem_of_quotedIndex hquoted (by rw [hi, String.ofList_toList])
  · intro h
    obtain ⟨i, rest, hindex, hi⟩ := index_of_evaluate hhead plain (.inl rfl) hsel hmapping hsole h
    have hbare : Chain.index (key.toList ++ [']']) = .ok (i, rest) := by
      simpa using hindex
    exact Chain.bare_of_index hbare (by rw [hi, String.ofList_toList])

end Selecting

/-- A price list of a single entry. -/
def prices (item : String) : StaticConfig :=
  ⟨[("price", .mapping [(item, .int 4)])], []⟩

theorem isHead_price : Chain.IsHead "price" where
  ne_nil := by decide
  chars := List.all_eq_true.1 (by decide)
  dotless := by decide

theorem get?_prices (item : String) : Fields.get? "price" (prices item).merged =
    some (.mapping [(item, .int 4)]) := rfl

theorem evaluate_selected_tea :
    evaluate ⟨prices "green tea", [("sel", .string "green tea")], "x"⟩
        "price['!\x7b sel \x7d']" = .ok (.int 4) ∧
      evaluate ⟨prices "green tea", [("sel", .string "green tea")], "x"⟩
        "price[!\x7b sel \x7d]" = .ok (.int 4) := by
  have bare : Chain.Bare "green tea".toList :=
    ⟨by decide, by decide, by decide, by simp⟩
  have plain : hasPlaceholders "green tea" = false :=
    hasPlaceholders_eq_false_iff.2 (Piece.legible_chars (by decide))
  have settled : (Value.int 4).Settled := nofun
  obtain ⟨hquoted, hbare⟩ :=
    evaluate_selected isHead_price (by decide) (get?_prices "green tea") plain rfl settled
  exact ⟨hquoted (by decide), hbare bare⟩

theorem ne_ok_of_stringify {x : Except Fault Value} {v : Value}
    (h : x.toOption.map Value.stringify ≠ some v.stringify) : x ≠ .ok v := by
  rintro rfl
  exact h rfl

/-- Between quotation marks no key is found that holds one itself. Nor is a key that is read as a
placeholder, or one of a mapping whose name is that of the argument or looks like a path. -/
theorem not_evaluate_selected :
    (¬ ∀ (config : StaticConfig) (head : String) (fields : Mapping) (key : String) (v : Value)
      (artifact : String), Fields.get? head config.merged = some (.mapping fields) →
      Fields.get? key fields = some v → v.Settled → key ≠ "" →
      evaluate ⟨config, [("sel", .string key)], artifact⟩ (head ++ "['!\x7b sel \x7d']") = .ok v ∧
      evaluate ⟨config, [("sel", .string key)], artifact⟩ (head ++ "[!\x7b sel \x7d]") = .ok v) ∧
    evaluate ⟨⟨[("price", .mapping [("\x7b\x7btea\x7d\x7d", .int 4)]), ("tea", .int 5)], []⟩,
      [("sel", .string "\x7b\x7btea\x7d\x7d")], "x"⟩ "price['!\x7b sel \x7d']" ≠ .ok (.int 4) ∧
    evaluate ⟨⟨[("sel", .mapping [("tea", .int 4)])], []⟩, [("sel", .string "tea")], "x"⟩
      "sel['!\x7b sel \x7d']" ≠ .ok (.int 4) ∧
    evaluate ⟨⟨[("price.list", .mapping [("tea", .int 4)])], []⟩, [("sel", .string "tea")], "x"⟩
      "price.list['!\x7b sel \x7d']" ≠ .ok (.int 4) := by
  refine ⟨fun hall => ?_, ne_ok_of_stringify ?_, ne_ok_of_stringify ?_, ne_ok_of_stringify ?_⟩
  · obtain ⟨hfound, -⟩ :=
      hall (prices "it's") "price" _ "it's" (.int 4) "x" (get?_prices _) rfl nofun (by decide)
    have plain : hasPlaceholders "it's" = false :=
      hasPlaceholders_eq_false_iff.2 (Piece.legible_chars (by decide))
    obtain ⟨hquoted, -⟩ :=
      conditions_of_evaluate isHead_price (by decide) (get?_prices _) plain rfl
    exact hquoted hfound (by decide)
  all_goals decide +kernel

end Expression
end ArtifactFlow
