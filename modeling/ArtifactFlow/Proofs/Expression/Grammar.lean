import ArtifactFlow.Proofs.Expression.Chains

/-!
The grammar of index chains. The texts of a chain are described without a parser: a head, and behind
it one bracket for each index, with blanks wherever the grammar leaves room for them. The parser
returns a chain exactly on the texts of this chain, so that it can neither lose a key nor take one
for another.
-/

namespace ArtifactFlow

open Text (Blank)

namespace Index

/-- An index whose key can be written: some quotation mark is free to enclose it, or it needs
none. -/
def Printable : Index → Prop
  | .quoted key => '\'' ∉ key.toList ∨ '"' ∉ key.toList
  | .bare key => Chain.Bare key.toList

/-- The quotation mark for a key: the single one, unless the key holds it. -/
def markFor (key : String) : Char :=
  if '\'' ∈ key.toList then '"' else '\''

def print : Index → List Char
  | .quoted key => markFor key :: (key.toList ++ [markFor key])
  | .bare key => key.toList

variable {i : Index} {body : List Char}

theorem markFor_eq (key : String) : markFor key = '\'' ∨ markFor key = '"' := by
  unfold markFor
  split <;> simp

theorem Printable.writtenAs (h : i.Printable) : i.WrittenAs i.print := by
  cases i with
  | quoted key =>
      have hkey : markFor key ∉ key.toList := by
        unfold markFor
        split
        · rename_i hsingle
          exact h.resolve_left (not_not_intro hsingle)
        · assumption
      have hwritten := WrittenAs.quoted (markFor_eq key) hkey
      rwa [String.ofList_toList] at hwritten
  | bare key =>
      have hwritten := WrittenAs.bare h
      rwa [String.ofList_toList] at hwritten

theorem WrittenAs.printable (h : i.WrittenAs body) : i.Printable := by
  cases h with
  | quoted hmark hkey =>
      obtain rfl | rfl := hmark
      · exact .inl (by rwa [String.toList_ofList])
      · exact .inr (by rwa [String.toList_ofList])
  | bare hkey => rwa [Printable, String.toList_ofList]

end Index

namespace Chain

/-- The ways to write index operations: blanks may stand before, between and inside the
brackets. -/
inductive IndicesWrittenAs : List Index → List Char → Prop where
  | nil {s : List Char} (h : Blank s) : IndicesWrittenAs [] s
  | cons {i : Index} {is : List Index} {front left body right rest : List Char}
      (hfront : Blank front) (hleft : Blank left) (hbody : i.WrittenAs body) (hright : Blank right)
      (hrest : IndicesWrittenAs is rest) :
      IndicesWrittenAs (i :: is) (front ++ '[' :: (left ++ (body ++ (right ++ ']' :: rest))))

/-- The ways to write a chain. Blanks behind the head count as blanks before its first bracket. -/
def WrittenAs (chain : Chain) (s : List Char) : Prop :=
  ∃ left rest, Blank left ∧ IsDottedHead chain.head ∧ IndicesWrittenAs chain.indices rest ∧
    s = left ++ (chain.head.toList ++ rest)

/-- A chain that can be written at all. -/
structure Printable (chain : Chain) : Prop where
  head : IsDottedHead chain.head
  indices : ∀ i ∈ chain.indices, i.Printable

def printIndices (is : List Index) : List Char :=
  is.flatMap fun i => '[' :: (i.print ++ [']'])

/-- The text of a chain without any blanks around its parts. -/
def print (chain : Chain) : List Char :=
  chain.head.toList ++ printIndices chain.indices

section Reading

variable {left right body s rest : List Char} {mark : Char} {key : List Char} {i : Index}
  {is : List Index}

theorem operations_of_indicesWrittenAs (h : IndicesWrittenAs is s) : operations s = .ok is := by
  induction h with
  | nil h => exact operations_of_blank h
  | cons hfront hleft hbody hright hrest ih =>
      rename_i i is front left body right rest
      have htrim : Text.trimStart (front ++ '[' :: (left ++ (body ++ (right ++ ']' :: rest)))) =
          '[' :: (left ++ (body ++ (right ++ ']' :: rest))) := by
        rw [hfront.trimStart_append, Text.trimStart_cons (by decide)]
      rw [operations_of_trimStart htrim, index_of_writtenAs hbody hleft hright, ok_bind]
      simp only [ih]
      rfl

/-- Blanks may be put in front of index operations. -/
theorem IndicesWrittenAs.append (h : IndicesWrittenAs is s) (hleft : Blank left) :
    IndicesWrittenAs is (left ++ s) := by
  cases h with
  | nil h => exact .nil (hleft.append h)
  | cons hfront hinner hbody hright hrest =>
      rw [← List.append_assoc]
      exact .cons (hleft.append hfront) hinner hbody hright hrest

theorem indicesWrittenAs_of_operations (h : operations s = .ok is) : IndicesWrittenAs is s := by
  fun_induction operations s generalizing is with
  | case1 s htrim =>
      obtain rfl := Except.ok.inj h
      exact .nil (Text.trimStart_eq_nil_iff.1 htrim)
  | case2 | case3 | case5 => cases h
  | case4 s inner htrim i rest hindex more hmore ih =>
      obtain rfl := Except.ok.inj h
      obtain ⟨front, hfront, hs⟩ := Text.exists_blank_trimStart s
      obtain ⟨left, body, right, hleft, hbody, hright, rfl⟩ := index_eq_ok hindex
      rw [hs, htrim]
      exact .cons hfront hleft hbody hright (ih hmore)

/-- Index operations are blanks alone up to their first bracket. -/
theorem IndicesWrittenAs.exists_blank_front (h : IndicesWrittenAs is s) :
    ∃ front tail, Blank front ∧ IndicesWrittenAs is tail ∧ (∀ c ∈ tail.head?, c = '[') ∧
      s = front ++ tail := by
  cases h with
  | nil h => exact ⟨s, [], h, .nil Text.blank_nil, nofun, (List.append_nil s).symm⟩
  | cons hfront hleft hbody hright hrest =>
      exact ⟨_, _, hfront, .cons Text.blank_nil hleft hbody hright hrest,
        fun c hc => (Option.some.inj hc).symm, rfl⟩

/-- The parser returns a chain on every way to write it. -/
theorem WrittenAs.parse {chain : Chain} (h : chain.WrittenAs s) : parse s = .ok chain := by
  obtain ⟨left, rest, hleft, hhead, his, rfl⟩ := h
  obtain ⟨front, tail, hfront, hoperations, htail, rfl⟩ := his.exists_blank_front
  rw [hhead.parse_append hleft hfront htail, operations_of_indicesWrittenAs hoperations]
  rfl

/-- The parser returns a chain on nothing else than the ways to write it. -/
theorem writtenAs_of_parse {chain : Chain} (h : parse s = .ok chain) : chain.WrittenAs s := by
  rw [parse, cutHead] at h
  dsimp only at h
  split at h
  · cases h
  · rename_i hhead
    rw [Bool.not_eq_true, Bool.or_eq_false_iff, List.isEmpty_eq_false_iff, Bool.not_eq_false',
      List.all_eq_true] at hhead
    split at h
    · cases h
    · rename_i is hoperations
      obtain rfl := Except.ok.inj h
      obtain ⟨left, right, hleft, hright, hfront⟩ :=
        Text.exists_blank_trim (s.takeWhile (· != '['))
      refine ⟨left, right ++ s.dropWhile (· != '['), hleft, ⟨?_, ?_⟩,
        (indicesWrittenAs_of_operations hoperations).append hright, ?_⟩
      · simpa using hhead.1
      · simpa using hhead.2
      · rw [String.toList_ofList]
        calc s = s.takeWhile (· != '[') ++ s.dropWhile (· != '[') :=
              List.takeWhile_append_dropWhile.symm
          _ = (left ++ Text.trim (s.takeWhile (· != '[')) ++ right) ++ s.dropWhile (· != '[') := by
              rw [← hfront]
          _ = _ := by simp

/-- The parser accepts exactly the ways to write a chain, and returns this chain. -/
theorem parse_eq_ok_iff {chain : Chain} : parse s = .ok chain ↔ chain.WrittenAs s :=
  ⟨writtenAs_of_parse, WrittenAs.parse⟩

end Reading

section Printing

variable {chain : Chain} {is : List Index} {s : List Char}

theorem IndicesWrittenAs.printable (h : IndicesWrittenAs is s) : ∀ i ∈ is, i.Printable := by
  induction h with
  | nil h => exact nofun
  | cons hfront hleft hbody hright hrest ih => exact List.forall_mem_cons.2 ⟨hbody.printable, ih⟩

theorem indicesWrittenAs_printIndices (h : ∀ i ∈ is, i.Printable) :
    IndicesWrittenAs is (printIndices is) := by
  induction is with
  | nil => exact .nil Text.blank_nil
  | cons i is ih =>
      obtain ⟨hi, his⟩ := List.forall_mem_cons.1 h
      have hwritten := IndicesWrittenAs.cons Text.blank_nil Text.blank_nil hi.writtenAs
        Text.blank_nil (ih his)
      simpa [printIndices] using hwritten

theorem WrittenAs.printable (h : chain.WrittenAs s) : chain.Printable := by
  obtain ⟨left, rest, -, hhead, his, -⟩ := h
  exact ⟨hhead, his.printable⟩

theorem Printable.writtenAs (h : chain.Printable) : chain.WrittenAs chain.print :=
  ⟨[], _, Text.blank_nil, h.head, indicesWrittenAs_printIndices h.indices, rfl⟩

/-- The texts that are read as a chain are the ways to write it. Printing is one of them, for every
chain that can be written at all. -/
theorem parse_written (s : List Char) (chain : Chain) :
    (parse s = .ok chain ↔ chain.WrittenAs s) ∧
      (parse chain.print = .ok chain ↔ chain.Printable) :=
  ⟨parse_eq_ok_iff, fun h => (writtenAs_of_parse h).printable, fun h => h.writtenAs.parse⟩

/-- Between quotation marks a closing bracket is part of the key. -/
example : (parse " table [ 'a]b' ] [ 0 ] ".toList).toOption =
    some ⟨"table", [.quoted "a]b", .bare "0"]⟩ := by
  decide +kernel

end Printing

end Chain
end ArtifactFlow
