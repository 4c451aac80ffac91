import ArtifactFlow.Proofs.Except
import ArtifactFlow.Proofs.Text.Blank
import ArtifactFlow.Proofs.Text.Name
import Mathlib.Data.List.TakeWhile

/-!
Heads and keys of index chains. A chain is read up to its first bracket as a head, and from there
bracket by bracket. A key between brackets stands in quotation marks or without; it is read back
unless it holds the character that it is expected to end at, or looks like something else at its
front or its ends.
-/

namespace ArtifactFlow

open Text (Blank)

theorem Text.not_isBlank_of_isHeadChar {c : Char} (h : Chain.isHeadChar c) : ¬ isBlank c := by
  obtain h | rfl | rfl := isHeadChar_iff.1 h
  · exact not_isBlank_of_isNameChar h
  · decide
  · decide

namespace Chain

/-- A text that a chain can start with, paths among them. -/
structure IsDottedHead (s : String) : Prop where
  ne_nil : s.toList ≠ []
  chars : ∀ c ∈ s.toList, isHeadChar c

/-- A text that a chain can start with. Dots are left out, since they make it a path. -/
structure IsHead (s : String) : Prop where
  ne_nil : s.toList ≠ []
  chars : ∀ c ∈ s.toList, isHeadChar c
  dotless : '.' ∉ s.toList

/-- A key that can be written without quotation marks. -/
structure Bare (key : List Char) : Prop where
  ne_nil : key ≠ []
  trimmed : Text.trim key = key
  closed : ']' ∉ key
  unmarked : ∀ mark ∈ key.head?, mark ≠ '\'' ∧ mark ≠ '"'

end Chain

namespace Index

def key : Index → String
  | .quoted key => key
  | .bare key => key

/-- The ways to write an index between its brackets, blanks apart. -/
inductive WrittenAs : Index → List Char → Prop where
  | quoted {mark : Char} {key : List Char} (hmark : mark = '\'' ∨ mark = '"') (hkey : mark ∉ key) :
      WrittenAs (.quoted (String.ofList key)) (mark :: (key ++ [mark]))
  | bare {key : List Char} (hkey : Chain.Bare key) : WrittenAs (.bare (String.ofList key)) key

end Index

namespace Chain

section Head

variable {head : String} {left front tail : List Char}

theorem IsDottedHead.notMem {head : String} (h : IsDottedHead head) : '[' ∉ head.toList := by
  intro hmem
  obtain hname | hdot | hdash := Text.isHeadChar_iff.1 (h.chars _ hmem)
  · exact Text.not_isNameChar_of_mem_marks (by decide) hname
  · exact absurd hdot (by decide)
  · exact absurd hdash (by decide)

theorem IsDottedHead.trim_eq {head : String} (h : IsDottedHead head) :
    Text.trim head.toList = head.toList :=
  Text.trim_of_not_isBlank fun c hc => Text.not_isBlank_of_isHeadChar (h.chars c hc)

/-- The front of a text, if no bracket stands in it and one follows at once or nothing does. -/
theorem cutHead_append {front tail : List Char} (hfront : '[' ∉ front)
    (htail : ∀ c ∈ tail.head?, c = '[') : cutHead (front ++ tail) = (front, tail) := by
  have hall : ∀ c ∈ front, (c != '[') = true := by
    rintro c hc
    rw [bne_iff_ne]
    rintro rfl
    exact hfront hc
  rw [cutHead, List.takeWhile_append_of_pos hall, List.dropWhile_append_of_pos hall]
  cases tail with
  | nil => simp
  | cons c cs =>
      obtain rfl := htail c rfl
      simp

/-- The head of a chain ends at the first bracket, and blanks around it do not count. -/
theorem IsDottedHead.parse_append (h : IsDottedHead head) (hleft : Blank left)
    (hfront : Blank front) (htail : ∀ c ∈ tail.head?, c = '[') :
    parse (left ++ (head.toList ++ (front ++ tail))) =
      (operations tail).map fun is => ⟨head, is⟩ := by
  have hbracket : ¬ Text.isBlank '[' := by decide
  have hcut : cutHead (left ++ (head.toList ++ (front ++ tail))) =
      (left ++ head.toList ++ front, tail) := by
    rw [← cutHead_append _ htail]
    · simp
    · simp [hleft.notMem hbracket, hfront.notMem hbracket, h.notMem]
  have htrim := Text.trim_of_surrounded h.trim_eq hleft hfront
  have hne : head.toList.isEmpty = false := List.isEmpty_eq_false_iff.2 h.ne_nil
  have hall : head.toList.all isHeadChar = true := List.all_eq_true.2 h.chars
  simp only [parse, hcut, htrim, hne, hall, String.ofList_toList, Bool.not_true, Bool.or_self,
    Bool.false_eq_true, if_false]
  cases operations tail <;> rfl

namespace IsHead

variable (h : IsHead head)
include h

theorem dotted : IsDottedHead head :=
  ⟨h.ne_nil, h.chars⟩

theorem notMem {c : Char} (hc : c ∈ Text.marks) : c ∉ head.toList := by
  intro hmem
  obtain hname | rfl | rfl := Text.isHeadChar_iff.1 (h.chars c hmem)
  · exact Text.not_isNameChar_of_mem_marks hc hname
  · exact h.dotless hmem
  · exact absurd hc (by decide)

theorem parse_append (inner : List Char) : parse (head.toList ++ '[' :: inner) =
    (operations ('[' :: inner)).map fun is => ⟨head, is⟩ := by
  have htail : ∀ c ∈ ('[' :: inner).head?, c = '[' := fun _ hc => (Option.some.inj hc).symm
  have hparse := h.dotted.parse_append Text.blank_nil Text.blank_nil htail
  simpa only [List.nil_append] using hparse

end IsHead

end Head

section Operations

variable {s : List Char}

theorem operations_of_blank (h : Blank s) : operations s = .ok [] := by
  rw [operations]
  split
  · rfl
  · rename_i htrim
    rw [Text.trimStart_eq_nil_iff.2 h] at htrim
    cases htrim
  · rename_i hne _
    exact absurd (Text.trimStart_eq_nil_iff.2 h) hne

theorem operations_nil : operations [] = .ok [] :=
  operations_of_blank Text.blank_nil

/-- Index operations begin with the first bracket behind their blanks. -/
theorem operations_of_trimStart {inner : List Char} (htrim : Text.trimStart s = '[' :: inner) :
    operations s = do
      let (i, rest) ← index inner
      return i :: (← operations rest) := by
  rw [operations]
  split
  · rename_i heq
    rw [htrim] at heq
    cases heq
  · rename_i found heq
    rw [htrim] at heq
    obtain ⟨-, rfl⟩ := List.cons_eq_cons.1 heq
    split
    · rename_i e hindex
      rw [hindex]
      rfl
    · rename_i i rest hindex
      rw [hindex, ok_bind]
      dsimp only
      cases operations rest <;> rfl
  · rename_i hne
    exact absurd htrim (hne inner)

theorem operations_bracket (inner : List Char) : operations ('[' :: inner) = do
    let (i, rest) ← index inner
    return i :: (← operations rest) :=
  operations_of_trimStart (Text.trimStart_cons (by decide) inner)

end Operations

section Reading

variable {left right body s rest : List Char} {mark : Char} {key : List Char} {i : Index}

theorem index_append (h : Blank left) (s : List Char) : index (left ++ s) = index s := by
  rw [index, index, h.trimStart_append]

/-- A key in quotation marks ends at the first mark of its own, whatever it holds besides. -/
theorem quotedIndex_append (hkey : mark ∉ key) (hright : Blank right) (rest : List Char) :
    quotedIndex mark (key ++ mark :: (right ++ ']' :: rest)) =
      .ok (.quoted (String.ofList key), rest) := by
  have hclose : Text.trimStart (right ++ ']' :: rest) = ']' :: rest := by
    rw [hright.trimStart_append, Text.trimStart_cons (by decide)]
  simp only [quotedIndex, Text.cutAt?_of_notMem hkey, hclose]

theorem not_isBlank_of_bare {c : Char} {cs : List Char} (h : Bare (c :: cs)) :
    ¬ Text.isBlank c := by
  intro hc
  have hsame := Text.trimStart_of_trim h.trimmed
  have hlength := length_trimStart_le cs
  rw [Text.trimStart, List.dropWhile_cons_of_pos hc, ← Text.trimStart] at hsame
  rw [hsame, List.length_cons] at hlength
  omega

theorem index_of_unmarked {c : Char} (hblank : ¬ Text.isBlank c) (hsingle : c ≠ '\'')
    (hdouble : c ≠ '"') (cs : List Char) : index (c :: cs) = bareIndex (c :: cs) := by
  rw [index, Text.trimStart_cons hblank]
  split
  · rename_i heq
    exact absurd (List.cons_eq_cons.1 heq).1 hsingle
  · rename_i heq
    exact absurd (List.cons_eq_cons.1 heq).1 hdouble
  · rfl

theorem bareIndex_append (hkey : Bare key) (hright : Blank right) (rest : List Char) :
    bareIndex (key ++ (right ++ ']' :: rest)) = .ok (.bare (String.ofList key), rest) := by
  have hclosed : ']' ∉ key ++ right :=
    mt List.mem_append.1 (not_or.2 ⟨hkey.closed, hright.notMem (by decide)⟩)
  have htrim := Text.trim_of_surrounded hkey.trimmed Text.blank_nil hright
  have hne : key.isEmpty = false := List.isEmpty_eq_false_iff.2 hkey.ne_nil
  rw [List.nil_append] at htrim
  rw [← List.append_assoc]
  simp only [bareIndex, Text.cutAt?_of_notMem hclosed, htrim, hne, Bool.false_eq_true, if_false]

/-- However an index is written, it is read as this index, up to its closing bracket. -/
theorem index_of_writtenAs (h : i.WrittenAs body) (hleft : Blank left) (hright : Blank right)
    (rest : List Char) : index (left ++ (body ++ (right ++ ']' :: rest))) = .ok (i, rest) := by
  rw [index_append hleft]
  cases h with
  | quoted hmark hkey =>
      rename_i mark key
      have hread := quotedIndex_append hkey hright rest
      have hbody : (mark :: (key ++ [mark])) ++ (right ++ ']' :: rest) =
          mark :: (key ++ mark :: (right ++ ']' :: rest)) := by
        simp
      rw [hbody, index]
      obtain rfl | rfl := hmark
      · rwa [Text.trimStart_cons (by decide)]
      · rwa [Text.trimStart_cons (by decide)]
  | bare hkey =>
      obtain ⟨c, cs, rfl⟩ := List.exists_cons_of_ne_nil hkey.ne_nil
      obtain ⟨hsingle, hdouble⟩ := hkey.unmarked c rfl
      have hread := bareIndex_append hkey hright rest
      rw [List.cons_append] at hread ⊢
      rwa [index_of_unmarked (not_isBlank_of_bare hkey) hsingle hdouble]

theorem quotedIndex_eq_ok (h : quotedIndex mark s = .ok (i, rest)) :
    ∃ key right, mark ∉ key ∧ Blank right ∧ i = .quoted (String.ofList key) ∧
      s = key ++ mark :: (right ++ ']' :: rest) := by
  simp only [quotedIndex] at h
  split at h
  · cases h
  · rename_i key after hcut
    split at h
    · rename_i tail htail
      obtain ⟨rfl, rfl⟩ := Prod.mk.inj (Except.ok.inj h)
      obtain ⟨right, hright, hafter⟩ := Text.exists_blank_trimStart after
      refine ⟨key, right, Text.notMem_of_cutAt? hcut, hright, rfl, ?_⟩
      rw [Text.cutAt?_eq_some hcut, ← htail, ← hafter, List.append_assoc, List.singleton_append]
    · cases h

theorem cutAt?_of_bareIndex {s rest : List Char} {i : Index} (h : bareIndex s = .ok (i, rest)) :
    ∃ found, Text.cutAt? [']'] s = some (found, rest) ∧ Text.trim found ≠ [] ∧
      i = .bare (String.ofList (Text.trim found)) := by
  simp only [bareIndex] at h
  split at h
  · cases h
  · rename_i found after hcut
    split at h
    · cases h
    · rename_i hne
      obtain ⟨hi, rfl⟩ := Prod.mk.inj (Except.ok.inj h)
      exact ⟨found, hcut, by simpa using hne, hi.symm⟩

/-- A key without quotation marks, as it stands in front of its bracket. -/
theorem bare_trim {found : List Char} (hne : Text.trim found ≠ []) (hclosed : ']' ∉ found)
    (hfront : ∀ c cs, found = c :: cs → ¬ Text.isBlank c ∧ c ≠ '\'' ∧ c ≠ '"') :
    Bare (Text.trim found) := by
  obtain ⟨inner, right, -, -, hfound⟩ := Text.exists_blank_trim found
  refine ⟨hne, Text.trim_trim found, fun hmem => hclosed ?_, fun mark hmark => ?_⟩
  · rw [hfound]
    exact List.mem_append_left right (List.mem_append_right inner hmem)
  · obtain ⟨cs, hkey⟩ := List.head?_eq_some_iff.1 hmark
    cases found with
    | nil => exact absurd rfl hne
    | cons c ds =>
        obtain ⟨hblank, hunmarked⟩ := hfront c ds rfl
        obtain ⟨right, -, hend⟩ := Text.exists_blank_trimEnd (c :: ds)
        rw [Text.trim, Text.trimStart_cons hblank] at hkey
        rw [hkey, List.cons_append] at hend
        rwa [(List.cons_eq_cons.1 hend).1] at hunmarked

/-- What is read as an index is one of the ways to write it, between blanks, up to a bracket. -/
theorem index_eq_ok (h : index s = .ok (i, rest)) : ∃ left body right, Blank left ∧
    i.WrittenAs body ∧ Blank right ∧ s = left ++ (body ++ (right ++ ']' :: rest)) := by
  obtain ⟨left, hleft, hs⟩ := Text.exists_blank_trimStart s
  have hmarked {mark : Char} {tail : List Char} (hmark : mark = '\'' ∨ mark = '"')
      (htrim : Text.trimStart s = mark :: tail) (hread : quotedIndex mark tail = .ok (i, rest)) :
      ∃ left body right, Blank left ∧ i.WrittenAs body ∧ Blank right ∧
        s = left ++ (body ++ (right ++ ']' :: rest)) := by
    obtain ⟨key, right, hkey, hright, rfl, rfl⟩ := quotedIndex_eq_ok hread
    refine ⟨left, _, right, hleft, .quoted hmark hkey, hright, ?_⟩
    rw [hs, htrim]
    simp
  rw [index] at h
  split at h
  · rename_i tail htrim
    exact hmarked (.inl rfl) htrim h
  · rename_i tail htrim
    exact hmarked (.inr rfl) htrim h
  · rename_i hsingle hdouble
    obtain ⟨found, hcut, hne, rfl⟩ := cutAt?_of_bareIndex h
    have hparts : Text.trimStart s = found ++ ']' :: rest := by
      rw [Text.cutAt?_eq_some hcut, List.append_assoc, List.singleton_append]
    have hbare : Bare (Text.trim found) := by
      refine bare_trim hne (Text.notMem_of_cutAt? hcut) fun c cs hfound => ?_
      rw [hparts, hfound] at hsingle hdouble
      rw [hfound] at hparts
      refine ⟨Text.not_isBlank_of_trimStart hparts, ?_, ?_⟩
      · rintro rfl
        exact hsingle _ rfl
      · rintro rfl
        exact hdouble _ rfl
    obtain ⟨inner, right, hinner, hright, hfound⟩ := Text.exists_blank_trim found
    refine ⟨left ++ inner, Text.trim found, right, hleft.append hinner, .bare hbare, hright, ?_⟩
    calc s = left ++ (found ++ ']' :: rest) := by rw [← hparts, ← hs]
      _ = left ++ ((inner ++ Text.trim found ++ right) ++ ']' :: rest) := by rw [← hfound]
      _ = (left ++ inner) ++ (Text.trim found ++ (right ++ ']' :: rest)) := by simp

end Reading

/-! A key on its own, without blanks around it. -/

section Key

variable {key rest : List Char} {i : Index}

theorem quotedIndex_of_notMem (h : '\'' ∉ key) :
    quotedIndex '\'' (key ++ ['\'', ']']) = .ok (.quoted (String.ofList key), []) :=
  quotedIndex_append h Text.blank_nil []

theorem index_quoted (key : List Char) :
    index ('\'' :: (key ++ ['\'', ']'])) = quotedIndex '\'' (key ++ ['\'', ']']) := by
  rw [index, Text.trimStart_cons (by decide)]
  rfl

theorem index_bare (h : Bare key) : index (key ++ [']']) = .ok (.bare (String.ofList key), []) :=
  index_of_writtenAs (.bare h) Text.blank_nil Text.blank_nil []

/-- A quoted key that is read back holds no quotation mark. -/
theorem notMem_of_quotedIndex (h : quotedIndex '\'' (key ++ ['\'', ']']) = .ok (i, rest))
    (hkey : i.key = String.ofList key) : '\'' ∉ key := by
  obtain ⟨found, right, hnot, -, rfl, -⟩ := quotedIndex_eq_ok h
  obtain rfl : found = key := String.ofList_injective hkey
  exact hnot

/-- A key that is read back without quotation marks can be written without them. -/
theorem bare_of_index (h : index (key ++ [']']) = .ok (i, rest))
    (hkey : i.key = String.ofList key) : Bare key := by
  obtain ⟨left, body, right, -, hbody, -, hparts⟩ := index_eq_ok h
  cases hbody with
  | quoted hmark hnot =>
      -- There is no room for quotation marks beside the key.
      obtain rfl := String.ofList_injective hkey
      have hlength := congrArg List.length hparts
      simp only [List.length_append, List.length_cons, List.length_nil] at hlength
      omega
  | bare hbare =>
      obtain rfl := String.ofList_injective hkey
      exact hbare

end Key

end Chain
end ArtifactFlow
