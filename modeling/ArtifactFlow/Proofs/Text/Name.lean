import ArtifactFlow.Expression.Chain

/-!
Names of letters, digits and underscores. Neither a blank nor a mark of a path, an index chain or a
placeholder stands in them, so that every reader takes such a name as it is.
-/

namespace ArtifactFlow.Text

/-- A letter, a digit or an underscore. -/
def isNameChar (c : Char) : Bool :=
  c == '_' || isAlphanumeric c

/-- A text of letters, digits and underscores, of one character at least. -/
def IsName (s : String) : Prop :=
  s.toList ≠ [] ∧ ∀ c ∈ s.toList, isNameChar c

instance (s : String) : Decidable (IsName s) :=
  decidable_of_iff (s.toList ≠ [] ∧ s.toList.all isNameChar) (by rw [IsName, List.all_eq_true])

/-- Ranges of code points that are blank. -/
def blankRanges : List (Nat × Nat) :=
  [(9, 13), (0x20, 0x20), (0x85, 0x85), (0xA0, 0xA0), (0x1680, 0x1680), (0x2000, 0x200A),
    (0x2028, 0x2029), (0x202F, 0x202F), (0x205F, 0x205F), (0x3000, 0x3000)]

theorem isBlank_iff {c : Char} :
    isBlank c ↔ ∃ range ∈ blankRanges, range.1 ≤ c.toNat ∧ c.toNat ≤ range.2 := by
  simp only [isBlank, blankRanges, Bool.or_eq_true, Bool.and_eq_true, decide_eq_true_eq,
    beq_iff_eq, List.mem_cons, List.not_mem_nil, or_false, exists_eq_or_imp, exists_eq_left]
  omega

theorem isAlphanumeric_iff {c : Char} : isAlphanumeric c ↔
    ∃ range ∈ alphanumericRanges, range.1 ≤ c.toNat ∧ c.toNat ≤ range.2 := by
  simp [isAlphanumeric]

theorem blankRanges_apart : ∀ blank ∈ blankRanges, ∀ range ∈ alphanumericRanges,
    blank.2 < range.1 ∨ range.2 < blank.1 := by
  have hall : blankRanges.all (fun blank => alphanumericRanges.all fun range =>
      Nat.blt blank.2 range.1 || Nat.blt range.2 blank.1) = true := by
    decide +kernel
  intro blank hblank range hrange
  simpa using List.all_eq_true.1 (List.all_eq_true.1 hall blank hblank) range hrange

theorem not_isBlank_of_isNameChar {c : Char} (h : isNameChar c) : ¬ isBlank c := by
  rw [isNameChar, Bool.or_eq_true, isAlphanumeric_iff, beq_iff_eq] at h
  intro hblank
  cases h with
  | inl h => exact absurd (h ▸ hblank) (by decide)
  | inr h =>
      obtain ⟨range, hrange, hlo, hhi⟩ := h
      obtain ⟨blank, hmem, hlo', hhi'⟩ := isBlank_iff.1 hblank
      have := blankRanges_apart blank hmem range hrange
      omega

theorem isHeadChar_iff {c : Char} : Chain.isHeadChar c ↔ isNameChar c ∨ c = '.' ∨ c = '-' := by
  simp only [Chain.isHeadChar, isNameChar, Bool.or_eq_true, beq_iff_eq]
  grind

/-- The marks by which paths, index chains and placeholders are read. -/
def marks : List Char :=
  ['.', '[', '\x7b']

theorem not_isNameChar_of_mem_marks {c : Char} (hc : c ∈ marks) : ¬ isNameChar c := by
  have hall : marks.all (fun mark => !isNameChar mark) = true := by decide +kernel
  simpa using List.all_eq_true.1 hall c hc

variable {s : String} (h : IsName s)
include h

theorem IsName.notMem {c : Char} (hc : c ∈ marks) : c ∉ s.toList :=
  fun hmem => not_isNameChar_of_mem_marks hc (h.2 c hmem)

theorem IsName.not_isBlank : ∀ c ∈ s.toList, ¬ isBlank c :=
  fun c hc => not_isBlank_of_isNameChar (h.2 c hc)

omit h in
theorem trim_of_not_isBlank {cs : List Char} (h : ∀ c ∈ cs, ¬ isBlank c) : trim cs = cs := by
  have hdrop (ds : List Char) (hds : ∀ c ∈ ds, ¬ isBlank c) : ds.dropWhile isBlank = ds := by
    cases ds with
    | nil => rfl
    | cons d ds => rw [List.dropWhile_cons_of_neg (hds d List.mem_cons_self)]
  have hreverse : ∀ c ∈ cs.reverse, ¬ isBlank c := fun c hc => h c (List.mem_reverse.1 hc)
  rw [trim, trimStart, hdrop cs h, trimEnd, hdrop cs.reverse hreverse, List.reverse_reverse]

theorem IsName.trim_eq : trim s.toList = s.toList :=
  trim_of_not_isBlank h.not_isBlank

end ArtifactFlow.Text
