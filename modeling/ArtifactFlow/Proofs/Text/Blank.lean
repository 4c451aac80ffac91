import ArtifactFlow.Proofs.Text.Split
import Mathlib.Data.List.TakeWhile

/-!
Blanks at the ends of a text. Trimming takes them off and nothing else, so that a text without blanks
at its ends comes back from any number of them.
-/

namespace ArtifactFlow.Text

/-- Blanks alone, or nothing at all. -/
def Blank (s : List Char) : Prop :=
  ∀ c ∈ s, isBlank c

variable {left right s : List Char}

theorem blank_nil : Blank [] :=
  nofun

theorem Blank.append (hleft : Blank left) (hright : Blank right) : Blank (left ++ right) :=
  fun c hc => (List.mem_append.1 hc).elim (hleft c) (hright c)

theorem Blank.notMem (h : Blank s) {c : Char} (hc : ¬ isBlank c) : c ∉ s :=
  fun hmem => hc (h c hmem)

theorem Blank.trimStart_append (h : Blank left) (s : List Char) :
    trimStart (left ++ s) = trimStart s :=
  List.dropWhile_append_of_pos h

theorem Blank.trimEnd_append (h : Blank right) (s : List Char) :
    trimEnd (s ++ right) = trimEnd s := by
  rw [trimEnd, trimEnd, List.reverse_append,
    List.dropWhile_append_of_pos fun c hc => h c (List.mem_reverse.1 hc)]

theorem exists_blank_trimStart (s : List Char) : ∃ left, Blank left ∧ s = left ++ trimStart s :=
  ⟨s.takeWhile isBlank, fun _ hc => List.mem_takeWhile_imp hc,
    (List.takeWhile_append_dropWhile).symm⟩

theorem exists_blank_trimEnd (s : List Char) : ∃ right, Blank right ∧ s = trimEnd s ++ right := by
  obtain ⟨left, hleft, hs⟩ := exists_blank_trimStart s.reverse
  refine ⟨left.reverse, fun c hc => hleft c (List.mem_reverse.1 hc), ?_⟩
  rw [trimEnd, ← List.reverse_append]
  exact List.reverse_eq_iff.1 hs

/-- Trimming takes blanks off both ends. -/
theorem exists_blank_trim (s : List Char) :
    ∃ left right, Blank left ∧ Blank right ∧ s = left ++ trim s ++ right := by
  obtain ⟨left, hleft, hs⟩ := exists_blank_trimStart s
  obtain ⟨right, hright, hrest⟩ := exists_blank_trimEnd (trimStart s)
  refine ⟨left, right, hleft, hright, ?_⟩
  rw [trim, List.append_assoc, ← hrest]
  exact hs

theorem not_isBlank_of_trimStart {c : Char} {cs : List Char} (h : trimStart s = c :: cs) :
    ¬ isBlank c := by
  have hhead := List.head?_dropWhile_not isBlank s
  rw [← trimStart, h] at hhead
  simpa using hhead

theorem trimStart_eq_nil_iff : trimStart s = [] ↔ Blank s :=
  List.dropWhile_eq_nil_iff

/-- Blanks at the ends make no difference to trimming. -/
theorem trim_append_of_blank (hleft : Blank left) (hright : Blank right) (s : List Char) :
    trim (left ++ s ++ right) = trim s := by
  rw [trim, trim, List.append_assoc, hleft.trimStart_append]
  by_cases hs : Blank s
  · rw [trimStart_eq_nil_iff.2 hs, trimStart_eq_nil_iff.2 (hs.append hright)]
  · have hne : (trimStart s).isEmpty = false :=
      List.isEmpty_eq_false_iff.2 (mt trimStart_eq_nil_iff.1 hs)
    have happend : trimStart (s ++ right) = trimStart s ++ right := by
      rw [trimStart, List.dropWhile_append, ← trimStart, hne]
      rfl
    rw [happend, hright.trimEnd_append]

/-- What trimming leaves as it is comes back from between blanks. -/
theorem trim_of_surrounded (h : trim s = s) (hleft : Blank left) (hright : Blank right) :
    trim (left ++ s ++ right) = s := by
  rw [trim_append_of_blank hleft hright, h]

theorem trim_trim (s : List Char) : trim (trim s) = trim s := by
  obtain ⟨left, right, hleft, hright, hs⟩ := exists_blank_trim s
  rw [← trim_append_of_blank hleft hright (trim s), ← hs]

end ArtifactFlow.Text
