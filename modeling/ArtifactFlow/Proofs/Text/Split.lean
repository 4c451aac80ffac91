import ArtifactFlow.Text.Blank
import ArtifactFlow.Text.Split
import Mathlib.Data.List.Infix

/-!
Cuts at the first occurrence of a mark, and trimming. Where a cut is made does not depend on what
follows the mark, and there is none exactly if the mark is nowhere.
-/

namespace ArtifactFlow.Text

theorem isPrefixOf?_eq_some_iff {p s rest : List Char} :
    p.isPrefixOf? s = some rest ↔ s = p ++ rest := by
  refine ⟨isPrefixOf?_eq_some, ?_⟩
  rintro rfl
  induction p with
  | nil => rfl
  | cons a p ih =>
      rw [List.cons_append, isPrefixOf?_cons_cons, if_pos (beq_self_eq_true a), ih]

theorem isPrefixOf?_eq_none_iff {p s : List Char} : p.isPrefixOf? s = none ↔ ¬ p <+: s := by
  rw [Option.eq_none_iff_forall_ne_some]
  constructor
  · intro h ⟨rest, hrest⟩
    exact h rest (isPrefixOf?_eq_some_iff.2 hrest.symm)
  · intro h rest hs
    exact h ⟨rest, (isPrefixOf?_eq_some hs).symm⟩

theorem cutAt?_self (mark x : List Char) : cutAt? mark (mark ++ x) = some ([], x) := by
  have hp : mark.isPrefixOf? (mark ++ x) = some x := isPrefixOf?_eq_some_iff.2 rfl
  cases hs : mark ++ x with
  | nil =>
      obtain ⟨rfl, rfl⟩ := List.append_eq_nil_iff.1 hs
      rfl
  | cons c cs =>
      rw [hs] at hp
      rw [cutAt?, hp]

theorem cutAt?_eq_none_iff {mark s : List Char} : cutAt? mark s = none ↔ ¬ mark <:+: s := by
  induction s with
  | nil => simp [cutAt?]
  | cons c cs ih =>
      rw [cutAt?, List.infix_cons_iff, not_or, ← ih, ← isPrefixOf?_eq_none_iff]
      cases mark.isPrefixOf? (c :: cs) <;> simp

/-- The mark behind the text is the first one. -/
def UpTo (mark before : List Char) : Prop :=
  ∀ front, front ++ mark <+: before ++ mark → front = before

theorem upTo_nil (mark : List Char) : UpTo mark [] := by
  intro front hfront
  have hlength := hfront.length_le
  rw [List.length_append, List.nil_append] at hlength
  exact List.eq_nil_of_length_eq_zero (by omega)

theorem upTo_cons {mark before : List Char} {c : Char} :
    UpTo mark (c :: before) ↔ ¬ mark <+: c :: (before ++ mark) ∧ UpTo mark before := by
  constructor
  · intro h
    refine ⟨fun hmark => absurd (h [] hmark) (by simp), fun front hfront => ?_⟩
    exact (List.cons.inj (h (c :: front) ((List.prefix_cons_inj c).2 hfront))).2
  · rintro ⟨hmark, hrest⟩ front hfront
    cases front with
    | nil => exact absurd hfront hmark
    | cons d front =>
        obtain ⟨rfl, htail⟩ := List.cons_prefix_cons.1 hfront
        rw [hrest front htail]

theorem upTo_of_cutAt? {mark s before after : List Char}
    (h : cutAt? mark s = some (before, after)) : UpTo mark before := by
  induction s generalizing before with
  | nil =>
      rw [cutAt?] at h
      split at h
      · obtain ⟨rfl, -⟩ := Prod.mk.inj (Option.some.inj h)
        exact upTo_nil mark
      · exact absurd h (by simp)
  | cons c cs ih =>
      rw [cutAt?] at h
      split at h
      · obtain ⟨rfl, -⟩ := Prod.mk.inj (Option.some.inj h)
        exact upTo_nil mark
      · rename_i hp
        obtain ⟨⟨b, a⟩, hc, hba⟩ := Option.map_eq_some_iff.1 h
        obtain ⟨rfl, rfl⟩ := Prod.mk.inj hba
        refine upTo_cons.2 ⟨fun hmark => ?_, ih hc⟩
        rw [isPrefixOf?_eq_none_iff, cutAt?_eq_some hc] at hp
        exact hp (hmark.trans (List.prefix_append (c :: (b ++ mark)) a))

/-- A cut is made at the first mark, whatever follows it. -/
theorem UpTo.cutAt?_eq {mark before : List Char} (h : UpTo mark before) (after : List Char) :
    cutAt? mark (before ++ mark ++ after) = some (before, after) := by
  induction before with
  | nil => exact cutAt?_self mark after
  | cons c cs ih =>
      obtain ⟨hmark, hcs⟩ := upTo_cons.1 h
      -- The mark is no longer than what is kept, so more text behind it makes no new match.
      have hnone : mark.isPrefixOf? (c :: (cs ++ mark ++ after)) = none := by
        rw [isPrefixOf?_eq_none_iff]
        intro hlonger
        have hlength : mark.length ≤ (c :: (cs ++ mark)).length := by simp; omega
        exact hmark (List.prefix_of_prefix_length_le hlonger
          (List.prefix_append (c :: (cs ++ mark)) after) hlength)
      rw [List.cons_append, List.cons_append, cutAt?, hnone, ih hcs]
      rfl

variable {mark : Char} {s before after : List Char}

/-- A mark is found at once after text that does not hold its first character. -/
theorem cutAt?_append_of_notMem {rest : List Char} (h : mark ∉ s) (x : List Char) :
    cutAt? (mark :: rest) (s ++ (mark :: rest ++ x)) = some (s, x) := by
  induction s with
  | nil => exact cutAt?_self (mark :: rest) x
  | cons c cs ih =>
      obtain ⟨hc, hcs⟩ := not_or.1 (mt List.mem_cons.2 h)
      have hnone : (mark :: rest).isPrefixOf? (c :: (cs ++ (mark :: rest ++ x))) = none := by
        rw [isPrefixOf?_cons_cons, if_neg (by simpa using hc)]
      rw [List.cons_append, cutAt?, hnone, ih hcs]
      rfl

theorem cutAt?_of_notMem (h : mark ∉ s) (x : List Char) :
    cutAt? [mark] (s ++ mark :: x) = some (s, x) :=
  cutAt?_append_of_notMem h x

/-- The mark does not occur before the first place where it occurs. -/
theorem notMem_of_cutAt? (h : cutAt? [mark] s = some (before, after)) : mark ∉ before := by
  induction s generalizing before with
  | nil => exact absurd h (by simp [cutAt?])
  | cons c cs ih =>
      rw [cutAt?, isPrefixOf?_cons_cons] at h
      by_cases hc : mark = c
      · rw [if_pos (beq_iff_eq.2 hc)] at h
        obtain ⟨rfl, -⟩ := Prod.mk.inj (Option.some.inj h)
        exact List.not_mem_nil
      · rw [if_neg (by simpa using hc)] at h
        obtain ⟨⟨b, a⟩, hcut, hba⟩ := Option.map_eq_some_iff.1 h
        obtain ⟨rfl, rfl⟩ := Prod.mk.inj hba
        exact mt List.mem_cons.1 (not_or.2 ⟨hc, ih hcut⟩)

theorem splitOn_ne_nil (sep : Char) (s : List Char) : splitOn sep s ≠ [] := by
  cases s with
  | nil => exact List.cons_ne_nil _ _
  | cons c cs =>
      rw [splitOn]
      split
      · exact List.cons_ne_nil _ _
      · split <;> exact List.cons_ne_nil _ _

theorem splitOn_of_notMem (h : mark ∉ s) : splitOn mark s = [s] := by
  induction s with
  | nil => rfl
  | cons c cs ih =>
      obtain ⟨hc, hcs⟩ := not_or.1 (mt List.mem_cons.2 h)
      rw [splitOn, if_neg (Ne.symm hc), ih hcs]

theorem splitString_of_notMem {sep : Char} {s : String} (h : sep ∉ s.toList) :
    splitString sep s = [s] := by
  rw [splitString, splitOn_of_notMem h, List.map_singleton, String.ofList_toList]

theorem trimStart_cons {c : Char} (h : ¬ isBlank c) (cs : List Char) :
    trimStart (c :: cs) = c :: cs :=
  List.dropWhile_cons_of_neg h

theorem trimEnd_snoc {c : Char} (h : ¬ isBlank c) (cs : List Char) :
    trimEnd (cs ++ [c]) = cs ++ [c] := by
  rw [trimEnd, List.reverse_append, List.reverse_singleton, List.singleton_append,
    List.dropWhile_cons_of_neg h, List.reverse_cons, List.reverse_reverse]

theorem length_trimEnd_le (s : List Char) : (trimEnd s).length ≤ s.length := by
  have hlength := (List.dropWhile_suffix isBlank : s.reverse.dropWhile isBlank <:+ _).length_le
  rwa [List.length_reverse, ← List.length_reverse] at hlength

theorem length_trim_le (s : List Char) : (trim s).length ≤ (trimStart s).length :=
  length_trimEnd_le (trimStart s)

/-- What trimming leaves as it is has no blank at its front. -/
theorem trimStart_of_trim (h : trim s = s) : trimStart s = s := by
  have hlength := length_trim_le s
  rw [h] at hlength
  exact (List.dropWhile_suffix isBlank).eq_of_length_le hlength

end ArtifactFlow.Text
