import Mathlib.Data.List.Induction
import Mathlib.Data.List.Pairwise
import Mathlib.Order.Lattice

/-!
The first of the least elements of a list. Going through the list, the element that was kept gives
way only to a smaller one. Where no two elements are equally large, the order of the list makes no
difference.
-/

namespace ArtifactFlow

universe u v

variable {α : Type u} {β : Type v} [LinearOrder β] {key : α → β} {l : List α} {x y : α}

/-- No element of the list is smaller, and none before it is as small. -/
def FirstLeast (key : α → β) (l : List α) (x : α) : Prop :=
  ∃ before after, l = before ++ x :: after ∧ (∀ y ∈ before, key x < key y) ∧
    ∀ y ∈ after, key x ≤ key y

/-- The smaller one of two elements; the one that is there already if they are equally large. -/
def keepLeast (key : α → β) : Option α → α → Option α
  | none, x => some x
  | some kept, x => if key x < key kept then some x else some kept

theorem FirstLeast.mem (h : FirstLeast key l x) : x ∈ l := by
  obtain ⟨before, after, rfl, -, -⟩ := h
  exact List.mem_append_right before List.mem_cons_self

theorem FirstLeast.le (h : FirstLeast key l x) (hy : y ∈ l) : key x ≤ key y := by
  obtain ⟨before, after, rfl, hbefore, hafter⟩ := h
  rcases List.mem_append.1 hy with hy | hy
  · exact le_of_lt (hbefore y hy)
  · rcases List.mem_cons.1 hy with rfl | hy
    · exact le_rfl
    · exact hafter y hy

theorem firstLeast_snoc : FirstLeast key (l ++ [y]) x ↔
    FirstLeast key l x ∧ key x ≤ key y ∨ x = y ∧ ∀ z ∈ l, key y < key z := by
  constructor
  · rintro ⟨before, after, heq, hbefore, hafter⟩
    rcases List.eq_nil_or_concat after with rfl | ⟨after, z, rfl⟩
    · obtain ⟨rfl, hxy⟩ := List.append_inj' heq rfl
      obtain rfl := List.singleton_inj.1 hxy
      exact .inr ⟨rfl, hbefore⟩
    · rw [List.concat_eq_append, ← List.cons_append, ← List.append_assoc] at heq
      obtain ⟨rfl, hyz⟩ := List.append_inj' heq rfl
      obtain rfl := List.singleton_inj.1 hyz
      rw [List.concat_eq_append] at hafter
      refine .inl ⟨⟨before, after, rfl, hbefore, fun z hz => ?_⟩, ?_⟩
      · exact hafter z (List.mem_append_left _ hz)
      · exact hafter y (List.mem_append_right _ List.mem_cons_self)
  · rintro (⟨⟨before, after, rfl, hbefore, hafter⟩, hle⟩ | ⟨rfl, hlt⟩)
    · refine ⟨before, after ++ [y], by simp, hbefore, fun z hz => ?_⟩
      rcases List.mem_append.1 hz with hz | hz
      · exact hafter z hz
      · exact List.mem_singleton.1 hz ▸ hle
    · exact ⟨l, [], rfl, hlt, nofun⟩

theorem foldl_keepLeast_eq_none : l.foldl (keepLeast key) none = none ↔ l = [] := by
  refine ⟨fun h => ?_, fun h => h ▸ rfl⟩
  rcases List.eq_nil_or_concat l with rfl | ⟨front, y, rfl⟩
  · rfl
  · rw [List.concat_eq_append, List.foldl_append, List.foldl_cons, List.foldl_nil] at h
    cases hkept : front.foldl (keepLeast key) none with
    | none => exact absurd h (by simp [hkept, keepLeast])
    | some kept =>
        rw [hkept, keepLeast] at h
        split at h <;> exact nomatch h

/-- What is kept of a list is the first of its least elements. -/
theorem foldl_keepLeast_eq_some :
    l.foldl (keepLeast key) none = some x ↔ FirstLeast key l x := by
  induction l using List.reverseRecOn generalizing x with
  | nil => exact ⟨nofun, fun h => nomatch h.mem⟩
  | append_singleton l y ih =>
      rw [List.foldl_append, List.foldl_cons, List.foldl_nil, firstLeast_snoc]
      cases hkept : l.foldl (keepLeast key) none with
      | none =>
          obtain rfl := foldl_keepLeast_eq_none.1 hkept
          have hnone : ¬ FirstLeast key [] x := fun h => nomatch h.mem
          simp [keepLeast, hnone, eq_comm]
      | some kept =>
          have hfirst := ih.1 hkept
          rw [keepLeast]
          by_cases hlt : key y < key kept
          · rw [if_pos hlt]
            constructor
            · rintro ⟨rfl⟩
              exact .inr ⟨rfl, fun z hz => lt_of_lt_of_le hlt (hfirst.le hz)⟩
            · rintro (⟨hx, hle⟩ | ⟨rfl, -⟩)
              · exact absurd (hfirst.le hx.mem) (not_le_of_gt (lt_of_le_of_lt hle hlt))
              · rfl
          · rw [if_neg hlt]
            constructor
            · rintro ⟨rfl⟩
              exact .inl ⟨hfirst, le_of_not_gt hlt⟩
            · rintro (⟨hx, -⟩ | ⟨rfl, hall⟩)
              · rw [← hkept, ih.2 hx]
              · exact absurd (hall kept hfirst.mem) hlt

/-- Without ties the first of the least elements is the least one, wherever it stands. -/
theorem firstLeast_iff_of_distinct (distinct : l.Pairwise fun x y => key x ≠ key y) :
    FirstLeast key l x ↔ x ∈ l ∧ ∀ y ∈ l, key x ≤ key y := by
  refine ⟨fun h => ⟨h.mem, fun y hy => h.le hy⟩, ?_⟩
  rintro ⟨hx, hle⟩
  obtain ⟨before, after, rfl⟩ := List.append_of_mem hx
  refine ⟨before, after, rfl, fun y hy => ?_, fun y hy => hle y (by simp [hy])⟩
  have hne : key y ≠ key x :=
    (List.pairwise_append.1 distinct).2.2 y hy x List.mem_cons_self
  exact lt_of_le_of_ne (hle y (by simp [hy])) hne.symm

end ArtifactFlow
