import ArtifactFlow.Catalog.Nearest
import Mathlib.Data.Nat.Basic
import Mathlib.Order.Bounds.Basic

/-!
What the table of distances computes. A text is turned into another one by single edits, and the
least number of them is found by laying the two texts against each other, one character at a time.
The table goes through the front parts of both texts, which are kept reversed here, so that their
last characters come first.
-/

namespace ArtifactFlow

/-- One character is inserted, deleted or replaced. -/
inductive Edit : List Char → List Char → Prop where
  | insert (c : Char) (s : List Char) : Edit s (c :: s)
  | delete (c : Char) (s : List Char) : Edit (c :: s) s
  | replace (c d : Char) (s : List Char) : Edit (c :: s) (d :: s)
  | behind (c : Char) {s t : List Char} : Edit s t → Edit (c :: s) (c :: t)

/-- So many edits lead from one text to the other. -/
inductive Edits : Nat → List Char → List Char → Prop where
  | refl (s : List Char) : Edits 0 s s
  | head {n : Nat} {s t u : List Char} : Edit s t → Edits n t u → Edits (n + 1) s u

/-- The least number of edits that lead from one text to the other. -/
def Distance (s t : List Char) (n : Nat) : Prop :=
  IsLeast {m | Edits m s t} n

variable {s t u x : List Char} {m n : Nat} {c d : Char}

theorem Edit.append (h : Edit s t) (x : List Char) : Edit (s ++ x) (t ++ x) := by
  induction h with
  | insert c s => exact .insert c (s ++ x)
  | delete c s => exact .delete c (s ++ x)
  | replace c d s => exact .replace c d (s ++ x)
  | behind c _ ih => exact .behind c ih

theorem Edit.after (h : Edit s t) (x : List Char) : Edit (x ++ s) (x ++ t) := by
  induction x with
  | nil => exact h
  | cons c x ih => exact .behind c ih

theorem Edit.reverse (h : Edit s t) : Edit s.reverse t.reverse := by
  induction h with
  | insert c s =>
      have hend := (Edit.insert c []).after s.reverse
      rwa [List.append_nil, ← List.reverse_cons] at hend
  | delete c s =>
      have hend := (Edit.delete c []).after s.reverse
      rwa [List.append_nil, ← List.reverse_cons] at hend
  | replace c d s =>
      have hend := (Edit.replace c d []).after s.reverse
      rwa [← List.reverse_cons, ← List.reverse_cons] at hend
  | behind c _ ih =>
      rw [List.reverse_cons, List.reverse_cons]
      exact ih.append [c]

theorem Edits.reverse (h : Edits n s t) : Edits n s.reverse t.reverse := by
  induction h with
  | refl s => exact .refl s.reverse
  | head edit _ ih => exact .head edit.reverse ih

theorem Edits.behind (h : Edits n s t) (c : Char) : Edits n (c :: s) (c :: t) := by
  induction h with
  | refl s => exact .refl (c :: s)
  | head edit _ ih => exact .head (.behind c edit) ih

theorem Edits.snoc (h : Edits n s t) (edit : Edit t u) : Edits (n + 1) s u := by
  induction h with
  | refl s => exact .head edit (.refl u)
  | head first _ ih => exact .head first (ih edit)

theorem Distance.reverse (h : Distance s.reverse t.reverse n) : Distance s t n := by
  refine ⟨?_, fun m hm => h.2 (Edits.reverse hm)⟩
  have hback := Edits.reverse h.1
  rwa [List.reverse_reverse, List.reverse_reverse] at hback

/-- Two texts laid against each other character by character. Counted are the characters that stand
alone and the pairs of different ones. -/
inductive Aligned : Nat → List Char → List Char → Prop where
  | nil : Aligned 0 [] []
  | left (c : Char) {n : Nat} {s t : List Char} : Aligned n s t → Aligned (n + 1) (c :: s) t
  | right (d : Char) {n : Nat} {s t : List Char} : Aligned n s t → Aligned (n + 1) s (d :: t)
  | differ (c d : Char) {n : Nat} {s t : List Char} :
      Aligned n s t → Aligned (n + 1) (c :: s) (d :: t)
  | same (c : Char) {n : Nat} {s t : List Char} : Aligned n s t → Aligned n (c :: s) (c :: t)

theorem Aligned.refl (s : List Char) : Aligned 0 s s := by
  induction s with
  | nil => exact .nil
  | cons c s ih => exact .same c ih

theorem Aligned.edits (h : Aligned n s t) : Edits n s t := by
  induction h with
  | nil => exact .refl []
  | left c _ ih => exact .head (.delete c _) ih
  | right d _ ih => exact ih.snoc (.insert d _)
  | differ c d _ ih => exact .head (.replace c d _) (ih.behind d)
  | same c _ ih => exact ih.behind c

theorem Aligned.symm (h : Aligned n s t) : Aligned n t s := by
  induction h with
  | nil => exact .nil
  | left c _ ih => exact .right c ih
  | right d _ ih => exact .left d ih
  | differ c d _ ih => exact .differ d c ih
  | same c _ ih => exact .same c ih

theorem Aligned.length_le (h : Aligned n s t) : t.length ≤ s.length + n := by
  induction h <;> simp only [List.length_cons, List.length_nil] <;> omega

/-- One edit more takes at most one more in the count. -/
theorem Aligned.of_edit (h : Aligned n t u) (edit : Edit s t) :
    ∃ m ≤ n + 1, Aligned m s u := by
  induction h generalizing s with
  | nil =>
      cases edit with
      | delete c => exact ⟨1, le_rfl, .left c .nil⟩
  | @left c n t u h ih =>
      cases edit with
      | insert => exact ⟨n, by omega, h⟩
      | delete d => exact ⟨n + 2, le_rfl, .left d (.left c h)⟩
      | replace d => exact ⟨n + 1, by omega, .left d h⟩
      | behind _ edit =>
          obtain ⟨m, hm, haligned⟩ := ih edit
          exact ⟨m + 1, by omega, .left c haligned⟩
  | right d _ ih =>
      obtain ⟨m, hm, haligned⟩ := ih edit
      exact ⟨m + 1, by omega, .right d haligned⟩
  | @differ c d n t u h ih =>
      cases edit with
      | insert => exact ⟨n + 1, by omega, .right d h⟩
      | delete e => exact ⟨n + 2, le_rfl, .left e (.differ c d h)⟩
      | replace e => exact ⟨n + 1, by omega, .differ e d h⟩
      | behind _ edit =>
          obtain ⟨m, hm, haligned⟩ := ih edit
          exact ⟨m + 1, by omega, .differ c d haligned⟩
  | @same c n t u h ih =>
      cases edit with
      | insert => exact ⟨n + 1, le_rfl, .right c h⟩
      | delete e => exact ⟨n + 1, le_rfl, .left e (.same c h)⟩
      | replace e => exact ⟨n + 1, le_rfl, .differ e c h⟩
      | behind _ edit =>
          obtain ⟨m, hm, haligned⟩ := ih edit
          exact ⟨m, hm, .same c haligned⟩

theorem Edits.exists_aligned (h : Edits n s t) : ∃ m ≤ n, Aligned m s t := by
  induction h with
  | refl s => exact ⟨0, le_rfl, .refl s⟩
  | head edit _ ih =>
      obtain ⟨m, hm, haligned⟩ := ih
      obtain ⟨k, hk, hmore⟩ := haligned.of_edit edit
      exact ⟨k, by omega, hmore⟩

theorem distance_iff : Distance s t n ↔ IsLeast {m | Aligned m s t} n := by
  constructor
  · intro ⟨hn, hle⟩
    obtain ⟨m, hm, haligned⟩ := Edits.exists_aligned hn
    obtain rfl : m = n := le_antisymm hm (hle haligned.edits)
    exact ⟨haligned, fun k hk => hle (Aligned.edits hk)⟩
  · intro ⟨hn, hle⟩
    refine ⟨Aligned.edits hn, fun k hk => ?_⟩
    obtain ⟨m, hm, haligned⟩ := Edits.exists_aligned hk
    exact (hle haligned).trans hm

theorem Distance.symm (h : Distance s t n) : Distance t s n := by
  rw [distance_iff] at *
  exact ⟨h.1.symm, fun m hm => h.2 (Aligned.symm hm)⟩

theorem distance_nil_left (t : List Char) : Distance [] t t.length := by
  rw [distance_iff]
  constructor
  · induction t with
    | nil => exact .nil
    | cons d t ih => exact .right d ih
  · intro n hn
    have hlength := Aligned.length_le hn
    rwa [List.length_nil, Nat.zero_add] at hlength

theorem distance_nil_right (s : List Char) : Distance s [] s.length :=
  (distance_nil_left s).symm

theorem least_cases (a b c : Nat) : least a b c = a ∨ least a b c = b ∨ least a b c = c := by
  rw [least]
  omega

/-- The distance of longer texts from the distances of the texts that they were before. -/
theorem Distance.cons_cons {corner left above : Nat} (hcorner : Distance s t corner)
    (hleft : Distance (c :: s) t left) (habove : Distance s (d :: t) above) :
    Distance (c :: s) (d :: t)
      (least (above + 1) (left + 1) (if c = d then corner else corner + 1)) := by
  rw [distance_iff] at *
  constructor
  · rcases least_cases (above + 1) (left + 1) (if c = d then corner else corner + 1) with h | h | h
    · rw [h]
      exact .left c habove.1
    · rw [h]
      exact .right d hleft.1
    · rw [h]
      split
      · rename_i hcd
        exact hcd ▸ .same c hcorner.1
      · exact .differ c d hcorner.1
  · intro n hn
    rw [least]
    cases hn with
    | left _ h =>
        have := habove.2 h
        omega
    | right _ h =>
        have := hleft.2 h
        omega
    | differ _ _ h =>
        have := hcorner.2 h
        split <;> omega
    | same _ h =>
        have := hcorner.2 h
        rw [if_pos rfl]
        omega

/-- The distances of one text to another one that grows: first to `front`, in the end to all of
`back` as well. -/
inductive Row (s : List Char) : List Char → List Char → List Nat → Prop where
  | nil {front : List Char} {n : Nat} : Distance s front n → Row s front [] [n]
  | cons {front back : List Char} {d : Char} {n : Nat} {row : List Nat} :
      Distance s front n → Row s (d :: front) back row → Row s front (d :: back) (n :: row)

namespace Row

variable {front back target : List Char} {row : List Nat}

theorem exists_cons (h : Row s front back row) :
    ∃ n rest, row = n :: rest ∧ Distance s front n := by
  cases h with
  | nil hn => exact ⟨_, _, rfl, hn⟩
  | cons hn => exact ⟨_, _, rfl, hn⟩

theorem range' (front back : List Char) :
    Row [] front back (List.range' front.length (back.length + 1)) := by
  induction back generalizing front with
  | nil => exact .nil (distance_nil_left front)
  | cons d back ih =>
      rw [List.length_cons, List.range'_succ]
      exact .cons (distance_nil_left front) (ih (d :: front))

/-- The row of a text that has one character more. -/
theorem next {corner left : Nat} {above : List Nat} (h : Row s front back (corner :: above))
    (hleft : Distance (c :: s) front left) :
    Row (c :: s) front back (left :: distanceRow c left back corner above) := by
  induction back generalizing front corner left above with
  | nil =>
      cases h
      exact .nil hleft
  | cons d back ih =>
      cases h with
      | cons hcorner hrest =>
          obtain ⟨upper, rest, rfl, hupper⟩ := hrest.exists_cons
          rw [distanceRow]
          exact .cons hleft (ih hrest (hcorner.cons_cons hleft hupper))

theorem distances (h : Row s [] target row) (source : List Char) :
    Row (source.reverse ++ s) [] target (distances target s.length row source) := by
  induction source generalizing s row with
  | nil => exact h
  | cons c source ih =>
      obtain ⟨corner, above, rfl, hcorner⟩ := h.exists_cons
      obtain rfl : corner = s.length := hcorner.unique (distance_nil_right s)
      rw [List.reverse_cons, List.append_assoc]
      exact ih (h.next (distance_nil_right (c :: s)))

theorem last (h : Row s front back row) :
    Distance s (back.reverse ++ front) (row.getLast?.getD 0) := by
  induction h with
  | nil hn => exact hn
  | cons _ hrest ih =>
      obtain ⟨n, rest, rfl, -⟩ := hrest.exists_cons
      rwa [List.reverse_cons, List.append_assoc, List.getLast?_cons_cons]

end Row

/-- The table ends with the least number of edits. -/
theorem distance_editDistance (s t : List Char) : Distance s t (editDistance s t) := by
  have h := ((Row.range' [] t).distances s).last
  rw [List.append_nil, List.append_nil, List.length_nil, ← List.range_eq_range'] at h
  exact Distance.reverse h

end ArtifactFlow
