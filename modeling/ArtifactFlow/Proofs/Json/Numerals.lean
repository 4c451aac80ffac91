import ArtifactFlow.Json.Token
import ArtifactFlow.Number.Layout

/-!
Integers of 64 bits as words. Their decimal digits are collected without loss and start with a zero
only where it is the only digit, so that a written integer is read as the integer that it was.
-/

namespace ArtifactFlow.Json

theorem le_ofDigitChars (ds : List Char) (n : Nat) : n ≤ Nat.ofDigitChars 10 ds n := by
  induction ds generalizing n with
  | nil => exact Nat.le_refl n
  | cons c ds ih =>
      rw [Nat.ofDigitChars_cons]
      have hstep := ih (10 * n + (c.toNat - '0'.toNat))
      omega

/-- Digits whose number fits 64 bits are all collected. -/
theorem collect_eq {ds : List Char} {n : Nat} (fits : Nat.ofDigitChars 10 ds n < Nat.pow 2 64)
    (taken : Nat) : collect n taken ds = (Nat.ofDigitChars 10 ds n, taken + ds.length) := by
  induction ds generalizing n taken with
  | nil => rfl
  | cons c ds ih =>
      rw [Nat.ofDigitChars_cons] at fits ⊢
      have hnext : 10 * n + (c.toNat - 48) < Nat.pow 2 64 :=
        Nat.lt_of_le_of_lt (le_ofDigitChars ds _) fits
      have hrest := ih fits (taken + 1)
      rw [Nat.add_assoc, Nat.add_comm 1] at hrest
      simp only [collect, hnext, if_true]
      exact hrest

theorem collect_toDigits {n : Nat} (h : n < Nat.pow 2 64) :
    collect 0 0 (Nat.toDigits 10 n) = (n, (Nat.toDigits 10 n).length) := by
  have hnumber : Nat.ofDigitChars 10 (Nat.toDigits 10 n) 0 = n := Nat.ofDigitChars_ten_toDigits
  rw [collect_eq (hnumber.symm ▸ h), hnumber, Nat.zero_add]

theorem head?_toDigits {n : Nat} (h : 0 < n) : (Nat.toDigits 10 n).head? ≠ some '0' := by
  induction n using Nat.strongRecOn with
  | ind n ih =>
      have hdigit : ∀ d < 10, 0 < d → Nat.digitChar d ≠ '0' := by decide
      rw [Nat.toDigits_eq_if (by decide)]
      split
      · rename_i hn
        simpa using hdigit n hn h
      · rename_i hn
        have hfront := ih (n / 10) (by omega) (by omega)
        cases hdigits : Nat.toDigits 10 (n / 10) with
        | nil => exact absurd hdigits Nat.toDigits_ne_nil
        | cons c cs => simpa [hdigits] using hfront

theorem spanDigits_digits {ds : List Char} (digits : ∀ c ∈ ds, c.isDigit) :
    spanDigits ds = (ds, []) := by
  induction ds with
  | nil => rfl
  | cons c ds ih =>
      obtain ⟨hc, hds⟩ := List.forall_mem_cons.1 digits
      obtain ⟨htake, hdrop⟩ := Prod.mk.inj (ih hds)
      simp [spanDigits, hc, htake, hdrop]

/-- Digits are a numeral, behind a sign or not, if they start with no zero but a single one. -/
theorem numeral?_digits {c : Char} {ds : List Char} (digits : ∀ d ∈ c :: ds, d.isDigit)
    (leading : c = '0' → ds = []) (negative : Bool) :
    numeral? ((if negative then ['-'] else []) ++ c :: ds) =
      some ⟨negative, c :: ds, none, none⟩ := by
  have hspan := spanDigits_digits digits
  have hsign : c ≠ '-' := by
    rintro rfl
    exact absurd (digits '-' List.mem_cons_self) (by decide)
  cases negative with
  | true => simpa [numeral?, hspan, exponent?] using leading
  | false =>
      simp only [numeral?, Bool.false_eq_true, if_false, List.nil_append]
      split
      · rename_i heq
        exact absurd (List.cons.inj heq).1 hsign
      · simpa [hspan, exponent?] using leading

theorem numeral?_toDigits (n : Nat) (negative : Bool) :
    numeral? ((if negative then ['-'] else []) ++ Nat.toDigits 10 n) =
      some ⟨negative, Nat.toDigits 10 n, none, none⟩ := by
  have digits : ∀ d ∈ Nat.toDigits 10 n, d.isDigit := fun d =>
    Nat.isDigit_of_mem_toDigits (by decide) (by decide)
  cases Nat.eq_zero_or_pos n with
  | inl h =>
      subst h
      exact numeral?_digits digits (fun _ => rfl) negative
  | inr h =>
      have hhead := head?_toDigits h
      cases hdigits : Nat.toDigits 10 n with
      | nil => exact absurd hdigits Nat.toDigits_ne_nil
      | cons c ds =>
          rw [hdigits] at digits hhead
          exact numeral?_digits digits (fun hc => absurd (congrArg some hc) hhead) negative

theorem Numeral.toValue?_toDigits {n : Nat} {negative : Bool}
    (fits : if negative then 0 < n ∧ n ≤ Nat.pow 2 63 else n < Nat.pow 2 64) :
    toValue? ⟨negative, Nat.toDigits 10 n, none, none⟩ =
      some (.int (if negative then -n else n)) := by
  cases negative with
  | true =>
      obtain ⟨hpos, hle⟩ : 0 < n ∧ n ≤ Nat.pow 2 63 := fits
      have hcollect : collect 0 0 (Nat.toDigits 10 n) = (n, (Nat.toDigits 10 n).length) :=
        collect_toDigits (Nat.lt_of_le_of_lt hle (by decide))
      simp [toValue?, hcollect, Nat.pos_iff_ne_zero.1 hpos, hle]
  | false =>
      have hcollect : collect 0 0 (Nat.toDigits 10 n) = (n, (Nat.toDigits 10 n).length) :=
        collect_toDigits fits
      simp [toValue?, hcollect]

/-- The characters of a written integer. -/
theorem mem_intText {n : Int} {c : Char} (h : c ∈ intText n) : c.isDigit ∨ c = '-' := by
  have digit (hc : c ∈ Nat.toDigits 10 n.natAbs) : c.isDigit :=
    Nat.isDigit_of_mem_toDigits (by decide) (by decide) hc
  rw [intText] at h
  split at h
  · cases h with
    | head => exact .inr rfl
    | tail _ hc => exact .inl (digit hc)
  · exact .inl (digit h)

theorem isWordChar_of_mem_intText {n : Int} {c : Char} (h : c ∈ intText n) : isWordChar c := by
  rcases mem_intText h with hdigit | rfl
  · simp [isWordChar, Char.isAlphanum, hdigit]
  · decide

theorem intText_ne_nil (n : Int) : intText n ≠ [] := by
  rw [intText]
  split
  · exact List.cons_ne_nil _ _
  · exact Nat.toDigits_ne_nil

/-- A written integer of 64 bits, with a sign or without one, is read as that integer. -/
theorem word?_intText {n : Int} (low : -Nat.pow 2 63 ≤ n) (high : n < Nat.pow 2 64) :
    word? (intText n) = some (.int n) := by
  have hname {c : Char} {cs : List Char} (hc : ¬ (c.isDigit ∨ c = '-')) : intText n ≠ c :: cs :=
    fun h => hc (mem_intText (h ▸ List.mem_cons_self))
  have htext : intText n =
      (if decide (n < 0) then ['-'] else []) ++ Nat.toDigits 10 n.natAbs := by
    rw [intText]
    split <;> simp [*]
  have hfits : if decide (n < 0) then 0 < n.natAbs ∧ n.natAbs ≤ Nat.pow 2 63
      else n.natAbs < Nat.pow 2 64 := by
    simp only [decide_eq_true_eq]
    split <;> omega
  have hvalue : (if decide (n < 0) then -(n.natAbs : Int) else n.natAbs) = n := by
    simp only [decide_eq_true_eq]
    split <;> omega
  rw [word?, if_neg (hname (by decide)), if_neg (hname (by decide)), if_neg (hname (by decide)),
    htext, numeral?_toDigits, Option.bind_eq_bind, Option.bind_some,
    Numeral.toValue?_toDigits hfits, hvalue]

end ArtifactFlow.Json
