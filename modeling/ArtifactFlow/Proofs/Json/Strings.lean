import ArtifactFlow.Json.Token

/-!
Strings between quotation marks. Each character is written as one unit, as itself, as a short escape
or as a code, and is read back from that unit; so a written string holds no quotation mark of its
own and comes back as it was.
-/

namespace ArtifactFlow.Json

/-- The control characters that have a letter for an escape. -/
def shortControls : List Char := ['\x08', '\x0c', '\n', '\r', '\t']

/-- The unit as which a character is written. -/
def unitOf (c : Char) : Unit :=
  if c.toNat < 32 ∧ c ∉ shortControls then .code c.toNat else .char c

theorem hexNumber?_hexChar : ∀ n < 32,
    hexNumber? ['0', '0', hexChar (n / 16), hexChar (n % 16)] = some n := by
  decide

/-- The ways in which a character is written. -/
theorem escapeChar_cases (c : Char) :
    (c ≠ '"' ∧ c ≠ '\\' ∧ 32 ≤ c.toNat ∧ escapeChar c = [c]) ∨
    (∃ letter, letter ≠ 'u' ∧ shortEscape? letter = some c ∧ escapeChar c = ['\\', letter] ∧
      unitOf c = .char c) ∨
    (c.toNat < 32 ∧ unitOf c = .code c.toNat ∧ escapeChar c =
      ['\\', 'u', '0', '0', hexChar (c.toNat / 16), hexChar (c.toNat % 16)]) := by
  by_cases hquote : c = '"'
  · subst hquote
    exact .inr (.inl ⟨'"', by decide⟩)
  by_cases hback : c = '\\'
  · subst hback
    exact .inr (.inl ⟨'\\', by decide⟩)
  by_cases hcontrol : 32 ≤ c.toNat
  · exact .inl ⟨hquote, hback, hcontrol, by simp [escapeChar, hquote, hback, hcontrol]⟩
  by_cases hshort : c ∈ shortControls
  · refine .inr (.inl ?_)
    simp only [shortControls, List.mem_cons, List.not_mem_nil, or_false] at hshort
    rcases hshort with rfl | rfl | rfl | rfl | rfl
    · exact ⟨'b', by decide⟩
    · exact ⟨'f', by decide⟩
    · exact ⟨'n', by decide⟩
    · exact ⟨'r', by decide⟩
    · exact ⟨'t', by decide⟩
  · refine .inr (.inr ⟨Nat.lt_of_not_le hcontrol, ?_, ?_⟩)
    · rw [unitOf, if_pos ⟨Nat.lt_of_not_le hcontrol, hshort⟩]
    · simp only [shortControls, List.mem_cons, List.not_mem_nil, or_false, not_or] at hshort
      simp [escapeChar, hquote, hback, hcontrol, hshort]

theorem units?_escapeChar (c : Char) (rest : List Char) :
    units? (escapeChar c ++ rest) = (units? rest).map (unitOf c :: ·) := by
  rcases escapeChar_cases c with ⟨-, hback, hcontrol, hself⟩ | ⟨letter, hu, hletter, hself, hunit⟩ |
    ⟨hcontrol, hunit, hself⟩
  · have hunit : unitOf c = .char c := if_neg fun h => Nat.not_lt.2 hcontrol h.1
    rw [hself, hunit, List.singleton_append, units?]
    · rw [if_neg (Nat.not_lt.2 hcontrol)]
      cases units? rest <;> rfl
    · exact fun _ _ _ _ _ h => absurd h hback
    · exact fun _ _ h => absurd h hback
  · rw [hself, hunit, List.cons_append, List.singleton_append, units?]
    · rw [hletter]
      cases units? rest <;> rfl
    · exact fun _ _ _ _ _ h => absurd h hu
  · rw [hself, hunit]
    simp only [List.cons_append, List.nil_append, units?, hexNumber?_hexChar _ hcontrol]
    cases units? rest <;> rfl

theorem units?_escape (cs : List Char) : units? (escape cs) = some (cs.map unitOf) := by
  induction cs with
  | nil => rfl
  | cons c cs ih =>
      rw [escape, List.flatMap_cons, units?_escapeChar]
      change (units? (escape cs)).map _ = _
      rw [ih]
      rfl

/-- A code below the surrogates stands for its character whatever follows it. -/
theorem join?_code {n : Nat} (h : n < 0xD800) (us : List Unit) :
    join? (.code n :: us) = (join? us).map (Char.ofNat n :: ·) := by
  have hhigh : ¬ (0xD800 ≤ n ∧ n ≤ 0xDBFF) := fun ⟨hle, _⟩ => Nat.not_lt.2 hle h
  have hlow : ¬ (0xDC00 ≤ n ∧ n ≤ 0xDFFF) := by omega
  have hany : ¬ (0xD800 ≤ n ∧ n ≤ 0xDFFF) := fun ⟨hle, _⟩ => Nat.not_lt.2 hle h
  cases us with
  | nil => simp [join?, hany]
  | cons u us =>
      cases u with
      | char c =>
          simp only [join?, hany, if_false]
          cases join? us <;> rfl
      | code m =>
          rw [join?, if_neg hhigh, if_neg hlow]
          cases join? (.code m :: us) <;> rfl

theorem join?_unitOf (c : Char) (us : List Unit) :
    join? (unitOf c :: us) = (join? us).map (c :: ·) := by
  rw [unitOf]
  split
  · rename_i h
    have hcode : c.toNat < 0xD800 := by omega
    rw [join?_code hcode, Char.ofNat_toNat]
  · rw [join?]
    cases join? us <;> rfl

theorem unescape?_escape (cs : List Char) : unescape? (escape cs) = some cs := by
  rw [unescape?, units?_escape, Option.bind_eq_bind, Option.bind_some]
  induction cs with
  | nil => rfl
  | cons c cs ih => rw [List.map_cons, join?_unitOf, ih, Option.map_some]

namespace Lexer

theorem foldlM_escapeChar (c : Char) (chars : List Char) (done : List Token) :
    (escapeChar c).foldlM step? ⟨.text chars, done⟩ =
      some ⟨.text ((escapeChar c).reverse ++ chars), done⟩ := by
  have hhex : ∀ n < 16, hexChar n ≠ '"' ∧ hexChar n ≠ '\\' := by decide
  rcases escapeChar_cases c with ⟨hquote, hback, -, hself⟩ | ⟨letter, -, -, hself, -⟩ |
    ⟨hcontrol, -, hself⟩
  · simp [hself, step?, hquote, hback]
  · simp [hself, step?]
  · have hhigh := hhex (c.toNat / 16) (by omega)
    have hlow := hhex (c.toNat % 16) (by omega)
    simp [hself, step?, hhigh, hlow]

theorem foldlM_escape (cs chars : List Char) (done : List Token) :
    (escape cs).foldlM step? ⟨.text chars, done⟩ =
      some ⟨.text ((escape cs).reverse ++ chars), done⟩ := by
  induction cs generalizing chars with
  | nil => rfl
  | cons c cs ih =>
      rw [escape, List.flatMap_cons, List.foldlM_append, foldlM_escapeChar, Option.bind_eq_bind,
        Option.bind_some]
      refine (ih _).trans ?_
      rw [escape, List.reverse_append, List.append_assoc]

/-- A quoted string becomes one token. -/
theorem foldlM_quote (s : String) (done : List Token) :
    (quote s).foldlM step? ⟨.nothing, done⟩ = some ⟨.nothing, .scalar (.string s) :: done⟩ := by
  have hopen : step? ⟨.nothing, done⟩ '"' = some ⟨.text [], done⟩ := rfl
  have hclose : step? ⟨.text (escape s.toList).reverse, done⟩ '"' =
      some ⟨.nothing, .scalar (.string s) :: done⟩ := by
    simp [step?, unescape?_escape]
  rw [quote, List.cons_append, List.foldlM_cons, hopen, Option.bind_eq_bind, Option.bind_some,
    List.foldlM_append, foldlM_escape, List.append_nil, Option.bind_eq_bind, Option.bind_some,
    List.foldlM_cons, hclose]
  rfl

end Lexer
end ArtifactFlow.Json
