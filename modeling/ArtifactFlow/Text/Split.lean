/-!
Cutting text at a mark: the first occurrence (`cutAt?`), every occurrence (`splitOn`), and the
length facts that the scanners terminate by.
-/

namespace ArtifactFlow.Text

/-- Cuts at the first occurrence of `mark`: the text before it and the text after it. -/
def cutAt? (mark : List Char) : List Char → Option (List Char × List Char)
  | [] => if mark.isEmpty then some ([], []) else none
  | c :: cs =>
      match mark.isPrefixOf? (c :: cs) with
      | some after => some ([], after)
      | none => (cutAt? mark cs).map fun (before, after) => (c :: before, after)

/-- Cuts at every occurrence of one character; there is one piece more than there are cuts. -/
def splitOn (sep : Char) : List Char → List (List Char)
  | [] => [[]]
  | c :: cs =>
      if c = sep then [] :: splitOn sep cs
      else
        match splitOn sep cs with
        | [] => [[c]]
        | piece :: pieces => (c :: piece) :: pieces

def splitString (sep : Char) (s : String) : List String :=
  (splitOn sep s.toList).map String.ofList

/-- The pieces joined, with `sep` between neighbours. -/
def joinWith (sep : String) : List String → String
  | [] => ""
  | [s] => s
  | s :: rest => s ++ sep ++ joinWith sep rest

/-- Number of bytes of the UTF-8 form. -/
def byteLength (s : List Char) : Nat :=
  s.foldr (fun c n => c.utf8Size + n) 0

theorem isPrefixOf?_cons_cons (a b : Char) (p s : List Char) :
    (a :: p).isPrefixOf? (b :: s) = if a == b then p.isPrefixOf? s else none := rfl

theorem isPrefixOf?_eq_some {p s rest : List Char} (h : p.isPrefixOf? s = some rest) :
    s = p ++ rest := by
  induction p generalizing s with
  | nil => exact Option.some.inj h
  | cons a p ih =>
      cases s with
      | nil => cases h
      | cons b s =>
          rw [isPrefixOf?_cons_cons] at h
          split at h
          · rename_i hab
            rw [ih h, eq_of_beq hab, List.cons_append]
          · exact absurd h (by simp)

/-- A cut loses nothing but the mark itself. -/
theorem cutAt?_eq_some {mark s before after : List Char}
    (h : cutAt? mark s = some (before, after)) : s = before ++ mark ++ after := by
  induction s generalizing before with
  | nil =>
      simp only [cutAt?] at h
      split at h
      · rename_i hm
        obtain ⟨rfl, rfl⟩ : [] = before ∧ [] = after := by simpa using h
        simp [List.isEmpty_iff.1 hm]
      · exact absurd h (by simp)
  | cons c cs ih =>
      simp only [cutAt?] at h
      split at h
      · rename_i rest hp
        obtain ⟨rfl, rfl⟩ : [] = before ∧ rest = after := by simpa using h
        simpa using isPrefixOf?_eq_some hp
      · obtain ⟨⟨b, a⟩, hc, hba⟩ := Option.map_eq_some_iff.1 h
        obtain ⟨rfl, rfl⟩ : c :: b = before ∧ a = after := by simpa using hba
        simp [ih hc]

/-- What follows a cut is shorter than the whole, by the mark and what stands before it. -/
theorem length_of_cutAt? {mark s before after : List Char}
    (h : cutAt? mark s = some (before, after)) :
    before.length + mark.length + after.length = s.length := by
  have := congrArg List.length (cutAt?_eq_some h)
  simp only [List.length_append] at this
  omega

end ArtifactFlow.Text
