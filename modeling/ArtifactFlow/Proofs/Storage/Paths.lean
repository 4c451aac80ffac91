import ArtifactFlow.Proofs.Text.Pieces
import ArtifactFlow.Storage.Glob

/-!
What the text of a path says of its parts. A path to a directory puts the same text in front of the
name of every entry, and this text is nothing but the names that lead there, each with a slash
behind it.
-/

namespace ArtifactFlow

namespace Path

/-- The text that comes before the name of an entry. -/
def front (base : Path) : String :=
  if base.text.toList.getLast? = some '/' then base.text else base.text ++ "/"

/-- Names with a slash behind each of them. -/
def trail : List String → String
  | [] => ""
  | name :: rest => name ++ "/" ++ trail rest

variable {base : Path} {name : String} {names more : List String}

theorem mem_front {c : Char} (h : c ∈ base.front.toList) : c ∈ base.text.toList ∨ c = '/' := by
  rw [front] at h
  split at h
  · exact .inl h
  · simpa using h

theorem slash_mem_front (base : Path) : '/' ∈ base.front.toList := by
  rw [front]
  split
  · rename_i hlast
    exact List.mem_of_getLast? hlast
  · simp

theorem utf8ByteSize_front_le (base : Path) :
    base.front.utf8ByteSize ≤ base.text.utf8ByteSize + 1 := by
  rw [front]
  split
  · exact Nat.le_succ _
  · rw [String.utf8ByteSize_append]
    exact le_rfl

theorem isAbsolute_mk (h : '/' ∉ name.toList) : isAbsolute ⟨name⟩ = false := by
  rw [isAbsolute, decide_eq_false_iff_not]
  exact fun hhead => h (List.mem_of_mem_head? (Option.mem_def.2 hhead))

theorem join_eq (hbase : base.text ≠ "") (hname : '/' ∉ name.toList) :
    base.join ⟨name⟩ = ⟨base.front ++ name⟩ := by
  have hempty : base.text.isEmpty = false := by
    rw [Bool.eq_false_iff]
    exact fun h => hbase (String.isEmpty_iff.1 h)
  rw [join, isAbsolute_mk hname, hempty, front]
  simp only [Bool.or_self, Bool.false_eq_true, if_false]
  split <;> rfl

@[simp] theorem trail_append (names more : List String) :
    trail (names ++ more) = trail names ++ trail more := by
  induction names with
  | nil => simp [trail]
  | cons name rest ih => simp [trail, ih, String.append_assoc]

@[simp] theorem trail_singleton (name : String) : trail [name] = name ++ "/" := by
  simp [trail]

theorem toList_trail (names : List String) :
    (trail names).toList = (names.map String.toList).flatMap (· ++ ['/']) := by
  induction names with
  | nil => rfl
  | cons name rest ih => simp [trail, ih]

theorem trail_splitString (s : String) : trail (Text.splitString '/' s) = s ++ "/" := by
  apply String.toList_injective
  have hmap : (Text.splitString '/' s).map String.toList = Text.splitOn '/' s.toList := by
    rw [Text.splitString, List.map_map]
    simp
  rw [toList_trail, hmap, Text.flatMap_splitOn, String.toList_append]
  rfl

/-- A slash at the end of a text is one behind its last name. -/
theorem getLast?_trail (h : names ≠ []) : (trail names).toList.getLast? = some '/' := by
  rw [← List.dropLast_append_getLast h, trail_append, trail_singleton]
  simp

theorem splitString_trail (h : ∀ name ∈ names, '/' ∉ name.toList) (hname : '/' ∉ name.toList) :
    Text.splitString '/' (trail names ++ name) = names ++ [name] := by
  have hpieces : ∀ piece ∈ names.map String.toList, '/' ∉ piece := by
    intro piece hpiece
    obtain ⟨other, hother, rfl⟩ := List.mem_map.1 hpiece
    exact h other hother
  rw [Text.splitString, String.toList_append, toList_trail, Text.splitOn_flatMap hpieces hname]
  simp [Function.comp_def]

end Path

namespace Glob

/-- A slash at the end starts no further name. -/
def withoutEmptyEnd (pieces : List String) : List String :=
  match pieces.reverse with
  | "" :: rest => rest.reverse
  | _ => pieces

theorem withoutEmptyEnd_snoc (pieces : List String) (last : String) :
    withoutEmptyEnd (pieces ++ [last]) = if last = "" then pieces else pieces ++ [last] := by
  rw [withoutEmptyEnd, List.reverse_append, List.reverse_singleton, List.singleton_append]
  split
  · rename_i rest hreverse
    obtain ⟨rfl, rfl⟩ := List.cons_eq_cons.1 hreverse
    simp
  · rename_i hne
    rw [if_neg]
    rintro rfl
    exact hne _ rfl

end Glob

namespace Path

variable {p : Path} {name : String}

/-- The piece that stands for the root. -/
def rootPieces (p : Path) : List String :=
  if p.isAbsolute then [""] else []

/-- The pieces that lead to what a path denotes. -/
def leading (p : Path) : List String :=
  p.rootPieces ++ Glob.names p.text

theorem notMem_of_mem_pieces (h : name ∈ p.pieces) : '/' ∉ name.toList := by
  obtain ⟨piece, hpiece, rfl⟩ := List.mem_map.1 h
  rw [String.toList_ofList]
  exact Text.notMem_of_mem_splitOn hpiece

theorem exists_pieces_eq (p : Path) : ∃ more last, p.pieces = p.rootPieces ++ (more ++ [last]) ∧
    Glob.names p.text = Glob.withoutEmptyEnd (more ++ [last]) := by
  have hnames : Glob.names p.text =
      Glob.withoutEmptyEnd (if p.isAbsolute then p.pieces.drop 1 else p.pieces) := by
    simp only [isAbsolute, decide_eq_true_eq]
    rfl
  have hsnoc (s : List Char) :
      ∃ more last, (Text.splitOn '/' s).map String.ofList = more ++ [last] := by
    have hne : (Text.splitOn '/' s).map String.ofList ≠ [] := by
      simpa using Text.splitOn_ne_nil '/' s
    exact ⟨_, _, (List.dropLast_append_getLast hne).symm⟩
  by_cases habsolute : p.isAbsolute
  · obtain ⟨rest, htext⟩ := List.head?_eq_some_iff.1 (of_decide_eq_true habsolute)
    obtain ⟨more, last, hrest⟩ := hsnoc rest
    have hpieces : p.pieces = "" :: (more ++ [last]) := by
      rw [pieces, Text.splitString, htext, Text.splitOn_cons_self, List.map_cons, hrest]
    refine ⟨more, last, ?_, ?_⟩
    · rw [hpieces, rootPieces, if_pos habsolute, List.singleton_append]
    · rw [hnames, if_pos habsolute, hpieces, List.drop_one, List.tail_cons]
  · obtain ⟨more, last, hrest⟩ := hsnoc p.text.toList
    have hpieces : p.pieces = more ++ [last] := hrest
    refine ⟨more, last, ?_, ?_⟩
    · rw [hpieces, rootPieces, if_neg habsolute, List.nil_append]
    · rw [hnames, if_neg habsolute, hpieces]

/-- A path is written as its leading pieces, up to a slash at the end. -/
theorem leading_eq (h : p.text ≠ "") : p.front = trail p.leading ∧
    (p.pieces = p.leading ∨ p.pieces = p.leading ++ [""]) := by
  obtain ⟨more, last, hpieces, hnames⟩ := p.exists_pieces_eq
  have htrail := trail_splitString p.text
  rw [← pieces, hpieces, ← List.append_assoc, trail_append, trail_singleton,
    ← String.append_assoc] at htrail
  have htext : p.text = trail (p.rootPieces ++ more) ++ last :=
    (String.append_left_inj "/").1 htrail.symm
  rw [Glob.withoutEmptyEnd_snoc] at hnames
  by_cases hlast : last = ""
  · subst hlast
    rw [if_pos rfl] at hnames
    rw [String.append_empty] at htext
    have hne : p.rootPieces ++ more ≠ [] := by
      intro hnil
      rw [hnil] at htext
      exact h htext
    refine ⟨?_, .inr ?_⟩
    · rw [front, htext, if_pos (getLast?_trail hne), leading, hnames]
    · rw [hpieces, leading, hnames, List.append_assoc]
  · rw [if_neg hlast] at hnames
    have hmem : last ∈ p.pieces := by
      rw [hpieces]
      simp
    have hend : p.text.toList.getLast? ≠ some '/' := by
      rw [htext, String.toList_append, List.getLast?_append_of_ne_nil _ (by simpa using hlast)]
      exact fun hslash => notMem_of_mem_pieces hmem (List.mem_of_getLast? hslash)
    refine ⟨?_, .inl ?_⟩
    · rw [front, if_neg hend, htext, leading, hnames, ← List.append_assoc,
        trail_append (p.rootPieces ++ more), trail_singleton, String.append_assoc]
    · rw [hpieces, leading, hnames]

theorem notMem_of_mem_leading (h : p.text ≠ "") (hname : name ∈ p.leading) :
    '/' ∉ name.toList := by
  obtain hpieces | hpieces := (leading_eq h).2
  · exact notMem_of_mem_pieces (hpieces ▸ hname)
  · exact notMem_of_mem_pieces (hpieces ▸ List.mem_append_left [""] hname)

/-- The pieces of the path to an entry of a directory. -/
theorem pieces_join (h : p.text ≠ "") (hname : '/' ∉ name.toList) :
    (p.join ⟨name⟩).pieces = p.leading ++ [name] := by
  rw [join_eq h hname, pieces, (leading_eq h).1]
  exact splitString_trail (fun _ hmem => notMem_of_mem_leading h hmem) hname

theorem isAbsolute_join (h : p.text ≠ "") (hname : '/' ∉ name.toList) :
    (p.join ⟨name⟩).isAbsolute = p.isAbsolute := by
  rw [join_eq h hname, isAbsolute, isAbsolute, String.toList_append]
  obtain ⟨c, cs, hcons⟩ := List.exists_cons_of_ne_nil (by simpa using h : p.text.toList ≠ [])
  have hfront : ∃ rest, p.front.toList = p.text.toList ++ rest := by
    rw [front]
    split
    · exact ⟨[], (List.append_nil _).symm⟩
    · exact ⟨_, String.toList_append⟩
  obtain ⟨rest, hrest⟩ := hfront
  rw [hrest, hcons]
  rfl

/-- The names that lead to an entry of a directory: those that lead to the directory, and its
own. -/
theorem names_join (h : p.text ≠ "") (hname : '/' ∉ name.toList) (hne : name ≠ "") :
    Glob.names (p.join ⟨name⟩).text = Glob.names p.text ++ [name] := by
  obtain ⟨more, last, hpieces, hnames⟩ := (p.join ⟨name⟩).exists_pieces_eq
  rw [pieces_join h hname, leading, List.append_assoc, rootPieces, rootPieces,
    isAbsolute_join h hname] at hpieces
  rw [hnames, ← List.append_cancel_left hpieces, Glob.withoutEmptyEnd_snoc, if_neg hne]

end Path
end ArtifactFlow
