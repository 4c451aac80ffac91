import ArtifactFlow.Proofs.Names
import ArtifactFlow.Proofs.Storage.Walk

/-!
Patterns for the names of one directory. Where the path to the directory holds no wildcard it is
found as it stands, and a star in the last name finds the entries that begin and end as the pattern
does. A wildcard in the path is read as part of the pattern.
-/

namespace ArtifactFlow.Glob

open ArtifactFlow.Path (trail)

/-- The characters that do not stand for themselves in a pattern. -/
def wildcards : List Char :=
  ['*', '?', '[']

/-- Text that stands for itself in a pattern. -/
def Plain (s : List Char) : Prop :=
  ∀ c ∈ s, c ∉ wildcards

instance (s : List Char) : Decidable (Plain s) :=
  decidable_of_iff (s.all (!wildcards.contains ·)) (by simp [Plain])

def literal (s : List Char) : List Token :=
  s.map .char

/-- One star between two texts that stand for themselves. -/
def starred (front back : List Char) : List Token :=
  literal front ++ .anyText :: literal back

section Reading

variable {s t : List Char} {ts : List Token} {n : Nat}

theorem Plain.append (hs : Plain s) (ht : Plain t) : Plain (s ++ t) :=
  fun c hc => (List.mem_append.1 hc).elim (hs c) (ht c)

theorem token?_char {c : Char} (h : c ∉ wildcards) (atName : Bool) (rest : List Char) :
    token? atName (c :: rest) = some (.char c, rest) := by
  simp only [wildcards, List.mem_cons, List.not_mem_nil, or_false, not_or] at h
  unfold token?
  split <;> simp_all

/-- A star that no other star follows stands for any text. -/
theorem token?_star {c : Char} (h : c ≠ '*') (atName : Bool) (rest : List Char) :
    token? atName ('*' :: c :: rest) = some (.anyText, c :: rest) := by
  unfold token?
  split <;> grind

theorem tokens?_cons (n : Nat) (atName : Bool) (c : Char) (cs : List Char) :
    tokens? (n + 1) atName (c :: cs) = do
      let (t, rest) ← token? atName (c :: cs)
      return t :: (← tokens? n (t = .char '/' || t = .anyDepth) rest) :=
  rfl

theorem tokens?_append (h : Plain s) (n : Nat) (atName : Bool) (rest : List Char) :
    ∃ atName', tokens? (s.length + n) atName (s ++ rest) =
      (tokens? n atName' rest).map (literal s ++ ·) := by
  induction s generalizing atName with
  | nil => exact ⟨atName, by simp [literal]⟩
  | cons c s ih =>
      obtain ⟨hc, hs⟩ := List.forall_mem_cons.1 h
      obtain ⟨atName', hrest⟩ := ih hs (Token.char c = .char '/' || Token.char c = .anyDepth)
      refine ⟨atName', ?_⟩
      rw [List.length_cons, Nat.succ_add, List.cons_append, tokens?_cons, token?_char hc]
      simp only [Option.bind_eq_bind, Option.bind_some, hrest]
      cases tokens? n atName' rest <;> rfl

theorem tokens?_literal (h : Plain s) (atName : Bool) :
    tokens? s.length atName s = some (literal s) := by
  obtain ⟨atName', hs⟩ := tokens?_append h 0 atName []
  simpa [tokens?] using hs

theorem parse?_literal {name : String} (h : Plain name.toList) :
    parse? name = some (literal name.toList) :=
  tokens?_literal h true

/-- A star before a text that stands for itself, and does not begin with a star. -/
theorem tokens?_star {c : Char} (h : Plain (c :: s)) (atName : Bool) :
    tokens? (s.length + 2) atName ('*' :: c :: s) = some (.anyText :: literal (c :: s)) := by
  have hc : c ≠ '*' := fun hstar => h c List.mem_cons_self (hstar ▸ by decide)
  have hrest := tokens?_literal h (Token.anyText = .char '/' || Token.anyText = .anyDepth)
  rw [tokens?_cons, token?_star hc]
  simp only [Option.bind_eq_bind, Option.bind_some]
  rw [List.length_cons] at hrest
  rw [hrest]
  rfl

theorem parse?_starred {front back : List Char} (hfront : Plain front) (hback : Plain back)
    (hne : back ≠ []) :
    parse? (String.ofList (front ++ '*' :: back)) = some (starred front back) := by
  obtain ⟨c, cs, rfl⟩ := List.exists_cons_of_ne_nil hne
  obtain ⟨atName, htokens⟩ := tokens?_append hfront (cs.length + 2) true ('*' :: c :: cs)
  rw [tokens?_star hback] at htokens
  rw [parse?, String.length_ofList, String.toList_ofList]
  have hlength : (front ++ '*' :: c :: cs).length = front.length + (cs.length + 2) := by simp
  rw [hlength, htokens]
  rfl

end Reading

section Fitting

variable {front back s : List Char} {ts : List Token}

theorem fits_literal_append (front : List Char) (ts : List Token) (s : List Char) :
    fits (literal front ++ ts) s = true ↔ ∃ rest, s = front ++ rest ∧ fits ts rest = true := by
  induction front generalizing s with
  | nil => simp [literal]
  | cons c front ih =>
      rw [literal, List.map_cons, ← literal, List.cons_append]
      cases s with
      | nil => simp [fits]
      | cons d s =>
          rw [fits, Bool.and_eq_true, decide_eq_true_eq, ih]
          constructor
          · rintro ⟨rfl, rest, rfl, hrest⟩
            exact ⟨rest, rfl, hrest⟩
          · rintro ⟨rest, hs, hrest⟩
            obtain ⟨rfl, rfl⟩ := List.cons_eq_cons.1 hs
            exact ⟨rfl, rest, rfl, hrest⟩

theorem fits_literal (text s : List Char) : fits (literal text) s = true ↔ s = text := by
  rw [← List.append_nil (literal text), fits_literal_append]
  simp [fits]

theorem fits_anyText (ts : List Token) (s : List Char) :
    fits (.anyText :: ts) s = true ↔ ∃ middle rest, s = middle ++ rest ∧ fits ts rest = true := by
  induction s with
  | nil =>
      rw [fits]
      simp
  | cons c s ih =>
      rw [fits, Bool.or_eq_true, ih]
      constructor
      · rintro (hnow | ⟨middle, rest, rfl, hlater⟩)
        · exact ⟨[], c :: s, rfl, hnow⟩
        · exact ⟨c :: middle, rest, rfl, hlater⟩
      · rintro ⟨middle, rest, hs, hrest⟩
        cases middle with
        | nil => exact .inl (hs ▸ hrest)
        | cons d middle =>
            obtain ⟨rfl, rfl⟩ := List.cons_eq_cons.1 hs
            exact .inr ⟨middle, rest, rfl, hrest⟩

/-- A star stands for whatever is between the texts around it. -/
theorem fits_starred (front back s : List Char) :
    fits (starred front back) s = true ↔ ∃ middle, s = front ++ (middle ++ back) := by
  simp only [starred, fits_literal_append, fits_anyText, fits_literal]
  constructor
  · rintro ⟨_, rfl, middle, _, rfl, rfl⟩
    exact ⟨middle, rfl⟩
  · rintro ⟨middle, rfl⟩
    exact ⟨_, rfl, middle, _, rfl, rfl⟩

end Fitting

section Reaching

variable {d : Disk} {base : Path} {here there names : List String} {entries : Fields FileTree}
  {name : String}

/-- The text that an entry of a directory has in front of its name. -/
def lead (base : Path) : String :=
  if base.text = "." then "" else base.front

theorem mem_lead {c : Char} (h : c ∈ (lead base).toList) : c ∈ base.text.toList ∨ c = '/' := by
  rw [lead] at h
  split at h
  · simp at h
  · exact Path.mem_front h

theorem utf8ByteSize_lead_le (base : Path) :
    (lead base).utf8ByteSize ≤ base.text.utf8ByteSize + 1 := by
  rw [lead]
  split
  · exact Nat.zero_le _
  · exact base.utf8ByteSize_front_le

theorem entryPath_eq (hbase : base.text ≠ "") (hname : '/' ∉ name.toList) :
    entryPath base name = ⟨lead base ++ name⟩ := by
  rw [entryPath, lead]
  split
  · rw [String.empty_append]
  · exact Path.join_eq hbase hname

theorem locate_entryPath (hlocate : d.locate base = .ok here)
    (hhere : FileTree.at? here d.tree = some (.directory entries)) (hname : '/' ∉ name.toList)
    (hpath : Disk.malformed? (entryPath base name) = none) :
    d.locate (entryPath base name) = d.tree.walk here [name] := by
  rw [entryPath] at hpath ⊢
  split
  · rename_i hdot
    rw [if_pos hdot] at hpath
    -- The working directory is where its entries are looked up as well.
    have hstart : d.start base = d.workingDirectory ∧ d.start ⟨name⟩ = d.workingDirectory := by
      rw [Disk.start, Disk.start, Path.isAbsolute_mk hname, Path.isAbsolute, hdot]
      exact ⟨rfl, rfl⟩
    have hwalk := (Disk.locate_eq_ok.1 hlocate).2
    have hpieces : base.pieces = ["."] := by
      rw [Path.pieces, hdot]
      rfl
    rw [hpieces, hstart.1] at hwalk
    obtain ⟨found, hfound⟩ := FileTree.isDirectory_of_walk hwalk hhere
    rw [FileTree.walk_stay (.inr rfl) hfound] at hwalk
    rw [Disk.locate, hpath, hstart.2, Except.ok.inj hwalk, Path.pieces,
      Text.splitString_of_notMem hname]
  · rename_i hdot
    rw [if_neg hdot] at hpath
    exact Disk.locate_join hlocate hhere hname hpath

/-- A path that starts at the working directory names something in it before it is empty at any
place. An empty name cannot be looked up there. -/
def Gapless (base : Path) (names : List String) : Prop :=
  base.text = "." → ∀ name ∈ names.find? (· ≠ "."), name ≠ ""

theorem Gapless.entryPath_ne (h : Gapless base (name :: names)) :
    lead base ++ name ≠ "" := by
  intro hempty
  obtain ⟨hlead, hname⟩ := String.append_eq_empty_iff.1 hempty
  have hdot : base.text = "." := by
    by_contra hdot
    have hslash := base.slash_mem_front
    rw [lead, if_neg hdot] at hlead
    rw [hlead] at hslash
    simp at hslash
  exact h hdot "" (by simp [hname]) rfl

theorem Gapless.tail (h : Gapless base (name :: names)) : Gapless ⟨lead base ++ name⟩ names := by
  intro hdot
  have hbase : base.text = "." := by
    by_contra hne
    have hslash : '/' ∈ (lead base ++ name).toList := by
      rw [lead, if_neg hne, String.toList_append]
      exact List.mem_append_left _ base.slash_mem_front
    rw [show lead base ++ name = "." from hdot] at hslash
    exact absurd hslash (by decide)
  have hname : name = "." := by
    rw [lead, if_pos hbase, String.empty_append] at hdot
    exact hdot
  have hrest := h hbase
  rw [List.find?_cons_of_neg (by simp [hname])] at hrest
  exact hrest

theorem malformed?_entryPath (hlocate : d.locate base = .ok here) (hslash : '/' ∉ name.toList)
    (hnul : '\x00' ∉ name.toList) (hne : lead base ++ name ≠ "")
    (hroom : (lead base ++ name).utf8ByteSize < Disk.pathBound) :
    Disk.malformed? (entryPath base name) = none := by
  obtain ⟨hbasenul, hbase, -⟩ := Disk.malformed?_eq_none.1 (Disk.locate_eq_ok.1 hlocate).1
  rw [entryPath_eq hbase hslash]
  refine Disk.malformed?_eq_none.2 ⟨?_, hne, hroom⟩
  rw [String.toList_append, List.mem_append, not_or]
  exact ⟨fun hmem => (mem_lead hmem).elim hbasenul (by decide), hnul⟩

/-- A name that leads from a directory to a directory is followed there. -/
theorem step?_eq_some {mid : List String} {more : Fields FileTree}
    (hlocate : d.locate base = .ok here)
    (hhere : FileTree.at? here d.tree = some (.directory entries)) (hslash : '/' ∉ name.toList)
    (hpath : Disk.malformed? (entryPath base name) = none)
    (hwalk : d.tree.walk here [name] = .ok mid)
    (hmid : FileTree.at? mid d.tree = some (.directory more)) :
    step? d base name = some (entryPath base name) ∧ d.locate (entryPath base name) = .ok mid := by
  have hnext := (locate_entryPath hlocate hhere hslash hpath).trans hwalk
  refine ⟨?_, hnext⟩
  have hdirectory : d.isDirectory base := by
    rw [Disk.isDirectory, Disk.lookup_eq_ok.2 ⟨here, hlocate, hhere⟩]
    rfl
  have hexists : d.exists? (entryPath base name) := by
    rw [Disk.exists?, Disk.lookup_eq_ok.2 ⟨mid, hnext, hmid⟩]
    rfl
  simp [step?, hdirectory, hexists]

/-- Names that lead to a directory are followed one by one. On the way a path only gets shorter
than it was written. -/
theorem exists_reached (hlocate : d.locate base = .ok here)
    (hwalk : d.tree.walk here names = .ok there)
    (hthere : FileTree.at? there d.tree = some (.directory entries))
    (hclean : ∀ name ∈ names, '/' ∉ name.toList ∧ '\x00' ∉ name.toList)
    (hgapless : Gapless base names)
    (hroom : (lead base ++ trail names).utf8ByteSize ≤ Disk.pathBound) :
    ∃ reached, names.foldlM (step? d) base = some reached ∧ d.locate reached = .ok there ∧
      (lead reached).utf8ByteSize ≤ (lead base ++ trail names).utf8ByteSize := by
  induction names generalizing base here with
  | nil => exact ⟨base, rfl, hwalk ▸ hlocate, by simp [trail]⟩
  | cons name rest ih =>
      obtain ⟨⟨hslash, hnul⟩, hclean⟩ := List.forall_mem_cons.1 hclean
      obtain ⟨found, hfound⟩ := FileTree.isDirectory_of_walk hwalk hthere
      rw [← List.singleton_append, FileTree.walk_append] at hwalk
      obtain ⟨mid, hfirst, hrest⟩ := bind_eq_ok.1 hwalk
      obtain ⟨more, hmore⟩ := FileTree.isDirectory_of_walk hrest hthere
      have hbase := (Disk.malformed?_eq_none.1 (Disk.locate_eq_ok.1 hlocate).1).2.1
      -- The slash behind the name leaves room for the end of the path.
      have hsizes : (lead base ++ trail (name :: rest)).utf8ByteSize =
          (lead base ++ name).utf8ByteSize + 1 + (trail rest).utf8ByteSize := by
        simp only [trail, String.utf8ByteSize_append]
        have hslash : "/".utf8ByteSize = 1 := rfl
        omega
      have hpath := malformed?_entryPath hlocate hslash hnul hgapless.entryPath_ne (by omega)
      obtain ⟨hstep, hnext⟩ := step?_eq_some hlocate hfound hslash hpath hfirst hmore
      rw [entryPath_eq hbase hslash] at hstep hnext
      have hshorter : (lead ⟨lead base ++ name⟩ ++ trail rest).utf8ByteSize ≤
          (lead base ++ trail (name :: rest)).utf8ByteSize := by
        have hlead : (lead ⟨lead base ++ name⟩).utf8ByteSize ≤
            (lead base ++ name).utf8ByteSize + 1 := utf8ByteSize_lead_le _
        rw [hsizes, String.utf8ByteSize_append]
        omega
      obtain ⟨reached, hreached, hlocated, hshort⟩ :=
        ih hnext hrest hclean hgapless.tail (hshorter.trans hroom)
      refine ⟨reached, ?_, hlocated, hshort.trans hshorter⟩
      rw [List.foldlM_cons, hstep]
      exact hreached

theorem lookup_entryPath {child : FileTree} (hlocate : d.locate base = .ok here)
    (hhere : FileTree.at? here d.tree = some (.directory entries)) (hname : Disk.EntryName name)
    (hchild : Fields.get? name entries = some child)
    (hroom : (lead base ++ name).utf8ByteSize < Disk.pathBound) :
    d.lookup (entryPath base name) = .ok child := by
  have hne : lead base ++ name ≠ "" := fun h =>
    Disk.ne_empty_of_isName hname.isName (String.append_eq_empty_iff.1 h).2
  have hpath := malformed?_entryPath hlocate hname.slashless hname.nulless hne hroom
  obtain ⟨hwalk, hat⟩ := FileTree.walk_name hhere hname.isName hname.short hchild
  have hentry := (locate_entryPath hlocate hhere hname.slashless hpath).trans hwalk
  exact Disk.lookup_eq_ok.2 ⟨_, hentry, hat⟩

end Reaching

section Directory

variable {d : Disk} {dir : Path} {entries : Fields FileTree}

/-- Where the names of a path are followed from. -/
def origin (p : Path) : Path :=
  if p.isAbsolute then ⟨"/"⟩ else ⟨"."⟩

theorem lead_origin_append (dir : Path) :
    lead (origin dir) ++ trail (names dir.text) = trail dir.leading := by
  rw [origin, Path.leading, Path.rootPieces]
  split
  · rw [Path.trail_append, Path.trail_singleton]
    rfl
  · rfl

theorem locate_origin {there : List String}
    (hwalk : d.tree.walk (d.start dir) dir.leading = .ok there)
    (hthere : FileTree.at? there d.tree = some (.directory entries)) :
    d.locate (origin dir) = .ok (d.start dir) ∧
      d.tree.walk (d.start dir) (names dir.text) = .ok there := by
  obtain ⟨found, hfound⟩ := FileTree.isDirectory_of_walk hwalk hthere
  have hempty := FileTree.walk_stay (.inl rfl) hfound
  rw [origin]
  by_cases habsolute : dir.isAbsolute
  · have hstart : d.start dir = [] := if_pos habsolute
    rw [Path.leading, Path.rootPieces, if_pos habsolute, FileTree.walk_append, hempty] at hwalk
    rw [if_pos habsolute]
    refine ⟨Disk.locate_eq_ok.2 ⟨by decide, ?_⟩, hwalk⟩
    rw [hstart] at hempty ⊢
    change d.tree.walk [] ([""] ++ [""]) = _
    rw [FileTree.walk_append, hempty]
    exact hempty
  · have hstart : d.start dir = d.workingDirectory := if_neg habsolute
    rw [Path.leading, Path.rootPieces, if_neg habsolute] at hwalk
    rw [if_neg habsolute]
    refine ⟨Disk.locate_eq_ok.2 ⟨by decide, ?_⟩, hwalk⟩
    rw [hstart] at hfound ⊢
    exact FileTree.walk_stay (.inr rfl) hfound

theorem exists_pieces_entryPath {base : Path} (hbase : base.text ≠ "") :
    ∃ above, ∀ name, '/' ∉ name.toList → (entryPath base name).pieces = above ++ [name] := by
  by_cases hdot : base.text = "."
  · refine ⟨[], fun name hname => ?_⟩
    rw [entryPath, if_pos hdot, Path.pieces, Text.splitString_of_notMem hname, List.nil_append]
  · refine ⟨base.leading, fun name hname => ?_⟩
    rw [entryPath, if_neg hdot, Path.pieces_join hbase hname]

theorem mem_front_of_mem_names {name : String} {c : Char} (hdir : dir.text ≠ "")
    (hname : name ∈ names dir.text) (hc : c ∈ name.toList) : c ∈ dir.front.toList := by
  rw [(Path.leading_eq hdir).1, Path.toList_trail]
  refine List.mem_flatMap.2 ⟨name.toList, ?_, List.mem_append_left _ hc⟩
  exact List.mem_map_of_mem (List.mem_append_right _ hname)

/-- The path to a directory under which a pattern finds its entries. It is the path of the pattern
without what makes no difference to it. -/
structure Reaches (d : Disk) (dir reached : Path) (entries : Fields FileTree) : Prop where
  followed : (names dir.text).foldlM (step? d) (origin dir) = some reached
  entryNames : d.entryNames reached = Fields.keys entries
  lookup : ∀ name child, Disk.EntryName name → Fields.get? name entries = some child →
    (dir.join ⟨name⟩).text.utf8ByteSize < Disk.pathBound →
      d.lookup (entryPath reached name) = .ok child
  endsWith : ∃ above, ∀ name, '/' ∉ name.toList →
    (entryPath reached name).pieces = above ++ [name]

theorem exists_reaches (hdir : d.lookup dir = .ok (.directory entries))
    (hgapless : Gapless (origin dir) (names dir.text)) :
    ∃ reached, Reaches d dir reached entries := by
  obtain ⟨there, hlocate, hthere⟩ := Disk.lookup_eq_ok.1 hdir
  obtain ⟨hnul, hne, hshort⟩ := Disk.malformed?_eq_none.1 (Disk.locate_eq_ok.1 hlocate).1
  have hleading := (Path.leading_eq hne).1
  have hfront := dir.utf8ByteSize_front_le
  have hclean : ∀ name ∈ names dir.text, '/' ∉ name.toList ∧ '\x00' ∉ name.toList := by
    intro name hname
    refine ⟨Path.notMem_of_mem_leading hne (List.mem_append_right _ hname), fun hmem => ?_⟩
    exact (Path.mem_front (mem_front_of_mem_names hne hname hmem)).elim hnul (by decide)
  have horigin := locate_origin (Disk.walk_leading hlocate hthere) hthere
  obtain ⟨reached, hfollowed, hlocated, hroom⟩ := exists_reached horigin.1 horigin.2 hthere hclean
    hgapless (by rw [lead_origin_append, ← hleading]; omega)
  rw [lead_origin_append, ← hleading] at hroom
  have hreached := (Disk.malformed?_eq_none.1 (Disk.locate_eq_ok.1 hlocated).1).2.1
  refine ⟨reached, hfollowed, ?_, ?_, ?_⟩
  · rw [Disk.entryNames, Disk.lookup_eq_ok.2 ⟨there, hlocated, hthere⟩]
    rfl
  · intro name child hname hchild hsize
    refine lookup_entryPath hlocated hthere hname hchild ?_
    rw [Path.join_eq hne hname.slashless, String.utf8ByteSize_append] at hsize
    rw [String.utf8ByteSize_append]
    omega
  · exact exists_pieces_entryPath hreached

theorem isDeep_literal (s : List Char) : isDeep (literal s) = false := by
  simp [isDeep, literal]

theorem literal?_literal (s : List Char) : literal? (literal s) = some (String.ofList s) := by
  have hmap : (literal s).mapM Token.char? = some s := by
    induction s with
    | nil => rfl
    | cons c s ih =>
        rw [literal, List.map_cons, ← literal, List.mapM_cons, ih]
        rfl
  rw [literal?, hmap]
  rfl

/-- Names without wildcards are followed before anything is tried against a pattern. -/
theorem expand_literal (d : Disk) (names : List String) (n : Nat) (rest : List (List Token))
    (base : Path) :
    expand d (names.length + n) (names.map (literal ·.toList) ++ rest) base =
      (names.foldlM (step? d) base).toList.flatMap (expand d n rest) := by
  induction names generalizing base with
  | nil => simp
  | cons name names ih =>
      rw [List.length_cons, Nat.succ_add, List.map_cons, List.cons_append, expand,
        isDeep_literal, literal?_literal, String.ofList_toList, List.foldlM_cons,
        if_neg Bool.false_ne_true]
      dsimp only
      cases step? d base name with
      | none => rfl
      | some next => simpa using ih next

theorem literal?_starred (front back : List Char) : literal? (starred front back) = none := by
  have hmap : (starred front back).mapM Token.char? = none := by
    induction front with
    | nil => rfl
    | cons c front ih =>
        have hcons : starred (c :: front) back = .char c :: starred front back := rfl
        rw [hcons, List.mapM_cons, ih]
        rfl
  rw [literal?, hmap]
  rfl

/-- A star in the last name is tried against the entries of the directory. -/
theorem expand_starred {front : List Char} (back : List Char) (hne : front ≠ [])
    (hdot : front.head? ≠ some '.') (base : Path) :
    expand d 1 [starred front back] base =
      ((d.entryNames base).filter fun name => fits (starred front back) name.toList).map
        (entryPath base) := by
  obtain ⟨c, cs, rfl⟩ := List.exists_cons_of_ne_nil hne
  have hhead : (starred (c :: cs) back).head? ≠ some (.char '.') := by
    intro h
    have hc : Token.char c = .char '.' := Option.some.inj h
    exact hdot (congrArg some (Token.char.inj hc))
  have hdeep : isDeep (starred (c :: cs) back) = false := by simp [isDeep, starred, literal]
  have hlast : expand d 0 [] = fun found => [found] := by
    funext found
    rw [expand]
  rw [expand, hdeep, literal?_starred, hlast]
  simp [fitting, hhead, List.flatMap_singleton']

theorem mapM_parse?_literal {names : List String} (h : ∀ name ∈ names, Plain name.toList) :
    names.mapM parse? = some (names.map (literal ·.toList)) := by
  induction names with
  | nil => rfl
  | cons name names ih =>
      obtain ⟨hname, hnames⟩ := List.forall_mem_cons.1 h
      rw [List.mapM_cons, parse?_literal hname, ih hnames]
      rfl

/-- In a directory whose path holds no wildcard, a pattern of one star finds the entries that begin
and end as it does. -/
theorem find?_starred {reached : Path} {front back : List Char} (hne : dir.text ≠ "")
    (hplain : Plain dir.text.toList) (hreached : Reaches d dir reached entries)
    (hfront : Plain front) (hfrontne : front ≠ []) (hdot : front.head? ≠ some '.')
    (hback : Plain back) (hbackne : back ≠ []) (hslash : '/' ∉ front ++ back) :
    find? d (dir.join ⟨String.ofList (front ++ '*' :: back)⟩).text =
      some (((Fields.keys entries).filter fun name =>
        fits (starred front back) name.toList).map (entryPath reached)) := by
  set pattern := String.ofList (front ++ '*' :: back) with hpattern
  have hnoslash : '/' ∉ pattern.toList := by
    rw [hpattern, String.toList_ofList]
    simpa using hslash
  have hpatternne : pattern ≠ "" := by
    intro hempty
    have := congrArg String.toList hempty
    simp [hpattern] at this
  have hdirfront : Plain dir.front.toList := fun c hc =>
    (Path.mem_front hc).elim (hplain c) fun hslash => hslash ▸ by decide
  have htext : dir.front ++ pattern =
      String.ofList (dir.front.toList ++ front ++ '*' :: back) := by
    apply String.toList_injective
    simp [hpattern]
  have hparse : parse? (dir.join ⟨pattern⟩).text =
      some (starred (dir.front.toList ++ front) back) := by
    rw [Path.join_eq hne hnoslash, htext, parse?_starred (hdirfront.append hfront) hback hbackne]
  have hnames : (names (dir.join ⟨pattern⟩).text).mapM parse? =
      some ((names dir.text).map (literal ·.toList) ++ [starred front back]) := by
    rw [Path.names_join hne hnoslash hpatternne, List.mapM_append,
      mapM_parse?_literal fun name hname c hc =>
        hdirfront c (mem_front_of_mem_names hne hname hc),
      List.mapM_cons, hpattern, parse?_starred hfront hback hbackne]
    rfl
  have horigin : (if (dir.join ⟨pattern⟩).text.toList.head? = some '/' then (⟨"/"⟩ : Path)
      else ⟨"."⟩) = origin dir := by
    rw [origin, ← Path.isAbsolute_join hne hnoslash, Path.isAbsolute]
    simp only [decide_eq_true_eq]
  simp only [find?, hparse, hnames, horigin, Option.bind_eq_bind, Option.bind_some, Option.pure_def,
    List.length_append, List.length_map, List.length_singleton, Option.some.injEq]
  rw [expand_literal, hreached.followed, Option.toList_some, List.flatMap_singleton,
    expand_starred back hfrontne hdot, hreached.entryNames]

end Directory

end ArtifactFlow.Glob
