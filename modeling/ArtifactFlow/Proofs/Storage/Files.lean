import ArtifactFlow.Proofs.Storage.Memory
import Mathlib.Logic.Relation

/-!
Files on a disk. To make a directory leaves every file as it is. An attempt to write a file that
fails has done no more than to make directories on the way to it.
-/

namespace ArtifactFlow

namespace FileTree

/-- Both trees hold the same files, with the same contents. -/
def SameFiles (t u : FileTree) : Prop :=
  ∀ names content, at? names u = some (.file content) ↔ at? names t = some (.file content)

theorem SameFiles.directories {old new : Fields FileTree}
    (h : ∀ name rest content, at? (name :: rest) (.directory new) = some (.file content) ↔
      at? (name :: rest) (.directory old) = some (.file content)) :
    SameFiles (.directory old) (.directory new) := by
  intro names content
  cases names with
  | nil => simp [at?]
  | cons name rest => exact h name rest content

/-- A new directory has no files, and is in the way of none. -/
theorem sameFiles_put {tree : FileTree} {parent : List String} {last : String}
    {entries : Fields FileTree} (hparent : at? parent tree = some (.directory entries))
    (hnew : Fields.get? last entries = none) :
    SameFiles tree (put .empty (parent ++ [last]) tree) := by
  induction parent generalizing tree with
  | nil =>
      obtain rfl := Option.some.inj hparent
      refine .directories fun name rest content => ?_
      simp only [put, at?, FileTree.entries, Fields.get?_insert]
      split
      · rename_i heq
        subst heq
        cases rest <;> simp [at?, empty, hnew, FileTree.entries]
      · rfl
  | cons first parent ih =>
      cases tree with
      | file content => simp [at?, FileTree.entries] at hparent
      | directory old =>
          obtain ⟨tree, hfirst, hparent⟩ := Option.bind_eq_some_iff.1 hparent
          have hfirst : Fields.get? first old = some tree := hfirst
          refine .directories fun name rest content => ?_
          simp only [at?, FileTree.entries, Fields.get?_insert, hfirst, Option.getD_some]
          split
          · rename_i heq
            subst heq
            rw [hfirst]
            exact ih hparent rest content
          · rfl

end FileTree

namespace Disk

/-- The one disk comes of the other by making directories at some paths. -/
def MakesDirectories (paths : List Path) : Disk → Disk → Prop :=
  Relation.ReflTransGen fun d e => ∃ p ∈ paths, d.createDirectory p = .ok e

/-- Both disks hold the same files, and paths start from the same place. -/
structure SameFiles (d e : Disk) : Prop where
  tree : d.tree.SameFiles e.tree
  workingDirectory : e.workingDirectory = d.workingDirectory

variable {d e : Disk} {p : Path} {paths : List Path}

theorem createDirectory_eq_ok (h : d.createDirectory p = .ok e) :
    ∃ parent last entries, FileTree.at? parent d.tree = some (.directory entries) ∧
      Fields.get? last entries = none ∧
      e = { d with tree := FileTree.put .empty (parent ++ [last]) d.tree } := by
  rcases hsplit : splitLast true p with ⟨above, last⟩
  simp only [createDirectory, hsplit] at h
  split at h
  · cases h
  · obtain ⟨parent, -, h⟩ := bind_eq_ok.1 h
    split at h
    · rename_i entries hparent
      split_ifs at h with _ _ hnew
      refine ⟨parent, last, entries, hparent, ?_, (Except.ok.inj h).symm⟩
      simpa [Fields.contains] using hnew
    · cases h
    · cases h

theorem sameFiles_createDirectory (h : d.createDirectory p = .ok e) : d.SameFiles e := by
  obtain ⟨parent, last, entries, hparent, hnew, rfl⟩ := createDirectory_eq_ok h
  exact ⟨FileTree.sameFiles_put hparent hnew, rfl⟩

theorem MakesDirectories.sameFiles (h : MakesDirectories paths d e) : d.SameFiles e := by
  induction h with
  | refl => exact ⟨fun _ _ => Iff.rfl, rfl⟩
  | tail _ hstep ih =>
      obtain ⟨p, -, hstep⟩ := hstep
      have hlast := sameFiles_createDirectory hstep
      exact ⟨fun names content => (hlast.tree names content).trans (ih.tree names content),
        hlast.workingDirectory.trans ih.workingDirectory⟩

theorem MakesDirectories.mono {others : List Path} (h : MakesDirectories paths d e)
    (hsub : paths ⊆ others) : MakesDirectories others d e := by
  induction h with
  | refl => exact .refl
  | tail _ hstep ih =>
      obtain ⟨p, hp, hstep⟩ := hstep
      exact ih.tail ⟨p, hsub hp, hstep⟩

theorem makesDirectories_createChain (d : Disk) (paths : List Path) :
    MakesDirectories paths d (d.createChain paths).2 := by
  induction paths with
  | nil => exact .refl
  | cons p above ih =>
      have hmono := ih.mono (List.subset_cons_self p above)
      have hmade {e f : Disk} (h : e.createDirectory p = .ok f) :
          ∃ q ∈ p :: above, e.createDirectory q = .ok f := ⟨p, List.mem_cons_self, h⟩
      rw [createChain]
      split
      · exact .refl
      · cases hfirst : d.createDirectory p with
        | ok made => exact .single (hmade hfirst)
        | error trouble =>
            cases trouble with
            | notFound =>
                dsimp only
                rcases hchain : d.createChain above with ⟨trouble | ⟨⟩, made⟩ <;>
                  rw [hchain] at hmono
                · exact hmono
                · dsimp only
                  cases hagain : made.createDirectory p with
                  | ok last => exact hmono.tail (hmade hagain)
                  | error trouble => exact hmono
            | _ => exact .refl

theorem makesDirectories_of_writeArtifact {bytes : ByteArray} {source : Failure}
    (h : d.writeArtifact p bytes = (.error source, e)) :
    MakesDirectories (artifactDirectory p).ancestors d e := by
  have hmade := d.makesDirectories_createChain (artifactDirectory p).ancestors
  simp only [writeArtifact, createDirectories] at h
  rcases hchain : d.createChain (artifactDirectory p).ancestors with ⟨trouble | ⟨⟩, made⟩ <;>
    rw [hchain] at hmade <;> simp only [hchain] at h
  · exact (Prod.mk.inj h).2 ▸ hmade
  · cases hreplace : made.replaceFile? p bytes with
    | some last => simp [hreplace] at h
    | none =>
        rw [hreplace] at h
        exact (Prod.mk.inj h).2 ▸ hmade

end Disk

namespace Store

/-- A write that fails changes nothing, or it was to a file and made directories. -/
theorem writeAt_eq_error {s t : Store} {l : Location} {bytes : ByteArray} {source : Failure}
    (h : s.writeAt l bytes = (.error source, t)) :
    t = s ∨ ∃ root, Fields.get? l.scheme s.backends = some (.files root) ∧
      t.backends = s.backends ∧
      s.disk.MakesDirectories (Disk.artifactDirectory (root.join ⟨l.path⟩)).ancestors t.disk := by
  cases hback : s.backend l with
  | error e =>
      rw [writeAt, hback] at h
      exact .inl (Prod.mk.inj h).2.symm
  | ok b =>
      cases b with
      | memory contents => simp [writeAt, hback] at h
      | files root =>
          simp only [writeAt, hback] at h
          rcases hwrite : s.disk.writeArtifact (root.join ⟨l.path⟩) bytes with ⟨result, disk⟩
          rw [hwrite] at h
          obtain ⟨rfl, rfl⟩ := Prod.mk.inj h
          exact .inr ⟨root, backend_eq_ok.1 hback, rfl,
            Disk.makesDirectories_of_writeArtifact hwrite⟩

end Store
end ArtifactFlow
