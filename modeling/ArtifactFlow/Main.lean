import ArtifactFlow.CommandLine.Execution

/-!
The command line program, which has no crafts of its own. It copies the files that a command can
look at, carries the command out on the copy, and prints what comes of it.
-/

namespace ArtifactFlow.Main

def copyFile (d : Disk) (p : Path) : IO Disk := do
  try
    let bytes ← IO.FS.readBinFile p.text
    let d := match p.parent? with
      | some parent => (d.createDirectories parent).2
      | none => d
    return (d.replaceFile? p bytes).getD d
  catch _ => return d

/-- Copies a directory with what is below it, down to a depth. -/
def copyTree : Nat → Disk → Path → IO Disk
  | 0, d, _ => return d
  | depth + 1, d, p => do
      let directory := (← IO.currentDir) / p.text
      if !(← directory.isDir) then return d
      let mut d := (d.createDirectories p).2
      for entry in ← directory.readDir do
        let inner := p.join ⟨entry.fileName⟩
        if ← entry.path.isDir then d ← copyTree depth d inner
        else d ← copyFile d inner
      return d

def copyDepth : Nat := 64

/-- The working directory, and the manifests in it and above it. -/
def copyWorkingDirectory : IO Disk := do
  let here : Path := ⟨(← IO.currentDir).toString⟩
  let names := here.parts.filterMap fun
    | .name n => some n
    | _ => none
  let d := (Disk.createDirectories ⟨.empty, names⟩ here).2
  here.ancestors.foldlM (fun d p => copyFile d (p.join ⟨Manifest.fileName⟩)) d

/-- What a command can look at: the manifest of its project and the directories that this names. -/
def copyProject (manifest : Option Path) : IO Disk := do
  let d ← copyWorkingDirectory
  let d ← match manifest with
    | some p => copyFile d p
    | none => pure d
  match Manifest.locate d manifest with
  | .error _ => return d
  | .ok path =>
      match Manifest.read d path with
      | .error _ => return d
      | .ok m =>
          [m.configuration, m.catalog, m.parameters, m.pipelines].foldlM
            (fun d p => copyTree copyDepth d ((Session.rootOf path).join p)) d

end ArtifactFlow.Main

open ArtifactFlow in
def main (args : List String) : IO UInt32 := do
  match CommandLine.Invocation.ofWords args with
  | .error e =>
      IO.eprintln e.message
      return e.status
  | .ok i =>
      let e := CommandLine.execute (← Main.copyProject i.manifest) [] i
      IO.print e.output
      IO.eprint e.errorOutput
      return if e.failure.isSome then 1 else 0
