import ArtifactFlow.Text.Split

/-!
Where an artifact is kept: a scheme and a path. A text without a scheme is a path alone.
-/

namespace ArtifactFlow

structure Location where
  /-- Empty for a path alone; letters are small. -/
  scheme : String
  path : String
  deriving DecidableEq, Repr

namespace Location

def isSchemeChar (c : Char) : Bool :=
  c.isAlphanum || c = '+' || c = '-' || c = '.'

/-- The location that a text stands for. The scheme ends at the first `://`; case does not matter
in it. -/
def parse (raw : String) : Location :=
  match Text.cutAt? [':', '/', '/'] raw.toList with
  | some (scheme, path) =>
      if !scheme.isEmpty && scheme.all isSchemeChar then
        ⟨String.ofList (scheme.map Char.toLower), String.ofList path⟩
      else ⟨"", raw⟩
  | none => ⟨"", raw⟩

def text (l : Location) : String :=
  if l.scheme.isEmpty then l.path else l.scheme ++ "://" ++ l.path

end Location
end ArtifactFlow
