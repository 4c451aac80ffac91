import ArtifactFlow.Craft.Hook
import ArtifactFlow.Craft.Inputs

/-!
A craft is a function with a contract. Its identity is a number: crafts of one number are the same
craft, whatever else they have in common with others.
-/

namespace ArtifactFlow

structure Craft where
  id : Nat
  name : String
  contract : Contract
  /-- The outputs by name for given inputs. -/
  body : Inputs → Result Mapping
  hooks : List Hook

namespace Craft

/-- A craft, which must not declare an output twice. -/
def make (id : Nat) (name : String) (contract : Contract) (body : Inputs → Result Mapping)
    (hooks : List Hook) : Except Fault Craft :=
  match Contract.firstRepeated? [] contract.producedNames with
  | some output => .error (.duplicateOutput name output)
  | none => .ok ⟨id, name, contract, body, hooks⟩

end Craft

/-- The crafts that definitions may name, in ascending order of names. -/
abbrev CraftRegistry := Fields Craft

def CraftRegistry.register (crafts : CraftRegistry) (craft : Craft) : CraftRegistry :=
  Fields.insertSorted craft.name craft crafts

end ArtifactFlow
