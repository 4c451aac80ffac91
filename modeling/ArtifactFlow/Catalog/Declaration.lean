import ArtifactFlow.Value.Basic

/-!
What is declared about an artifact. The fields in `extra` may hold placeholders; a resolved
declaration holds what became of them for one call.
-/

namespace ArtifactFlow

/-- A declared artifact. -/
structure Declaration where
  name : String
  artifactType : String
  extra : Mapping
  loadOptions : Mapping
  saveOptions : Mapping
  /-- The fields that are `null` where an argument is missing, ascending. -/
  nullable : List String
  /-- The fields whose expressions are evaluated, ascending. -/
  expressions : List String

/-- A declaration whose placeholders are bound for one call. -/
structure ResolvedDeclaration where
  name : String
  artifactType : String
  extra : Mapping
  loadOptions : Mapping
  saveOptions : Mapping

/-- The entry of a list of names, which is left out when there are none. -/
def namesEntry (key : String) (names : List String) : Mapping :=
  if names.isEmpty then [] else [(key, .list (names.map .string))]

namespace Declaration

def isNullable (d : Declaration) (field : String) : Bool :=
  d.nullable.contains field

def isExpression (d : Declaration) (field : String) : Bool :=
  d.expressions.contains field

def toValue (d : Declaration) : Value :=
  .mapping ([("name", .string d.name), ("type", .string d.artifactType),
    ("extra", .mapping d.extra), ("load_options", .mapping d.loadOptions),
    ("save_options", .mapping d.saveOptions)] ++
    namesEntry "nullable" d.nullable ++ namesEntry "expressions" d.expressions)

end Declaration

namespace ResolvedDeclaration

def path? (d : ResolvedDeclaration) : Option String :=
  Fields.get? "path" d.extra >>= Value.asString?

def toValue (d : ResolvedDeclaration) : Value :=
  .mapping [("name", .string d.name), ("type", .string d.artifactType),
    ("extra", .mapping d.extra), ("load_options", .mapping d.loadOptions),
    ("save_options", .mapping d.saveOptions)]

end ResolvedDeclaration
end ArtifactFlow
