import ArtifactFlow.Main
import ArtifactFlow.Proofs.Catalog.Confinement
import ArtifactFlow.Proofs.Catalog.History
import ArtifactFlow.Proofs.Catalog.Suggestion
import ArtifactFlow.Proofs.Catalog.TextFields
import ArtifactFlow.Proofs.CommandLine.Assignments
import ArtifactFlow.Proofs.Definitions.Build
import ArtifactFlow.Proofs.Expression.Aliases
import ArtifactFlow.Proofs.Expression.Grammar
import ArtifactFlow.Proofs.Expression.Nesting
import ArtifactFlow.Proofs.Expression.Selection
import ArtifactFlow.Proofs.Graph.Circle
import ArtifactFlow.Proofs.Graph.Links
import ArtifactFlow.Proofs.Pipeline.Alone
import ArtifactFlow.Proofs.Pipeline.Reordering
import ArtifactFlow.Proofs.Pipeline.Succession
import ArtifactFlow.Proofs.Placeholder.Flaws
import ArtifactFlow.Proofs.Project.Inheritance
import ArtifactFlow.Proofs.Project.Layers
import ArtifactFlow.Proofs.Project.Precedence
import ArtifactFlow.Proofs.Project.Validation
import ArtifactFlow.Proofs.Run.Alarm
import ArtifactFlow.Proofs.Run.Extension
import ArtifactFlow.Proofs.Run.Influence
import ArtifactFlow.Proofs.Run.Missing
import ArtifactFlow.Proofs.Run.Setback
import ArtifactFlow.Proofs.Storage.Registration
import ArtifactFlow.Proofs.Value.Grouping
