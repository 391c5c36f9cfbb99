import SchemaAtlas.Main
import SchemaAtlas.Proofs.BuilderRuns
import SchemaAtlas.Proofs.Concerns
import SchemaAtlas.Proofs.Conformance
import SchemaAtlas.Proofs.Covariance
import SchemaAtlas.Proofs.Cycles
import SchemaAtlas.Proofs.DefinitionOrder
import SchemaAtlas.Proofs.ExplicitRoot
import SchemaAtlas.Proofs.Inhabitation
import SchemaAtlas.Proofs.Legality
import SchemaAtlas.Proofs.Merging
import SchemaAtlas.Proofs.Rejection
import SchemaAtlas.Proofs.RootOutcome
import SchemaAtlas.Proofs.RoundTrip
import SchemaAtlas.Proofs.Stability
import SchemaAtlas.Proofs.Trimming
import SchemaAtlas.Proofs.WellFormed
import SchemaAtlas.Schema.Export
import SchemaAtlas.Proofs.Fitting
import SchemaAtlas.Proofs.HeldValues
import SchemaAtlas.Proofs.Defaults
import SchemaAtlas.Proofs.WrittenValues
import SchemaAtlas.Proofs.RootedTypes
import SchemaAtlas.Proofs.Lookups
import SchemaAtlas.Proofs.OwedInterfaces
import SchemaAtlas.Proofs.Growth
import SchemaAtlas.Proofs.Unlinking
import SchemaAtlas.Proofs.UsageReports
import SchemaAtlas.Proofs.Labels
import SchemaAtlas.Proofs.ElementPaths
import SchemaAtlas.Proofs.PathReports
import SchemaAtlas.Proofs.KeyedGraphs
import SchemaAtlas.Proofs.TypeTexts
