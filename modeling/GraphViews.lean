import GraphViews.Access.Accessor
import GraphViews.Access.Error
import GraphViews.Access.Multi
import GraphViews.Association.Factory
import GraphViews.Association.Manager
import GraphViews.Association.Reconcile
import GraphViews.Binding.Apply
import GraphViews.Binding.Context
import GraphViews.Binding.Error
import GraphViews.Binding.Generate
import GraphViews.Binding.Meta
import GraphViews.Binding.Run
import GraphViews.Binding.Stage
import GraphViews.Binding.Staged
import GraphViews.Binding.Strategy
import GraphViews.Convert
import GraphViews.ErrorCode
import GraphViews.Event.Basic
import GraphViews.Event.Stream
import GraphViews.Model.Debug
import GraphViews.Model.Equality
import GraphViews.Model.Store
import GraphViews.Model.Type
import GraphViews.Number.Nearest
import GraphViews.Number.Shortest
import GraphViews.Number.Text
import GraphViews.Scalar.Basic
import GraphViews.Scalar.Coerce
import GraphViews.Script.Accessors
import GraphViews.Script.Answer
import GraphViews.Script.Context
import GraphViews.Script.Doc
import GraphViews.Script.Engine
import GraphViews.Script.Entities
import GraphViews.Script.Events
import GraphViews.Script.Fault
import GraphViews.Script.Frames
import GraphViews.Script.Json
import GraphViews.Script.Scalars
import GraphViews.Script.Session
import GraphViews.Script.Templates
import GraphViews.Script.Types
import GraphViews.Script.Values
import GraphViews.Script.Variables
import GraphViews.Template.Builder
import GraphViews.Template.Error
import GraphViews.Template.Kind
import GraphViews.Template.Node
import GraphViews.Template.Validate
import GraphViews.Text.Case
import GraphViews.Text.Quoted
import GraphViews.Text.Unicode
import GraphViews.Time.Rfc3339
import GraphViews.Proofs.Nesting
import GraphViews.Proofs.FailureFamilies
import GraphViews.Proofs.Atomicity
import GraphViews.Proofs.Generation
import GraphViews.Proofs.Discrimination
import GraphViews.Proofs.Effects
import GraphViews.Proofs.Ordered
import GraphViews.Proofs.Unordered
import GraphViews.Proofs.Keyed
import GraphViews.Proofs.ToOne
import GraphViews.Proofs.Calendar
import GraphViews.Proofs.Instants
import GraphViews.Proofs.Bisimilarity
import GraphViews.Proofs.CyclicGraphs
import GraphViews.Proofs.EqualityLaws
import GraphViews.Proofs.Elements
import GraphViews.Proofs.Staging
import GraphViews.Proofs.CollectionCalls
import GraphViews.Proofs.OrderedCalls
import GraphViews.Proofs.LenientReading
import GraphViews.Proofs.NullOmission
import GraphViews.Proofs.VisibleProperties
import GraphViews.Proofs.ReadOnlyGeneration
import GraphViews.Proofs.ObjectBlocks
import GraphViews.Proofs.Routing
import GraphViews.Proofs.Repetition
import GraphViews.Proofs.DraftTree
import GraphViews.Proofs.Grafting
import GraphViews.Proofs.DelimitedArrays
import GraphViews.Proofs.DiscriminatorResolution
import GraphViews.Proofs.LenientApplication
