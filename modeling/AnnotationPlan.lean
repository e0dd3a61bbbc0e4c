import AnnotationPlan.AnnotationUse.Basic
import AnnotationPlan.AnnotationUse.Format
import AnnotationPlan.AnnotationUse.Literal
import AnnotationPlan.AnnotationUse.Load
import AnnotationPlan.CommandLine
import AnnotationPlan.Criteria.Basic
import AnnotationPlan.Criteria.Criterion
import AnnotationPlan.Decimal.Layout
import AnnotationPlan.Decimal.Shortest
import AnnotationPlan.Digest.Sha256
import AnnotationPlan.Error
import AnnotationPlan.Insertion.Gather
import AnnotationPlan.Insertion.InPlace
import AnnotationPlan.Insertion.Store
import AnnotationPlan.JavaType.Basic
import AnnotationPlan.JavaType.Json
import AnnotationPlan.Json.Document
import AnnotationPlan.Json.Load
import AnnotationPlan.Json.Numeral
import AnnotationPlan.Json.Source
import AnnotationPlan.Location.AstPath
import AnnotationPlan.Location.LocalVariable
import AnnotationPlan.Location.Relative
import AnnotationPlan.Location.Scan
import AnnotationPlan.Location.TypePath
import AnnotationPlan.Main
import AnnotationPlan.OrderedMap
import AnnotationPlan.Report.Record
import AnnotationPlan.Report.Response
import AnnotationPlan.Scene.Basic
import AnnotationPlan.Scene.Element
import AnnotationPlan.Scene.Load
import AnnotationPlan.Schema.Definition
import AnnotationPlan.Schema.FieldType
import AnnotationPlan.Schema.NamePolicy
import AnnotationPlan.Settings
import AnnotationPlan.Synthesis.Constructors
import AnnotationPlan.Synthesis.Draft
import AnnotationPlan.Synthesis.Plan
import AnnotationPlan.Synthesis.Site
import AnnotationPlan.Text.Alphanumeric
import AnnotationPlan.Text.Blank
import AnnotationPlan.Text.Names
import AnnotationPlan.Proofs.Plan.Coverage
import AnnotationPlan.Proofs.Plan.Exclusive
import AnnotationPlan.Proofs.Plan.Independence
import AnnotationPlan.Proofs.Plan.Kinds
import AnnotationPlan.Proofs.Plan.NeededConstructors
import AnnotationPlan.Proofs.Plan.Pairs
import AnnotationPlan.Proofs.Plan.Receivers
import AnnotationPlan.Proofs.Plan.Safety
import AnnotationPlan.Proofs.Draft.Warnings
import AnnotationPlan.Proofs.Plan.Lookups
import AnnotationPlan.Proofs.Draft.Gist
import AnnotationPlan.Proofs.Scene.Alike
import AnnotationPlan.Proofs.Scene.Change
import AnnotationPlan.Proofs.Plan.Equivalence
import AnnotationPlan.Proofs.Draft.Placing
import AnnotationPlan.Proofs.Scene.Outline
import AnnotationPlan.Proofs.Plan.Order
import AnnotationPlan.Proofs.Plan.Policies
import AnnotationPlan.Proofs.Plan.WrittenNames
import AnnotationPlan.Proofs.Plan.UnknownDefinitions
import AnnotationPlan.Proofs.Plan.ReceiverPlaces
import AnnotationPlan.Proofs.AnnotationUse.Conformity
import AnnotationPlan.Proofs.Location.RoundTrip
import AnnotationPlan.Proofs.AnnotationUse.Sameness
import AnnotationPlan.Proofs.Store.Traces
import AnnotationPlan.Proofs.Draft.Traces
import AnnotationPlan.Proofs.Plan.Traces
import AnnotationPlan.Proofs.AnnotationUse.Loaded
import AnnotationPlan.Proofs.Draft.Notes
import AnnotationPlan.Proofs.Draft.Census
import AnnotationPlan.Proofs.Draft.Counting
import AnnotationPlan.Proofs.Draft.Shuffled
import AnnotationPlan.Proofs.Plan.Shuffled
import AnnotationPlan.Proofs.Json.Texts
import AnnotationPlan.Proofs.Json.Reading
import AnnotationPlan.Proofs.JavaType.RoundTrip
import AnnotationPlan.Proofs.Report.Fingerprint
import AnnotationPlan.Proofs.Draft.Attribution
import AnnotationPlan.Proofs.Draft.Accounts
import AnnotationPlan.Proofs.Draft.Absorbing
import AnnotationPlan.Proofs.Plan.Absorbing
import AnnotationPlan.Proofs.Draft.Declared
import AnnotationPlan.Proofs.Plan.Declared
import AnnotationPlan.Proofs.Schema.Lookup
import AnnotationPlan.Proofs.JavaType.Decoration
import AnnotationPlan.Proofs.JavaType.Shown
import AnnotationPlan.Proofs.Store.Decoration
import AnnotationPlan.Proofs.Scene.CastPlaces
import AnnotationPlan.Proofs.Scene.Insertions
import AnnotationPlan.Proofs.Scene.Loaded
import AnnotationPlan.Proofs.Draft.BareCasts
import AnnotationPlan.Proofs.Plan.BareCasts
import AnnotationPlan.Proofs.AnnotationUse.FieldOrder
import AnnotationPlan.Proofs.Schema.Ambiguity
import AnnotationPlan.Proofs.AnnotationUse.Imports
import AnnotationPlan.Proofs.AnnotationUse.Literals
import AnnotationPlan.Proofs.Schema.FieldTypes
import AnnotationPlan.Proofs.Store.InPlace
import AnnotationPlan.Proofs.Store.Slots
import AnnotationPlan.Proofs.Schema.Listing
import AnnotationPlan.Proofs.Criteria.Names
import AnnotationPlan.Proofs.Report.Listing
import AnnotationPlan.Proofs.Draft.Repeats
import AnnotationPlan.Proofs.AnnotationUse.Characters
import AnnotationPlan.Proofs.JavaType.Arrays
import AnnotationPlan.Proofs.JavaType.Paths
import AnnotationPlan.Proofs.Settings
import AnnotationPlan.Proofs.Location.Offsets
import AnnotationPlan.Proofs.Location.Spellings
import AnnotationPlan.Proofs.Scene.LocationKeys
