import Conform.Config.File
import Conform.Place
import Conform.Predicate
import Conform.Report.Record
import Conform.Value.Yaml
import Conform.Proofs.Acceptance
import Conform.Proofs.Conformance
import Conform.Proofs.Idempotence
import Conform.Proofs.Depth
import Conform.Proofs.Location
import Conform.Proofs.Exchange
import Conform.Proofs.Order
import Conform.Proofs.Walk
import Conform.Proofs.Provenance
import Conform.Proofs.Rewriting
import Conform.Proofs.Stepwise
import Conform.Proofs.Json.Scalars
import Conform.Proofs.Json.Trees
import Conform.Proofs.Json.Conversion
import Conform.Proofs.Rendering
import Conform.Proofs.Policies
import Conform.Proofs.Choices
import Conform.Proofs.Sequences
import Conform.Proofs.Evaluations
import Conform.Proofs.Histories
import Conform.Proofs.EqualityLaws
import Conform.Proofs.Literals
import Conform.Proofs.Decimal.Nearest
import Conform.Proofs.Decimal.Rounding
import Conform.Proofs.Declarations
import Conform.Proofs.Overrides
import Conform.Proofs.Widening
