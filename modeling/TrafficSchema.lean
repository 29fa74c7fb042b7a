import TrafficSchema.Capture
import TrafficSchema.Generator.Notation
import TrafficSchema.Workspace
import TrafficSchema.Proofs.Dict
import TrafficSchema.Proofs.Except
import TrafficSchema.Proofs.Fold
import TrafficSchema.Proofs.Encoding.Utf8
import TrafficSchema.Proofs.Encoding.Base64
import TrafficSchema.Proofs.Exchange.Percent
import TrafficSchema.Proofs.Json.Record
import TrafficSchema.Proofs.Json.Text
import TrafficSchema.Proofs.Scalar.Double
import TrafficSchema.Proofs.Scalar.Numeral
import TrafficSchema.Proofs.Scalar.Infer
import TrafficSchema.Proofs.Scalar.Timestamp
import TrafficSchema.Proofs.Shape.Widening
import TrafficSchema.Proofs.Shape.Override
import TrafficSchema.Proofs.Shape.Height
import TrafficSchema.Proofs.Shape.Paths
import TrafficSchema.Proofs.Shape.Folding
import TrafficSchema.Proofs.Shape.Corrections
import TrafficSchema.Proofs.Shape.Leaves
import TrafficSchema.Proofs.Shape.Flattening
import TrafficSchema.Proofs.Shape.Infer
import TrafficSchema.Proofs.Shape.Notation
import TrafficSchema.Proofs.Flow.Merge
import TrafficSchema.Proofs.Flow.Group
import TrafficSchema.Proofs.Flow.Notation
import TrafficSchema.Proofs.Entity.Collect
import TrafficSchema.Proofs.Entity.Residual
import TrafficSchema.Proofs.Entity.Height
import TrafficSchema.Proofs.Exchange.Height
import TrafficSchema.Proofs.Exchange.RequestBody
import TrafficSchema.Proofs.Exchange.ResponseBody
import TrafficSchema.Proofs.Exchange.Target
import TrafficSchema.Proofs.Exchange.Query
import TrafficSchema.Proofs.Exchange.Flag
import TrafficSchema.Proofs.Schema.Merge
import TrafficSchema.Proofs.Schema.Combine
import TrafficSchema.Proofs.Schema.Join
import TrafficSchema.Proofs.Schema.Override
import TrafficSchema.Proofs.Schema.Composition
import TrafficSchema.Proofs.Schema.Widening
import TrafficSchema.Proofs.Schema.Notation
import TrafficSchema.Proofs.Capture.Observations
import TrafficSchema.Proofs.Capture.Runs
import TrafficSchema.Proofs.Capture.Derived
import TrafficSchema.Proofs.Capture.Height
import TrafficSchema.Proofs.Capture.File
import TrafficSchema.Proofs.Capture.Identity
import TrafficSchema.Proofs.Capture.Leaves
import TrafficSchema.Proofs.Capture.Ledger
import TrafficSchema.Proofs.Capture.Provenance
import TrafficSchema.Proofs.Generator.ReturnType
import TrafficSchema.Proofs.Xml.Tree
import TrafficSchema.Proofs.Xml.Faults
import TrafficSchema.Proofs.Xml.Attributes
import TrafficSchema.Proofs.Shape.References
import TrafficSchema.Proofs.Exchange.References
import TrafficSchema.Proofs.Generator.Closed
import TrafficSchema.Proofs.Entity.Discovery
import TrafficSchema.Proofs.Entity.Visits
import TrafficSchema.Proofs.Capture.Agreement
import TrafficSchema.Proofs.Capture.Returns
import TrafficSchema.Proofs.Generator.Versions
import TrafficSchema.Proofs.Generator.Caching
import TrafficSchema.Proofs.Generator.Words
