import SchemaClasses.Main
import SchemaClasses.Text.Mark
import SchemaClasses.Text.Composition
import SchemaClasses.Proofs.Json.Places
import SchemaClasses.Proofs.Pointer.RoundTrip
import SchemaClasses.Proofs.Inline.Idempotence
import SchemaClasses.Proofs.Inline.Provenance
import SchemaClasses.Proofs.Inline.LocalRefs
import SchemaClasses.Proofs.Flatten.Termination
import SchemaClasses.Proofs.Flatten.Coverage
import SchemaClasses.Proofs.Flatten.Ending
import SchemaClasses.Proofs.Flatten.Order
import SchemaClasses.Proofs.Flatten.PropertyOrder
import SchemaClasses.Proofs.Pipeline
import SchemaClasses.Proofs.Flatten.Squash
import SchemaClasses.Proofs.Flatten.Reordered
import SchemaClasses.Proofs.Flatten.Constraints
import SchemaClasses.Proofs.Flatten.Shapes
import SchemaClasses.Proofs.Model.Complete
import SchemaClasses.Proofs.Model.ListedType
import SchemaClasses.Proofs.Model.StatedType
import SchemaClasses.Proofs.Shelter.Candidates
import SchemaClasses.Proofs.Inline.Frame
import SchemaClasses.Proofs.Inline.Termination
import SchemaClasses.Proofs.Flatten.Cycles
import SchemaClasses.Proofs.Flatten.Spelling
import SchemaClasses.Proofs.Flatten.Idempotence
import SchemaClasses.Proofs.Model.Naming
import SchemaClasses.Proofs.Merge.Associative
import SchemaClasses.Proofs.Merge.Conflicts
import SchemaClasses.Proofs.Model.Restated
import SchemaClasses.Proofs.Model.ElementNames
import SchemaClasses.Proofs.Flatten.Additions
import SchemaClasses.Proofs.Inline.Intact
import SchemaClasses.Proofs.Merge.Again
