import ShapeSchema.Constraints.Range
import ShapeSchema.Description.Writer
import ShapeSchema.Log
import ShapeSchema.Main
import ShapeSchema.Proofs.Derivation.ErrorPlace
import ShapeSchema.Proofs.Derivation.Irrelevance
import ShapeSchema.Proofs.Derivation.Keys
import ShapeSchema.Proofs.Derivation.Loosening
import ShapeSchema.Proofs.Derivation.Reordering
import ShapeSchema.Proofs.Derivation.Room
import ShapeSchema.Proofs.Derivation.Validation
import ShapeSchema.Proofs.Json.Equality
import ShapeSchema.Proofs.Json.Layout
import ShapeSchema.Proofs.Json.Limit
import ShapeSchema.Proofs.Json.Symmetry
import ShapeSchema.Proofs.Naming.Distinctness
import ShapeSchema.Proofs.Reflection.Bounds
import ShapeSchema.Proofs.Reflection.Termination
import ShapeSchema.Proofs.Reflection.Unions
import ShapeSchema.Proofs.Session.Accuracy
import ShapeSchema.Proofs.Session.Entries
import ShapeSchema.Proofs.Settings.Loading
