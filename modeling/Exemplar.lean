import Exemplar.Request
import Exemplar.Session
import Exemplar.Proofs.Shape
import Exemplar.Proofs.Walk
import Exemplar.Proofs.Run
import Exemplar.Proofs.ClosedForm
import Exemplar.Proofs.Position
import Exemplar.Proofs.Acceptance
import Exemplar.Proofs.Rearrangement
import Exemplar.Proofs.Reachable
import Exemplar.Proofs.Strictness
import Exemplar.Proofs.Acyclic
import Exemplar.Proofs.Expansion.Places
import Exemplar.Proofs.Substitution
import Exemplar.Proofs.Reading
import Exemplar.Proofs.References
import Exemplar.Proofs.DeclarationOrder
import Exemplar.Proofs.WellFormed
import Exemplar.Proofs.ClosedPrograms
import Exemplar.Proofs.Validators
import Exemplar.Proofs.Growth
import Exemplar.Proofs.Absorption
import Exemplar.Proofs.FailedBatches
import Exemplar.Proofs.Attachment
import Exemplar.Proofs.Descent
import Exemplar.Proofs.Layout.Width
import Exemplar.Proofs.SimilarTypes
import Exemplar.Proofs.Layout.Widening
import Exemplar.Proofs.Layout.Squeezed
import Exemplar.Proofs.Layout.Marking
import Exemplar.Proofs.StandardName.Path
import Exemplar.Proofs.FieldKey
import Exemplar.Proofs.CamelCase
import Exemplar.Proofs.TypeOrder
import Exemplar.Proofs.ExplicitOptions
import Exemplar.Proofs.SetOrder
import Exemplar.Proofs.Bindings
import Exemplar.Proofs.Visits
