import Linkage.ClassTable.WellKnown
import Linkage.Proofs.Access
import Linkage.Proofs.ClassName
import Linkage.Proofs.ClassTable.Assignable
import Linkage.Proofs.ClassTable.Walks
import Linkage.Proofs.Conversion.Soundness
import Linkage.Proofs.Descriptor.RoundTrip
import Linkage.Proofs.Fields
import Linkage.Proofs.Integral
import Linkage.Proofs.Link.Checks
import Linkage.Proofs.Lookup
import Linkage.Proofs.Protected
import Linkage.Proofs.Session.Binding
import Linkage.Proofs.Session.Caching
import Linkage.Proofs.Session.Elements
import Linkage.Proofs.Session.FailFast
import Linkage.Proofs.Session.Fields
import Linkage.Proofs.Session.Filters
import Linkage.Proofs.Session.Invokers
import Linkage.Proofs.Session.Receivers
import Linkage.Proofs.Session.Overriding
import Linkage.Proofs.Session.Rethrowing
import Linkage.Proofs.Session.Spreading
import Linkage.Proofs.Session.Types
import Linkage.Proofs.Session.Varargs
import Linkage.Proofs.Signature.Boxing
import Linkage.Proofs.Signature.Derivation
import Linkage.Proofs.Stub.Recency
import Linkage.Proofs.Stub.Shapes
import Linkage.Proofs.World.Declarations
import Linkage.Proofs.World.Knots
import Linkage.Proofs.World.Slots
import Linkage.Session
import Linkage.Settings.Filter
import Linkage.Settings.Load
import Linkage.Settings.Schema
