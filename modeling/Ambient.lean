import Ambient.Scenario.Playing
import Ambient.Proofs.RoundTrip
import Ambient.Proofs.Nesting
import Ambient.Proofs.Rollback
import Ambient.Proofs.Interruption
import Ambient.Proofs.Abandonment
import Ambient.Proofs.Reporting
import Ambient.Proofs.Polling
import Ambient.Proofs.Once
import Ambient.Proofs.Capturing
import Ambient.Proofs.Coupling
import Ambient.Proofs.Padding
import Ambient.Proofs.Threads
import Ambient.Proofs.Ways
import Ambient.Proofs.Perseverance
import Ambient.Proofs.Endings
import Ambient.Proofs.Lasting
import Ambient.Proofs.Enclosure
import Ambient.Proofs.Balance
import Ambient.Proofs.Overriding
import Ambient.Proofs.Carrying
import Ambient.Proofs.Locality
import Ambient.Proofs.Displacement
import Ambient.Proofs.Handover
import Ambient.Proofs.Amending
import Ambient.Proofs.Lineage
import Ambient.Proofs.Registering
import Ambient.Proofs.Ordering
import Ambient.Proofs.Indirection
import Ambient.Proofs.Labelling
import Ambient.Proofs.Releasing
