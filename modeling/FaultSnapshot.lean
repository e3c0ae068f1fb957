import FaultSnapshot.Proofs.Arena
import FaultSnapshot.Proofs.Blocks
import FaultSnapshot.Proofs.Contention
import FaultSnapshot.Proofs.Environments
import FaultSnapshot.Proofs.Erasure
import FaultSnapshot.Proofs.FlatEntries
import FaultSnapshot.Proofs.Formats
import FaultSnapshot.Proofs.Guards
import FaultSnapshot.Proofs.Isolation
import FaultSnapshot.Proofs.Nests
import FaultSnapshot.Proofs.PanicHooks
import FaultSnapshot.Proofs.Presentations
import FaultSnapshot.Proofs.Refusals
import FaultSnapshot.Proofs.Sessions
import FaultSnapshot.Proofs.Spans
import FaultSnapshot.Proofs.Transparency
import FaultSnapshot.Proofs.Writes
import FaultSnapshot.Scenario.Session
import FaultSnapshot.Settings.Document
