import Compliance.Check.Scripted
import Compliance.Device.Desk
import Compliance.Main
import Compliance.Proofs.Check.Discovered
import Compliance.Proofs.Check.Escalation
import Compliance.Proofs.Check.Matching
import Compliance.Proofs.Cli.Listing
import Compliance.Proofs.Cli.Overlap
import Compliance.Proofs.Cli.Overrides
import Compliance.Proofs.Cli.Rewriting
import Compliance.Proofs.Cli.Superseding
import Compliance.Proofs.Device.Exclusion
import Compliance.Proofs.Report.Batches
import Compliance.Proofs.Report.Digests
import Compliance.Proofs.Report.Refusals
import Compliance.Proofs.Report.Reloading
import Compliance.Proofs.Report.ResultStrings
import Compliance.Proofs.Run.Accounting
import Compliance.Proofs.Run.Apart
import Compliance.Proofs.Run.Cancellation
import Compliance.Proofs.Run.Confluence
import Compliance.Proofs.Run.Connections
import Compliance.Proofs.Run.ExitCodes
import Compliance.Proofs.Run.Rulings
import Compliance.Proofs.Run.StateFile
import Compliance.Proofs.Suite.Layers
