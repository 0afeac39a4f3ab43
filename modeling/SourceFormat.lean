import SourceFormat.Main
import SourceFormat.OptionFile.Reader
import SourceFormat.Proofs.Cli.HiddenDiagnostics
import SourceFormat.Proofs.Cli.ProjectRoot
import SourceFormat.Proofs.Config.Tiers
import SourceFormat.Proofs.Eligibility
import SourceFormat.Proofs.Formatter.VersionContext
import SourceFormat.Proofs.Formatting.OptionFileLifetime
import SourceFormat.Proofs.Formatting.ServiceIsolation
import SourceFormat.Proofs.Formatting.ServiceLiveRuns
import SourceFormat.Proofs.Formatting.ServiceTable
import SourceFormat.Proofs.Formatting.TaskLifecycle
import SourceFormat.Proofs.Formatting.TaskSupersession
import SourceFormat.Proofs.Host.ServiceRuns
import SourceFormat.Proofs.Host.SupervisionOutcome
import SourceFormat.Proofs.OptionFile.Destinations
import SourceFormat.Proofs.OptionFile.RoundTrip
import SourceFormat.Proofs.Settings.RoundTrip
import SourceFormat.Proofs.Settings.StoreRuns
import SourceFormat.Proofs.Style.ExportInformation
import SourceFormat.Proofs.Style.ExportLosses
import SourceFormat.Proofs.Style.OptionTable
import SourceFormat.Proofs.Style.SnapshotAcceptance
import SourceFormat.Proofs.Subprocess.SessionCancellation
import SourceFormat.Proofs.Subprocess.SlotOrder
import SourceFormat.Proofs.Eligibility
