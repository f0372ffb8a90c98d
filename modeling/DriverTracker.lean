import DriverTracker.Syntax
import DriverTracker.Driver
import DriverTracker.Elaboration
import DriverTracker.Overlap
import DriverTracker.AddDriver
import DriverTracker.OrderIndependence
import DriverTracker.Retarget
import DriverTracker.State
import DriverTracker.Machine
import DriverTracker.StoredDrivers
import DriverTracker.PortDrivers
import DriverTracker.SideEffects
import DriverTracker.Lsp
import DriverTracker.Resubmission
import DriverTracker.Propagation
import DriverTracker.Termination
import DriverTracker.Confluence
import DriverTracker.RankedTermination
import DriverTracker.ModportHandoff
import DriverTracker.FinalPass
import DriverTracker.SpanSafety
import DriverTracker.DupInitialDrivers
import DriverTracker.DiagnosticSites
import DriverTracker.AppendOnly
import DriverTracker.NotedRefs
import DriverTracker.ErrorReports
