import BranchTrace.Text.Blank
import BranchTrace.Text.FileStem
import BranchTrace.Text.Json
import BranchTrace.Text.Numeral
import BranchTrace.Text.Quoted
import BranchTrace.Failure.Halt
import BranchTrace.Failure.TraceError
import BranchTrace.Log.Stream
import BranchTrace.Lbr.Context
import BranchTrace.Store.Basic
import BranchTrace.Log.Event
import BranchTrace.Machine.Fault
import BranchTrace.Machine.FileTree
import BranchTrace.Register.SoftBank
import BranchTrace.Machine.Pin
import BranchTrace.Register.Access
import BranchTrace.Register.Device
import BranchTrace.Machine.SignalMask
import BranchTrace.Lbr.Stack
import BranchTrace.CpuModel
import BranchTrace.Tracer.Control
import BranchTrace.Tracer.Fork
import BranchTrace.Tracer.Switch
import BranchTrace.Host.Lifecycle
import BranchTrace.Cli.Grammar
import BranchTrace.Cli.Help
import BranchTrace.Cli.Options
import BranchTrace.Cli.Outcome
import BranchTrace.Main
import BranchTrace.Proofs.Store.Calls
import BranchTrace.Proofs.Tracer.ControlPlane
import BranchTrace.Proofs.Host.Stacks
import BranchTrace.Proofs.Store.Generations
import BranchTrace.Proofs.Tracer.MaskRuns
import BranchTrace.Proofs.Tracer.Refusals
import BranchTrace.Proofs.Host.Discipline
import BranchTrace.Proofs.Lbr.Reach
import BranchTrace.Proofs.Machine.Bindable
import BranchTrace.Proofs.Tracer.Footprints
import BranchTrace.Proofs.Machine.Passes
import BranchTrace.Proofs.Lbr.Switching
import BranchTrace.Proofs.Host.Loading
import BranchTrace.Proofs.Host.Interludes
import BranchTrace.Proofs.Host.Recording
import BranchTrace.Proofs.Machine.Sweep
import BranchTrace.Proofs.Host.BringUp
import BranchTrace.Proofs.Host.Registrations
import BranchTrace.Proofs.Host.Restoring
import BranchTrace.Proofs.Store.Vacancies
import BranchTrace.Proofs.Tracer.Statuses
import BranchTrace.Proofs.Store.Chronicle
import BranchTrace.Proofs.Host.Commuting
import BranchTrace.Proofs.Lbr.Cells
import BranchTrace.Proofs.Machine.Mishaps
import BranchTrace.Proofs.Store.Processes
import BranchTrace.Proofs.Tracer.Exchanges
import BranchTrace.Proofs.Store.Cascade
import BranchTrace.Proofs.Host.Conduct
import BranchTrace.Proofs.Host.Affinity
import BranchTrace.Proofs.Machine.Conduct
import BranchTrace.Proofs.Lbr.Reading
import BranchTrace.Proofs.Tracer.Tearing
import BranchTrace.Proofs.Machine.Steady
import BranchTrace.Proofs.Tracer.Steady
import BranchTrace.Proofs.Host.Steady
import BranchTrace.Proofs.Cli.Rounds
import BranchTrace.Proofs.Cli.Session
import BranchTrace.Proofs.Cli.Reports
import BranchTrace.Proofs.Lbr.RoundTrip
import BranchTrace.Proofs.Tracer.Selecting
import BranchTrace.Proofs.Tracer.Undoing
import BranchTrace.Proofs.Machine.Visiting
import BranchTrace.Proofs.Lbr.Flushing
import BranchTrace.Proofs.Tracer.Blocks
import BranchTrace.Proofs.Log.Remembering
import BranchTrace.Proofs.Log.Filters
import BranchTrace.Proofs.Cli.Breaking
import BranchTrace.Proofs.Register.Keeping
import BranchTrace.Proofs.Register.Opening
import BranchTrace.Proofs.Tracer.HighWater
import BranchTrace.Proofs.Log.Records
import BranchTrace.Proofs.Lbr.Dumps
import BranchTrace.Proofs.Text.Numerals
import BranchTrace.Proofs.Machine.Nesting
