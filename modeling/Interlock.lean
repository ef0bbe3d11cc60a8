import Interlock.Main
import Interlock.Proofs.LockOrder.Consistency
import Interlock.Proofs.LockOrder.Convergence
import Interlock.Proofs.LockOrder.Newest
import Interlock.Proofs.LockOrder.Rerun
import Interlock.Proofs.LockOrder.Verdict
import Interlock.Proofs.GroupOrder.Condensation
import Interlock.Proofs.GroupOrder.Verdict
import Interlock.Proofs.LockOrder.Content
import Interlock.Proofs.LockOrder.Steady
import Interlock.Proofs.LockOrder.Repeat
import Interlock.Proofs.GroupOrder.Strategy
import Interlock.Proofs.Checked.Analysis
import Interlock.Proofs.GroupOrder.Content
import Interlock.Proofs.LockOrder.Additions
import Interlock.Proofs.Transparency
import Interlock.Proofs.LockOrder.Topological
import Interlock.Proofs.Checked.Arrangement
import Interlock.Proofs.Lock.History
import Interlock.Proofs.Lock.Synthesis
import Interlock.Proofs.Membership
import Interlock.Proofs.Program.Calls
import Interlock.Proofs.Program.Locks
import Interlock.Proofs.Program.Sections
import Interlock.Proofs.Program.Build
import Interlock.Proofs.CallGraph
import Interlock.Proofs.Exclusion
import Interlock.Proofs.Walk.Distance
import Interlock.Proofs.Walk.Queue
import Interlock.Proofs.CallGraph.Chains
import Interlock.Proofs.Entering
import Interlock.Proofs.Editing
import Interlock.Proofs.Checked.Construction
import Interlock.Proofs.Checked.Step
import Interlock.Proofs.Bound
import Interlock.Proofs.Lock.Growth
import Interlock.Proofs.Checked.Range
import Interlock.Proofs.Program.Json
import Interlock.Proofs.Report.Json
import Interlock.Proofs.Config.File
