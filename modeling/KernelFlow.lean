import KernelFlow.Library.Transition
import KernelFlow.Library.Multigraph
import KernelFlow.Library.OrderedMap
import KernelFlow.Library.Countdown
import KernelFlow.Core.Json
import KernelFlow.Core.Canonical
import KernelFlow.Core.Event
import KernelFlow.Core.Dag
import KernelFlow.Core.TopoSort
import KernelFlow.Core.Sortable
import KernelFlow.Core.Builder
import KernelFlow.Core.LevelOrder
import KernelFlow.Scheduler.Invariant
import KernelFlow.Scheduler.Log
import KernelFlow.Scheduler.Progress
import KernelFlow.Scheduler.Reference
import KernelFlow.Scheduler.Levels
import KernelFlow.Scheduler.CriticalPath
import KernelFlow.Scheduler.Agreement
import KernelFlow.Scheduler.Outcome
import KernelFlow.Scheduler.Attestation
import KernelFlow.Resilience.CircuitBreaker
import KernelFlow.Resilience.Executor
import KernelFlow.Resilience.TimedRun
import KernelFlow.Core.Capability
import KernelFlow.Library.Ledger
import KernelFlow.Library.Bincode
import KernelFlow.Matchmaker.Operator
import KernelFlow.Matchmaker.Pool
import KernelFlow.Matchmaker.Accounting
import KernelFlow.Matchmaker.Reconnect
import KernelFlow.Nodes.Registry
import KernelFlow.Nodes.Library
import KernelFlow.Nodes.Soundness
import KernelFlow.Nodes.Digest
import KernelFlow.Nodes.Egress
import KernelFlow.Storage.Store
import KernelFlow.Storage.Events
import KernelFlow.Resilience.SingleCall
import KernelFlow.Resilience.Concurrent
import KernelFlow.Resilience.SchedulerRuns
import KernelFlow.Resilience.Projection
import KernelFlow.Library.OrderStatistic
import KernelFlow.Nodes.Median
import KernelFlow.Library.Rounding
import KernelFlow.Nodes.MedianFloat
import KernelFlow.Library.MovingAverage
import KernelFlow.Matchmaker.Reputation
import KernelFlow.Resilience.Backoff
import KernelFlow.Resilience.Overflow
import KernelFlow.Storage.Sharded
import KernelFlow.Resilience.Transcript
import KernelFlow.Resilience.FullStack
import KernelFlow.Resilience.Faults
import KernelFlow.Library.Broadcast
import KernelFlow.Scheduler.Bus
import KernelFlow.Core.Hex
import KernelFlow.Attest.Attestation
import KernelFlow.Nodes.Oracle
import KernelFlow.Storage.Sessions
import KernelFlow.Core.Pointer
import KernelFlow.Core.Condition
import KernelFlow.Resilience.MemberOrder
import KernelFlow.Nodes.MemberOrder
import KernelFlow.Core.Reordered
import KernelFlow.Core.Serde
import KernelFlow.Core.Tagged
import KernelFlow.Core.Wire
import KernelFlow.Scheduler.Feed
import KernelFlow.Scheduler.Transport
import KernelFlow.Nodes.Factory
import KernelFlow.Nodes.Portable
import KernelFlow.Nodes.Sandbox
