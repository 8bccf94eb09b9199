import Asrt.ClientServer.Connection
import Asrt.ClientServer.ConnectionSteps
import Asrt.ClientServer.Handshake
import Asrt.ClientServer.Inbox
import Asrt.ClientServer.Link
import Asrt.ClientServer.Message
import Asrt.ClientServer.Outbox
import Asrt.ClientServer.Reception
import Asrt.ClientServer.Registry
import Asrt.ClientServer.Retry
import Asrt.Executor.Accounting
import Asrt.Executor.Basic
import Asrt.Executor.Depletion
import Asrt.Executor.InstanceIsolation
import Asrt.Executor.Instances
import Asrt.Executor.ReactorMarker
import Asrt.Executor.Services
import Asrt.Executor.StopEffect
import Asrt.Executor.WakeUps
import Asrt.Executor.WorkerPool
import Asrt.Os
import Asrt.Reactor.Basic
import Asrt.Reactor.Calls
import Asrt.Reactor.EventBatch
import Asrt.Reactor.Events
import Asrt.Reactor.HandlerRelease
import Asrt.Reactor.IoJobs
import Asrt.Reactor.JobAccounting
import Asrt.Reactor.LifeCycle
import Asrt.Reactor.MonitoredEvents
import Asrt.Reactor.Registration
import Asrt.Reactor.SlotFreshness
import Asrt.Reactor.SlotInvariant
import Asrt.Reactor.SlotReclamation
import Asrt.Reactor.SlotReuse
import Asrt.Reactor.SlotTable
import Asrt.Reactor.SoftwareEvents
import Asrt.Reactor.SoftwareRegistration
import Asrt.Reactor.StaleEvents
import Asrt.Reactor.TriggerAccounting
import Asrt.Reactor.TriggerInvariant
import Asrt.Reactor.TriggerProgress
import Asrt.SignalSet.Basic
import Asrt.SignalSet.Waits
import Asrt.Socket.AcceptRequests
import Asrt.Socket.AcceptedPeer
import Asrt.Socket.Acceptor
import Asrt.Socket.Address
import Asrt.Socket.AddressV4
import Asrt.Socket.AsyncOperation
import Asrt.Socket.BasicSocket
import Asrt.Socket.ByteStream
import Asrt.Socket.CachedState
import Asrt.Socket.Coherence
import Asrt.Socket.ConnectOutcome
import Asrt.Socket.DatagramReceive
import Asrt.Socket.DescriptorMode
import Asrt.Socket.Endpoint
import Asrt.Socket.Isolation
import Asrt.Socket.KernelAgreement
import Asrt.Socket.NoLostEdge
import Asrt.Socket.NoStuckConnection
import Asrt.Socket.PacketBlock
import Asrt.Socket.PacketRing
import Asrt.Socket.PollStop
import Asrt.Socket.RejectedConnect
import Asrt.Socket.Reopening
import Asrt.Socket.RingSafety
import Asrt.Socket.StreamOperations
import Asrt.Socket.StreamSocket
import Asrt.Socket.UnixEndpoint
import Asrt.Strand.Basic
import Asrt.Strand.MutualExclusion
import Asrt.Strand.Order
import Asrt.Strand.Progress
import Asrt.Strand.Runner
import Asrt.Timer.Arming
import Asrt.Timer.Capacity
import Asrt.Timer.Clients
import Asrt.Timer.ExpiryLoop
import Asrt.Timer.FailedEnqueue
import Asrt.Timer.FrontAccess
import Asrt.Timer.HandlerIdentity
import Asrt.Timer.Handlers
import Asrt.Timer.JobAccounting
import Asrt.Timer.Queue
import Asrt.Timer.QueueInvariant
import Asrt.Timer.Rearming
import Asrt.Timer.Schedule
import Asrt.Timer.Tags
import Asrt.Timer.TimedJobs
import Asrt.ToMathlib.Bytes
import Asrt.ToMathlib.Heaps
import Asrt.ToMathlib.Machine
import Asrt.ToMathlib.Schedule
import Asrt.ToMathlib.UpdateSum
import Asrt.ToMathlib.VectorOps
import Asrt.Util
