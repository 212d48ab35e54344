import Anyio.CancelScope.Level
import Anyio.CancelScope.Spawn
import Anyio.CancelScope.Pending
import Anyio.CancelScope.Doom
import Anyio.CancelScope.Timers
import Anyio.CancelScope.Loops
import Anyio.CancelScope.Caught
import Anyio.CancelScope.Walks
import Anyio.Lock.Exclusion
import Anyio.Lock.Stranded
import Anyio.Semaphore.Permits
import Anyio.Semaphore.Stranded
import Anyio.CapacityLimiter.Tokens
import Anyio.CapacityLimiter.Stranded
import Anyio.CapacityLimiter.Compensation
import Anyio.MemoryStream.Receivers
import Anyio.MemoryStream.Senders
import Anyio.MemoryStream.Order
import Anyio.Condition.Notify
import Anyio.Condition.Ownership
import Anyio.TaskGroup.Exit
import Anyio.TaskGroup.Reports
import Anyio.TaskGroup.Outcome
import Anyio.ConnectTcp.Leaks
import Anyio.ConnectTcp.Targets
import Anyio.BufferedByteReceiveStream.Conservation
import Anyio.BufferedByteReceiveStream.FirstOccurrence
import Anyio.SocketStream.Receive
import Anyio.SocketStream.Closed
import Anyio.RawSocket.Closing
import Anyio.RawSocket.Sending
import Anyio.RawSocket.FileDescriptors
import Anyio.SocketCreation.Closing
import Anyio.TLSStream.Pump
import Anyio.TextStream.RoundTrip
import Anyio.UDPSocket.Closing
import Anyio.RunVar.Isolation
import Anyio.Adapters
import Anyio.BlockingPortal.Exits
import Anyio.BlockingPortalProvider.Leases
import Anyio.BlockingPortalProvider.Failures
import Anyio.WorkerThread.Lost
import Anyio.ToProcess.RoundTrip
import Anyio.WorkerProcess.Orphans
import Anyio.SignalReceiver.Delivery
import Anyio.ToThread.Bounded
import Anyio.BlockingAsyncContextManager.Exits
import Anyio.TestRunner.Answers
import Anyio.TestRunner.Reports
import Anyio.RunProcess.Waiting
import Anyio.TLSStream.Closing
import Anyio.BlockingPortal.StartTask
import Anyio.TCPSocketListener.Accepting
import Anyio.MultiListener.Attributes
