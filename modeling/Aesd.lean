import Aesd.Infra.Cyclic
import Aesd.Infra.Slab
import Aesd.Infra.Chain
import Aesd.Infra.LineLog
import Aesd.Infra.Prog
import Aesd.Infra.Handles
import Aesd.Infra.Threads
import Aesd.Infra.Expand
import Aesd.Infra.Atomic
import Aesd.Driver.CircularBuffer
import Aesd.Driver.Ring
import Aesd.Driver.Device
import Aesd.Driver.Ownership
import Aesd.Driver.Write
import Aesd.Driver.Ledger
import Aesd.Driver.Lines
import Aesd.Driver.Lookup
import Aesd.Driver.Reading
import Aesd.Driver.Faults
import Aesd.Driver.Lifetimes
import Aesd.Driver.Accesses
import Aesd.Driver.Concurrent
import Aesd.Driver.Readers
import Aesd.Server.Calls
import Aesd.Server.Worker
import Aesd.Server.Segments
import Aesd.Server.Replies
import Aesd.Server.Mutex
import Aesd.Server.FileBackend
import Aesd.Server.Echo
import Aesd.Server.DeviceBackend
import Aesd.Server.Windows
import Aesd.Server.SList
import Aesd.Server.Process
import Aesd.Server.Contract
import Aesd.Server.Reaping
import Aesd.Server.Application
import Aesd.Server.Progress
import Aesd.Server.Timestamps
import Aesd.Server.Shutdown
import Aesd.Server.Main
import Aesd.Server.Daemon
import Aesd.Server.Descriptors
import Aesd.Server.Connection
import Aesd.Server.Timeouts
import Aesd.Server.Polling
import Aesd.Server.LastRound
import Aesd.Server.Sockets
