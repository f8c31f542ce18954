import Protoflight.Data.BoundedFifo
import Protoflight.Data.Memory
import Protoflight.Data.Ring
import Protoflight.Monitor.Program
import Protoflight.Os.QueuePortable
import Protoflight.Os.Types
import Protoflight.Os.QueueRing
import Protoflight.Os.QueueCalls
import Protoflight.Os.QueueLocking
import Protoflight.Os.QueueSequential
import Protoflight.Os.QueueAtomic
import Protoflight.Monitor.Interleaving
import Protoflight.Monitor.Invariant
import Protoflight.Os.QueueInterleaving
import Protoflight.Os.QueueBounds
import Protoflight.Os.QueueRt
import Protoflight.Os.QueueNames
import Protoflight.Os.Timeouts
import Protoflight.Os.Task
import Protoflight.Os.Timer
import Protoflight.Os.Deadlines
import Protoflight.Os.TimerTable
import Protoflight.Os.QueueAgreement
import Protoflight.Fsw.Msg
import Protoflight.Fsw.Definitions
import Protoflight.Fsw.Mb
import Protoflight.Fsw.FifoPlatform
import Protoflight.Fsw.MbFanOut
import Protoflight.Fsw.MbErrors
import Protoflight.Fsw.MbRuns
import Protoflight.Fsw.MbTables
import Protoflight.Fsw.MbHandles
import Protoflight.Fsw.MbReceive
import Protoflight.Data.Subscriber
import Protoflight.Fsw.MbDelivery
import Protoflight.Fsw.Tm
import Protoflight.Fsw.TmCalls
import Protoflight.Fsw.TmSchedule
import Protoflight.Fsw.TmRuns
import Protoflight.Fsw.Sends
import Protoflight.Fsw.TmBits
import Protoflight.Fsw.Counters
import Protoflight.Fsw.MsgLength
import Protoflight.Fsw.MsgLayout
import Protoflight.Fsw.TmThreads
import Protoflight.Fsw.TmShutdown
import Protoflight.Fsw.TlmPacing
import Protoflight.Fsw.Startup
import Protoflight.Fsw.TmTable
import Protoflight.Fsw.TmStart
import Protoflight.Fsw.PortablePipes
import Protoflight.Fsw.TmPeriods
import Protoflight.Fsw.TmInterrupted
import Protoflight.Fsw.TmExpected
import Protoflight.Fsw.TmRates
import Protoflight.Fsw.TmSemaphores
import Protoflight.Fsw.TmUnits
import Protoflight.Os.Sem
import Protoflight.Os.TimerDispatch
import Protoflight.Fsw.EmLayout
import Protoflight.Data.Flags
import Protoflight.Fsw.StartupEvent
import Protoflight.Fsw.TmUpdate
import Protoflight.Monitor.Annotations
import Protoflight.Monitor.Wakeups
import Protoflight.Monitor.Owners
import Protoflight.Monitor.Atomic
import Protoflight.Os.QueueTurns
import Protoflight.Os.QueueThreads
import Protoflight.Os.QueueOwners
import Protoflight.Os.QueueFifo
import Protoflight.Fsw.MbThreads
import Protoflight.Fsw.TmProgress
import Protoflight.Fsw.TmReleases
import Protoflight.Fsw.TmHeartbeats
import Protoflight.Fsw.TmFrames
import Protoflight.Monitor.Failures
import Protoflight.Os.QueueFailures
import Protoflight.Fsw.TlmLayout
import Protoflight.Fsw.FlightReports
import Protoflight.Os.TimerArmed
import Protoflight.Fsw.TlmTasks
import Protoflight.Fsw.TmSignals
import Protoflight.Fsw.RtPipes
import Protoflight.Fsw.MbAgreement
import Protoflight.Os.Mutex
