import RustAsyncAwait.Library.Lists
import RustAsyncAwait.Library.Machine
import RustAsyncAwait.Library.HashMap
import RustAsyncAwait.Library.Futures
import RustAsyncAwait.Library.RoundRobin
import RustAsyncAwait.Library.Linearizable
import RustAsyncAwait.Library.Bytes
import RustAsyncAwait.Library.Format
import RustAsyncAwait.Library.Nonblocking
import RustAsyncAwait.Library.Registrations
import RustAsyncAwait.Library.BufWriter
import RustAsyncAwait.Library.Decimal
import RustAsyncAwait.Library.Guards
import RustAsyncAwait.Library.Loops
import RustAsyncAwait.Library.Utf8Lossy
import RustAsyncAwait.Library.RawWakers
import RustAsyncAwait.Library.Fairness
import RustAsyncAwait.Library.Deadlines
import RustAsyncAwait.Executor
import RustAsyncAwait.ExecutorGuards
import RustAsyncAwait.AsyncRuntime
import RustAsyncAwait.ScheduledCoroutine
import RustAsyncAwait.BoundedExecutor
import RustAsyncAwait.CoroutineExecutor
import RustAsyncAwait.CoroutineControl
import RustAsyncAwait.SleepCoroutine
import RustAsyncAwait.EventBus
import RustAsyncAwait.EventBusConsumers
import RustAsyncAwait.KeyValueStore
import RustAsyncAwait.HeartbeatActor
import RustAsyncAwait.DataLayer
import RustAsyncAwait.Sender
import RustAsyncAwait.Receiver
import RustAsyncAwait.Server
import RustAsyncAwait.HandleClient
import RustAsyncAwait.ReadLine
import RustAsyncAwait.IoMultiplexing
import RustAsyncAwait.EchoWriter
import RustAsyncAwait.IoSelector
import RustAsyncAwait.Actors
import RustAsyncAwait.Logging
import RustAsyncAwait.CoroutineTest
import RustAsyncAwait.ThreadCounters
import RustAsyncAwait.PriorityRuntime
import RustAsyncAwait.PriorityThreads
import RustAsyncAwait.EpollServer
import RustAsyncAwait.ThermoControl
import RustAsyncAwait.TokioEchoServer
import RustAsyncAwait.AddHandler
import RustAsyncAwait.CoroutineManager
import RustAsyncAwait.CircuitBreaker
import RustAsyncAwait.DataRace
import RustAsyncAwait.StatePattern
import RustAsyncAwait.CoroutineOverflow
import RustAsyncAwait.ThermoScreen
import RustAsyncAwait.LogFile
import RustAsyncAwait.ManagerFiles
import RustAsyncAwait.ClientPolls
import RustAsyncAwait.ClientServer
import RustAsyncAwait.MioServer
import RustAsyncAwait.RawWaker
import RustAsyncAwait.MyFuture
import RustAsyncAwait.Proofs.ExecutorPlaces
import RustAsyncAwait.Proofs.ExecutorWakes
import RustAsyncAwait.Proofs.ExecutorCompletion
import RustAsyncAwait.Proofs.ExecutorWraparound
import RustAsyncAwait.Proofs.GuardSteps
import RustAsyncAwait.Proofs.ExecutorPanics
import RustAsyncAwait.Proofs.PollOrder
import RustAsyncAwait.Proofs.Schedules
import RustAsyncAwait.Proofs.EventBusDelivery
import RustAsyncAwait.Proofs.EventBusLeaks
import RustAsyncAwait.Proofs.ConsumersPrint
import RustAsyncAwait.Proofs.KeyValueSteps
import RustAsyncAwait.Proofs.KeyValueRequests
import RustAsyncAwait.Proofs.KeyValueRestart
import RustAsyncAwait.Proofs.KeyValueReset
import RustAsyncAwait.Proofs.KeyValueDeadlock
import RustAsyncAwait.Proofs.KeyValueAnswers
import RustAsyncAwait.Proofs.KeyValueMoves
import RustAsyncAwait.Proofs.KeyValueTurns
import RustAsyncAwait.Proofs.KeyValueWriters
import RustAsyncAwait.Proofs.KeyValueProgress
import RustAsyncAwait.Proofs.KeyValueLinearizable
import RustAsyncAwait.Proofs.DataFormat
import RustAsyncAwait.Proofs.CutMessages
import RustAsyncAwait.Proofs.SenderOnce
import RustAsyncAwait.Proofs.ServerFraming
import RustAsyncAwait.Proofs.LineReading
import RustAsyncAwait.Proofs.ServerWakes
import RustAsyncAwait.Proofs.ServerClients
import RustAsyncAwait.Proofs.ServerTurns
import RustAsyncAwait.Proofs.ServerWaits
import RustAsyncAwait.Proofs.ServerServed
import RustAsyncAwait.Proofs.IoSteps
import RustAsyncAwait.Proofs.IoPlaces
import RustAsyncAwait.Proofs.IoSelects
import RustAsyncAwait.Proofs.IoTurns
import RustAsyncAwait.Proofs.IoPolled
import RustAsyncAwait.Proofs.CompletedPolls
import RustAsyncAwait.Proofs.ExecutorBlocking
import RustAsyncAwait.Proofs.ActorSums
import RustAsyncAwait.Proofs.LogLines
import RustAsyncAwait.Proofs.CoroutineCounts
import RustAsyncAwait.Proofs.CompleteCounts
import RustAsyncAwait.Proofs.PriorityTurns
import RustAsyncAwait.Proofs.PriorityPlaces
import RustAsyncAwait.Proofs.RunnableTurns
import RustAsyncAwait.Proofs.CountersComplete
import RustAsyncAwait.Proofs.KeyValueFailures
import RustAsyncAwait.Proofs.KeyValueLag
import RustAsyncAwait.Proofs.EpollSteps
import RustAsyncAwait.Proofs.EpollCrashes
import RustAsyncAwait.Proofs.EpollLines
import RustAsyncAwait.Proofs.SelectorSteps
import RustAsyncAwait.Proofs.SelectorRequests
import RustAsyncAwait.Proofs.SelectorContract
import RustAsyncAwait.Proofs.ReceiverStream
import RustAsyncAwait.Proofs.HeartbeatResets
import RustAsyncAwait.Proofs.ThermoBounds
import RustAsyncAwait.Proofs.ThermoClimbs
import RustAsyncAwait.Proofs.ThermoSettles
import RustAsyncAwait.Proofs.EchoWrites
import RustAsyncAwait.Proofs.TokioEchoes
import RustAsyncAwait.Proofs.KeyValueCrashes
import RustAsyncAwait.Proofs.AdditionSteps
import RustAsyncAwait.Proofs.AdditionsOnce
import RustAsyncAwait.Proofs.NumberFiles
import RustAsyncAwait.Proofs.CircuitOpens
import RustAsyncAwait.Proofs.LostUpdates
import RustAsyncAwait.Proofs.InnerPolls
import RustAsyncAwait.Proofs.CoroutineProgress
import RustAsyncAwait.Proofs.CoroutineTotal
import RustAsyncAwait.Proofs.SleepsEnd
import RustAsyncAwait.Proofs.EventBusIds
import RustAsyncAwait.Proofs.ScreenFrames
import RustAsyncAwait.Proofs.LogAppends
import RustAsyncAwait.Proofs.ManagerStops
import RustAsyncAwait.Proofs.ClientReturns
import RustAsyncAwait.Proofs.MessageEnds
import RustAsyncAwait.Proofs.MioReceives
import RustAsyncAwait.Proofs.HostOrders
import RustAsyncAwait.Proofs.WakerLedger
import RustAsyncAwait.Proofs.OutsideWakes
