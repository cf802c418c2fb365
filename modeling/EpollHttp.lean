import EpollHttp.HttpRequest.Parse
import EpollHttp.HttpRequest.Rounds
import EpollHttp.HttpRequest.Head
import EpollHttp.HttpRequest.Shape
import EpollHttp.HttpRequest.Growth
import EpollHttp.HttpRequest.Termination
import EpollHttp.HttpRequest.Session
import EpollHttp.HttpRequest.Arrival
import EpollHttp.HttpRequest.Framing
import EpollHttp.Lib.Fifo
import EpollHttp.Lib.Run
import EpollHttp.TransferRingBuffer
import EpollHttp.RingClient
import EpollHttp.BlockStorage
import EpollHttp.StorageClient
import EpollHttp.ExecutorData
import EpollHttp.Kernel
import EpollHttp.Lib.Program
import EpollHttp.World
import EpollHttp.PollLoop.PollFds
import EpollHttp.Executors.Executor
import EpollHttp.Executors.FileExecutor
import EpollHttp.Executors.ProxyExecutor
import EpollHttp.Executors.ProxyExecutorReadWrite
import EpollHttp.Executors.ProxyExecutorSplice
import EpollHttp.Executors.RequestExecutor
import EpollHttp.PollLoop.Run
import EpollHttp.Executors.Specs
import EpollHttp.Executors.ProxyRun
import EpollHttp.ProxyParking
import EpollHttp.ProxyRelay
import EpollHttp.ProxyFlow
import EpollHttp.FileServing
import EpollHttp.SslFileServing
import EpollHttp.ConfigReader
import EpollHttp.HttpRequest.RoundTrip
import EpollHttp.StaleErrno
import EpollHttp.PollLoop.Effects
import EpollHttp.PollLoop.Booked
import EpollHttp.PollLoop.BooksKept
import EpollHttp.Executors.Footprint
import EpollHttp.Executors.FootprintSteps
import EpollHttp.PollLoop.Creation
import EpollHttp.PollLoop.Queue
import EpollHttp.PollLoop.Bookkeeping
import EpollHttp.PollLoop.Destroy
import EpollHttp.PollLoop.Deeds
import EpollHttp.PollLoop.Conduct
import EpollHttp.HandOff
import EpollHttp.PollLoop.Ownership
import EpollHttp.PollLoop.Delivery
import EpollHttp.Containment
import EpollHttp.Executors.Dispatch
import EpollHttp.Executors.Stance
import EpollHttp.Executors.Watching
import EpollHttp.Executors.Attentive
import EpollHttp.Executors.AttentiveSteps
import EpollHttp.HttpRequest.Finished
import EpollHttp.HttpRequest.UrlPrefix
import EpollHttp.HttpRequest.HeaderLookup
import EpollHttp.HttpRequest.Decoding
import EpollHttp.HttpRequest.LineBounds
import EpollHttp.HttpRequest.Checked
import EpollHttp.HttpRequest.CheckedUrl
import EpollHttp.HttpRequest.Calls
import EpollHttp.ConfigLayout
import EpollHttp.ConfigLines
import EpollHttp.StableWindow
import EpollHttp.ServerParameters
import EpollHttp.FileNaming
import EpollHttp.PollLoop.Shutdown
import EpollHttp.PollLoop.Books
import EpollHttp.Executors.AttentiveProxies
import EpollHttp.Executors.AttentiveRequests
import EpollHttp.PollLoop.Attention
import EpollHttp.Lib.Directory
import EpollHttp.LogMmap
import EpollHttp.LogRotation
import EpollHttp.LogAppend
import EpollHttp.ServerStart
import EpollHttp.PollLoop.Sweep
import EpollHttp.Lib.Coupled
import EpollHttp.Recycling.Alike
import EpollHttp.Recycling.Twins
import EpollHttp.Recycling.Calls
import EpollHttp.Recycling.Handlers
import EpollHttp.Recycling.Loop
import EpollHttp.Recycling.Slot
import EpollHttp.Lib.Confined
import EpollHttp.Executors.Access
import EpollHttp.Executors.AccessSteps
import EpollHttp.Executors.AccessRequests
import EpollHttp.PollLoop.Custody
import EpollHttp.PollLoop.Change
import EpollHttp.PollLoop.Fate
import EpollHttp.PollLoop.Upheld
import EpollHttp.HttpRequest.Complete
import EpollHttp.Accounts.Reading
import EpollHttp.Accounts.Serving
import EpollHttp.Accounts.Accounted
import EpollHttp.Accounts.Service
import EpollHttp.Accounts.Run
import EpollHttp.Stop.Threads
import EpollHttp.Stop.Ending
import EpollHttp.Stop.Late
import EpollHttp.PollLoop.Onward
import EpollHttp.Stop.Server
