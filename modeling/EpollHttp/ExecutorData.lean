import EpollHttp.TransferRingBuffer
import EpollHttp.BlockStorage
import EpollHttp.HttpRequest.Lookup

/-
The data of a connection, of an entry in the epoll set and of the configuration.

The objects are addressed by their place in the storages of the loop, and a null pointer is
`none`.  The build is the one with SSL, and of the SSL object the model keeps whether there is one.
-/

namespace EpollHttp

inductive ExecutorType
  | server
  | request
  | file
  | proxy
  | serverSsl
  | requestSsl
  | sslFile
  | sslProxy
  deriving DecidableEq, Repr

/-- The classes of executors; `proxyReadWrite` is the base of `sslProxy`. -/
inductive Executor
  | newFd
  | server
  | request
  | file
  | proxySplice
  | proxyReadWrite
  | sslServer
  | sslRequest
  | sslFile
  | sslProxy
  deriving DecidableEq, Repr

inductive ProcessResult
  | ok
  | removeExecutorOk
  | removeExecutorError
  | shutdown
  deriving DecidableEq, Repr

inductive SocketType
  | none
  | tcp
  | unix
  deriving DecidableEq, Repr

/-! The bits of a connection type. -/

namespace ConnectionType

def none : Nat := 0
def clear : Nat := 1
def ssl : Nat := 2

end ConnectionType

/-- `pathFits` says that the address fits into `sun_path`. -/
structure ProxyParameters where
  urlPrefix : Bytes
  connectionType : Nat := ConnectionType.none
  socketType : SocketType := .none
  pathFits : Bool := true
  deriving DecidableEq, Repr

structure ServerParameters where
  rootFolder : Bytes
  threadCount : Nat := 1
  executorTimeoutMillis : Int := 10000
  proxies : List ProxyParameters := []

namespace ExecutorData

inductive State
  | invalid
  | readRequest
  | sendHeaders
  | sendFile
  | forwardRequest
  | forwardResponse
  | forwardResponseOnlyWrite
  | waitConnect
  | sendOnlyHeaders
  | ok
  | sslHandshake
  deriving DecidableEq, Repr

def REQUEST_BUFFER_SIZE : Nat := 10000

def MAX_TIME_TO_LIVE_MILLIS : Int := 1000 * 60 * 30

def MAX_RETRY_COUNTER : Nat := 1000

end ExecutorData

structure ExecutorData where
  pExecutor : Option Executor := none
  state : ExecutorData.State := .invalid
  fd0 : Int := -1
  fd1 : Int := -1
  pollData0 : Option Nat := none
  pollData1 : Option Nat := none
  pipeReadFd : Int := -1
  pipeWriteFd : Int := -1
  bytesInPipe : Int := 0
  bytesToSend : Int := 0
  filePosition : Int := 0
  buffer : TransferRingBuffer := { buf := [] }
  ssl : Bool := false
  createTime : Int := 0
  lastProcessTime : Int := 0
  removeOnTimeout : Bool := true
  connectionType : Nat := ConnectionType.none
  retryCounter : Nat := 0
  request : HttpRequest := {}
  proxy : Option ProxyParameters := none

instance : Inhabited ExecutorData := ⟨{}⟩

structure PollData where
  fd : Int := -1
  execData : Option Nat := none
  deriving DecidableEq, Repr

instance : Inhabited PollData := ⟨{}⟩

namespace ExecutorData

/-- What `down` leaves of the fields once the descriptors are closed. -/
def cleared (d : ExecutorData) : ExecutorData :=
  { d with
    ssl := false
    fd0 := if 0 < d.fd0 then -1 else d.fd0
    fd1 := if 0 < d.fd1 then -1 else d.fd1
    pollData0 := none
    pollData1 := none
    pipeReadFd := if 0 < d.pipeReadFd then -1 else d.pipeReadFd
    pipeWriteFd := if 0 < d.pipeWriteFd then -1 else d.pipeWriteFd
    bytesInPipe := 0
    state := .invalid
    pExecutor := none
    bytesToSend := 0
    filePosition := 0
    buffer := d.buffer.clear
    createTime := 0
    lastProcessTime := 0
    removeOnTimeout := true
    connectionType := ConnectionType.none
    retryCounter := 0
    proxy := none }

end ExecutorData

def PollData.down (_ : PollData) : PollData := { fd := -1, execData := none }

end EpollHttp
