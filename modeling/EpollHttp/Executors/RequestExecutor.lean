import EpollHttp.Executors.FileExecutor
import EpollHttp.Executors.ProxyExecutorReadWrite
import EpollHttp.Executors.ProxyExecutorSplice

/-
`RequestExecutor` and `SslRequestExecutor`: the request is read, parsed and handed to the executor
that answers it.
-/

namespace EpollHttp

open Program CString

/-- `MAX_FILE_NAME`; `fileNameBuffer` has one byte more. -/
def MAX_FILE_NAME : Nat := 300

namespace RequestExecutor

inductive ParseRequestResult
  | again
  | file
  | proxy
  | invalid
  deriving DecidableEq, Repr

/-- `"index.html"` -/
def indexHtml : Bytes := [105, 110, 100, 101, 120, 46, 104, 116, 109, 108]

/-- `up` in front of the registration. -/
def prepare (l r connectionType : Nat) : Prog PUnit :=
  modifyData l r (fun d =>
    { d with
      removeOnTimeout := true
      connectionType := connectionType
      buffer := d.buffer.init (List.replicate ExecutorData.REQUEST_BUFFER_SIZE 0)
      request := d.request.reset })

def up (ans : Answers) (l r : Nat) : Prog Int := do
  prepare l r ConnectionType.clear
  let data ← getData l r
  let added ← addPollFd ans l r data.fd0 EPOLLIN
  if added ≠ 0 then return -1
  else do
    setState l r .readRequest
    return 0

def readRequest (e : Executor) (ans : Answers) (l r : Nat) : Prog Int := do
  let data ← getData l r
  let (window, buffer) := data.buffer.startWrite
  modifyData l r (fun d => { d with buffer := buffer })
  match window with
  | none => return -1
  | some w => do
    let received ← e.readFd0 ans l r w.size
    if received.result ≤ 0 then
      if received.errno ≠ EWOULDBLOCK ∧ received.errno ≠ EAGAIN ∧ received.errno ≠ EINTR then
        return -1
      else do
        countRetry l r
        return 0
    else do
      modifyData l r (fun d =>
        { d with buffer := (d.buffer.fill w.start received.bytes).endWrite received.bytes.length })
      clearRetries l r
      return 0

/-- The first proxy whose URL prefix fits. -/
def findProxy (proxies : List ProxyParameters) (request : HttpRequest) : Option ProxyParameters :=
  proxies.find? (fun proxy => request.isUrlPrefix proxy.urlPrefix)

/-- `strcat(dst, src)`; the source is a C string. -/
def strcat (dst src : Bytes) : Bytes :=
  dst.take (cString dst).length ++ overwrite (dst.drop (cString dst).length) (src ++ [0])

/-- `fileNameBuffer[rootFolderLength] = 0` -/
def cutFileName (loop : PollLoop) : Bytes := loop.fileNameBuffer.set loop.rootFolderLength 0

/-- A name that does not fit goes on behind the buffer, and the list gets longer; what else lies
there is not modelled. -/
def appendFileName (l : Nat) (name : Bytes) : Prog PUnit :=
  modifyLoop l (fun loop => { loop with fileNameBuffer := strcat loop.fileNameBuffer name })

/-- The file that the URL names. -/
def nameFile (l : Nat) (url : Bytes) : Prog ParseRequestResult := do
  modifyLoop l (fun loop => { loop with fileNameBuffer := cutFileName loop })
  if url = [HttpRequest.slash] then do
    appendFileName l indexHtml
    return .file
  else do
    let loop ← getLoop l
    if loop.rootFolderLength + url.length ≤ MAX_FILE_NAME then do
      appendFileName l url
      return .file
    else return .invalid

/-- The request was parsed to its end. -/
def dispatchRequest (l r : Nat) (request : HttpRequest) : Prog ParseRequestResult := do
  let data ← getData l r
  let w ← get
  match findProxy w.parameters.proxies request with
  | some proxy =>
    if data.connectionType &&& proxy.connectionType = 0 then return .invalid
    else do
      modifyData l r (fun d => { d with proxy := some proxy })
      return .proxy
  | none =>
    match request.getUrl with
    | none => return .invalid
    | some url => nameFile l url

/-- The parser is given everything that was received so far.  The byte that is cut off for the
log of an invalid request is put back. -/
def parseRequest (l r : Nat) : Prog ParseRequestResult := do
  let data ← getData l r
  match data.buffer.startRead with
  | none => return .again
  | some w =>
    match data.request.parse (data.buffer.slice w.start (w.start + w.size)) with
    | none => fail
    | some (result, request) => do
      modifyData l r (fun d => { d with request := request })
      match result with
      | .finishOk => dispatchRequest l r request
      | .needMoreData => return .again
      | .finishInvalid => return .invalid

/-- `pExecutor->up` of the executors that answer a request. -/
def upAnswering (e : Executor) (ans : Answers) (l r : Nat) : Prog Int :=
  match e with
  | .file => FileExecutor.up ans l r
  | .sslFile => FileExecutor.up ans l r
  | .proxySplice => ProxyExecutorSplice.up ans l r
  | .proxyReadWrite => ProxyExecutorReadWrite.up ans l r
  | .sslProxy => ProxyExecutorReadWrite.up ans l r
  | _ => fail

def setExecutor (e : Executor) (ans : Answers) (l r : Nat) : Prog ProcessResult := do
  modifyData l r (fun d => { d with pExecutor := some e })
  let result ← upAnswering e ans l r
  if result ≠ 0 then return .removeExecutorError else return .ok

/-- `process_readRequest` of the executor `e`, with the types that it hands over to. -/
def processReadRequest (e : Executor) (fileType proxyType : ExecutorType) (ans : Answers)
    (l r : Nat) : Prog ProcessResult := do
  let received ← readRequest e ans l r
  if received ≠ 0 then return .removeExecutorError
  else do
    let result ← parseRequest l r
    match result with
    | .file => setExecutor (PollLoop.getExecutor fileType) ans l r
    | .proxy => setExecutor (PollLoop.getExecutor proxyType) ans l r
    | .invalid => return .removeExecutorError
    | .again => return .ok

def process (ans : Answers) (l r : Nat) (fd : Int) (events : Nat) : Prog ProcessResult := do
  let data ← getData l r
  if data.state = .readRequest ∧ fd = data.fd0 ∧ hasEvent events EPOLLIN then
    processReadRequest .request .file .proxy ans l r
  else return .removeExecutorError

end RequestExecutor

namespace SslRequestExecutor

inductive HandleHandshakeResult
  | ok
  | again
  | error
  deriving DecidableEq, Repr

/-- The SSL object of a failure is freed before it is assigned. -/
def sslInit (ans : Answers) (l r : Nat) : Prog Int :=
  if ans.sslNew ∧ ans.sslSetFd then do
    modifyData l r (fun d => { d with ssl := true })
    return 0
  else return -1

/-- The results of `addPollFd` and `editPollFd` are not looked at. -/
def watchHandshake (ans : Answers) (l r : Nat) (firstTime : Bool) (events : Nat) :
    Prog HandleHandshakeResult := do
  let data ← getData l r
  if firstTime then do
    let _ ← addPollFd ans l r data.fd0 events
    return .again
  else do
    let _ ← editPollFd ans l r data.fd0 events
    return .again

def handleHandshake (ans : Answers) (l r : Nat) (firstTime : Bool) :
    Prog HandleHandshakeResult :=
  match ans.sslDoHandshake with
  | none => return .ok
  | some .wantWrite => watchHandshake ans l r firstTime EPOLLOUT
  | some .wantRead => watchHandshake ans l r firstTime EPOLLIN
  | some .other => return .error

def upHandshake (ans : Answers) (l r : Nat) : Prog Int := do
  let result ← handleHandshake ans l r true
  match result with
  | .ok => do
    let data ← getData l r
    let added ← addPollFd ans l r data.fd0 EPOLLIN
    if added ≠ 0 then return -1
    else do
      setState l r .readRequest
      return 0
  | .again => do
    setState l r .sslHandshake
    return 0
  | .error => return -1

def up (ans : Answers) (l r : Nat) : Prog Int := do
  RequestExecutor.prepare l r ConnectionType.ssl
  let inited ← sslInit ans l r
  if inited ≠ 0 then return -1 else upHandshake ans l r

def processHandshake (ans : Answers) (l r : Nat) : Prog ProcessResult := do
  let result ← handleHandshake ans l r false
  match result with
  | .ok => do
    let data ← getData l r
    let edited ← editPollFd ans l r data.fd0 EPOLLIN
    if edited ≠ 0 then return .removeExecutorError
    else do
      setState l r .readRequest
      return .ok
  | .again => do
    countRetry l r
    return .ok
  | .error => return .removeExecutorError

/-- The events are compared with `EPOLLIN` as a whole. -/
def process (ans : Answers) (l r : Nat) (fd : Int) (events : Nat) : Prog ProcessResult := do
  let data ← getData l r
  if data.state = .sslHandshake ∧ fd = data.fd0 then processHandshake ans l r
  else if data.state = .readRequest ∧ fd = data.fd0 ∧ events = EPOLLIN then
    RequestExecutor.processReadRequest .sslRequest .sslFile .sslProxy ans l r
  else return .removeExecutorError

end SslRequestExecutor
end EpollHttp
