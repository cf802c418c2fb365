import EpollHttp.Executors.Executor

/-
The parts that `ProxyExecutorReadWrite` and `ProxyExecutorSplice` have in common.

The two classes have the same `up`, the same `process` up to the handlers it calls, and the same
way of sending the request; they differ in what follows the request.
-/

namespace EpollHttp
namespace ProxyExecutor

open Program

def connect (ans : Answers) (proxy : ProxyParameters) : Prog (Int × Bool) :=
  match proxy.socketType with
  | .tcp => socketConnectNonBlock ans
  | .unix => socketConnectUnixNonBlock ans proxy.pathFits
  | .none => return (-1, false)

/-- The rest of `up` when a socket was assigned to `fd1`. -/
def watchUpstream (ans : Answers) (l r : Nat) (connected : Bool) : Prog Int := do
  let data ← getData l r
  let added ← addPollFd ans l r data.fd1 EPOLLOUT
  if added ≠ 0 then return -1
  else do
    let removed ← removePollFd l r data.fd0
    if removed ≠ 0 then return -1
    else do
      setState l r (if connected then .forwardRequest else .waitConnect)
      return 0

/-- The socket type `none` returns before `fd1` is assigned. -/
def up (ans : Answers) (l r : Nat) : Prog Int := do
  modifyData l r (fun d => { d with removeOnTimeout := true })
  let data ← getData l r
  match data.proxy with
  | none => return -1
  | some proxy =>
    if proxy.socketType = .none then return -1
    else do
      let (fd1, connected) ← connect ans proxy
      modifyData l r (fun d => { d with fd1 := fd1 })
      if fd1 < 0 then return -1 else watchUpstream ans l r connected

/-- The handlers of `process`, in the order they are tried. -/
structure Handlers where
  waitConnect : Prog ProcessResult
  forwardRequest : Prog ProcessResult
  forwardResponseRead : Prog ProcessResult
  forwardResponseWrite : Prog ProcessResult

def process (h : Handlers) (l r : Nat) (fd : Int) (events : Nat) : Prog ProcessResult := do
  let data ← getData l r
  if data.state = .waitConnect ∧ fd = data.fd1 ∧ hasEvent events EPOLLOUT then h.waitConnect
  else if data.state = .forwardRequest ∧ fd = data.fd1 ∧ hasEvent events EPOLLOUT then
    h.forwardRequest
  else if data.state = .forwardResponse ∧ fd = data.fd1 ∧ hasEvent events EPOLLIN then
    h.forwardResponseRead
  else if (data.state = .forwardResponse ∨ data.state = .forwardResponseOnlyWrite) ∧
      fd = data.fd0 ∧ hasEvent events EPOLLOUT then h.forwardResponseWrite
  else return .removeExecutorError

/-- `finish` is what follows once the state is `forwardResponse`. -/
def processForwardRequest (finish : Prog ProcessResult) (ans : Answers) (l r : Nat) :
    Prog ProcessResult := do
  let data ← getData l r
  match data.buffer.startRead with
  | none => return .removeExecutorError
  | some w => do
    let written ← write ans data.fd1 (data.buffer.slice w.start (w.start + w.size))
    if written.result ≤ 0 then
      if written.errno = EAGAIN ∨ written.errno = EWOULDBLOCK then do
        countRetry l r
        return .ok
      else return .removeExecutorError
    else do
      clearRetries l r
      modifyData l r (fun d => { d with buffer := d.buffer.endRead written.result.toNat })
      if written.result = w.size then do
        modifyData l r (fun d => { d with buffer := d.buffer.clear, state := .forwardResponse })
        finish
      else return .ok

/-- `socketConnectNonBlockCheck` answers with the error of the socket. -/
def processWaitConnect (forwardRequest : Prog ProcessResult) (ans : Answers) (l r : Nat) :
    Prog ProcessResult :=
  if ans.socketError = 0 then do
    setState l r .forwardRequest
    forwardRequest
  else if ans.socketError = EINPROGRESS then do
    countRetry l r
    return .ok
  else return .removeExecutorError

/-- The upstream socket is watched for the response. -/
def watchResponse (ans : Answers) (l r : Nat) : Prog ProcessResult := do
  let data ← getData l r
  let edited ← editPollFd ans l r data.fd1 EPOLLIN
  if edited ≠ 0 then return .removeExecutorError else return .ok

/-! The two descriptors are watched and forgotten through these. -/

/-- `fd0` is watched for `EPOLLOUT` unless it is watched already. -/
def addClient (ans : Answers) (l r : Nat) (next : Prog ProcessResult) : Prog ProcessResult := do
  let data ← getData l r
  if data.pollData0 = none then do
    let added ← addPollFd ans l r data.fd0 EPOLLOUT
    if added ≠ 0 then return .removeExecutorError else next
  else next

/-- `fd1` is watched for `EPOLLIN` unless it is watched already. -/
def addUpstream (ans : Answers) (l r : Nat) (next : Prog ProcessResult) : Prog ProcessResult := do
  let data ← getData l r
  if data.pollData1 = none then do
    let added ← addPollFd ans l r data.fd1 EPOLLIN
    if added ≠ 0 then return .removeExecutorError else next
  else next

/-- `fd0` is watched no longer. -/
def removeClient (l r : Nat) (next : Prog ProcessResult) : Prog ProcessResult := do
  let data ← getData l r
  if data.pollData0 ≠ none then do
    let removed ← removePollFd l r data.fd0
    if removed ≠ 0 then return .removeExecutorError else next
  else next

/-- `fd1` is watched no longer. -/
def removeUpstream (l r : Nat) (next : Prog ProcessResult) : Prog ProcessResult := do
  let data ← getData l r
  if data.pollData1 ≠ none then do
    let removed ← removePollFd l r data.fd1
    if removed ≠ 0 then return .removeExecutorError else next
  else next

def countAndReturnOk (l r : Nat) : Prog ProcessResult := do
  countRetry l r
  return .ok

end ProxyExecutor
end EpollHttp
