import EpollHttp.Executors.ProxyExecutor

/-
`ProxyExecutorSplice`: the response goes through a pipe of the kernel.
-/

namespace EpollHttp
namespace ProxyExecutorSplice

open Program ProxyExecutor

/-- The length that both calls of `splice` are given. -/
def SPLICE_LENGTH : Nat := 100000

def up (ans : Answers) (l r : Nat) : Prog Int := ProxyExecutor.up ans l r

/-- The two ends of the pipe are made by one call. -/
def openPipe (ans : Answers) (l r : Nat) : Prog Int :=
  match ans.pipe2 with
  | none => return -1
  | some (readFd, writeFd) =>
    if readFd < 0 ∨ writeFd < 0 then return -1
    else do
      let readFd ← newDescriptor readFd false
      let writeFd ← newDescriptor writeFd false
      modifyKernel (fun k => k.joinPipe readFd writeFd)
      modifyData l r (fun d => { d with pipeReadFd := readFd, pipeWriteFd := writeFd })
      return 0

/-- The upstream socket is watched for the response, and the pipe is opened. -/
def startResponse (ans : Answers) (l r : Nat) : Prog ProcessResult := do
  let data ← getData l r
  let edited ← editPollFd ans l r data.fd1 EPOLLIN
  if edited ≠ 0 then return .removeExecutorError
  else do
    let opened ← openPipe ans l r
    if opened ≠ 0 then return .removeExecutorError else return .ok

def processForwardRequest (ans : Answers) (l r : Nat) : Prog ProcessResult :=
  ProxyExecutor.processForwardRequest (startResponse ans l r) ans l r

/-- Bytes were taken out of the pipe. -/
def afterWrite (ans : Answers) (l r : Nat) : Prog ProcessResult := do
  let data ← getData l r
  if data.bytesInPipe < 0 then return .removeExecutorError
  else if data.state = .forwardResponseOnlyWrite ∧ data.bytesInPipe = 0 then
    return .removeExecutorOk
  else if 0 < data.bytesInPipe then addClient ans l r (countAndReturnOk l r)
  else removeClient l r (addUpstream ans l r (countAndReturnOk l r))

def processForwardResponseWrite (ans : Answers) (l r : Nat) : Prog ProcessResult := do
  let data ← getData l r
  if 0 < data.bytesInPipe then do
    let written ← spliceOut ans data.pipeReadFd data.fd0 SPLICE_LENGTH
    if written.result = 0 then countAndReturnOk l r
    else if written.result < 0 then
      if written.errno = EAGAIN ∨ written.errno = EWOULDBLOCK then do
        countRetry l r
        addClient ans l r (return .ok)
      else return .removeExecutorError
    else do
      modifyData l r (fun d =>
        { d with bytesInPipe := d.bytesInPipe - written.result, retryCounter := 0 })
      afterWrite ans l r
  else if data.state = .forwardResponseOnlyWrite then return .removeExecutorOk
  else countAndReturnOk l r

def processForwardResponseRead (ans : Answers) (l r : Nat) : Prog ProcessResult := do
  let data ← getData l r
  let received ← spliceIn ans data.fd1 data.pipeWriteFd SPLICE_LENGTH
  if received.result = 0 then do
    let _ ← closeFd l r data.fd1
    setState l r .forwardResponseOnlyWrite
    processForwardResponseWrite ans l r
  else if received.result < 0 then
    if received.errno = EAGAIN ∨ received.errno = EWOULDBLOCK then do
      countRetry l r
      if 0 < data.bytesInPipe ∧ data.pollData1 ≠ none then removeUpstream l r (return .ok)
      else return .ok
    else return .removeExecutorError
  else do
    modifyData l r (fun d =>
      { d with retryCounter := 0, bytesInPipe := d.bytesInPipe + received.result })
    processForwardResponseWrite ans l r

def processWaitConnect (ans : Answers) (l r : Nat) : Prog ProcessResult :=
  ProxyExecutor.processWaitConnect (processForwardRequest ans l r) ans l r

def handlers (ans : Answers) (l r : Nat) : Handlers where
  waitConnect := processWaitConnect ans l r
  forwardRequest := processForwardRequest ans l r
  forwardResponseRead := processForwardResponseRead ans l r
  forwardResponseWrite := processForwardResponseWrite ans l r

def process (ans : Answers) (l r : Nat) (fd : Int) (events : Nat) : Prog ProcessResult :=
  ProxyExecutor.process (handlers ans l r) l r fd events

end ProxyExecutorSplice
end EpollHttp
