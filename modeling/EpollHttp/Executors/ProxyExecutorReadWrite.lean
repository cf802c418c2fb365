import EpollHttp.Executors.ProxyExecutor

/-
`ProxyExecutorReadWrite`: the response goes through the ring buffer of the connection.
-/

namespace EpollHttp
namespace ProxyExecutorReadWrite

open Program ProxyExecutor

def up (ans : Answers) (l r : Nat) : Prog Int := ProxyExecutor.up ans l r

def processForwardRequest (ans : Answers) (l r : Nat) : Prog ProcessResult :=
  ProxyExecutor.processForwardRequest (watchResponse ans l r) ans l r

/-- Bytes were written to the client.  `fd1` is watched again; `fd0` is left as it is. -/
def afterWrite (ans : Answers) (l r : Nat) : Prog ProcessResult := do
  let data ← getData l r
  if data.state = .forwardResponseOnlyWrite ∧ ¬ data.buffer.readAvailable then
    return .removeExecutorOk
  else if data.state = .forwardResponse then addUpstream ans l r (return .ok)
  else return .ok

def processForwardResponseWrite (e : Executor) (ans : Answers) (l r : Nat) :
    Prog ProcessResult := do
  let data ← getData l r
  match data.buffer.startRead with
  | some w => do
    let written ← e.writeFd0 ans l r (data.buffer.slice w.start (w.start + w.size))
    if written.result ≤ 0 then
      if written.errno = EAGAIN ∨ written.errno = EWOULDBLOCK then
        addClient ans l r (countAndReturnOk l r)
      else return .removeExecutorError
    else do
      clearRetries l r
      modifyData l r (fun d => { d with buffer := d.buffer.endRead written.result.toNat })
      afterWrite ans l r
  | none =>
    if data.state = .forwardResponseOnlyWrite then return .removeExecutorOk
    else removeClient l r (countAndReturnOk l r)

def processForwardResponseRead (e : Executor) (ans : Answers) (l r : Nat) :
    Prog ProcessResult := do
  let data ← getData l r
  let (window, buffer) := data.buffer.startWrite
  modifyData l r (fun d => { d with buffer := buffer })
  match window with
  | some w => do
    let received ← read ans data.fd1 w.size
    if received.result ≤ 0 then
      if received.result = 0 then do
        let _ ← closeFd l r data.fd1
        setState l r .forwardResponseOnlyWrite
        processForwardResponseWrite e ans l r
      else if received.errno = EAGAIN ∨ received.errno = EWOULDBLOCK then countAndReturnOk l r
      else return .removeExecutorError
    else do
      clearRetries l r
      modifyData l r (fun d =>
        { d with buffer := (d.buffer.fill w.start received.bytes).endWrite received.bytes.length })
      processForwardResponseWrite e ans l r
  | none => removeUpstream l r (addClient ans l r (countAndReturnOk l r))

def processWaitConnect (ans : Answers) (l r : Nat) : Prog ProcessResult :=
  ProxyExecutor.processWaitConnect (processForwardRequest ans l r) ans l r

def handlers (e : Executor) (ans : Answers) (l r : Nat) : Handlers where
  waitConnect := processWaitConnect ans l r
  forwardRequest := processForwardRequest ans l r
  forwardResponseRead := processForwardResponseRead e ans l r
  forwardResponseWrite := processForwardResponseWrite e ans l r

def process (e : Executor) (ans : Answers) (l r : Nat) (fd : Int) (events : Nat) :
    Prog ProcessResult :=
  ProxyExecutor.process (handlers e ans l r) l r fd events

end ProxyExecutorReadWrite
end EpollHttp
