import EpollHttp.PollLoop.PollFds

/-
Reading from and writing to the client, which depend on the class of the executor.
-/

namespace EpollHttp

open Program

/-! ## SSL -/

/-- `SSL_read`, with nothing read when the result is not positive. -/
def sslRead (ans : Answers) (fd : Int) (count : Nat) : Prog Bytes := do
  let k ← getKernel
  match k.openId? fd, ans.sslRead.take count with
  | some id, c :: rest => do
    modifyKernel (fun k => k.take id (c :: rest))
    return c :: rest
  | _, _ => return []

/-- `SSL_write` -/
def sslWrite (ans : Answers) (fd : Int) (bytes : Bytes) : Prog Int := do
  let k ← getKernel
  match k.openId? fd with
  | none => return -1
  | some id => do
    let result := min ans.sslWrite bytes.length
    sendSome id bytes result
    return result

def sslWriteFd0 (ans : Answers) (l r : Nat) (bytes : Bytes) : Prog Written := do
  let data ← getData l r
  let result ← sslWrite ans data.fd0 bytes
  if 0 < result then return { result := result, errno := 0 }
  else
    match ans.sslWriteError with
    | .wantWrite => return { result := result, errno := EAGAIN }
    | .wantRead => do
      let edited ← editPollFd ans l r data.fd0 (EPOLLIN ||| EPOLLOUT)
      if edited = 0 then return { result := result, errno := EAGAIN }
      else return { result := result, errno := EINVAL }
    | .other => return { result := result, errno := EINVAL }

/-- `SslRequestExecutor::readFd0` -/
def sslReadFd0 (ans : Answers) (l r count : Nat) : Prog Received := do
  let data ← getData l r
  let bytes ← sslRead ans data.fd0 count
  if bytes ≠ [] then return { result := bytes.length, bytes := bytes, errno := 0 }
  else
    match ans.sslReadError with
    | .wantRead => return { result := -1, bytes := [], errno := EAGAIN }
    | .wantWrite => do
      let edited ← editPollFd ans l r data.fd0 (EPOLLIN ||| EPOLLOUT)
      if edited = 0 then return { result := -1, bytes := [], errno := EAGAIN }
      else return { result := -1, bytes := [], errno := EINVAL }
    | .other => return { result := -1, bytes := [], errno := EINVAL }

namespace Executor

/-- The error code is that of the call, or 0. -/
def plainReadFd0 (ans : Answers) (l r count : Nat) : Prog Received := do
  let data ← getData l r
  let received ← read ans data.fd0 count
  return { received with errno := if 0 < received.result then 0 else received.errno }

def plainWriteFd0 (ans : Answers) (l r : Nat) (bytes : Bytes) : Prog Written := do
  let data ← getData l r
  let written ← write ans data.fd0 bytes
  return { written with errno := if 0 < written.result then 0 else written.errno }

/-- The virtual `readFd0`. -/
def readFd0 (e : Executor) (ans : Answers) (l r count : Nat) : Prog Received :=
  match e with
  | .sslRequest => sslReadFd0 ans l r count
  | _ => plainReadFd0 ans l r count

/-- The virtual `writeFd0`. -/
def writeFd0 (e : Executor) (ans : Answers) (l r : Nat) (bytes : Bytes) : Prog Written :=
  match e with
  | .sslFile => sslWriteFd0 ans l r bytes
  | .sslProxy => sslWriteFd0 ans l r bytes
  | _ => plainWriteFd0 ans l r bytes

end Executor

/-! ## Sockets -/

/-- `socketConnectNonBlock`: the socket or -1, and `connected`. -/
def socketConnectNonBlock (ans : Answers) : Prog (Int × Bool) := do
  let sock ← newDescriptor ans.socket false
  if sock < 0 then return (-1, false)
  else
    match ans.connect with
    | none => return (sock, true)
    | some errno =>
      if errno ≠ EINPROGRESS then do
        close sock
        return (-1, false)
      else return (sock, false)

/-- `socketConnectUnixNonBlock` -/
def socketConnectUnixNonBlock (ans : Answers) (pathFits : Bool) : Prog (Int × Bool) :=
  if pathFits then socketConnectNonBlock ans else return (-1, false)

/-- `socketListen` -/
def socketListen (ans : Answers) : Prog Int := do
  let sockfd ← newDescriptor ans.socket false
  if sockfd < 0 then return -1
  else if ans.listen then return sockfd
  else do
    close sockfd
    return -1

end EpollHttp
