import EpollHttp.Executors.Executor
import EpollHttp.HttpResponse

/-
`FileExecutor` and `SslFileExecutor`: the headers and then the bytes of a file.
-/

namespace EpollHttp
namespace FileExecutor

open Program

/-- The headers go into the cleared buffer; `text` is given the size of the window. -/
def createHeaders (l r : Nat) (text : Nat → Option Bytes) : Prog Int := do
  let data ← getData l r
  let (window, buffer) := data.buffer.clear.startWrite
  modifyData l r (fun d => { d with buffer := buffer })
  match window with
  | none => return -1
  | some w =>
    match text w.size with
    | none => return -1
    | some bytes => do
      modifyData l r (fun d =>
        { d with buffer := (d.buffer.fill w.start (bytes ++ [0])).endWrite bytes.length })
      return 0

def createOkResponse (ans : Answers) (l r : Nat) (lastModified : Int) : Prog Int := do
  let data ← getData l r
  createHeaders l r (fun size =>
    HttpResponse.ok200 size data.bytesToSend (ans.strftime lastModified))

def createResponse (l r : Nat) (statusCode : HttpCode) : Prog Int :=
  createHeaders l r (fun size =>
    match statusCode with
    | .notFound => HttpResponse.notFound404 size
    | .notModified => HttpResponse.notModified304 size
    | .ok => none)

/-- The end of `up`: the client is watched for `EPOLLOUT` once the headers are there. -/
def watchClient (ans : Answers) (l r : Nat) : Prog Int := do
  let data ← getData l r
  let edited ← editPollFd ans l r data.fd0 EPOLLOUT
  if edited ≠ 0 then return -1 else return 0

/-- The file was not found. -/
def upNotFound (ans : Answers) (l r : Nat) : Prog Int := do
  let created ← createResponse l r .notFound
  if created ≠ 0 then return -1
  else do
    let watching ← watchClient ans l r
    if watching ≠ 0 then return -1
    else do
      setState l r .sendOnlyHeaders
      return 0

/-- The file was opened. -/
def upOpened (ans : Answers) (l r : Nat) : Prog Int :=
  match ans.fstat with
  | none => return -1
  | some (size, lastModified) => do
    modifyData l r (fun d => { d with bytesToSend := size })
    let data ← getData l r
    if lastModified ≤ data.request.getIfModifiedSince ans.strptime then do
      let created ← createResponse l r .notModified
      if created ≠ 0 then return -1
      else do
        setState l r .sendOnlyHeaders
        watchClient ans l r
    else do
      let created ← createOkResponse ans l r lastModified
      if created ≠ 0 then return -1
      else do
        setState l r .sendHeaders
        watchClient ans l r

/-- The file that is opened is named by `fileNameBuffer`. -/
def up (ans : Answers) (l r : Nat) : Prog Int := do
  modifyData l r (fun d => { d with removeOnTimeout := true })
  let fd1 ← newDescriptor ans.openFile false
  modifyData l r (fun d => { d with fd1 := fd1 })
  if fd1 < 0 then
    if ans.openErrno = ENOENT then upNotFound ans l r else return -1
  else upOpened ans l r

def processSendHeaders (e : Executor) (ans : Answers) (l r : Nat) : Prog ProcessResult := do
  let data ← getData l r
  match data.buffer.startRead with
  | none => return .removeExecutorError
  | some w => do
    let written ← e.writeFd0 ans l r (data.buffer.slice w.start (w.start + w.size))
    if written.result ≤ 0 then
      if written.errno ≠ EWOULDBLOCK ∧ written.errno ≠ EAGAIN ∧ written.errno ≠ EINTR then
        return .removeExecutorError
      else do
        countRetry l r
        return .ok
    else do
      clearRetries l r
      modifyData l r (fun d => { d with buffer := d.buffer.endRead written.result.toNat })
      if written.result = w.size then do
        modifyData l r (fun d => { d with buffer := d.buffer.clear })
        let data ← getData l r
        if data.state = .sendOnlyHeaders then return .removeExecutorOk
        else do
          setState l r .sendFile
          return .ok
      else return .ok

def processSendFile (ans : Answers) (l r : Nat) : Prog ProcessResult := do
  let data ← getData l r
  let sent ← sendfile ans data.fd0 data.fd1 data.bytesToSend
  if sent.result ≤ 0 then
    if sent.errno = EAGAIN ∨ sent.errno = EWOULDBLOCK then do
      countRetry l r
      return .ok
    else return .removeExecutorError
  else do
    clearRetries l r
    modifyData l r (fun d =>
      { d with
        filePosition := d.filePosition + sent.result
        bytesToSend := d.bytesToSend - sent.result })
    let data ← getData l r
    if data.bytesToSend = 0 then return .removeExecutorOk else return .ok

def process (e : Executor) (ans : Answers) (l r : Nat) (fd : Int) (events : Nat) :
    Prog ProcessResult := do
  let data ← getData l r
  if (data.state = .sendHeaders ∨ data.state = .sendOnlyHeaders) ∧ fd = data.fd0 ∧
      hasEvent events EPOLLOUT then processSendHeaders e ans l r
  else if data.state = .sendFile ∧ fd = data.fd0 ∧ hasEvent events EPOLLOUT then
    processSendFile ans l r
  else return .removeExecutorError

end FileExecutor

namespace SslFileExecutor

open Program

/-- More of the file goes into the buffer, if there is a place; none for a failure, else whether
something was read. -/
def readFile (ans : Answers) (l r : Nat) : Prog (Option Bool) := do
  let data ← getData l r
  if 0 < data.fd1 then do
    let (window, buffer) := data.buffer.startWrite
    modifyData l r (fun d => { d with buffer := buffer })
    match window with
    | none => return some false
    | some w => do
      let received ← read ans data.fd1 w.size
      if received.result < 0 then return none
      else if received.result = 0 then do
        let _ ← closeFd l r data.fd1
        return some false
      else do
        modifyData l r (fun d =>
          { d with buffer := (d.buffer.fill w.start received.bytes).endWrite received.bytes.length })
        return some true
  else return some false

def countOperation (l r : Nat) (operationOk : Bool) : Prog PUnit :=
  if operationOk then clearRetries l r else countRetry l r

def processSendFile (ans : Answers) (l r : Nat) : Prog ProcessResult := do
  let file ← readFile ans l r
  match file with
  | none => return .removeExecutorError
  | some operationOk => do
    let data ← getData l r
    match data.buffer.startRead with
    | some w => do
      let written ← sslWrite ans data.fd0 (data.buffer.slice w.start (w.start + w.size))
      if 0 < written then do
        modifyData l r (fun d =>
          { d with
            buffer := d.buffer.endRead written.toNat
            bytesToSend := d.bytesToSend - written })
        let data ← getData l r
        if data.bytesToSend = 0 then return .removeExecutorOk
        else do
          countOperation l r true
          return .ok
      else
        match ans.sslWriteError with
        | .wantWrite => return .ok
        | .wantRead => do
          let edited ← editPollFd ans l r data.fd0 (EPOLLIN ||| EPOLLOUT)
          if edited ≠ 0 then return .removeExecutorError
          else do
            countOperation l r operationOk
            return .ok
        | .other => return .removeExecutorError
    | none =>
      if 0 < data.fd1 then return .removeExecutorError
      else do
        countOperation l r operationOk
        return .ok

def process (ans : Answers) (l r : Nat) (fd : Int) (events : Nat) : Prog ProcessResult := do
  let data ← getData l r
  if data.state = .sendFile ∧ fd = data.fd0 ∧
      (hasEvent events EPOLLIN ∨ hasEvent events EPOLLOUT) then processSendFile ans l r
  else FileExecutor.process .sslFile ans l r fd events

end SslFileExecutor
end EpollHttp
