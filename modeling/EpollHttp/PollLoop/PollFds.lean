import EpollHttp.World

/-
`PollLoop`: the entries of the epoll set and the data of the executors.
-/

namespace EpollHttp

open Program

/-! ## Storages -/

def allocatePollData (l : Nat) : Prog Nat := do
  let loop ← getLoop l
  match loop.pollDatas.allocate blockSize with
  | none => fail
  | some (p, pollDatas) => do
    modifyLoop l (fun loop => { loop with pollDatas := pollDatas })
    return p

def freePollData (l p : Nat) : Prog PUnit :=
  modifyLoop l (fun loop => { loop with pollDatas := loop.pollDatas.free p })

def allocateExecData (l : Nat) : Prog Nat := do
  let loop ← getLoop l
  match loop.execDatas.allocate blockSize with
  | none => fail
  | some (r, execDatas) => do
    modifyLoop l (fun loop =>
      { loop with
        execDatas := execDatas
        incarnation := Function.update loop.incarnation r (loop.incarnation r + 1) })
    return r

def freeExecData (l r : Nat) : Prog PUnit :=
  modifyLoop l (fun loop => { loop with execDatas := loop.execDatas.free r })

def addToNumOfPollFds (l : Nat) (n : Int) : Prog PUnit :=
  modifyLoop l (fun loop => { loop with numOfPollFds := loop.numOfPollFds + n })

/-! ## Entries of the epoll set -/

/-- The first of the two pointers whose descriptor is `fd`. -/
def ExecutorData.pollDataOf (d : ExecutorData) (fd : Int) : Option Nat :=
  if fd = d.fd0 then d.pollData0 else if fd = d.fd1 then d.pollData1 else none

def ExecutorData.setPollDataOf (d : ExecutorData) (fd : Int) (p : Nat) : ExecutorData :=
  if fd = d.fd0 then { d with pollData0 := some p }
  else if fd = d.fd1 then { d with pollData1 := some p }
  else d

/-- The first of the two pointers that is `p` becomes null. -/
def ExecutorData.dropPollData (d : ExecutorData) (p : Nat) : ExecutorData :=
  if some p = d.pollData0 then { d with pollData0 := none }
  else if some p = d.pollData1 then { d with pollData1 := none }
  else d

theorem setPollDataOf_pExecutor (d : ExecutorData) (fd : Int) (p : Nat) :
    (d.setPollDataOf fd p).pExecutor = d.pExecutor := by
  unfold ExecutorData.setPollDataOf
  split
  · rfl
  · split <;> rfl

theorem dropPollData_pExecutor (d : ExecutorData) (p : Nat) :
    (d.dropPollData p).pExecutor = d.pExecutor := by
  unfold ExecutorData.dropPollData
  split
  · rfl
  · split <;> rfl

/-- The events that `ev.events` is set to. -/
def watched (events : Nat) : Nat := events ||| EPOLLRDHUP ||| EPOLLERR

def addPollFd (ans : Answers) (l r : Nat) (fd : Int) (events : Nat) : Prog Int := do
  let data ← getData l r
  if fd ≠ data.fd0 ∧ fd ≠ data.fd1 then return -1
  else if fd = data.fd0 ∧ data.pollData0 ≠ none then return -1
  else if fd = data.fd1 ∧ data.pollData1 ≠ none then return -1
  else do
    let p ← allocatePollData l
    addToNumOfPollFds l 1
    let k ← getKernel
    match if ans.epollAdd then k.ctlAdd l fd p (watched events) else none with
    | none => do
      freePollData l p
      addToNumOfPollFds l (-1)
      return -1
    | some k => do
      modifyKernel (fun _ => k)
      modify (fun w => w.setPollData l p { fd := fd, execData := some r })
      modifyData l r (fun d => d.setPollDataOf fd p)
      return 0

def editPollFd (ans : Answers) (l r : Nat) (fd : Int) (events : Nat) : Prog Int := do
  let data ← getData l r
  match data.pollDataOf fd with
  | none => return -1
  | some p => do
    let k ← getKernel
    match if ans.epollMod then k.ctlMod l fd p (watched events) else none with
    | none => return -1
    | some k => do
      modifyKernel (fun _ => k)
      return 0

def removePollFd (l r : Nat) (fd : Int) : Prog Int := do
  let data ← getData l r
  match data.pollDataOf fd with
  | none => return -1
  | some p => do
    let k ← getKernel
    match k.ctlDel l fd with
    | none => return -1
    | some k => do
      modifyKernel (fun _ => k)
      modify (fun w => w.setPollData l p (w.pollData l p).down)
      freePollData l p
      addToNumOfPollFds l (-1)
      modifyData l r (fun d => d.dropPollData p)
      return 0

def closeFd (l r : Nat) (fd : Int) : Prog Int := do
  let data ← getData l r
  if fd = data.fd0 then do
    when (data.pollData0 ≠ none) (do let _ ← removePollFd l r data.fd0)
    close data.fd0
    modifyData l r (fun d => { d with fd0 := -1 })
    return 0
  else if fd = data.fd1 then do
    when (data.pollData1 ≠ none) (do let _ ← removePollFd l r data.fd1)
    close data.fd1
    modifyData l r (fun d => { d with fd1 := -1 })
    return 0
  else return -1

/-! ## Data of the executors -/

/-- `ExecutorData::down` -/
def down (l r : Nat) : Prog PUnit := do
  let data ← getData l r
  closePositive data.fd0
  closePositive data.fd1
  closePositive data.pipeReadFd
  closePositive data.pipeWriteFd
  modifyData l r ExecutorData.cleared

def createExecutorData (ans : Answers) (l : Nat) : Prog Nat := do
  let r ← allocateExecData l
  modifyData l r (fun d =>
    { d with createTime := ans.milliseconds, lastProcessTime := ans.milliseconds })
  return r

def removeExecutorData (l r : Nat) : Prog PUnit := do
  let data ← getData l r
  when (data.pollData0 ≠ none) (do let _ ← removePollFd l r data.fd0)
  let data ← getData l r
  when (data.pollData1 ≠ none) (do let _ ← removePollFd l r data.fd1)
  down l r
  freeExecData l r

def PollLoop.getExecutor : ExecutorType → Executor
  | .request => .request
  | .file => .file
  | .proxy => .proxySplice
  | .server => .server
  | .sslFile => .sslFile
  | .serverSsl => .sslServer
  | .requestSsl => .sslRequest
  | .sslProxy => .sslProxy

end EpollHttp
