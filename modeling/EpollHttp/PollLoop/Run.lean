import EpollHttp.Executors.RequestExecutor

/-
`PollLoop::run` and what starts and ends it, with the executors that accept connections.

A step of a loop is what its thread does up to the next point where another thread may come
between: one entry of the epoll set, one descriptor of the queue, one `close`.
-/

namespace EpollHttp

open Program

/-! ## Handing a connection over -/

/-- `boost::lockfree::capacity` -/
def queueCapacity : Nat := 1000

/-- `PollLoop::enqueueClientFd` -/
def enqueueClientFd (l : Nat) (fd : Int) (execType : ExecutorType) : Prog Int := do
  let loop ← getLoop l
  if queueCapacity ≤ loop.newFdsQueue.length then return -1
  else do
    modifyLoop l (fun loop =>
      { loop with newFdsQueue := loop.newFdsQueue ++ [{ execType := execType, fd := fd }] })
    return 0

/-- The loop of `Server::createRequestExecutor` from the loop `i` on, over `n` loops. -/
def minIndexFrom (counts : Nat → Int) : Nat → Nat → Int → Nat → Nat
  | 0, _, _, minIndex => minIndex
  | n + 1, i, minPollFds, minIndex =>
    if counts i < minPollFds then minIndexFrom counts n (i + 1) (counts i) i
    else minIndexFrom counts n (i + 1) minPollFds minIndex

/-- `Server::createRequestExecutor` -/
def serverCreateRequestExecutor (ans : Answers) (fd : Int) (execType : ExecutorType) :
    Prog Int := do
  let w ← get
  let minIndex := minIndexFrom ans.numOfPollFds w.parameters.threadCount 0 CString.intMax 0
  let queued ← enqueueClientFd minIndex fd execType
  if queued ≠ 0 then do
    close fd
    return -1
  else return 0

/-- `pExecutor->up` of the executors that are set up with a new `ExecutorData`. -/
def serverUp (ans : Answers) (l r : Nat) : Prog Int := do
  modifyData l r (fun d => { d with removeOnTimeout := false, state := .ok })
  let fd0 ← socketListen ans
  modifyData l r (fun d => { d with fd0 := fd0 })
  if fd0 < 0 then return -1
  else do
    let added ← addPollFd ans l r fd0 EPOLLIN
    if added ≠ 0 then return -1 else return 0

def upCreated (e : Executor) (ans : Answers) (l r : Nat) : Prog Int :=
  match e with
  | .request => RequestExecutor.up ans l r
  | .sslRequest => SslRequestExecutor.up ans l r
  | .server => serverUp ans l r
  | .sslServer => serverUp ans l r
  | _ => fail

/-- `PollLoop::createRequestExecutorInternal` -/
def createRequestExecutorInternal (ans : Answers) (l : Nat) (fd : Int)
    (execType : ExecutorType) : Prog Int := do
  let r ← createExecutorData ans l
  modifyData l r (fun d =>
    { d with pExecutor := some (PollLoop.getExecutor execType), fd0 := fd })
  let result ← upCreated (PollLoop.getExecutor execType) ans l r
  if result ≠ 0 then do
    removeExecutorData l r
    return -1
  else return 0

/-- `PollLoop::createRequestExecutor` -/
def createRequestExecutor (ans : Answers) (l : Nat) (fd : Int) (execType : ExecutorType) :
    Prog Int := do
  let w ← get
  if w.parameters.threadCount = 1 then createRequestExecutorInternal ans l fd execType
  else serverCreateRequestExecutor ans fd execType

/-- `process` of `ServerExecutor` and `SslServerExecutor`, which differ in the type of the
executor they ask for.  What comes of the connection is not looked at. -/
def serverProcess (execType : ExecutorType) (ans : Answers) (l r : Nat) (fd : Int) :
    Prog ProcessResult := do
  let data ← getData l r
  if fd ≠ data.fd0 then return .ok
  else do
    let clientSockFd ← newDescriptor ans.accept4 true
    if clientSockFd = -1 then return .shutdown
    else do
      let _ ← createRequestExecutor ans l clientSockFd execType
      return .ok

/-! ## Executors -/

/-- `pExecutor->process`; `NewFdExecutor::process` returns after more than one step and is not
among them: its steps are `startCheckNewFd` and the rounds of `checkNewFd`. -/
def Executor.process (e : Executor) (ans : Answers) (l r : Nat) (fd : Int) (events : Nat) :
    Prog ProcessResult :=
  match e with
  | .newFd => fail
  | .server => serverProcess .request ans l r fd
  | .sslServer => serverProcess .requestSsl ans l r fd
  | .request => RequestExecutor.process ans l r fd events
  | .sslRequest => SslRequestExecutor.process ans l r fd events
  | .file => FileExecutor.process .file ans l r fd events
  | .sslFile => SslFileExecutor.process ans l r fd events
  | .proxySplice => ProxyExecutorSplice.process ans l r fd events
  | .proxyReadWrite => ProxyExecutorReadWrite.process .proxyReadWrite ans l r fd events
  | .sslProxy => ProxyExecutorReadWrite.process .sslProxy ans l r fd events

/-! ## Beginning and end -/

def setPhase (l : Nat) (phase : Phase) : Prog PUnit :=
  modifyLoop l (fun loop => { loop with phase := phase })

/-- `~ExecutorData` of the items of a list. -/
def downAll (l : Nat) : List Nat → Prog PUnit
  | [] => pure ⟨⟩
  | r :: rest => do
    down l r
    downAll l rest

/-- `PollLoop::destroy`, up to the `close` of `eventFd`, which `down` has called for the executor
of `eventFd`. -/
def destroy (l : Nat) : Prog PUnit := do
  let loop ← getLoop l
  downAll l (BlockStorage.allItems blockSize loop.execDatas)
  when (0 < loop.epollFd) (do
    close loop.epollFd
    modifyKernel (fun k => k.closeEpoll l))
  modifyLoop l (fun loop =>
    { loop with
      execDatas := loop.execDatas.destroy
      pollDatas := loop.pollDatas.destroy
      epollFd := -1
      eventFd := -1
      phase := if 0 < loop.eventFd then .closingAgain loop.eventFd .destroyed else .destroyed })

/-- `snprintf(fileNameBuffer, MAX_FILE_NAME, "%s/", rootFolder)` on a buffer of
`MAX_FILE_NAME + 1` bytes -/
def printRootFolder (rootFolder : Bytes) : Bytes :=
  CString.overwrite (List.replicate (MAX_FILE_NAME + 1) 0)
    ((CString.cString rootFolder ++ [HttpRequest.slash]).take (MAX_FILE_NAME - 1) ++ [0])

/-- `PollLoop::createEventFd` -/
def createEventFd (ans : Answers) (l : Nat) : Prog Int := do
  let eventFd ← newDescriptor ans.eventfd false
  modifyLoop l (fun loop => { loop with eventFd := eventFd })
  if eventFd < 0 then return -1
  else do
    let r ← createExecutorData ans l
    modifyData l r (fun d => { d with fd0 := eventFd, pExecutor := some .newFd })
    let added ← addPollFd ans l r eventFd EPOLLIN
    if added ≠ 0 then do
      removeExecutorData l r
      return -1
    else do
      modifyData l r (fun d => { d with removeOnTimeout := false, state := .ok })
      return 0

/-- `PollLoop::init` -/
def init (ans : Answers) (l : Nat) : Prog PUnit := do
  let w ← get
  modifyLoop l (fun loop =>
    { loop with
      numOfPollFds := 0
      fileNameBuffer := printRootFolder w.parameters.rootFolder
      rootFolderLength := (CString.cString (printRootFolder w.parameters.rootFolder)).length })
  let epollFd ← newDescriptor ans.epollCreate false
  modifyLoop l (fun loop => { loop with epollFd := epollFd })
  if epollFd = -1 then destroy l
  else do
    let created ← createEventFd ans l
    if created ≠ 0 then destroy l else setPhase l .waiting

/-- `PollLoop::listenPort` -/
def listenPort (ans : Answers) (l : Nat) (execType : ExecutorType) : Prog PUnit := do
  let r ← createExecutorData ans l
  modifyData l r (fun d => { d with pExecutor := some (PollLoop.getExecutor execType) })
  let result ← upCreated (PollLoop.getExecutor execType) ans l r
  when (result ≠ 0) (removeExecutorData l r)

/-! ## The loop -/

/-- The executors that `checkTimeout` removes. -/
def TimedOut (d : ExecutorData) (timeout curMillis : Int) : Prop :=
  d.removeOnTimeout = true ∧
    (timeout < curMillis - d.lastProcessTime ∨
      ExecutorData.MAX_TIME_TO_LIVE_MILLIS < curMillis - d.createTime)

instance (d : ExecutorData) (timeout curMillis : Int) : Decidable (TimedOut d timeout curMillis) :=
  inferInstanceAs (Decidable (_ ∧ _))

def removeAll (l : Nat) : List Nat → Prog PUnit
  | [] => pure ⟨⟩
  | r :: rest => do
    removeExecutorData l r
    removeAll l rest

/-- `PollLoop::checkTimeout`; the enumeration of the used items is cut after all items there
are. -/
def checkTimeout (l : Nat) (curMillis : Int) : Prog PUnit := do
  let w ← get
  let loop := w.loops l
  match loop.execDatas.enumerate (blockSize * loop.execDatas.blocks.length) with
  | none => fail
  | some used => do
    removeAll l (used.filter (fun r =>
      TimedOut (w.data l r) w.parameters.executorTimeoutMillis curMillis))
    modifyLoop l (fun loop => { loop with lastCheckTimeoutMillis := curMillis })

/-- What `run` does with the result of `process`. -/
def finishProcess (l r : Nat) (curMillis : Int) (pending : List EpollEvent)
    (result : ProcessResult) : Prog PUnit :=
  match result with
  | .removeExecutorOk => do
    removeExecutorData l r
    setPhase l (.draining curMillis pending)
  | .removeExecutorError => do
    removeExecutorData l r
    setPhase l (.draining curMillis pending)
  | .shutdown => destroy l
  | .ok => do
    let data ← getData l r
    if ExecutorData.MAX_RETRY_COUNTER < data.retryCounter then do
      removeExecutorData l r
      setPhase l (.draining curMillis pending)
    else do
      modifyData l r (fun d => { d with lastProcessTime := curMillis })
      setPhase l (.draining curMillis pending)

/-- `NewFdExecutor::process` up to the call of `checkNewFd`. -/
def startCheckNewFd (ans : Answers) (l r : Nat) (curMillis : Int) (pending : List EpollEvent) :
    Prog PUnit :=
  if ans.eventfdRead then setPhase l (.checkingNewFd r curMillis pending) else destroy l

/-- What an entry of the epoll set leads to. -/
inductive Delivery
  /-- `execData` is null or its state is invalid. -/
  | skipped
  | removed (r : Nat)
  | processed (r : Nat) (fd : Int)
  deriving DecidableEq, Repr

/-- The tests of `run` on an entry. -/
def World.delivery (w : World) (l : Nat) (event : EpollEvent) : Delivery :=
  let pollData := w.pollData l event.ptr
  match pollData.execData with
  | none => .skipped
  | some r =>
    if (w.data l r).state = .invalid then .skipped
    else if (hasEvent event.events EPOLLRDHUP ∨ hasEvent event.events EPOLLERR) ∧
        pollData.fd = (w.data l r).fd0 then .removed r
    else .processed r pollData.fd

/-- One round of the loop over the entries. -/
def drain (ans : Answers) (l : Nat) (curMillis : Int) (event : EpollEvent)
    (pending : List EpollEvent) : Prog PUnit := do
  let w ← get
  match w.delivery l event with
  | .skipped => setPhase l (.draining curMillis pending)
  | .removed r => do
    removeExecutorData l r
    setPhase l (.draining curMillis pending)
  | .processed r fd =>
    match (w.data l r).pExecutor with
    | none => fail
    | some .newFd => startCheckNewFd ans l r curMillis pending
    | some e => do
      let result ← e.process ans l r fd event.events
      finishProcess l r curMillis pending result

/-- One round of the loop of `checkNewFd`. -/
def checkNewFd (ans : Answers) (l r : Nat) (curMillis : Int) (pending : List EpollEvent) :
    Prog PUnit := do
  let loop ← getLoop l
  match loop.newFdsQueue with
  | [] => finishProcess l r curMillis pending .ok
  | fdData :: rest => do
    modifyLoop l (fun loop => { loop with newFdsQueue := rest })
    let result ← createRequestExecutorInternal ans l fdData.fd fdData.execType
    when (result ≠ 0)
      (setPhase l (.closingAgain fdData.fd (.checkingNewFd r curMillis pending)))

/-- The end of the round of `while`. -/
def endRound (l : Nat) (curMillis : Int) : Prog PUnit := do
  let w ← get
  if w.parameters.executorTimeoutMillis ≤ curMillis - (w.loops l).lastCheckTimeoutMillis then do
    checkTimeout l curMillis
    setPhase l .waiting
  else setPhase l .waiting

/-! ## epoll_wait -/

def MAX_EPOLL_EVENTS : Nat := 1000

/-- An entry for a descriptor that is registered. -/
def World.report (w : World) (l : Nat) (fd : Int) (events : Nat) : Option EpollEvent :=
  (w.kernel.epoll l fd).map (fun reg =>
    let execData := (w.pollData l reg.ptr).execData
    { events := events
      ptr := reg.ptr
      fd := fd
      serial := reg.serial
      execData := execData
      incarnation := (w.loops l).incarnation (execData.getD 0) })

/-- The entries for some descriptors and masks, at most one for a descriptor. -/
def World.batch (w : World) (l : Nat) (ready : List (Int × Nat)) : Option (List EpollEvent) :=
  if (ready.map Prod.fst).Nodup ∧ ready.length ≤ MAX_EPOLL_EVENTS then
    ready.mapM (fun x => w.report l x.1 x.2)
  else none

/-! ## Steps -/

inductive Action
  | init (l : Nat) (ans : Answers)
  | listenPort (l : Nat) (execType : ExecutorType) (ans : Answers)
  /-- `epoll_wait` returns the entries for the descriptors that are ready. -/
  | epollWait (l : Nat) (ready : List (Int × Nat)) (curMillis : Int)
  /-- The loop was stopped, or `epoll_wait` failed. -/
  | stop (l : Nat)
  /-- The thread goes on where it stands. -/
  | continue (l : Nat) (ans : Answers)

def waitForEvents (l : Nat) (ready : List (Int × Nat)) (curMillis : Int) : Prog PUnit := do
  let w ← get
  match w.batch l ready with
  | none => fail
  | some pending => setPhase l (.draining curMillis pending)

/-- What the thread of a loop does next behind `epoll_wait`. -/
def continueLoop (ans : Answers) (l : Nat) : Prog PUnit := do
  let loop ← getLoop l
  match loop.phase with
  | .draining curMillis (event :: pending) => drain ans l curMillis event pending
  | .draining curMillis [] => endRound l curMillis
  | .checkingNewFd r curMillis pending => checkNewFd ans l r curMillis pending
  | .closingAgain fd next => do
    close fd
    setPhase l next
  | _ => fail

/-- The action is taken by a loop that is ready for it. -/
def Action.perform : Action → Prog PUnit
  | .init l ans => do
    let w ← get
    match (w.loops l).phase with
    | .created => if l < w.parameters.threadCount then EpollHttp.init ans l else fail
    | _ => fail
  | .listenPort l execType ans => do
    let loop ← getLoop l
    match loop.phase with
    | .waiting => EpollHttp.listenPort ans l execType
    | _ => fail
  | .epollWait l ready curMillis => do
    let loop ← getLoop l
    match loop.phase with
    | .waiting => waitForEvents l ready curMillis
    | _ => fail
  | .stop l => do
    let loop ← getLoop l
    match loop.phase with
    | .waiting => destroy l
    | _ => fail
  | .continue l ans => continueLoop ans l

def World.step (w : World) (a : Action) : Option World := (a.perform w).map Prod.snd

end EpollHttp
