import EpollHttp.Lib.Program
import EpollHttp.ExecutorData
import EpollHttp.Kernel

/-
The loops of a server over one kernel, and the system calls as programs.

A loop is addressed by its index and the data of an executor by its place in `execDatas`.  The
calls of one step take what they need from the `Answers` of the step.  A program fails where the
call never returns, where a null pointer is followed, and where the answers name a descriptor that
the kernel cannot hand out.
-/

namespace EpollHttp

structure NewFdData where
  execType : ExecutorType
  fd : Int
  deriving DecidableEq, Repr

/-- An entry of the array that `epoll_wait` fills.  `fd`, `serial`, `execData` and `incarnation`
are not in the array: they tell which registration and which use of the executor's place in the
storage the entry was reported for. -/
structure EpollEvent where
  events : Nat
  ptr : Nat
  fd : Int
  serial : Nat
  execData : Option Nat
  incarnation : Nat
  deriving DecidableEq, Repr

/-- Where the thread of a loop stands in `run`. -/
inductive Phase
  /-- Before `init`. -/
  | created
  /-- In front of `epoll_wait`. -/
  | waiting
  /-- In front of the next entry. -/
  | draining (curMillis : Int) (pending : List EpollEvent)
  /-- In `checkNewFd`, called for the executor `r`. -/
  | checkingNewFd (r : Nat) (curMillis : Int) (pending : List EpollEvent)
  /-- In front of a `close` that `down` has already called. -/
  | closingAgain (fd : Int) (next : Phase)
  /-- After `destroy`. -/
  | destroyed
  deriving Repr

structure PollLoop where
  execDatas : BlockStorage ExecutorData := BlockStorage.empty
  pollDatas : BlockStorage PollData := BlockStorage.empty
  fileNameBuffer : Bytes := []
  rootFolderLength : Nat := 0
  newFdsQueue : List NewFdData := []
  epollFd : Int := -1
  eventFd : Int := -1
  lastCheckTimeoutMillis : Int := 0
  numOfPollFds : Int := 0
  phase : Phase := .created
  /-- How often a place of `execDatas` was handed out. -/
  incarnation : Nat → Nat := fun _ => 0

structure World where
  parameters : ServerParameters
  loops : Nat → PollLoop := fun _ => {}
  kernel : Kernel := {}

/-- The block size of both storages. -/
def blockSize : Nat := 0x400

namespace World

def data (w : World) (l r : Nat) : ExecutorData := ((w.loops l).execDatas.items r).fields

def pollData (w : World) (l p : Nat) : PollData := ((w.loops l).pollDatas.items p).fields

def setLoop (w : World) (l : Nat) (loop : PollLoop) : World :=
  { w with loops := Function.update w.loops l loop }

def setKernel (w : World) (k : Kernel) : World := { w with kernel := k }

def setData (w : World) (l r : Nat) (d : ExecutorData) : World :=
  w.setLoop l { w.loops l with execDatas := (w.loops l).execDatas.assign r d }

def setPollData (w : World) (l p : Nat) (d : PollData) : World :=
  w.setLoop l { w.loops l with pollDatas := (w.loops l).pollDatas.assign p d }

section
variable (w : World) (l : Nat)

@[simp] theorem setLoop_kernel (loop : PollLoop) : (w.setLoop l loop).kernel = w.kernel := rfl

@[simp] theorem setLoop_self (loop : PollLoop) : (w.setLoop l loop).loops l = loop :=
  Function.update_self ..

theorem setLoop_other {l' : Nat} (h : l' ≠ l) (loop : PollLoop) :
    (w.setLoop l loop).loops l' = w.loops l' := Function.update_of_ne h ..

@[simp] theorem setKernel_kernel (k : Kernel) : (w.setKernel k).kernel = k := rfl

@[simp] theorem setKernel_loops (k : Kernel) : (w.setKernel k).loops = w.loops := rfl

@[simp] theorem setKernel_data (k : Kernel) : (w.setKernel k).data = w.data := rfl

@[simp] theorem setData_kernel (r : Nat) (d : ExecutorData) :
    (w.setData l r d).kernel = w.kernel := rfl

@[simp] theorem setData_self (r : Nat) (d : ExecutorData) : (w.setData l r d).data l r = d := by
  unfold data setData
  rw [setLoop_self]
  simp [BlockStorage.assign]

@[simp] theorem setData_setData (r : Nat) (d d' : ExecutorData) :
    (w.setData l r d).setData l r d' = w.setData l r d' := by
  simp [setData, setLoop, BlockStorage.assign]

theorem setData_other {l' r r' : Nat} (h : ¬ (l' = l ∧ r' = r)) (d : ExecutorData) :
    (w.setData l r d).data l' r' = w.data l' r' := by
  unfold data setData
  by_cases hl : l' = l
  · have hr : r' ≠ r := fun hr => h ⟨hl, hr⟩
    rw [hl, setLoop_self]
    simp [BlockStorage.assign, Function.update_of_ne hr]
  · rw [setLoop_other _ _ hl]

@[simp] theorem setData_pollData (r : Nat) (d : ExecutorData) :
    (w.setData l r d).pollData = w.pollData := by
  funext l' p
  unfold pollData setData
  by_cases hl : l' = l
  · rw [hl, setLoop_self]
  · rw [setLoop_other _ _ hl]

/-- A loop keeps the data of its executors. -/
theorem setLoop_data {loop : PollLoop} (hexecs : ∀ r, (loop.execDatas.items r).fields =
    ((w.loops l).execDatas.items r).fields) (l' r : Nat) :
    (w.setLoop l loop).data l' r = w.data l' r := by
  unfold data
  by_cases hl : l' = l
  · rw [hl, setLoop_self]
    exact hexecs r
  · rw [setLoop_other _ _ hl]

end

end World

/-! ## Programs -/

abbrev Prog := Program World

open Program

def getLoop (l : Nat) : Prog PollLoop := do
  let w ← get
  return w.loops l

def modifyLoop (l : Nat) (f : PollLoop → PollLoop) : Prog PUnit :=
  modify (fun w => w.setLoop l (f (w.loops l)))

def getData (l r : Nat) : Prog ExecutorData := do
  let w ← get
  return w.data l r

def modifyData (l r : Nat) (f : ExecutorData → ExecutorData) : Prog PUnit :=
  modify (fun w => w.setData l r (f (w.data l r)))

def setState (l r : Nat) (state : ExecutorData.State) : Prog PUnit :=
  modifyData l r (fun d => { d with state := state })

/-- `++data.retryCounter` -/
def countRetry (l r : Nat) : Prog PUnit :=
  modifyData l r (fun d => { d with retryCounter := d.retryCounter + 1 })

/-- `data.retryCounter = 0` -/
def clearRetries (l r : Nat) : Prog PUnit :=
  modifyData l r (fun d => { d with retryCounter := 0 })

def getKernel : Prog Kernel := do
  let w ← get
  return w.kernel

def modifyKernel (f : Kernel → Kernel) : Prog PUnit := modify (fun w => w.setKernel (f w.kernel))

/-- An `if` without an `else`. -/
def when (c : Prop) [Decidable c] (m : Prog PUnit) : Prog PUnit := if c then m else pure ⟨⟩

def close (fd : Int) : Prog PUnit := modifyKernel (fun k => k.close fd)

def closePositive (fd : Int) : Prog PUnit := when (0 < fd) (close fd)

/-! ## Rules for the programs -/

section
variable {w : World} {l r : Nat}

theorem get_bind {α : Type} {f : World → Prog α} : (get >>= f) w = f w w := rfl

theorem getData_bind {α : Type} {f : ExecutorData → Prog α} :
    (getData l r >>= f) w = f (w.data l r) w := rfl

@[simp] theorem ensures_getLoop {Q : PollLoop → World → Prop} :
    Ensures (getLoop l) w Q ↔ Q (w.loops l) w := by
  simp [getLoop]

@[simp] theorem ensures_modifyLoop {Q : PUnit → World → Prop} {f : PollLoop → PollLoop} :
    Ensures (modifyLoop l f) w Q ↔ Q ⟨⟩ (w.setLoop l (f (w.loops l))) := by
  simp [modifyLoop]

@[simp] theorem ensures_getData {Q : ExecutorData → World → Prop} :
    Ensures (getData l r) w Q ↔ Q (w.data l r) w := by
  simp [getData]

@[simp] theorem ensures_modifyData {Q : PUnit → World → Prop}
    {f : ExecutorData → ExecutorData} :
    Ensures (modifyData l r f) w Q ↔ Q ⟨⟩ (w.setData l r (f (w.data l r))) := by
  simp [modifyData]

@[simp] theorem ensures_getKernel {Q : Kernel → World → Prop} :
    Ensures getKernel w Q ↔ Q w.kernel w := by
  simp [getKernel]

@[simp] theorem ensures_modifyKernel {Q : PUnit → World → Prop} {f : Kernel → Kernel} :
    Ensures (modifyKernel f) w Q ↔ Q ⟨⟩ (w.setKernel (f w.kernel)) := by
  simp [modifyKernel]

@[simp] theorem ensures_when {Q : PUnit → World → Prop} {c : Prop} [Decidable c]
    {m : Prog PUnit} :
    Ensures (when c m) w Q ↔ (c → Ensures m w Q) ∧ (¬ c → Q ⟨⟩ w) := by
  simp [when]

@[simp] theorem ensures_setState {Q : PUnit → World → Prop} {state : ExecutorData.State} :
    Ensures (setState l r state) w Q ↔
      Q ⟨⟩ (w.setData l r { w.data l r with state := state }) := by
  simp [setState]

@[simp] theorem ensures_countRetry {Q : PUnit → World → Prop} :
    Ensures (countRetry l r) w Q ↔
      Q ⟨⟩ (w.setData l r
        { w.data l r with retryCounter := (w.data l r).retryCounter + 1 }) := by
  simp [countRetry]

@[simp] theorem ensures_clearRetries {Q : PUnit → World → Prop} :
    Ensures (clearRetries l r) w Q ↔
      Q ⟨⟩ (w.setData l r { w.data l r with retryCounter := 0 }) := by
  simp [clearRetries]

@[simp] theorem ensures_close {Q : PUnit → World → Prop} {fd : Int} :
    Ensures (close fd) w Q ↔ Q ⟨⟩ (w.setKernel (w.kernel.close fd)) := by
  simp [close]

end

/-- The descriptor that a call answers with, which is a new one unless the call failed. -/
def newDescriptor (fd : Int) (accepted : Bool) : Prog Int := do
  let k ← getKernel
  if fd < 0 then return -1
  else if k.Available fd then
    modifyKernel (fun k => k.opened fd accepted)
    return fd
  else fail

/-! ## Reading and writing

The result of a call with the value of `errno` after it, and the bytes that were read. -/

structure Received where
  result : Int
  bytes : Bytes
  errno : Nat

structure Written where
  result : Int
  errno : Nat

/-- What a call for at most `count` bytes takes from the stream of an object. -/
def receive (id : Nat) (count : Nat) (answer : ReadAnswer) : Prog Received :=
  match answer.bytes with
  | none => return { result := -1, bytes := [], errno := answer.errno }
  | some bytes => do
    modifyKernel (fun k => k.take id (bytes.take count))
    return { result := (bytes.take count).length, bytes := bytes.take count, errno := answer.errno }

/-- `read(fd, p, count)` -/
def read (ans : Answers) (fd : Int) (count : Nat) : Prog Received := do
  let k ← getKernel
  match k.openId? fd with
  | none => return { result := -1, bytes := [], errno := EBADF }
  | some id => receive id count ans.read

/-- At most all of the bytes are sent. -/
def sendSome (id : Nat) (bytes : Bytes) (count : Int) : Prog PUnit :=
  modifyKernel (fun k => k.send id (bytes.take count.toNat))

/-- `write(fd, p, size)` for the bytes at `p` -/
def write (ans : Answers) (fd : Int) (bytes : Bytes) : Prog Written := do
  let k ← getKernel
  match k.openId? fd with
  | none => return { result := -1, errno := EBADF }
  | some id => do
    let result := min ans.write.count bytes.length
    sendSome id bytes result
    return { result := result, errno := ans.write.errno }

/-- `sendfile(outFd, inFd, &offset, count)`; the bytes that are read are sent. -/
def sendfile (ans : Answers) (outFd inFd : Int) (count : Int) : Prog Received := do
  let k ← getKernel
  match k.openId? outFd, k.openId? inFd with
  | some outId, some inId => do
    let received ← receive inId count.toNat ans.sendfile
    sendSome outId received.bytes received.result
    return received
  | _, _ => return { result := -1, bytes := [], errno := EBADF }

/-- `splice` from a stream into a pipe -/
def spliceIn (ans : Answers) (fd pipeWriteFd : Int) (count : Nat) : Prog Received := do
  let k ← getKernel
  match k.openId? fd, k.openId? pipeWriteFd with
  | some id, some pipeId => do
    let received ← receive id count ans.spliceIn
    modifyKernel (fun k =>
      k.setPipe (k.readEnd pipeId) (k.pipes (k.readEnd pipeId) ++ received.bytes))
    return received
  | _, _ => return { result := -1, bytes := [], errno := EBADF }

/-- `splice` from a pipe to a stream -/
def spliceOut (ans : Answers) (pipeReadFd fd : Int) (count : Nat) : Prog Written := do
  let k ← getKernel
  match k.openId? pipeReadFd, k.openId? fd with
  | some pipeId, some id => do
    let held := (k.pipes pipeId).take count
    let result := min ans.spliceOut.count held.length
    sendSome id held result
    modifyKernel (fun k => k.setPipe pipeId ((k.pipes pipeId).drop result.toNat))
    return { result := result, errno := ans.spliceOut.errno }
  | _, _ => return { result := -1, errno := EBADF }

end EpollHttp
