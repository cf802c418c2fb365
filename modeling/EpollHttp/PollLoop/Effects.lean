import EpollHttp.PollLoop.Run
import EpollHttp.Executors.Specs

/-
What an executor does to the world, taken apart.

A call of an executor is a chain of effects, each of them one of the few that are listed here and
each on the data of that executor.  What every effect keeps, every call keeps.
-/

namespace EpollHttp

open Program

/-- The descriptors that the data of an executor holds. -/
inductive Place
  | fd0
  | fd1
  | pipeRead
  | pipeWrite
  deriving DecidableEq, Repr

namespace ExecutorData

def fdAt (d : ExecutorData) : Place → Int
  | .fd0 => d.fd0
  | .fd1 => d.fd1
  | .pipeRead => d.pipeReadFd
  | .pipeWrite => d.pipeWriteFd

/-- A pipe is never watched. -/
def pollDataAt (d : ExecutorData) : Place → Option Nat
  | .fd0 => d.pollData0
  | .fd1 => d.pollData1
  | .pipeRead => none
  | .pipeWrite => none

def withFd (d : ExecutorData) (place : Place) (fd : Int) : ExecutorData :=
  match place with
  | .fd0 => { d with fd0 := fd }
  | .fd1 => { d with fd1 := fd }
  | .pipeRead => { d with pipeReadFd := fd }
  | .pipeWrite => { d with pipeWriteFd := fd }

/-- The executor reads a request. -/
def Requester (d : ExecutorData) : Prop :=
  d.pExecutor = some .request ∨ d.pExecutor = some .sslRequest

/-- Nothing is held for an upstream server or a file. -/
def Alone (d : ExecutorData) : Prop := d.fd1 = -1 ∧ d.pollData1 = none

/-- The same descriptors are held and watched. -/
def SameHolding (d d' : ExecutorData) : Prop :=
  (∀ place, d'.fdAt place = d.fdAt place) ∧ ∀ place, d'.pollDataAt place = d.pollDataAt place

section
variable (d : ExecutorData) (place : Place) (fd : Int)

@[simp] theorem withFd_fdAt_self : (d.withFd place fd).fdAt place = fd := by
  cases place <;> rfl

theorem withFd_fdAt_of_ne {place' : Place} (h : place' ≠ place) :
    (d.withFd place fd).fdAt place' = d.fdAt place' := by
  cases place <;> cases place' <;> first | rfl | exact absurd rfl h

@[simp] theorem withFd_pollDataAt (place' : Place) :
    (d.withFd place fd).pollDataAt place' = d.pollDataAt place' := by
  cases place <;> cases place' <;> rfl

@[simp] theorem withFd_pExecutor : (d.withFd place fd).pExecutor = d.pExecutor := by
  cases place <;> rfl

theorem SameHolding.refl : d.SameHolding d := ⟨fun _ => rfl, fun _ => rfl⟩

end

end ExecutorData

namespace World

def fdAt (w : World) (l r : Nat) (place : Place) : Int := (w.data l r).fdAt place

def pollDataAt (w : World) (l r : Nat) (place : Place) : Option Nat :=
  (w.data l r).pollDataAt place

/-- The items of `PollData` that are allocated. -/
def usedPolls (w : World) (l : Nat) : List Nat := (w.loops l).pollDatas.usedItems blockSize

/-- The data is allocated. -/
def InUse (w : World) (l r : Nat) : Prop := r ∈ (w.loops l).execDatas.usedItems blockSize

end World

/-- No descriptor and no registration changed. -/
structure Kernel.SameTables (k k' : Kernel) : Prop where
  table : k'.table = k.table
  nextId : k'.nextId = k.nextId
  accepted : k'.accepted = k.accepted
  closes : k'.closes = k.closes
  epoll : k'.epoll = k.epoll
  nextSerial : k'.nextSerial = k.nextSerial

namespace Kernel.SameTables

variable {k k' : Kernel}

theorem refl (k : Kernel) : k.SameTables k := ⟨rfl, rfl, rfl, rfl, rfl, rfl⟩

theorem openId? (h : k.SameTables k') (fd : Int) : k'.openId? fd = k.openId? fd := by
  unfold Kernel.openId?
  rw [h.table]

theorem take (k : Kernel) (id : Nat) (bytes : Bytes) : k.SameTables (k.take id bytes) :=
  ⟨rfl, rfl, rfl, rfl, rfl, rfl⟩

theorem send (k : Kernel) (id : Nat) (bytes : Bytes) : k.SameTables (k.send id bytes) :=
  ⟨rfl, rfl, rfl, rfl, rfl, rfl⟩

theorem setPipe (k : Kernel) (id : Nat) (bytes : Bytes) : k.SameTables (k.setPipe id bytes) :=
  ⟨rfl, rfl, rfl, rfl, rfl, rfl⟩

theorem joinPipe (k : Kernel) (readFd writeFd : Int) :
    k.SameTables (k.joinPipe readFd writeFd) := by
  unfold Kernel.joinPipe
  split <;> exact ⟨rfl, rfl, rfl, rfl, rfl, rfl⟩

end Kernel.SameTables

/-! ## Effects -/

/-- One thing that the executor `r` of the loop `l` may do. -/
inductive Effect (l r : Nat) (w : World) : World → Prop
  /-- Bytes were moved. -/
  | bytes (k : Kernel) (h : w.kernel.SameTables k) : Effect l r w (w.setKernel k)
  /-- Other fields of the data were assigned. -/
  | data (d : ExecutorData) (hheld : (w.data l r).SameHolding d)
      (halone : d.pExecutor = (w.data l r).pExecutor ∨ (d.Requester → d.Alone)) :
      Effect l r w (w.setData l r d)
  /-- `fileNameBuffer` was cut back to the root folder. -/
  | cut : Effect l r w
      (w.setLoop l { w.loops l with
        fileNameBuffer := RequestExecutor.cutFileName (w.loops l) })
  /-- The file was named. -/
  | named (name : Bytes) (hname : name = RequestExecutor.indexHtml ∨
        (w.loops l).rootFolderLength + name.length ≤ MAX_FILE_NAME) :
      Effect l r w (w.setLoop l { w.loops l with
        fileNameBuffer := RequestExecutor.strcat (RequestExecutor.cutFileName (w.loops l)) name })
  | added (fd : Int) (events p : Nat) (w' : World) (huse : w.InUse l r)
      (h : Added w l r fd events p w') : Effect l r w w'
  | refused (w' : World) (h : Refused w l r w') : Effect l r w w'
  | edited (fd : Int) (events p : Nat) (k : Kernel) (hp : (w.data l r).pollDataOf fd = some p)
      (hk : w.kernel.ctlMod l fd p (watched events) = some k) : Effect l r w (w.setKernel k)
  | removed (fd : Int) (p : Nat) (w' : World) (h : Removed w l r fd p w') : Effect l r w w'
  /-- A socket was opened and closed. -/
  | tried (sock : Int) (h : w.kernel.Available sock) :
      Effect l r w (w.setKernel ((w.kernel.opened sock false).close sock))
  /-- A descriptor was opened and is held. -/
  | opened (place : Place) (fd : Int) (huse : w.InUse l r) (havail : w.kernel.Available fd)
      (hpoll : w.pollDataAt l r place = none)
      (hfd : place = .fd0 ∨ place = .fd1 → w.fdAt l r place = -1)
      (halone : place = .fd1 → ¬ (w.data l r).Requester) :
      Effect l r w ((w.setKernel (w.kernel.opened fd false)).setData l r
        ((w.data l r).withFd place fd))
  /-- A descriptor that is not watched was closed. -/
  | closed (place : Place) (hpoll : w.pollDataAt l r place = none) :
      Effect l r w ((w.setKernel (w.kernel.close (w.fdAt l r place))).setData l r
        ((w.data l r).withFd place (-1)))

abbrev Effects (l r : Nat) : World → World → Prop := Relation.ReflTransGen (Effect l r)

end EpollHttp
