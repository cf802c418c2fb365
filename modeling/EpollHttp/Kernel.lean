import EpollHttp.Lib.CString
import Mathlib.Logic.Function.Basic

/-
The operating system as the server sees it.

Descriptor numbers are used again after a close, so the table names the object behind a number by
an identity that is never used again.  What was read from and written to an object is recorded
under its identity.  The results of the system calls are not computed here: they are the
`Answers` that come from outside, and the kernel only books what they say.
-/

namespace EpollHttp

def ENOENT : Nat := 2
def EINTR : Nat := 4
def EBADF : Nat := 9
def EAGAIN : Nat := 11
def EWOULDBLOCK : Nat := 11
def EINVAL : Nat := 22
def EINPROGRESS : Nat := 115

def EPOLLIN : Nat := 0x1
def EPOLLOUT : Nat := 0x4
def EPOLLERR : Nat := 0x8
def EPOLLRDHUP : Nat := 0x2000

/-- `events & flag` -/
def hasEvent (events flag : Nat) : Bool := events &&& flag != 0

/-! ## Answers -/

/-- The bytes that came, none for a result of -1.  `errno` is also read after a result of 0. -/
structure ReadAnswer where
  bytes : Option Bytes := none
  errno : Nat := EAGAIN

structure WriteAnswer where
  count : Int := -1
  errno : Nat := EAGAIN

/-- What `SSL_get_error` tells about a result that is not positive. -/
inductive SslError
  | wantRead
  | wantWrite
  | other
  deriving DecidableEq, Repr

/-- The answers of the operating system and of the libraries to the calls of one step, each of
which is made at most once in a step.  A negative descriptor is a failure. -/
structure Answers where
  read : ReadAnswer := {}
  write : WriteAnswer := {}
  spliceIn : ReadAnswer := {}
  spliceOut : WriteAnswer := {}
  sendfile : ReadAnswer := {}
  sslNew : Bool := true
  sslSetFd : Bool := true
  /-- None when the handshake is finished. -/
  sslDoHandshake : Option SslError := none
  sslRead : Bytes := []
  sslReadError : SslError := .other
  sslWrite : Int := -1
  sslWriteError : SslError := .other
  socket : Int := -1
  /-- None for success, or `errno`. -/
  connect : Option Nat := none
  socketError : Nat := 0
  /-- Whether `setsockopt`, `bind` and `listen` succeed. -/
  listen : Bool := true
  accept4 : Int := -1
  openFile : Int := -1
  openErrno : Nat := ENOENT
  /-- `st_size` and `st_mtime`. -/
  fstat : Option (Int × Int) := none
  strptime : Bytes → Option Int := fun _ => none
  strftime : Int → Bytes := fun _ => []
  pipe2 : Option (Int × Int) := none
  epollCreate : Int := -1
  epollAdd : Bool := true
  epollMod : Bool := true
  eventfd : Int := -1
  eventfdRead : Bool := true
  milliseconds : Int := 0
  /-- The counters of the loops, loaded one after the other while their threads run. -/
  numOfPollFds : Nat → Int := fun _ => 0

/-! ## Descriptors -/

/-- What a descriptor number stands for, or stood for last. -/
inductive Slot
  | never
  | opened (id : Nat)
  | closed (id : Nat)
  deriving DecidableEq, Repr

namespace Slot

def id? : Slot → Option Nat
  | .never => none
  | .opened id => some id
  | .closed id => some id

def openId? : Slot → Option Nat
  | .opened id => some id
  | _ => none

end Slot

/-- An entry of an epoll set, with a number that no other registration gets. -/
structure Registration where
  ptr : Nat
  events : Nat
  serial : Nat
  deriving DecidableEq, Repr

structure Kernel where
  table : Int → Slot := fun _ => .never
  nextId : Nat := 0
  /-- The objects that `accept4` returned. -/
  accepted : Nat → Bool := fun _ => false
  /-- The calls of `close` on a number that stood for the object last. -/
  closes : Nat → Nat := fun _ => 0
  /-- The epoll sets, by the loop they belong to. -/
  epoll : Nat → Int → Option Registration := fun _ _ => none
  nextSerial : Nat := 0
  taken : Nat → Bytes := fun _ => []
  /-- The objects whose end of stream was reported. -/
  ended : Nat → Bool := fun _ => false
  sent : Nat → Bytes := fun _ => []
  /-- What a pipe holds, by its read end. -/
  pipes : Nat → Bytes := fun _ => []
  readEnd : Nat → Nat := fun _ => 0
  idsBelow : ∀ fd id, (table fd).id? = some id → id < nextId := by simp [Slot.id?]

namespace Kernel

/-- Nothing was opened. -/
def fresh : Kernel := {}

def openId? (k : Kernel) (fd : Int) : Option Nat := (k.table fd).openId?

/-- A number the kernel may hand out. -/
def Available (k : Kernel) (fd : Int) : Prop := 0 < fd ∧ k.openId? fd = none

instance (k : Kernel) (fd : Int) : Decidable (k.Available fd) :=
  inferInstanceAs (Decidable (_ ∧ _))

def opened (k : Kernel) (fd : Int) (accepted : Bool) : Kernel :=
  { k with
    table := Function.update k.table fd (.opened k.nextId)
    nextId := k.nextId + 1
    accepted := Function.update k.accepted k.nextId accepted
    closes := Function.update k.closes k.nextId 0
    taken := Function.update k.taken k.nextId []
    ended := Function.update k.ended k.nextId false
    sent := Function.update k.sent k.nextId []
    pipes := Function.update k.pipes k.nextId []
    idsBelow := fun fd' id h => by
      by_cases heq : fd' = fd
      · rw [heq, Function.update_self] at h
        have hid : k.nextId = id := Option.some.inj h
        omega
      · rw [Function.update_of_ne heq] at h
        exact Nat.lt_succ_of_lt (k.idsBelow fd' id h) }

/-- A descriptor that is closed leaves the epoll sets.  A second close is answered with `EBADF`. -/
def close (k : Kernel) (fd : Int) : Kernel :=
  match h : k.table fd with
  | .never => k
  | .closed id => { k with closes := Function.update k.closes id (k.closes id + 1) }
  | .opened id =>
    { k with
      table := Function.update k.table fd (.closed id)
      closes := Function.update k.closes id (k.closes id + 1)
      epoll := fun l => Function.update (k.epoll l) fd none
      idsBelow := fun fd' id' hid => by
        by_cases heq : fd' = fd
        · rw [heq, Function.update_self] at hid
          exact k.idsBelow fd id' (by rw [h]; exact hid)
        · rw [Function.update_of_ne heq] at hid
          exact k.idsBelow fd' id' hid }

/-- The epoll set of a loop is closed. -/
def closeEpoll (k : Kernel) (l : Nat) : Kernel :=
  { k with epoll := Function.update k.epoll l (fun _ => none) }

/-! ## epoll_ctl -/

def setRegistration (k : Kernel) (l : Nat) (fd : Int) (reg : Option Registration) : Kernel :=
  { k with epoll := Function.update k.epoll l (Function.update (k.epoll l) fd reg) }

/-- `EPOLL_CTL_ADD`, refused when the descriptor is not open or already there. -/
def ctlAdd (k : Kernel) (l : Nat) (fd : Int) (ptr events : Nat) : Option Kernel :=
  if k.openId? fd = none ∨ k.epoll l fd ≠ none then none
  else
    some { k.setRegistration l fd (some { ptr := ptr, events := events, serial := k.nextSerial })
      with nextSerial := k.nextSerial + 1 }

/-- `EPOLL_CTL_MOD` -/
def ctlMod (k : Kernel) (l : Nat) (fd : Int) (ptr events : Nat) : Option Kernel :=
  (k.epoll l fd).map (fun reg =>
    k.setRegistration l fd (some { ptr := ptr, events := events, serial := reg.serial }))

/-- `EPOLL_CTL_DEL`, refused when the descriptor is not there. -/
def ctlDel (k : Kernel) (l : Nat) (fd : Int) : Option Kernel :=
  (k.epoll l fd).map (fun _ => k.setRegistration l fd none)

/-! ## Bytes -/

/-- A read of nothing reports the end of the stream. -/
def take (k : Kernel) (id : Nat) (bytes : Bytes) : Kernel :=
  { k with
    taken := Function.update k.taken id (k.taken id ++ bytes)
    ended := Function.update k.ended id (k.ended id || bytes.isEmpty) }

def send (k : Kernel) (id : Nat) (bytes : Bytes) : Kernel :=
  { k with sent := Function.update k.sent id (k.sent id ++ bytes) }

def setPipe (k : Kernel) (id : Nat) (bytes : Bytes) : Kernel :=
  { k with pipes := Function.update k.pipes id bytes }

/-- The two descriptors become the ends of a pipe. -/
def joinPipe (k : Kernel) (readFd writeFd : Int) : Kernel :=
  match k.openId? readFd, k.openId? writeFd with
  | some readId, some writeId => { k with readEnd := Function.update k.readEnd writeId readId }
  | _, _ => k

/-! ## What the calls leave alone -/

section
variable {k k' : Kernel} {l : Nat} {fd fd' : Int} {ptr events : Nat}

@[simp] theorem openId?_close_self : (k.close fd).openId? fd = none := by
  unfold close openId?
  split
  · rename_i h
    rw [h]
    rfl
  · rename_i h
    show (k.table fd).openId? = none
    rw [h]
    rfl
  · simp [Slot.openId?]

theorem openId?_close_of_ne (h : fd' ≠ fd) : (k.close fd).openId? fd' = k.openId? fd' := by
  unfold close openId?
  split
  · rfl
  · rfl
  · simp [Function.update_of_ne h]

theorem epoll_close_of_ne (h : fd' ≠ fd) : (k.close fd).epoll l fd' = k.epoll l fd' := by
  unfold close
  split
  · rfl
  · rfl
  · simp [Function.update_of_ne h]

theorem epoll_close_self (h : k.openId? fd ≠ none) : (k.close fd).epoll l fd = none := by
  unfold openId? at h
  unfold close
  split
  · rename_i hslot
    rw [hslot] at h
    exact absurd rfl h
  · rename_i hslot
    rw [hslot] at h
    exact absurd rfl h
  · simp

/-- A `close` that is answered with `EBADF`. -/
theorem close_refused (h : k.openId? fd = none) :
    (k.close fd).table = k.table ∧ (k.close fd).nextId = k.nextId ∧
      (k.close fd).accepted = k.accepted ∧ (k.close fd).epoll = k.epoll ∧
      (k.close fd).nextSerial = k.nextSerial := by
  unfold openId? at h
  unfold close
  split
  · exact ⟨rfl, rfl, rfl, rfl, rfl⟩
  · exact ⟨rfl, rfl, rfl, rfl, rfl⟩
  · rename_i hslot
    rw [hslot] at h
    cases h

@[simp] theorem openId?_opened_self (accepted : Bool) :
    (k.opened fd accepted).openId? fd = some k.nextId := by
  simp [opened, openId?, Slot.openId?]

theorem openId?_opened_of_ne (h : fd' ≠ fd) (accepted : Bool) :
    (k.opened fd accepted).openId? fd' = k.openId? fd' := by
  simp [opened, openId?, Function.update_of_ne h]

theorem openId?_below {id : Nat} (h : k.openId? fd = some id) : id < k.nextId := by
  refine k.idsBelow fd id ?_
  unfold openId? at h
  cases hslot : k.table fd with
  | never =>
    rw [hslot] at h
    cases h
  | opened id' =>
    rw [hslot] at h
    exact h
  | closed id' =>
    rw [hslot] at h
    cases h

@[simp] theorem setPipe_self (k : Kernel) (id : Nat) : k.setPipe id (k.pipes id) = k := by
  unfold setPipe
  rw [Function.update_eq_self]

@[simp] theorem send_nil (k : Kernel) (id : Nat) : k.send id [] = k := by
  unfold send
  rw [List.append_nil, Function.update_eq_self]

/-- A pipe was opened. -/
structure OpenedPipe (k : Kernel) (readFd writeFd : Int) (k' : Kernel) : Prop where
  readFd : k'.openId? readFd = some k.nextId
  writeFd : k'.openId? writeFd = some (k.nextId + 1)
  readEnd : k'.readEnd (k.nextId + 1) = k.nextId
  empty : k'.pipes k.nextId = []
  others : ∀ fd id, k.openId? fd = some id → k'.openId? fd = some id
  epoll : k'.epoll = k.epoll
  taken : ∀ id < k.nextId, k'.taken id = k.taken id
  ended : ∀ id < k.nextId, k'.ended id = k.ended id
  sent : ∀ id < k.nextId, k'.sent id = k.sent id

theorem openedPipe {readFd writeFd : Int} (hread : k.Available readFd)
    (hwrite : (k.opened readFd false).Available writeFd) :
    k.OpenedPipe readFd writeFd
      (((k.opened readFd false).opened writeFd false).joinPipe readFd writeFd) := by
  have hne : readFd ≠ writeFd := by
    intro heq
    have hnone := hwrite.2
    rw [← heq, openId?_opened_self] at hnone
    cases hnone
  have hr : ((k.opened readFd false).opened writeFd false).openId? readFd = some k.nextId := by
    rw [openId?_opened_of_ne hne, openId?_opened_self]
  have hw : ((k.opened readFd false).opened writeFd false).openId? writeFd =
      some (k.nextId + 1) := openId?_opened_self ..
  have hjoin : ((k.opened readFd false).opened writeFd false).joinPipe readFd writeFd =
      { (k.opened readFd false).opened writeFd false with
        readEnd := Function.update k.readEnd (k.nextId + 1) k.nextId } := by
    unfold joinPipe
    rw [hr, hw]
    rfl
  rw [hjoin]
  refine ⟨hr, hw, Function.update_self .., ?_, fun fd id hfd => ?_, rfl, fun id hid => ?_,
    fun id hid => ?_, fun id hid => ?_⟩
  · simp [opened]
  · have hfd1 : fd ≠ readFd := by
      intro heq
      rw [heq, hread.2] at hfd
      cases hfd
    have hfd2 : fd ≠ writeFd := by
      intro heq
      have hnone := hwrite.2
      rw [← heq, openId?_opened_of_ne hfd1, hfd] at hnone
      cases hnone
    show ((k.opened readFd false).opened writeFd false).openId? fd = some id
    rw [openId?_opened_of_ne hfd2, openId?_opened_of_ne hfd1, hfd]
  all_goals
    have h1 : id ≠ k.nextId := by omega
    have h2 : id ≠ k.nextId + 1 := by omega
    simp [opened, Function.update_of_ne h1, Function.update_of_ne h2]

theorem ctlAdd_some (h : k.ctlAdd l fd ptr events = some k') :
    k.openId? fd ≠ none ∧ k.epoll l fd = none ∧
      k' = { k.setRegistration l fd
          (some { ptr := ptr, events := events, serial := k.nextSerial }) with
        nextSerial := k.nextSerial + 1 } := by
  unfold ctlAdd at h
  split at h
  · cases h
  · rename_i hfree
    have hopen : k.openId? fd ≠ none := fun h0 => hfree (Or.inl h0)
    have hnone : k.epoll l fd = none := by
      by_contra h0
      exact hfree (Or.inr h0)
    exact ⟨hopen, hnone, (Option.some.inj h).symm⟩

theorem ctlMod_some (h : k.ctlMod l fd ptr events = some k') :
    ∃ reg, k.epoll l fd = some reg ∧
      k' = k.setRegistration l fd
        (some { ptr := ptr, events := events, serial := reg.serial }) := by
  obtain ⟨reg, hreg, heq⟩ := Option.map_eq_some_iff.mp h
  exact ⟨reg, hreg, heq.symm⟩

theorem ctlDel_some (h : k.ctlDel l fd = some k') :
    ∃ reg, k.epoll l fd = some reg ∧ k' = k.setRegistration l fd none := by
  obtain ⟨reg, hreg, heq⟩ := Option.map_eq_some_iff.mp h
  exact ⟨reg, hreg, heq.symm⟩

@[simp] theorem setRegistration_self (reg : Option Registration) :
    (k.setRegistration l fd reg).epoll l fd = reg := by
  simp [setRegistration]

theorem setRegistration_other {l' : Nat} (reg : Option Registration)
    (h : ¬ (l' = l ∧ fd' = fd)) :
    (k.setRegistration l fd reg).epoll l' fd' = k.epoll l' fd' := by
  unfold setRegistration
  by_cases hl : l' = l
  · have hfd : fd' ≠ fd := fun hfd => h ⟨hl, hfd⟩
    rw [hl]
    simp [Function.update_of_ne hfd]
  · simp [Function.update_of_ne hl]

end

/-- The descriptors stand for the same objects, and no byte moved. -/
structure SameStreams (k k' : Kernel) : Prop where
  table : k'.table = k.table
  nextId : k'.nextId = k.nextId
  taken : k'.taken = k.taken
  ended : k'.ended = k.ended
  sent : k'.sent = k.sent
  pipes : k'.pipes = k.pipes
  readEnd : k'.readEnd = k.readEnd

namespace SameStreams

variable {k k' k'' : Kernel} {l : Nat} {fd : Int} {ptr events : Nat}

theorem refl (k : Kernel) : SameStreams k k := ⟨rfl, rfl, rfl, rfl, rfl, rfl, rfl⟩

theorem trans (h : SameStreams k k') (h' : SameStreams k' k'') : SameStreams k k'' :=
  ⟨h'.table.trans h.table, h'.nextId.trans h.nextId, h'.taken.trans h.taken,
    h'.ended.trans h.ended, h'.sent.trans h.sent, h'.pipes.trans h.pipes,
    h'.readEnd.trans h.readEnd⟩

theorem openId? (h : SameStreams k k') (fd : Int) : k'.openId? fd = k.openId? fd := by
  unfold Kernel.openId?
  rw [h.table]

theorem ctlAdd (h : k.ctlAdd l fd ptr events = some k') : SameStreams k k' := by
  rw [(ctlAdd_some h).2.2]
  exact ⟨rfl, rfl, rfl, rfl, rfl, rfl, rfl⟩

theorem ctlMod (h : k.ctlMod l fd ptr events = some k') : SameStreams k k' := by
  obtain ⟨_, _, heq⟩ := ctlMod_some h
  rw [heq]
  exact ⟨rfl, rfl, rfl, rfl, rfl, rfl, rfl⟩

theorem ctlDel (h : k.ctlDel l fd = some k') : SameStreams k k' := by
  obtain ⟨_, _, heq⟩ := ctlDel_some h
  rw [heq]
  exact ⟨rfl, rfl, rfl, rfl, rfl, rfl, rfl⟩

end SameStreams

end Kernel
end EpollHttp
