import EpollHttp.PollLoop.Destroy

/-
What the threads do to the world, and the ledger that it leaves in order.

A descriptor on its way from one owner to the next is in the hand of the thread.  Every descriptor
that `accept4` returned has one owner until it is closed, and it is closed once.
-/

namespace EpollHttp

open Program

/-- One thing that the thread of the loop `l` may do, with what it has in its hand before and
after. -/
inductive Deed (l : Nat) (w : World) : Option Int → Option Int → World → Prop
  | effect (hand : Option Int) (r : Nat) (w' : World) (h : Effect l r w w') : Deed l w hand hand w'
  | handedOut (hand : Option Int) (r : Nat) (w' : World) (h : HandedOut w l r w') :
      Deed l w hand hand w'
  /-- The data of an executor adopts the descriptor. -/
  | adopted (r : Nat) (fd : Int) (huse : w.InUse l r)
      (hpoll : w.pollDataAt l r .fd0 = none) (hold : w.fdAt l r .fd0 = -1) :
      Deed l w (some fd) none (w.setData l r ((w.data l r).withFd .fd0 fd))
  | freed (hand : Option Int) (r : Nat) (huse : w.InUse l r)
      (hempty : ∀ place, w.fdAt l r place = -1 ∧ w.pollDataAt l r place = none) :
      Deed l w hand hand
        (w.setLoop l { w.loops l with execDatas := (w.loops l).execDatas.free r })
  /-- A call returns a new descriptor. -/
  | opened (fd : Int) (accepted : Bool) (havail : w.kernel.Available fd) :
      Deed l w none (some fd) (w.setKernel (w.kernel.opened fd accepted))
  /-- The descriptor is handed to any loop. -/
  | queued (i : Nat) (fd : Int) (execType : ExecutorType) (htype : execType.Requests) :
      Deed l w (some fd) none (w.setLoop i { w.loops i with
        newFdsQueue := (w.loops i).newFdsQueue ++ [{ execType := execType, fd := fd }] })
  | dequeued (d : NewFdData) (rest : List NewFdData)
      (hqueue : (w.loops l).newFdsQueue = d :: rest) :
      Deed l w none (some d.fd) (w.setLoop l { w.loops l with newFdsQueue := rest })
  | closed (fd : Int) : Deed l w (some fd) none (w.setKernel (w.kernel.close fd))
  /-- The descriptor is that of the epoll set of the loop. -/
  | epollFd (fd : Int)
      (hclient : ∀ id, w.kernel.openId? fd = some id → w.kernel.accepted id = false) :
      Deed l w (some fd) none (w.setLoop l { w.loops l with epollFd := fd })
  /-- Fields of the loop are assigned that name no descriptor to be closed. -/
  | assigned (hand : Option Int) (eventFd lastCheckTimeoutMillis : Int) :
      Deed l w hand hand (w.setLoop l { w.loops l with
        eventFd := eventFd, lastCheckTimeoutMillis := lastCheckTimeoutMillis })
  /-- `init` starts with the name of the root folder. -/
  | rooted (hcount : (w.loops l).numOfPollFds = 0) :
      Deed l w none none (w.setLoop l { w.loops l with
        numOfPollFds := 0
        fileNameBuffer := printRootFolder w.parameters.rootFolder
        rootFolderLength := (CString.cString (printRootFolder w.parameters.rootFolder)).length })

/-! ## The kernel's side of the ledger -/

namespace Kernel

variable {k k' : Kernel} {fd : Int} {id : Nat}

theorem openId?_congr (htable : k'.table = k.table) (fd : Int) : k'.openId? fd = k.openId? fd := by
  unfold Kernel.openId?
  rw [htable]

/-- A new object is behind one new number. -/
theorem opened_new {accepted : Bool} {fd' : Int}
    (h : (k.opened fd accepted).openId? fd' = some id) :
    (fd' = fd ∧ id = k.nextId) ∨ (fd' ≠ fd ∧ id ≠ k.nextId ∧ k.openId? fd' = some id) := by
  by_cases heq : fd' = fd
  · rw [heq, Kernel.openId?_opened_self] at h
    exact Or.inl ⟨heq, (Option.some.inj h).symm⟩
  · rw [Kernel.openId?_opened_of_ne heq] at h
    have hlt := Kernel.openId?_below h
    exact Or.inr ⟨heq, by omega, h⟩

/-- What is open after a set was closed was open and is not in the set. -/
theorem ClosedSet.open_before {S : Int → Prop} (hk : k.ClosedSet S k')
    (h : k'.openId? fd = some id) : ¬ S fd ∧ k.openId? fd = some id := by
  have hS : ¬ S fd := fun hS => by
    rw [(hk.closed fd hS).1] at h
    cases h
  refine ⟨hS, ?_⟩
  unfold Kernel.openId? at h ⊢
  rw [← (hk.kept fd hS).1]
  exact h

theorem OneNumber.congr (h : k.OneNumber) (htable : k'.table = k.table) : k'.OneNumber := by
  intro fd fd' id hfd hfd'
  rw [openId?_congr htable] at hfd hfd'
  exact h fd fd' id hfd hfd'

theorem OneNumber.open_new (h : k.OneNumber) (fd : Int) (accepted : Bool) :
    (k.opened fd accepted).OneNumber := by
  intro fd1 fd2 id h1 h2
  rcases opened_new h1 with ⟨rfl, rfl⟩ | ⟨_, hne1, hold1⟩
  · rcases opened_new h2 with ⟨rfl, _⟩ | ⟨_, hne2, _⟩
    · rfl
    · exact absurd rfl hne2
  · rcases opened_new h2 with ⟨_, rfl⟩ | ⟨_, _, hold2⟩
    · exact absurd rfl hne1
    · exact h fd1 fd2 id hold1 hold2

theorem OneNumber.closeSet (h : k.OneNumber) {S : Int → Prop} (hk : k.ClosedSet S k') :
    k'.OneNumber :=
  fun fd fd' id hfd hfd' => h fd fd' id (hk.open_before hfd).2 (hk.open_before hfd').2

theorem OneNumber.close (h : k.OneNumber) (hopen : k.openId? fd = some id) :
    (k.close fd).OneNumber :=
  h.closeSet ((Kernel.ClosedSet.start k).close h hopen (fun hin => hin))

/-- An object that `accept4` returned is closed once. -/
structure ClosedOnce (k : Kernel) : Prop where
  opened : ∀ fd id, k.openId? fd = some id → k.accepted id = true → k.closes id = 0
  closed : ∀ id < k.nextId, k.accepted id = true → (∀ fd, k.openId? fd ≠ some id) → k.closes id = 1

namespace ClosedOnce

theorem congr (h : k.ClosedOnce) (htable : k'.table = k.table) (hnextId : k'.nextId = k.nextId)
    (haccepted : k'.accepted = k.accepted) (hcloses : k'.closes = k.closes) : k'.ClosedOnce := by
  refine ⟨fun fd id hfd hid => ?_, fun id hlt hid hnone => ?_⟩
  · rw [openId?_congr htable] at hfd
    rw [haccepted] at hid
    rw [hcloses]
    exact h.opened fd id hfd hid
  · rw [hnextId] at hlt
    rw [haccepted] at hid
    rw [hcloses]
    exact h.closed id hlt hid (fun fd => by rw [← openId?_congr htable]; exact hnone fd)

theorem open_new (h : k.ClosedOnce) (havail : k.Available fd) (accepted : Bool) :
    (k.opened fd accepted).ClosedOnce := by
  have hfields : ∀ id, id ≠ k.nextId → (k.opened fd accepted).accepted id = k.accepted id ∧
      (k.opened fd accepted).closes id = k.closes id :=
    fun id hne => ⟨Function.update_of_ne hne .., Function.update_of_ne hne ..⟩
  refine ⟨fun fd' id hfd' hid => ?_, fun id hlt hid hnone => ?_⟩
  · rcases opened_new hfd' with ⟨_, rfl⟩ | ⟨_, hne, hold⟩
    · exact Function.update_self ..
    · rw [(hfields id hne).1] at hid
      rw [(hfields id hne).2]
      exact h.opened fd' id hold hid
  · have hne : id ≠ k.nextId := by
      rintro rfl
      exact hnone fd (Kernel.openId?_opened_self _)
    have hlt' : id < k.nextId := by
      have hle : id < k.nextId + 1 := hlt
      omega
    rw [(hfields id hne).1] at hid
    rw [(hfields id hne).2]
    refine h.closed id hlt' hid (fun fd' hfd' => ?_)
    have hne' : fd' ≠ fd := by
      rintro rfl
      rw [havail.2] at hfd'
      cases hfd'
    exact hnone fd' ((Kernel.openId?_opened_of_ne hne' _).trans hfd')

/-- Every descriptor of a set is closed, each of them once. -/
theorem closeSet (h : k.ClosedOnce) (hone : k.OneNumber) {S : Int → Prop}
    (hk : k.ClosedSet S k') : k'.ClosedOnce := by
  have hspared : ∀ fd id, k'.openId? fd = some id → k'.closes id = k.closes id := by
    intro fd id hfd
    obtain ⟨hS, hold⟩ := hk.open_before hfd
    refine hk.spared id (fun ⟨fd', hS', hfd'⟩ => ?_)
    exact hS (hone fd' fd id hfd' hold ▸ hS')
  refine ⟨fun fd id hfd hid => ?_, fun id hlt hid hnone => ?_⟩
  · rw [hk.accepted] at hid
    rw [hspared fd id hfd]
    exact h.opened fd id (hk.open_before hfd).2 hid
  · rw [hk.nextId] at hlt
    rw [hk.accepted] at hid
    by_cases hS : ∃ fd, S fd ∧ k.openId? fd = some id
    · rw [hk.closes id hS]
      obtain ⟨fd, _, hfd⟩ := hS
      rw [h.opened fd id hfd hid]
    · rw [hk.spared id hS]
      refine h.closed id hlt hid (fun fd hfd => hnone fd ?_)
      have hnot : ¬ S fd := fun hin => hS ⟨fd, hin, hfd⟩
      unfold Kernel.openId? at hfd ⊢
      rw [(hk.kept fd hnot).1]
      exact hfd

theorem close (h : k.ClosedOnce) (hone : k.OneNumber) (hopen : k.openId? fd = some id) :
    (k.close fd).ClosedOnce :=
  h.closeSet hone ((Kernel.ClosedSet.start k).close hone hopen (fun hin => hin))

end ClosedOnce

end Kernel

/-! ## The ledger -/

/-- The descriptor waits in a queue. -/
def World.Queued (w : World) (fd : Int) : Prop :=
  ∃ l, ∃ d ∈ (w.loops l).newFdsQueue, d.fd = fd

structure Ledger (hand : Option Int) (w : World) : Prop where
  booked : Booked w
  queue : QueueBooked w
  kernel : w.kernel.OneNumber
  inHand : ∀ fd, hand = some fd →
    (∃ id, w.Loose fd id) ∧ ¬ w.Queued fd ∧ ∀ l, (w.loops l).epollFd ≠ fd
  epoll : ∀ l, 0 < (w.loops l).epollFd → ¬ w.Queued (w.loops l).epollFd ∧
    ∃ id, w.Loose (w.loops l).epollFd id ∧ w.kernel.accepted id = false
  epollApart : ∀ l l', 0 < (w.loops l).epollFd → (w.loops l).epollFd = (w.loops l').epollFd → l = l'
  owner : ∀ fd id, w.kernel.openId? fd = some id → w.kernel.accepted id = true →
    hand = some fd ∨ w.Queued fd ∨ ∃ l r, w.fdAt l r .fd0 = fd

/-- What an effect does to the descriptors. -/
inductive Kernel.Moved (k : Kernel) : Kernel → Prop
  | same (k' : Kernel) (htable : k'.table = k.table) (hnextId : k'.nextId = k.nextId)
      (haccepted : k'.accepted = k.accepted) (hcloses : k'.closes = k.closes) : Moved k k'
  | opened (fd : Int) (havail : k.Available fd) : Moved k (k.opened fd false)
  | tried (fd : Int) (havail : k.Available fd) : Moved k ((k.opened fd false).close fd)
  | closed (fd : Int) (hopen : k.openId? fd ≠ none) : Moved k (k.close fd)

section
variable {k k' : Kernel} {w w' : World} {l r : Nat} {hand hand' : Option Int}

theorem Kernel.Moved.oneNumber (h : k.Moved k') (hone : k.OneNumber) : k'.OneNumber := by
  cases h with
  | same k' htable hnextId haccepted hcloses => exact hone.congr htable
  | opened fd havail => exact hone.open_new fd false
  | tried fd havail => exact (hone.open_new fd false).close (Kernel.openId?_opened_self _)
  | closed fd hopen =>
    obtain ⟨id, hid⟩ := Option.ne_none_iff_exists'.mp hopen
    exact hone.close hid

theorem Kernel.Moved.closedOnce (h : k.Moved k') (hone : k.OneNumber) (hk : k.ClosedOnce) :
    k'.ClosedOnce := by
  cases h with
  | same k' htable hnextId haccepted hcloses => exact hk.congr htable hnextId haccepted hcloses
  | opened fd havail => exact hk.open_new havail false
  | tried fd havail =>
    exact (hk.open_new havail false).close (hone.open_new fd false)
      (Kernel.openId?_opened_self _)
  | closed fd hopen =>
    obtain ⟨id, hid⟩ := Option.ne_none_iff_exists'.mp hopen
    exact hk.close hone hid

/-- An object that `accept4` returned was open before when it is open now. -/
theorem Kernel.Moved.accepted (h : k.Moved k') {fd : Int} {id : Nat}
    (hopen : k'.openId? fd = some id) (hid : k'.accepted id = true) :
    k.openId? fd = some id ∧ k.accepted id = true := by
  have hnew : ∀ fd', (k.opened fd' false).openId? fd = some id →
      (k.opened fd' false).accepted id = true → k.openId? fd = some id ∧ k.accepted id = true := by
    intro fd' hopen hid
    have hne : id ≠ k.nextId := by
      rintro rfl
      have hself : (k.opened fd' false).accepted k.nextId = false := Function.update_self ..
      rw [hself] at hid
      cases hid
    by_cases heq : fd = fd'
    · rw [heq, Kernel.openId?_opened_self] at hopen
      exact absurd (Option.some.inj hopen).symm hne
    · rw [Kernel.openId?_opened_of_ne heq] at hopen
      have hsame : (k.opened fd' false).accepted id = k.accepted id := Function.update_of_ne hne ..
      exact ⟨hopen, hsame.symm.trans hid⟩
  have hclose : ∀ (k : Kernel) (fd' : Int), (k.close fd').openId? fd = some id →
      k.openId? fd = some id := by
    intro k fd' hopen
    by_cases heq : fd = fd'
    · rw [heq, Kernel.openId?_close_self] at hopen
      cases hopen
    · rw [Kernel.openId?_close_of_ne heq] at hopen
      exact hopen
  have haccepted : ∀ (k : Kernel) (fd' : Int), (k.close fd').accepted = k.accepted := by
    intro k fd'
    unfold Kernel.close
    split <;> rfl
  cases h with
  | same k' htable hnextId hacc hcloses =>
    unfold Kernel.openId? at hopen ⊢
    rw [htable] at hopen
    rw [hacc] at hid
    exact ⟨hopen, hid⟩
  | opened fd' havail => exact hnew fd' hopen hid
  | tried fd' havail =>
    rw [haccepted] at hid
    exact hnew fd' (hclose _ _ hopen) hid
  | closed fd' hclosed =>
    rw [haccepted] at hid
    exact ⟨hclose _ _ hopen, hid⟩

theorem Effect.moved (he : Effect l r w w') (hb : Booked w) : w.kernel.Moved w'.kernel := by
  cases he with
  | bytes k hk => exact .same k hk.table hk.nextId hk.accepted hk.closes
  | data d hheld halone => exact .same _ rfl rfl rfl rfl
  | cut => exact .same _ rfl rfl rfl rfl
  | named name hname => exact .same _ rfl rfl rfl rfl
  | added fd' events p w' huse ha =>
    obtain ⟨_, pollDatas, k, _, hk, rfl⟩ := ha
    rw [World.rewatch_kernel, (Kernel.ctlAdd_some hk).2.2]
    exact .same _ rfl rfl rfl rfl
  | refused w' hr =>
    obtain ⟨p, pollDatas, _, rfl⟩ := hr
    exact .same _ rfl rfl rfl rfl
  | edited fd' events p k hp hk =>
    obtain ⟨_, _, heq⟩ := Kernel.ctlMod_some hk
    rw [World.setKernel_kernel, heq]
    exact .same _ rfl rfl rfl rfl
  | removed fd' p w' hr =>
    obtain ⟨_, k, hk, rfl⟩ := hr
    obtain ⟨_, _, heq⟩ := Kernel.ctlDel_some hk
    rw [World.rewatch_kernel, heq]
    exact .same _ rfl rfl rfl rfl
  | tried sock havail => exact .tried sock havail
  | opened place fd' huse havail hpoll hfd halone => exact .opened fd' havail
  | closed place hpoll =>
    rcases hb.value l r place with hneg | hpos
    · have hsame : w.kernel.close (w.fdAt l r place) = w.kernel := by
        rw [hneg]
        exact Kernel.close_never (hb.never (-1) (by decide))
      rw [World.setData_kernel, World.setKernel_kernel, hsame]
      exact .same _ rfl rfl rfl rfl
    · exact .closed _ (hb.held l r place hpos)

/-- A client stays with its executor while it is open. -/
theorem Effect.client (he : Effect l r w w') (hb : Booked w) {l' r' : Nat} {fd : Int}
    (hfd : w.fdAt l' r' .fd0 = fd) (hpos : 0 < fd) (hopen : w'.kernel.openId? fd ≠ none) :
    w'.fdAt l' r' .fd0 = fd := by
  have hsetData : ∀ d : ExecutorData, (l' = l ∧ r' = r → d.fdAt .fd0 = fd) →
      (w.setData l r d).fdAt l' r' .fd0 = fd := by
    intro d hd
    rw [World.setData_fdAt]
    split
    · rename_i heq
      exact hd heq
    · exact hfd
  have hsetLoop : ∀ b, (w.setLoop l { w.loops l with fileNameBuffer := b }).fdAt l' r' .fd0 = fd := by
    intro b
    unfold World.fdAt
    rw [World.setLoop_data]
    · exact hfd
    · exact fun _ => rfl
  have hrewatch : ∀ (pollDatas : BlockStorage PollData) (d : ExecutorData) (n : Int) (k : Kernel),
      d.fdAt .fd0 = w.fdAt l r .fd0 → (w.rewatch l r pollDatas d n k).fdAt l' r' .fd0 = fd := by
    intro pollDatas d n k hd
    rw [World.rewatch_fdAt]
    split
    · rename_i heq
      rw [hd, ← hfd, heq.1, heq.2]
    · exact hfd
  cases he with
  | bytes k hk => exact hfd
  | data d hheld halone =>
    refine hsetData d (fun heq => ?_)
    rw [hheld.1 .fd0, ← hfd, heq.1, heq.2]
    rfl
  | cut => exact hsetLoop _
  | named name hname => exact hsetLoop _
  | added fd' events p w' huse ha =>
    obtain ⟨_, _, _, _, hd⟩ := ha.place
    obtain ⟨_, pollDatas, k, _, hk, rfl⟩ := ha
    exact hrewatch _ _ _ _ (hd .fd0).1
  | refused w' hr =>
    obtain ⟨p, pollDatas, _, rfl⟩ := hr
    exact hrewatch _ _ _ _ rfl
  | edited fd' events p k hp hk => exact hfd
  | removed fd' p w' hr =>
    obtain ⟨_, _, _, hd⟩ := hb.removed_place hr.ptr
    obtain ⟨_, k, hk, rfl⟩ := hr
    exact hrewatch _ _ _ _ (hd .fd0).1
  | tried sock havail => exact hfd
  | opened place fd' huse havail hpoll hold halone =>
    refine hsetData _ (fun heq => ?_)
    by_cases hplace : place = .fd0
    · have hneg := hold (Or.inl hplace)
      rw [hplace, ← heq.1, ← heq.2, hfd] at hneg
      omega
    · rw [ExecutorData.withFd_fdAt_of_ne _ _ _ (fun h => hplace h.symm), ← hfd, heq.1, heq.2]
      rfl
  | closed place hpoll =>
    refine hsetData _ (fun heq => ?_)
    by_cases hplace : place = .fd0
    · rw [hplace, ← heq.1, ← heq.2, hfd] at hopen
      exact absurd Kernel.openId?_close_self hopen
    · rw [ExecutorData.withFd_fdAt_of_ne _ _ _ (fun h => hplace h.symm), ← hfd, heq.1, heq.2]
      rfl

theorem SameFrame.queued (h : SameFrame w w') (fd : Int) : w'.Queued fd ↔ w.Queued fd := by
  unfold World.Queued
  simp only [h.newFdsQueue]

theorem Effect.ledger (he : Effect l r w w') (h : Ledger hand w) : Ledger hand w' := by
  have hframe := he.frame
  have hmoved := he.moved h.booked
  refine ⟨he.booked h.booked,
    h.queue.keep hframe.newFdsQueue (fun _ _ _ _ hl => he.loose h.booked hl),
    hmoved.oneNumber h.kernel, fun fd hhand => ?_, fun l' hpos => ?_, fun l' l'' hpos heq => ?_,
    fun fd id hopen hid => ?_⟩
  · obtain ⟨⟨id, hloose⟩, hqueued, hepoll⟩ := h.inHand fd hhand
    refine ⟨⟨id, he.loose h.booked hloose⟩, fun hq => hqueued ((hframe.queued fd).mp hq),
      fun l' => ?_⟩
    rw [hframe.epollFd]
    exact hepoll l'
  · rw [hframe.epollFd] at hpos ⊢
    obtain ⟨hqueued, id, hloose, hid⟩ := h.epoll l' hpos
    have hloose' := he.loose h.booked hloose
    refine ⟨fun hq => hqueued ((hframe.queued _).mp hq), id, hloose', ?_⟩
    by_contra hne
    have hacc := (hmoved.accepted hloose'.1 (Bool.eq_true_of_not_eq_false hne)).2
    rw [hid] at hacc
    cases hacc
  · rw [hframe.epollFd] at hpos heq
    rw [hframe.epollFd] at heq
    exact h.epollApart l' l'' hpos heq
  · obtain ⟨hopen0, hid0⟩ := hmoved.accepted hopen hid
    rcases h.owner fd id hopen0 hid0 with hhand | hqueued | ⟨l', r', hfd⟩
    · exact Or.inl hhand
    · exact Or.inr (Or.inl ((hframe.queued fd).mpr hqueued))
    · refine Or.inr (Or.inr ⟨l', r', he.client h.booked hfd (h.booked.positive ?_) ?_⟩)
      · rw [hopen0]
        exact fun hnone => nomatch hnone
      · rw [hopen]
        exact fun hnone => nomatch hnone

/-- The descriptors are where they were. -/
theorem Ledger.sameHolders (h : Ledger hand w) (hb : Booked w') (hkernel : w'.kernel = w.kernel)
    (hqueue : ∀ l, (w'.loops l).newFdsQueue = (w.loops l).newFdsQueue)
    (hepoll : ∀ l, (w'.loops l).epollFd = (w.loops l).epollFd)
    (hfd : ∀ l r place, w'.fdAt l r place = w.fdAt l r place) : Ledger hand w' := by
  have hloose : ∀ fd id, w.Loose fd id → w'.Loose fd id := by
    intro fd id hl
    refine ⟨by rw [hkernel]; exact hl.1, fun l r place => ?_⟩
    rw [hfd]
    exact hl.2 l r place
  have hqueued : ∀ fd, w'.Queued fd ↔ w.Queued fd := by
    intro fd
    unfold World.Queued
    simp only [hqueue]
  refine ⟨hb, h.queue.keep hqueue (fun _ d _ id hl => hloose d.fd id hl),
    by rw [hkernel]; exact h.kernel,
    fun fd hhand => ?_, fun l hpos => ?_, fun l l' hpos heq => ?_, fun fd id hopen hid => ?_⟩
  · obtain ⟨⟨id, hl⟩, hq, he⟩ := h.inHand fd hhand
    exact ⟨⟨id, hloose fd id hl⟩, fun hin => hq ((hqueued fd).mp hin), fun l => by
      rw [hepoll]; exact he l⟩
  · rw [hepoll] at hpos ⊢
    obtain ⟨hq, id, hl, hid⟩ := h.epoll l hpos
    exact ⟨fun hin => hq ((hqueued _).mp hin), id, hloose _ id hl, by rw [hkernel]; exact hid⟩
  · rw [hepoll] at hpos heq
    rw [hepoll] at heq
    exact h.epollApart l l' hpos heq
  · rw [hkernel] at hopen hid
    rw [hqueued]
    rcases h.owner fd id hopen hid with hhand | hq | ⟨l, r, hat⟩
    · exact Or.inl hhand
    · exact Or.inr (Or.inl hq)
    · exact Or.inr (Or.inr ⟨l, r, (hfd l r .fd0).trans hat⟩)

theorem setLoop_fdAt {loop : PollLoop} (hexecs : loop.execDatas = (w.loops l).execDatas)
    (l' r' : Nat) (place : Place) : (w.setLoop l loop).fdAt l' r' place = w.fdAt l' r' place := by
  unfold World.fdAt
  rw [World.setLoop_data _ _ (fun _ => by rw [hexecs])]

/-- A field of every loop that a change of one loop leaves alone. -/
theorem setLoop_field {α : Type} {loop : PollLoop} (field : PollLoop → α)
    (h : field loop = field (w.loops l)) (l' : Nat) :
    field ((w.setLoop l loop).loops l') = field (w.loops l') := by
  by_cases hl : l' = l
  · rw [hl, World.setLoop_self, h]
  · rw [World.setLoop_other _ _ hl]

/-- The kernel of a descriptor in the hand changes for that descriptor alone. -/
theorem Ledger.otherLoose {fd : Int} (h : Ledger (some fd) w) :
    (∀ l, ∀ d ∈ (w.loops l).newFdsQueue, d.fd ≠ fd) ∧ ∀ l, (w.loops l).epollFd ≠ fd := by
  obtain ⟨_, hqueued, hepoll⟩ := h.inHand fd rfl
  exact ⟨fun l d hd heq => hqueued ⟨l, d, hd, heq⟩, hepoll⟩

/-- A descriptor in the hand is open, and no executor holds it. -/
theorem Ledger.openInHand {fd : Int} (h : Ledger (some fd) w) :
    w.kernel.openId? fd ≠ none ∧ w.Unheld fd := by
  obtain ⟨⟨id, hopen, hunheld⟩, _, _⟩ := h.inHand fd rfl
  rw [hopen]
  exact ⟨Option.some_ne_none id, hunheld⟩

theorem Ledger.adopted {fd : Int} (h : Ledger (some fd) w) (huse : w.InUse l r)
    (hpoll : w.pollDataAt l r .fd0 = none) (hold : w.fdAt l r .fd0 = -1) :
    Ledger none (w.setData l r ((w.data l r).withFd .fd0 fd)) := by
  obtain ⟨⟨id, hloose⟩, hqueued, hepoll⟩ := h.inHand fd rfl
  have hopen : w.kernel.openId? fd ≠ none := by
    rw [hloose.1]
    exact fun hnone => nomatch hnone
  have hfd : ∀ l' r' place, (w.setData l r ((w.data l r).withFd .fd0 fd)).fdAt l' r' place =
      if l' = l ∧ r' = r ∧ place = .fd0 then fd else w.fdAt l' r' place := by
    intro l' r' place
    rw [World.setData_fdAt]
    by_cases heq : l' = l ∧ r' = r
    · rw [if_pos heq, heq.1, heq.2]
      by_cases hplace : place = .fd0
      · rw [hplace, ExecutorData.withFd_fdAt_self, if_pos ⟨rfl, rfl, rfl⟩]
      · rw [ExecutorData.withFd_fdAt_of_ne _ _ _ hplace, if_neg (fun hall => hplace hall.2.2)]
        rfl
    · rw [if_neg heq, if_neg (fun hall => heq ⟨hall.1, hall.2.1⟩)]
  have hkeep : ∀ fd' id', fd' ≠ fd → w.Loose fd' id' →
      (w.setData l r ((w.data l r).withFd .fd0 fd)).Loose fd' id' := by
    intro fd' id' hne hl
    refine ⟨hl.1, fun l' r' place => ?_⟩
    rw [hfd]
    split
    · exact hne.symm
    · exact hl.2 l' r' place
  have hframe : SameFrame w (w.setData l r ((w.data l r).withFd .fd0 fd)) := .setData w _
  refine ⟨h.booked.replace .fd0 fd (Or.inl huse) hpoll (Or.inr ⟨hopen, hloose.2⟩)
    (fun _ hplace => nomatch hplace), h.queue.keep hframe.newFdsQueue (fun l' d hd id' hl =>
      hkeep d.fd id' (h.otherLoose.1 l' d hd) hl), h.kernel, (fun _ hhand => nomatch hhand),
    fun l' hpos => ?_, fun l' l'' hpos heq => ?_, fun fd' id' hopen' hid' => ?_⟩
  · rw [hframe.epollFd] at hpos ⊢
    obtain ⟨hq, id', hl, hid'⟩ := h.epoll l' hpos
    exact ⟨fun hin => hq ((hframe.queued _).mp hin), id', hkeep _ id' (hepoll l') hl, hid'⟩
  · rw [hframe.epollFd] at hpos heq
    rw [hframe.epollFd] at heq
    exact h.epollApart l' l'' hpos heq
  · rcases h.owner fd' id' hopen' hid' with hhand | hq | ⟨l', r', hat⟩
    · refine Or.inr (Or.inr ⟨l, r, ?_⟩)
      rw [hfd, if_pos ⟨rfl, rfl, rfl⟩]
      exact Option.some.inj hhand
    · exact Or.inr (Or.inl ((hframe.queued fd').mpr hq))
    · refine Or.inr (Or.inr ⟨l', r', ?_⟩)
      rw [hfd, if_neg]
      · exact hat
      · rintro ⟨rfl, rfl, _⟩
        -- The place held nothing before.
        rw [hold] at hat
        have hpos : 0 < fd' := h.booked.positive (by
          rw [show w.kernel.openId? fd' = some id' from hopen']
          exact fun hnone => nomatch hnone)
        omega

theorem Ledger.opened {fd : Int} {accepted : Bool} (h : Ledger none w)
    (havail : w.kernel.Available fd) :
    Ledger (some fd) (w.setKernel (w.kernel.opened fd accepted)) := by
  have hne : ∀ fd' id, w.kernel.openId? fd' = some id → fd' ≠ fd ∧ id ≠ w.kernel.nextId := by
    intro fd' id hfd'
    have hlt := Kernel.openId?_below hfd'
    refine ⟨?_, by omega⟩
    rintro rfl
    rw [havail.2] at hfd'
    cases hfd'
  have hkeep : ∀ fd' id, w.Loose fd' id →
      (w.setKernel (w.kernel.opened fd accepted)).Loose fd' id := fun fd' id hl =>
    hl.sameKernel (Kernel.openId?_opened_of_ne (hne fd' id hl.1).1 _)
  refine ⟨h.booked.openedKernel havail, h.queue.keep (fun _ => rfl) (fun _ d _ id hl =>
    hkeep d.fd id hl), h.kernel.open_new fd accepted, fun fd' hhand => ?_, fun l hpos => ?_,
    h.epollApart, fun fd' id hopen hid => ?_⟩
  · obtain rfl : fd = fd' := Option.some.inj hhand
    refine ⟨⟨_, Kernel.openId?_opened_self _, h.booked.unheld_of_closed havail.1 havail.2⟩, ?_,
      fun l heq => ?_⟩
    · rintro ⟨l, d, hd, heq⟩
      obtain ⟨id, hl⟩ := h.queue.loose l d hd
      exact (hne d.fd id hl.1).1 heq
    · have hpos := havail.1
      obtain ⟨_, id, hl, _⟩ := h.epoll l (heq ▸ hpos)
      exact (hne _ id hl.1).1 heq
  · obtain ⟨hq, id, hl, hid⟩ := h.epoll l hpos
    refine ⟨hq, id, hkeep _ id hl, ?_⟩
    exact (Function.update_of_ne (hne _ id hl.1).2 _ _).trans hid
  · by_cases heq : fd' = fd
    · exact Or.inl (by rw [heq])
    · have hopen0 : w.kernel.openId? fd' = some id :=
        (Kernel.openId?_opened_of_ne heq _).symm.trans hopen
      have hid0 : w.kernel.accepted id = true :=
        (Function.update_of_ne (hne fd' id hopen0).2 _ _).symm.trans hid
      rcases h.owner fd' id hopen0 hid0 with hhand | hq | hat
      · cases hhand
      · exact Or.inr (Or.inl hq)
      · exact Or.inr (Or.inr hat)

theorem Ledger.closed {fd : Int} (h : Ledger (some fd) w) :
    Ledger none (w.setKernel (w.kernel.close fd)) := by
  obtain ⟨⟨id, hloose⟩, hqueued, hepoll⟩ := h.inHand fd rfl
  have hkeep : ∀ fd' id', fd' ≠ fd → w.Loose fd' id' →
      (w.setKernel (w.kernel.close fd)).Loose fd' id' := fun fd' id' hne hl =>
    hl.sameKernel (Kernel.openId?_close_of_ne hne)
  have hmoved : w.kernel.Moved (w.kernel.close fd) := by
    refine .closed fd ?_
    rw [hloose.1]
    exact fun hnone => nomatch hnone
  refine ⟨h.booked.closedKernel hloose.2, h.queue.keep (fun _ => rfl) (fun l d hd id' hl =>
    hkeep d.fd id' (h.otherLoose.1 l d hd) hl), hmoved.oneNumber h.kernel,
    (fun _ hhand => nomatch hhand), fun l hpos => ?_, h.epollApart, fun fd' id' hopen hid => ?_⟩
  · obtain ⟨hq, id', hl, hid'⟩ := h.epoll l hpos
    refine ⟨hq, id', hkeep _ id' (hepoll l) hl, ?_⟩
    by_contra hne
    have hacc := (hmoved.accepted (hkeep _ id' (hepoll l) hl).1
      (Bool.eq_true_of_not_eq_false hne)).2
    rw [hid'] at hacc
    cases hacc
  · obtain ⟨hopen0, hid0⟩ := hmoved.accepted hopen hid
    rcases h.owner fd' id' hopen0 hid0 with hhand | hq | hat
    · have heq : fd = fd' := Option.some.inj hhand
      have hopen' : (w.kernel.close fd).openId? fd' = some id' := hopen
      rw [← heq, Kernel.openId?_close_self] at hopen'
      cases hopen'
    · exact Or.inr (Or.inl hq)
    · exact Or.inr (Or.inr hat)

theorem Ledger.queued {fd : Int} {i : Nat} {execType : ExecutorType} (h : Ledger (some fd) w)
    (htype : execType.Requests) : Ledger none (w.setLoop i { w.loops i with
      newFdsQueue := (w.loops i).newFdsQueue ++ [{ execType := execType, fd := fd }] }) := by
  obtain ⟨⟨id, hloose⟩, hqueued, hepoll⟩ := h.inHand fd rfl
  have hmem : ∀ fd', (w.setLoop i { w.loops i with newFdsQueue :=
      (w.loops i).newFdsQueue ++ [{ execType := execType, fd := fd }] }).Queued fd' ↔
        w.Queued fd' ∨ fd' = fd := by
    intro fd'
    constructor
    · rintro ⟨l, d, hd, heq⟩
      by_cases hl : l = i
      · rw [hl, World.setLoop_self] at hd
        rcases List.mem_append.mp hd with hold | hone
        · exact Or.inl ⟨i, d, hold, heq⟩
        · rw [List.mem_singleton.mp hone] at heq
          exact Or.inr heq.symm
      · rw [World.setLoop_other _ _ hl] at hd
        exact Or.inl ⟨l, d, hd, heq⟩
    · rintro (⟨l, d, hd, heq⟩ | rfl)
      · refine ⟨l, d, ?_, heq⟩
        by_cases hl : l = i
        · rw [hl, World.setLoop_self]
          exact List.mem_append_left _ (hl ▸ hd)
        · rw [World.setLoop_other _ _ hl]
          exact hd
      · refine ⟨i, { execType := execType, fd := fd' }, ?_, rfl⟩
        rw [World.setLoop_self]
        exact List.mem_append_right _ (List.mem_singleton.mpr rfl)
  have hepollFd := fun l => setLoop_field (w := w) (l := i) PollLoop.epollFd
    (rfl : ({ w.loops i with newFdsQueue :=
      (w.loops i).newFdsQueue ++ [{ execType := execType, fd := fd }] } : PollLoop).epollFd = _) l
  have hloose' : ∀ fd' id', w.Loose fd' id' → (w.setLoop i { w.loops i with newFdsQueue :=
      (w.loops i).newFdsQueue ++ [{ execType := execType, fd := fd }] }).Loose fd' id' :=
    fun fd' id' hl => hl.setLoop rfl
  refine ⟨h.booked.setLoop rfl rfl rfl (fun hlive => hlive),
    h.queue.push hloose htype h.otherLoose.1, h.kernel,
    (fun _ hhand => nomatch hhand), fun l hpos => ?_, fun l l' hpos heq => ?_,
    fun fd' id' hopen hid => ?_⟩
  · rw [hepollFd] at hpos ⊢
    obtain ⟨hq, id', hl, hid'⟩ := h.epoll l hpos
    refine ⟨fun hin => ?_, id', hloose' _ id' hl, hid'⟩
    rcases (hmem _).mp hin with hold | heq
    · exact hq hold
    · exact hepoll l heq
  · rw [hepollFd] at hpos heq
    rw [hepollFd] at heq
    exact h.epollApart l l' hpos heq
  · rw [hmem]
    rcases h.owner fd' id' hopen hid with hhand | hq | ⟨l, r, hat⟩
    · exact Or.inr (Or.inl (Or.inr (Option.some.inj hhand).symm))
    · exact Or.inr (Or.inl (Or.inl hq))
    · refine Or.inr (Or.inr ⟨l, r, (setLoop_fdAt ?_ l r .fd0).trans hat⟩)
      rfl

theorem Ledger.dequeued {d : NewFdData} {rest : List NewFdData} (h : Ledger none w)
    (hqueue : (w.loops l).newFdsQueue = d :: rest) :
    Ledger (some d.fd) (w.setLoop l { w.loops l with newFdsQueue := rest }) := by
  obtain ⟨hpop, ⟨id, hloose⟩, _, hnew⟩ := h.queue.pop hqueue
  have hfirst : w.Queued d.fd := ⟨l, d, by rw [hqueue]; exact List.mem_cons_self, rfl⟩
  have hmem : ∀ fd, (w.setLoop l { w.loops l with newFdsQueue := rest }).Queued fd →
      w.Queued fd := by
    rintro fd ⟨l', d', hd', heq⟩
    refine ⟨l', d', ?_, heq⟩
    by_cases hl : l' = l
    · rw [hl, World.setLoop_self] at hd'
      rw [hl, hqueue]
      exact List.mem_cons_of_mem _ hd'
    · rw [World.setLoop_other _ _ hl] at hd'
      exact hd'
  have hepollFd := fun l' => setLoop_field (w := w) (l := l) PollLoop.epollFd
    (rfl : ({ w.loops l with newFdsQueue := rest } : PollLoop).epollFd = _) l'
  refine ⟨h.booked.setLoop rfl rfl rfl (fun hlive => hlive), hpop, h.kernel, fun fd hhand => ?_,
    fun l' hpos => ?_, fun l' l'' hpos heq => ?_, fun fd id' hopen hid => ?_⟩
  · obtain rfl : d.fd = fd := Option.some.inj hhand
    refine ⟨⟨id, hloose⟩, fun ⟨l', d', hd', heq⟩ => hnew l' d' hd' heq, fun l' heq => ?_⟩
    rw [hepollFd] at heq
    have hpos : 0 < d.fd := h.booked.positive (by
      have hopen : w.kernel.openId? d.fd = some id := hloose.1
      rw [hopen]
      exact fun hnone => nomatch hnone)
    exact (h.epoll l' (heq ▸ hpos)).1 (heq ▸ hfirst)
  · rw [hepollFd] at hpos ⊢
    obtain ⟨hq, id', hl, hid'⟩ := h.epoll l' hpos
    exact ⟨fun hin => hq (hmem _ hin), id', hl.setLoop rfl, hid'⟩
  · rw [hepollFd] at hpos heq
    rw [hepollFd] at heq
    exact h.epollApart l' l'' hpos heq
  · rcases h.owner fd id' hopen hid with hhand | ⟨l', d', hd', heq⟩ | ⟨l', r', hat⟩
    · cases hhand
    · by_cases hl : l' = l
      · rw [hl, hqueue] at hd'
        rcases List.mem_cons.mp hd' with rfl | hrest
        · exact Or.inl (by rw [heq])
        · refine Or.inr (Or.inl ⟨l, d', ?_, heq⟩)
          rw [World.setLoop_self]
          exact hrest
      · refine Or.inr (Or.inl ⟨l', d', ?_, heq⟩)
        rw [World.setLoop_other _ _ hl]
        exact hd'
    · refine Or.inr (Or.inr ⟨l', r', (setLoop_fdAt ?_ l' r' .fd0).trans hat⟩)
      rfl

theorem Ledger.epollFd {fd : Int} (h : Ledger (some fd) w)
    (hclient : ∀ id, w.kernel.openId? fd = some id → w.kernel.accepted id = false) :
    Ledger none (w.setLoop l { w.loops l with epollFd := fd }) := by
  obtain ⟨⟨id, hloose⟩, hqueued, hepoll⟩ := h.inHand fd rfl
  have hqueues := fun l' => setLoop_field (w := w) (l := l) PollLoop.newFdsQueue
    (rfl : ({ w.loops l with epollFd := fd } : PollLoop).newFdsQueue = _) l'
  have hmem : ∀ fd', (w.setLoop l { w.loops l with epollFd := fd }).Queued fd' ↔
      w.Queued fd' := by
    intro fd'
    unfold World.Queued
    simp only [hqueues]
  have hepollFd : ∀ l', ((w.setLoop l { w.loops l with epollFd := fd }).loops l').epollFd =
      if l' = l then fd else (w.loops l').epollFd := by
    intro l'
    by_cases hl : l' = l
    · rw [hl, World.setLoop_self, if_pos rfl]
    · rw [World.setLoop_other _ _ hl, if_neg hl]
  refine ⟨h.booked.setLoop rfl rfl rfl (fun hlive => hlive), h.queue.keep hqueues
    (fun _ _ _ _ hl => hl.setLoop rfl), h.kernel, (fun _ hhand => nomatch hhand),
    fun l' hpos => ?_, fun l' l'' hpos heq => ?_, fun fd' id' hopen hid => ?_⟩
  · rw [hepollFd] at hpos ⊢
    rw [hmem]
    split
    · exact ⟨hqueued, id, hloose.setLoop rfl, hclient id hloose.1⟩
    · rename_i hl
      rw [if_neg hl] at hpos
      obtain ⟨hq, id', hl', hid'⟩ := h.epoll l' hpos
      exact ⟨hq, id', hl'.setLoop rfl, hid'⟩
  · rw [hepollFd, hepollFd] at heq
    rw [hepollFd] at hpos
    by_cases hl : l' = l
    · by_cases hl' : l'' = l
      · exact hl.trans hl'.symm
      · rw [if_pos hl, if_neg hl'] at heq
        exact absurd heq.symm (hepoll l'')
    · by_cases hl' : l'' = l
      · rw [if_neg hl, if_pos hl'] at heq
        exact absurd heq (hepoll l')
      · rw [if_neg hl, if_neg hl'] at heq
        rw [if_neg hl] at hpos
        exact h.epollApart l' l'' hpos heq
  · rw [hmem]
    rcases h.owner fd' id' hopen hid with hhand | hq | ⟨l', r', hat⟩
    · have heq : fd = fd' := Option.some.inj hhand
      have hclosed : w.kernel.accepted id' = false := hclient id' (heq ▸ hopen)
      have hacc : w.kernel.accepted id' = true := hid
      rw [hclosed] at hacc
      cases hacc
    · exact Or.inr (Or.inl hq)
    · refine Or.inr (Or.inr ⟨l', r', (setLoop_fdAt ?_ l' r' .fd0).trans hat⟩)
      rfl

theorem Ledger.handedOut (h : Ledger hand w) (hh : HandedOut w l r w') : Ledger hand w' :=
  h.sameHolders (h.booked.handedOut hh) hh.kernel hh.frame.newFdsQueue hh.frame.epollFd
    (hh.fdAt h.booked)

theorem Ledger.freed (h : Ledger hand w) (huse : w.InUse l r)
    (hempty : ∀ place, w.fdAt l r place = -1 ∧ w.pollDataAt l r place = none) :
    Ledger hand (w.setLoop l { w.loops l with execDatas := (w.loops l).execDatas.free r }) := by
  have hframe : SameFrame w
      (w.setLoop l { w.loops l with execDatas := (w.loops l).execDatas.free r }) :=
    .setLoop rfl rfl rfl rfl rfl
  refine h.sameHolders (h.booked.freed huse hempty) rfl hframe.newFdsQueue hframe.epollFd
    (fun l' r' place => ?_)
  unfold World.fdAt World.data
  by_cases hl : l' = l
  · rw [hl, World.setLoop_self]
    rw [((h.booked.loops l).execs.free huse).fields r']
  · rw [World.setLoop_other _ _ hl]

theorem Ledger.assigned {loop : PollLoop} (h : Ledger hand w)
    (hpolls : loop.pollDatas = (w.loops l).pollDatas)
    (hexecs : loop.execDatas = (w.loops l).execDatas)
    (hqueue : loop.newFdsQueue = (w.loops l).newFdsQueue)
    (hepoll : loop.epollFd = (w.loops l).epollFd)
    (hcount : loop.numOfPollFds = (w.loops l).numOfPollFds)
    (hlive : loop.phase.Live → (w.loops l).phase.Live) : Ledger hand (w.setLoop l loop) :=
  h.sameHolders (h.booked.setLoop hpolls hexecs hcount hlive) rfl
    (setLoop_field PollLoop.newFdsQueue hqueue) (setLoop_field PollLoop.epollFd hepoll)
    (setLoop_fdAt hexecs)

/-- A destroyed loop leaves the descriptors in the queues open. -/
theorem Ledger.destroyed (h : Ledger none w) (hd : Destroyed w l w') : Ledger none w' := by
  have hunheld : 0 < (w.loops l).epollFd → w.Unheld (w.loops l).epollFd := by
    intro hpos
    obtain ⟨_, id, hl, _⟩ := h.epoll l hpos
    exact hl.2
  obtain ⟨execDatas, hloop⟩ := hd.loop
  have hqueues : ∀ l', (w'.loops l').newFdsQueue = (w.loops l').newFdsQueue := by
    intro l'
    by_cases hl : l' = l
    · rw [hl, hloop]
    · rw [hd.others l' hl]
  have hmem : ∀ fd, w'.Queued fd ↔ w.Queued fd := by
    intro fd
    unfold World.Queued
    simp only [hqueues]
  have hkeep : ∀ fd id, w.Loose fd id → fd ≠ (w.loops l).epollFd → w'.Loose fd id := by
    intro fd id hl hne
    have hspared : ¬ w.Closes l fd := by
      rintro ⟨_, ⟨r, place, heq⟩ | heq⟩
      · exact hl.2 l r place heq
      · exact hne heq
    refine ⟨(hd.openId? hspared).trans hl.1, fun l' r place heq => ?_⟩
    by_cases hl' : l' = l
    · have hpos : 0 < fd := h.booked.positive (by
        rw [hl.1]
        exact fun hnone => nomatch hnone)
      rw [hl', (hd.empty h.booked r place).1] at heq
      omega
    · unfold World.fdAt at heq
      rw [hd.otherData hl'] at heq
      exact hl.2 l' r place heq
  have hepollFd : ∀ l', 0 < (w'.loops l').epollFd →
      l' ≠ l ∧ (w'.loops l').epollFd = (w.loops l').epollFd := by
    intro l' hpos
    by_cases hl : l' = l
    · rw [hl, hloop] at hpos
      dsimp only at hpos
      omega
    · exact ⟨hl, by rw [hd.others l' hl]⟩
  have hkernel : w'.kernel.OneNumber ∧ w'.kernel.accepted = w.kernel.accepted := by
    obtain ⟨k, hk, rfl | heq⟩ := hd.kernel
    · exact ⟨h.kernel.closeSet hk, hk.accepted⟩
    · rw [heq]
      exact ⟨(h.kernel.closeSet hk).congr rfl, hk.accepted⟩
  refine ⟨hd.booked h.booked hunheld, h.queue.keep hqueues (fun l' d hin id hl => ?_), hkernel.1,
    (fun _ hhand => nomatch hhand), fun l' hpos => ?_, fun l' l'' hpos heq => ?_,
    fun fd id hopen hid => ?_⟩
  · refine hkeep d.fd id hl (fun heq => ?_)
    have hpos : 0 < d.fd := h.booked.positive (by
      rw [hl.1]
      exact fun hnone => nomatch hnone)
    exact (h.epoll l (heq ▸ hpos)).1 ⟨l', d, hin, heq⟩
  · obtain ⟨hl, heq⟩ := hepollFd l' hpos
    rw [heq] at hpos ⊢
    obtain ⟨hq, id, hloose, hid⟩ := h.epoll l' hpos
    refine ⟨fun hin => hq ((hmem _).mp hin), id, hkeep _ id hloose (fun hsame => ?_), ?_⟩
    · exact hl (h.epollApart l' l hpos hsame)
    · rw [hkernel.2]
      exact hid
  · obtain ⟨_, hfd⟩ := hepollFd l' hpos
    obtain ⟨_, hfd'⟩ := hepollFd l'' (heq ▸ hpos)
    rw [hfd] at hpos heq
    rw [hfd'] at heq
    exact h.epollApart l' l'' hpos heq
  · have hspared : ¬ w.Closes l fd := fun hc => by
      rw [hd.closed hc] at hopen
      cases hopen
    rw [hd.openId? hspared] at hopen
    rw [hkernel.2] at hid
    rcases h.owner fd id hopen hid with hhand | hq | ⟨l', r, hat⟩
    · cases hhand
    · exact Or.inr (Or.inl ((hmem fd).mpr hq))
    · refine Or.inr (Or.inr ⟨l', r, ?_⟩)
      by_cases hl : l' = l
      · have hpos : 0 < fd := h.booked.positive (by
          rw [hopen]
          exact fun hnone => nomatch hnone)
        exact absurd ⟨hpos, Or.inl ⟨r, .fd0, hl ▸ hat⟩⟩ hspared
      · unfold World.fdAt
        rw [hd.otherData hl]
        exact hat

/-- Whatever a thread does, the ledger stays in order. -/
theorem Deed.ledger (hd : Deed l w hand hand' w') (h : Ledger hand w) : Ledger hand' w' := by
  cases hd with
  | effect hand r w' he => exact he.ledger h
  | handedOut hand r w' hh => exact h.handedOut hh
  | adopted r fd huse hpoll hold => exact h.adopted huse hpoll hold
  | freed hand r huse hempty => exact h.freed huse hempty
  | opened fd accepted havail => exact h.opened havail
  | queued i fd execType htype => exact h.queued htype
  | dequeued d rest hqueue => exact h.dequeued hqueue
  | closed fd => exact h.closed
  | epollFd fd hclient => exact h.epollFd hclient
  | assigned hand eventFd lastCheckTimeoutMillis => exact h.assigned rfl rfl rfl rfl rfl id
  | rooted hcount => exact h.assigned rfl rfl rfl rfl hcount.symm id

/-- Whatever a thread does, it closes a client once. -/
theorem Deed.closedOnce (hd : Deed l w hand hand' w') (h : Ledger hand w)
    (hk : w.kernel.ClosedOnce) : w'.kernel.ClosedOnce := by
  cases hd with
  | effect hand r w' he => exact (he.moved h.booked).closedOnce h.kernel hk
  | handedOut hand r w' hh =>
    rw [hh.kernel]
    exact hk
  | adopted r fd huse hpoll hold => exact hk
  | freed hand r huse hempty => exact hk
  | opened fd accepted havail => exact hk.open_new havail accepted
  | queued i fd execType htype => exact hk
  | dequeued d rest hqueue => exact hk
  | closed fd =>
    obtain ⟨⟨id, hloose⟩, _⟩ := h.inHand fd rfl
    exact hk.close h.kernel hloose.1
  | epollFd fd hclient => exact hk
  | assigned hand eventFd lastCheckTimeoutMillis => exact hk
  | rooted hcount => exact hk

theorem Destroyed.closedOnce (hd : Destroyed w l w') (h : Ledger none w)
    (hk : w.kernel.ClosedOnce) : w'.kernel.ClosedOnce := by
  obtain ⟨k, hset, rfl | heq⟩ := hd.kernel
  · exact hk.closeSet h.kernel hset
  · rw [heq]
    exact (hk.closeSet h.kernel hset).congr rfl rfl rfl rfl

end

/-! ## Chains of deeds -/

/-- The deeds of a thread one after the other. -/
inductive Deeds (l : Nat) : World → Option Int → Option Int → World → Prop
  | done (w : World) (hand : Option Int) : Deeds l w hand hand w
  | next {w w' w'' : World} {hand hand' hand'' : Option Int} (hs : Deeds l w hand hand' w')
      (hd : Deed l w' hand' hand'' w'') : Deeds l w hand hand'' w''

section
variable {l : Nat} {w w' w'' : World} {hand hand' hand'' : Option Int}

theorem Deeds.trans (h : Deeds l w hand hand' w') (h' : Deeds l w' hand' hand'' w'') :
    Deeds l w hand hand'' w'' := by
  induction h' with
  | done => exact h
  | next _ hd ih => exact (ih h).next hd

theorem Deed.deeds (h : Deed l w hand hand' w') : Deeds l w hand hand' w' :=
  (Deeds.done w hand).next h

theorem Deeds.ledger (hs : Deeds l w hand hand' w') (h : Ledger hand w) : Ledger hand' w' := by
  induction hs with
  | done => exact h
  | next _ hd ih => exact hd.ledger (ih h)

theorem Deeds.closedOnce (hs : Deeds l w hand hand' w') (h : Ledger hand w)
    (hk : w.kernel.ClosedOnce) : w'.kernel.ClosedOnce := by
  induction hs with
  | done => exact hk
  | next hs hd ih => exact hd.closedOnce (hs.ledger h) (ih h)

theorem Effects.deeds {r : Nat} (he : Effects l r w w') : Deeds l w hand hand w' := by
  induction he with
  | refl => exact .done w hand
  | tail _ he ih => exact ih.next (.effect hand r _ he)

/-! ## The other loops -/

/-- A loop whose thread stands still gets descriptors into its queue at most. -/
def World.SameButQueue (w w' : World) (l : Nat) : Prop :=
  ∃ queue, w'.loops l = { w.loops l with newFdsQueue := queue }

theorem Effect.others {r : Nat} (he : Effect l r w w') {l' : Nat} (hl : l' ≠ l) :
    w'.loops l' = w.loops l' := by
  cases he with
  | bytes k hk => rfl
  | data d hheld halone => exact World.setLoop_other _ _ hl _
  | cut => exact World.setLoop_other _ _ hl _
  | named name hname => exact World.setLoop_other _ _ hl _
  | added fd events p w' huse ha =>
    obtain ⟨_, pollDatas, k, _, _, rfl⟩ := ha
    exact World.rewatch_other _ _ _ _ _ _ _ hl
  | refused w' hr =>
    obtain ⟨p, pollDatas, _, rfl⟩ := hr
    exact World.rewatch_other _ _ _ _ _ _ _ hl
  | edited fd events p k hp hk => rfl
  | removed fd p w' hr =>
    obtain ⟨_, k, _, rfl⟩ := hr
    exact World.rewatch_other _ _ _ _ _ _ _ hl
  | tried sock havail => rfl
  | opened place fd huse havail hpoll hfd halone => exact World.setLoop_other _ _ hl _
  | closed place hpoll => exact World.setLoop_other _ _ hl _

theorem Deed.others (hd : Deed l w hand hand' w') {l' : Nat} (hl : l' ≠ l) :
    w.SameButQueue w' l' := by
  have hsame : w'.loops l' = w.loops l' → w.SameButQueue w' l' := fun heq => ⟨_, heq⟩
  cases hd with
  | effect hand r w' he => exact hsame (he.others hl)
  | handedOut hand r w' hh =>
    obtain ⟨_, _, rfl⟩ := hh
    exact hsame (World.setLoop_other _ _ hl _)
  | adopted r fd huse hpoll hold => exact hsame (World.setLoop_other _ _ hl _)
  | freed hand r huse hempty => exact hsame (World.setLoop_other _ _ hl _)
  | opened fd accepted havail => exact hsame rfl
  | queued i fd execType htype =>
    by_cases hi : l' = i
    · refine ⟨(w.loops i).newFdsQueue ++ [{ execType := execType, fd := fd }], ?_⟩
      rw [hi, World.setLoop_self]
    · exact hsame (World.setLoop_other _ _ hi _)
  | dequeued d rest hqueue => exact hsame (World.setLoop_other _ _ hl _)
  | closed fd => exact hsame rfl
  | epollFd fd hclient => exact hsame (World.setLoop_other _ _ hl _)
  | assigned hand eventFd lastCheckTimeoutMillis => exact hsame (World.setLoop_other _ _ hl _)
  | rooted hcount => exact hsame (World.setLoop_other _ _ hl _)

theorem Deeds.others (hs : Deeds l w hand hand' w') {l' : Nat} (hl : l' ≠ l) :
    w.SameButQueue w' l' := by
  induction hs with
  | done => exact ⟨_, rfl⟩
  | next _ hd ih =>
    obtain ⟨queue, heq⟩ := ih
    obtain ⟨queue', heq'⟩ := hd.others hl
    exact ⟨queue', by rw [heq', heq]⟩

theorem Deed.parameters (hd : Deed l w hand hand' w') : w'.parameters = w.parameters := by
  cases hd with
  | effect hand r w' he => exact he.frame.parameters
  | handedOut hand r w' hh => exact hh.frame.parameters
  | _ => rfl

theorem Deeds.parameters (hs : Deeds l w hand hand' w') : w'.parameters = w.parameters := by
  induction hs with
  | done => rfl
  | next _ hd ih => exact hd.parameters.trans ih

/-- A thread that goes about its deeds stays where it stands. -/
theorem Deed.phase (hd : Deed l w hand hand' w') : (w'.loops l).phase = (w.loops l).phase := by
  have hsetLoop : ∀ (i : Nat) (loop : PollLoop), loop.phase = (w.loops i).phase →
      ((w.setLoop i loop).loops l).phase = (w.loops l).phase :=
    fun i loop heq => setLoop_field PollLoop.phase heq l
  cases hd with
  | effect hand r w' he => exact he.frame.phase l
  | handedOut hand r w' hh => exact hh.frame.phase l
  | adopted r fd huse hpoll hold => exact (SameFrame.setData w _).phase l
  | freed hand r huse hempty => exact hsetLoop l _ rfl
  | opened fd accepted havail => rfl
  | queued i fd execType htype => exact hsetLoop i _ rfl
  | dequeued d rest hqueue => exact hsetLoop l _ rfl
  | closed fd => rfl
  | epollFd fd hclient => exact hsetLoop l _ rfl
  | assigned hand eventFd lastCheckTimeoutMillis => exact hsetLoop l _ rfl
  | rooted hcount => exact hsetLoop l _ rfl

theorem Deeds.phase (hs : Deeds l w hand hand' w') : (w'.loops l).phase = (w.loops l).phase := by
  induction hs with
  | done => rfl
  | next _ hd ih => exact hd.phase.trans ih

end

end EpollHttp
