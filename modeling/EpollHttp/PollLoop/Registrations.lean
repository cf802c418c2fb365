import EpollHttp.PollLoop.Conduct

/-
Registrations and the numbers they are told apart by.

What is registered after a turn was registered before it, with the same item for the same executor,
or carries a number that no registration had before.
-/

namespace EpollHttp

open Program

/-- The registration was there before, and so was what it points to. -/
structure Kept (w w' : World) (l : Nat) (fd : Int) (reg' : Registration) : Prop where
  before : ∃ reg, w.kernel.epoll l fd = some reg ∧ reg.serial = reg'.serial ∧ reg.ptr = reg'.ptr
  item : w'.pollData l reg'.ptr = w.pollData l reg'.ptr
  incarnation : ∀ r, (w.pollData l reg'.ptr).execData = some r →
    (w'.loops l).incarnation r = (w.loops l).incarnation r

/-- At most one registration is new. -/
structure Registers (w w' : World) : Prop where
  serial : w.kernel.nextSerial ≤ w'.kernel.nextSerial
  entry : ∃ l0 fd0, ∀ l fd reg', w'.kernel.epoll l fd = some reg' → Kept w w' l fd reg' ∨
    (l = l0 ∧ fd = fd0 ∧ reg'.serial = w.kernel.nextSerial ∧
      w.kernel.nextSerial < w'.kernel.nextSerial)

/-- The numbers are given once. -/
structure Numbered (w : World) : Prop where
  below : ∀ l fd reg, w.kernel.epoll l fd = some reg → reg.serial < w.kernel.nextSerial
  apart : ∀ l fd reg l' fd' reg', w.kernel.epoll l fd = some reg →
    w.kernel.epoll l' fd' = some reg' → reg.serial = reg'.serial → l = l' ∧ fd = fd'

/-- The entry names its registration, if that is still there. -/
structure Known (w : World) (l : Nat) (event : EpollEvent) : Prop where
  below : event.serial < w.kernel.nextSerial
  registered : ∀ l' fd reg, w.kernel.epoll l' fd = some reg → reg.serial = event.serial →
    l' = l ∧ fd = event.fd ∧ reg.ptr = event.ptr ∧
      (w.pollData l event.ptr).execData = event.execData ∧
      ∀ r, event.execData = some r → (w.loops l).incarnation r = event.incarnation

section
variable {w w' : World} {l : Nat} {event : EpollEvent}

theorem Registers.numbered (h : Registers w w') (hn : Numbered w) : Numbered w' := by
  obtain ⟨l0, fd0, hentry⟩ := h.entry
  refine ⟨fun l fd reg' hreg' => ?_, fun l fd reg1 l' fd' reg2 h1 h2 heq => ?_⟩
  · rcases hentry l fd reg' hreg' with hkept | ⟨_, _, hserial, hlt⟩
    · obtain ⟨reg, hreg, hsame, _⟩ := hkept.before
      have hlt := hn.below l fd reg hreg
      have hle := h.serial
      omega
    · omega
  · rcases hentry l fd reg1 h1 with hkept1 | ⟨hl, hfd, hserial1, _⟩
    · obtain ⟨old1, hold1, hsame1, _⟩ := hkept1.before
      have hlt := hn.below l fd old1 hold1
      rcases hentry l' fd' reg2 h2 with hkept2 | ⟨_, _, hserial2, _⟩
      · obtain ⟨old2, hold2, hsame2, _⟩ := hkept2.before
        exact hn.apart l fd old1 l' fd' old2 hold1 hold2 (by omega)
      · omega
    · rcases hentry l' fd' reg2 h2 with hkept2 | ⟨hl', hfd', _, _⟩
      · obtain ⟨old2, hold2, hsame2, _⟩ := hkept2.before
        have hlt := hn.below l' fd' old2 hold2
        omega
      · exact ⟨hl.trans hl'.symm, hfd.trans hfd'.symm⟩

theorem Registers.known (h : Registers w w') (hk : Known w l event) : Known w' l event := by
  obtain ⟨l0, fd0, hentry⟩ := h.entry
  refine ⟨Nat.lt_of_lt_of_le hk.below h.serial, fun l' fd reg' hreg' hserial => ?_⟩
  rcases hentry l' fd reg' hreg' with hkept | ⟨_, _, hnew, _⟩
  · obtain ⟨reg, hreg, hsame, hptr⟩ := hkept.before
    obtain ⟨rfl, hfd, hevent, hdata, hinc⟩ := hk.registered l' fd reg hreg (hsame.trans hserial)
    have hptr' : reg'.ptr = event.ptr := hptr.symm.trans hevent
    have hitem := hkept.item
    have hincarnation := hkept.incarnation
    rw [hptr'] at hitem hincarnation
    refine ⟨rfl, hfd, hptr', by rw [hitem]; exact hdata, fun r hr => ?_⟩
    exact (hincarnation r (hdata.trans hr)).trans (hinc r hr)
  · have hlt := hk.below
    omega

/-- An entry that is reported names its registration. -/
theorem World.Reports.known (h : w.Reports l event) (hn : Numbered w) : Known w l event := by
  obtain ⟨fd, events, hreport⟩ := h
  unfold World.report at hreport
  obtain ⟨reg, hreg, rfl⟩ := Option.map_eq_some_iff.mp hreport
  refine ⟨hn.below l fd reg hreg, fun l' fd' reg' hreg' hserial => ?_⟩
  obtain ⟨rfl, rfl⟩ := hn.apart l' fd' reg' l fd reg hreg' hreg hserial
  obtain rfl : reg' = reg := Option.some.inj (hreg'.symm.trans hreg)
  refine ⟨rfl, rfl, rfl, rfl, fun r hr => ?_⟩
  dsimp only at hr ⊢
  rw [hr]
  rfl

end

/-! ## What the deeds register -/

section
variable {w w' : World} {l r : Nat} {fd : Int} {p : Nat}

/-- A registration points to an item of an executor that is in use. -/
theorem Booked.registration (hb : Booked w) {reg : Registration}
    (hreg : w.kernel.epoll l fd = some reg) : reg.ptr ∈ w.usedPolls l ∧
      (w.pollData l reg.ptr).fd = fd ∧
      ∀ r, (w.pollData l reg.ptr).execData = some r → w.InUse l r := by
  obtain ⟨r, place, hslot, hfd⟩ := (hb.loops l).entry fd reg hreg
  obtain ⟨hin, hd, _⟩ := (hb.loops l).slot r place reg.ptr hslot
  rw [hd]
  exact ⟨hin, hfd, fun r' hr' => Option.some.inj hr' ▸ hb.inUse hslot⟩

/-- Nothing is registered anew. -/
theorem Registers.ofKept (hb : Booked w)
    (hserial : w'.kernel.nextSerial = w.kernel.nextSerial)
    (hepoll : ∀ l fd reg', w'.kernel.epoll l fd = some reg' → ∃ reg,
      w.kernel.epoll l fd = some reg ∧ reg.serial = reg'.serial ∧ reg.ptr = reg'.ptr)
    (hitem : ∀ l, ∀ p ∈ w.usedPolls l, w'.pollData l p = w.pollData l p)
    (hinc : ∀ l r, w.InUse l r → (w'.loops l).incarnation r = (w.loops l).incarnation r) :
    Registers w w' := by
  refine ⟨Nat.le_of_eq hserial.symm, 0, 0, fun l fd reg' hreg' => Or.inl ?_⟩
  obtain ⟨reg, hreg, hsame, hptr⟩ := hepoll l fd reg' hreg'
  obtain ⟨hin, _, huse⟩ := hb.registration hreg
  rw [hptr] at hin huse
  exact ⟨⟨reg, hreg, hsame, hptr⟩, hitem l _ hin, fun r hr => hinc l r (huse r hr)⟩

/-- Only the kernel changes. -/
theorem Registers.setKernel (hb : Booked w) {k : Kernel}
    (hserial : k.nextSerial = w.kernel.nextSerial)
    (hepoll : ∀ l fd, k.epoll l fd = w.kernel.epoll l fd ∨ k.epoll l fd = none) :
    Registers w (w.setKernel k) := by
  refine .ofKept hb hserial (fun l fd reg' hreg' => ?_) (fun _ _ _ => rfl) (fun _ _ _ => rfl)
  rw [World.setKernel_kernel] at hreg'
  rcases hepoll l fd with heq | hnone
  · exact ⟨reg', heq ▸ hreg', rfl, rfl⟩
  · rw [hnone] at hreg'
    cases hreg'

/-- A loop changes and keeps its items. -/
theorem Registers.setLoop (hb : Booked w) {loop : PollLoop}
    (hpolls : loop.pollDatas = (w.loops l).pollDatas)
    (hinc : ∀ r, w.InUse l r → loop.incarnation r = (w.loops l).incarnation r) :
    Registers w (w.setLoop l loop) := by
  refine .ofKept hb rfl (fun l' fd reg' hreg' => ⟨reg', hreg', rfl, rfl⟩) (fun l' p _ => ?_)
    (fun l' r huse => ?_)
  · unfold World.pollData
    by_cases hl : l' = l
    · rw [hl, World.setLoop_self, hpolls]
    · rw [World.setLoop_other _ _ hl]
  · by_cases hl : l' = l
    · rw [hl, World.setLoop_self]
      exact hinc r (hl ▸ huse)
    · rw [World.setLoop_other _ _ hl]

theorem Registers.setData (hb : Booked w) (d : ExecutorData) : Registers w (w.setData l r d) :=
  .setLoop hb rfl (fun _ _ => rfl)

theorem Registers.setKernelData (hb : Booked w) {k : Kernel}
    (hserial : k.nextSerial = w.kernel.nextSerial)
    (hepoll : ∀ l fd, k.epoll l fd = w.kernel.epoll l fd ∨ k.epoll l fd = none)
    (d : ExecutorData) : Registers w ((w.setKernel k).setData l r d) := by
  refine .ofKept hb hserial (fun l fd reg' hreg' => ?_)
    (fun l' p _ => by rw [World.setData_pollData]; rfl)
    (fun l' r' _ => by rw [World.setData_loops]; rfl)
  have hreg : k.epoll l fd = some reg' := hreg'
  rcases hepoll l fd with heq | hnone
  · exact ⟨reg', heq ▸ hreg, rfl, rfl⟩
  · rw [hnone] at hreg
    cases hreg

theorem Kernel.close_epoll (k : Kernel) (fd : Int) (l : Nat) (fd' : Int) :
    (k.close fd).epoll l fd' = k.epoll l fd' ∨ (k.close fd).epoll l fd' = none := by
  by_cases heq : fd' = fd
  · rw [heq]
    by_cases hopen : k.openId? fd = none
    · rw [(Kernel.close_refused hopen).2.2.2.1]
      exact Or.inl rfl
    · exact Or.inr (Kernel.epoll_close_self hopen)
  · exact Or.inl (Kernel.epoll_close_of_ne heq)

theorem Kernel.close_nextSerial (k : Kernel) (fd : Int) :
    (k.close fd).nextSerial = k.nextSerial := by
  unfold Kernel.close
  split <;> rfl

/-- A registration that a loop replaces leaves the items of the others. -/
theorem rewatch_pollData_ne {pollDatas : BlockStorage PollData} {d : ExecutorData} {n : Int}
    {k : Kernel} (hsame : ∀ q ∈ w.usedPolls l, q ≠ p → (pollDatas.items q).fields = w.pollData l q)
    (l' : Nat) (q : Nat) (hq : q ∈ w.usedPolls l') (hne : ¬ (l' = l ∧ q = p)) :
    (w.rewatch l r pollDatas d n k).pollData l' q = w.pollData l' q := by
  by_cases hl : l' = l
  · rw [hl] at hq ⊢
    rw [World.rewatch_pollData]
    exact hsame q hq (fun heq => hne ⟨hl, heq⟩)
  · rw [World.rewatch_pollData_other _ _ _ _ _ _ _ hl]

theorem rewatch_incarnation {pollDatas : BlockStorage PollData} {d : ExecutorData} {n : Int}
    {k : Kernel} (l' : Nat) :
    ((w.rewatch l r pollDatas d n k).loops l').incarnation = (w.loops l').incarnation := by
  by_cases hl : l' = l
  · rw [hl, World.rewatch_self]
  · rw [World.rewatch_other _ _ _ _ _ _ _ hl]

theorem Added.registers {events : Nat} (hb : Booked w) (ha : Added w l r fd events p w') :
    Registers w w' := by
  obtain ⟨_, pollDatas, k, halloc, hk, rfl⟩ := ha
  obtain ⟨_, _, hset⟩ := Kernel.ctlAdd_some hk
  have hslot := (hb.loops l).polls.allocate one_le_size halloc
  have hserial : k.nextSerial = w.kernel.nextSerial + 1 := by rw [hset]
  refine ⟨by rw [World.rewatch_kernel, hserial]; exact Nat.le_succ _, l, fd,
    fun l' fd' reg' hreg' => ?_⟩
  rw [World.rewatch_kernel] at hreg' ⊢
  by_cases hat : l' = l ∧ fd' = fd
  · rw [hat.1, hat.2, hset] at hreg'
    have hreg : reg' = { ptr := p, events := watched events, serial := w.kernel.nextSerial } :=
      (Option.some.inj ((Kernel.setRegistration_self _).symm.trans hreg')).symm
    exact Or.inr ⟨hat.1, hat.2, by rw [hreg], by rw [hserial]; exact Nat.lt_succ_self _⟩
  · rw [hset] at hreg'
    have hold : w.kernel.epoll l' fd' = some reg' :=
      (Kernel.setRegistration_other _ hat).symm.trans hreg'
    obtain ⟨hin, _, _⟩ := hb.registration hold
    refine Or.inl ⟨⟨reg', hold, rfl, rfl⟩, ?_, fun r' _ => by rw [rewatch_incarnation]⟩
    refine rewatch_pollData_ne (p := p) (fun q hq hne => ?_) l' _ hin (fun hboth => ?_)
    · show (Function.update pollDatas.items p _ q).fields = _
      rw [Function.update_of_ne hne]
      exact hslot.fields q ((hb.loops l).polls.mem_allItems.mpr (Or.inl hq))
    · exact hslot.unused (hboth.2 ▸ hboth.1 ▸ hin)

theorem Refused.registers (hb : Booked w) (hr : Refused w l r w') : Registers w w' := by
  obtain ⟨p, pollDatas, halloc, rfl⟩ := hr
  have hslot := (hb.loops l).polls.allocate one_le_size halloc
  have hfree := hslot.sound.free ((hslot.used p).mpr (Or.inl rfl))
  refine .ofKept hb rfl (fun l' fd reg' hreg' => ⟨reg', hreg', rfl, rfl⟩) (fun l' q hq => ?_)
    (fun l' r' _ => by rw [rewatch_incarnation])
  refine rewatch_pollData_ne (p := p) (fun q hq _ => ?_) l' q hq (fun hboth => ?_)
  · rw [hfree.fields]
    exact hslot.fields q ((hb.loops l).polls.mem_allItems.mpr (Or.inl hq))
  · exact hslot.unused (hboth.2 ▸ hboth.1 ▸ hq)

theorem Removed.registers (hb : Booked w) (hr : Removed w l r fd p w') : Registers w w' := by
  obtain ⟨place, hat, hp, _⟩ := hb.removed_place hr.ptr
  obtain ⟨_, k, hk, rfl⟩ := hr
  obtain ⟨_, _, hset⟩ := Kernel.ctlDel_some hk
  have hin : p ∈ w.usedPolls l := ((hb.loops l).slot r place p hp).1
  have hsound := (hb.loops l).polls.assign p (w.pollData l p).down
  have hfree := hsound.1.free (p := p) (by rw [hsound.2.1]; exact hin)
  refine ⟨by rw [World.rewatch_kernel, hset]; exact Nat.le_refl _, 0, 0,
    fun l' fd' reg' hreg' => Or.inl ?_⟩
  rw [World.rewatch_kernel, hset] at hreg'
  have hne : ¬ (l' = l ∧ fd' = fd) := by
    rintro ⟨rfl, rfl⟩
    rw [Kernel.setRegistration_self] at hreg'
    cases hreg'
  rw [Kernel.setRegistration_other _ hne] at hreg'
  obtain ⟨hin', hfd', _⟩ := hb.registration hreg'
  refine ⟨⟨reg', hreg', rfl, rfl⟩, ?_, fun r' _ => by rw [rewatch_incarnation]⟩
  refine rewatch_pollData_ne (p := p) (fun q hq hq' => ?_) l' _ hin' (fun hboth => ?_)
  · rw [hfree.fields]
    show (Function.update (w.loops l).pollDatas.items p _ q).fields = _
    rw [Function.update_of_ne hq']
    rfl
  · -- The item is that of the place, and so is the descriptor.
    rw [hboth.1, hboth.2, ((hb.loops l).slot r place p hp).2.1] at hfd'
    exact hne ⟨hboth.1, hfd'.symm.trans hat⟩

theorem Effect.registers (he : Effect l r w w') (hb : Booked w) : Registers w w' := by
  cases he with
  | bytes k hk => exact .setKernel hb hk.nextSerial (fun l' fd' => Or.inl (by rw [hk.epoll]))
  | data d hheld halone => exact .setData hb d
  | cut => exact .setLoop hb rfl (fun _ _ => rfl)
  | named name hname => exact .setLoop hb rfl (fun _ _ => rfl)
  | added fd events p w' huse ha => exact ha.registers hb
  | refused w' hr => exact Refused.registers hb hr
  | edited fd events p k hp hk =>
    obtain ⟨reg, hreg, hset⟩ := Kernel.ctlMod_some hk
    obtain ⟨place, hat, hslot, _⟩ := hb.removed_place hp
    refine .ofKept hb (by rw [World.setKernel_kernel, hset]; rfl) (fun l' fd' reg' hreg' => ?_)
      (fun _ _ _ => rfl) (fun _ _ _ => rfl)
    rw [World.setKernel_kernel, hset] at hreg'
    by_cases hboth : l' = l ∧ fd' = fd
    · rw [hboth.1, hboth.2, Kernel.setRegistration_self] at hreg'
      obtain ⟨_, _, reg0, hreg0, hptr⟩ := (hb.loops l).slot r place p hslot
      rw [hat, hreg] at hreg0
      obtain rfl : reg = reg0 := Option.some.inj hreg0
      rw [hboth.1, hboth.2, ← Option.some.inj hreg']
      exact ⟨reg, hreg, rfl, hptr⟩
    · rw [Kernel.setRegistration_other _ hboth] at hreg'
      exact ⟨reg', hreg', rfl, rfl⟩
  | removed fd p w' hr => exact hr.registers hb
  | tried sock havail =>
    exact .setKernel hb (Kernel.close_nextSerial _ _) (fun l' fd' => Kernel.close_epoll _ _ l' fd')
  | opened place fd huse havail hpoll hfd halone =>
    refine .setKernelData hb ?_ (fun _ _ => Or.inl ?_) _
    · rfl
    · rfl
  | closed place hpoll =>
    exact .setKernelData hb (Kernel.close_nextSerial _ _)
      (fun l' fd' => Kernel.close_epoll _ _ l' fd') _

theorem HandedOut.registers (hb : Booked w) (hh : HandedOut w l r w') : Registers w w' := by
  have hunused := (hh.spec hb).1
  obtain ⟨_, _, rfl⟩ := hh
  refine .setLoop hb rfl (fun r' huse => ?_)
  have hne : r' ≠ r := fun heq => hunused (heq ▸ huse)
  exact Function.update_of_ne hne ..

theorem Deed.registers {hand hand' : Option Int} (hd : Deed l w hand hand' w') (hb : Booked w) :
    Registers w w' := by
  cases hd with
  | effect hand r w' he => exact he.registers hb
  | handedOut hand r w' hh => exact hh.registers hb
  | adopted r fd huse hpoll hold => exact .setData hb _
  | freed hand r huse hempty => exact .setLoop hb rfl (fun _ _ => rfl)
  | opened fd accepted havail => exact .setKernel hb rfl (fun _ _ => Or.inl rfl)
  | queued i fd execType htype => exact .setLoop hb rfl (fun _ _ => rfl)
  | dequeued d rest hqueue => exact .setLoop hb rfl (fun _ _ => rfl)
  | closed fd =>
    exact .setKernel hb (Kernel.close_nextSerial _ _) (fun l' fd' => Kernel.close_epoll _ _ l' fd')
  | epollFd fd hclient => exact .setLoop hb rfl (fun _ _ => rfl)
  | assigned hand eventFd lastCheckTimeoutMillis => exact .setLoop hb rfl (fun _ _ => rfl)
  | rooted hcount => exact .setLoop hb rfl (fun _ _ => rfl)

theorem Destroyed.registers (hd : Destroyed w l w') (h : Ledger none w) : Registers w w' := by
  have hunheld : 0 < (w.loops l).epollFd → w.Unheld (w.loops l).epollFd := by
    intro hpos
    obtain ⟨id, hloose⟩ := h.looseEpoll hpos
    exact hloose.2
  have hserial : w'.kernel.nextSerial = w.kernel.nextSerial := by
    obtain ⟨k, hk, rfl | heq⟩ := hd.kernel
    · exact hk.nextSerial
    · rw [heq]
      exact hk.nextSerial
  obtain ⟨execDatas, hloop⟩ := hd.loop
  refine .ofKept h.booked hserial (fun l' fd reg' hreg' => ?_) (fun l' p _ => ?_) (fun l' r _ => ?_)
  · rw [hd.epoll h.booked hunheld] at hreg'
    by_cases hl : l' = l
    · rw [if_pos hl] at hreg'
      cases hreg'
    · rw [if_neg hl] at hreg'
      exact ⟨reg', hreg', rfl, rfl⟩
  · unfold World.pollData
    by_cases hl : l' = l
    · rw [hl, hloop]
      rfl
    · rw [hd.others l' hl]
  · by_cases hl : l' = l
    · rw [hl, hloop]
    · rw [hd.others l' hl]

/-! ## Chains -/

theorem Deeds.numbered {hand hand' : Option Int} (hs : Deeds l w hand hand' w')
    (h : Ledger hand w) (hn : Numbered w) : Numbered w' := by
  induction hs with
  | done => exact hn
  | next hs hd ih => exact (hd.registers (hs.ledger h).booked).numbered (ih h)

theorem Deeds.known {hand hand' : Option Int} {l' : Nat} {event : EpollEvent}
    (hs : Deeds l w hand hand' w') (h : Ledger hand w) (hk : Known w l' event) :
    Known w' l' event := by
  induction hs with
  | done => exact hk
  | next hs hd ih => exact (hd.registers (hs.ledger h).booked).known (ih h)

end

/-! ## Runs -/

/-- The entries that were not looked at name their registrations. -/
structure Awaited (w : World) : Prop where
  numbered : Numbered w
  known : ∀ l, ∀ event ∈ (w.loops l).phase.pending, Known w l event

section
variable {w w' : World} {l : Nat} {fd : Int}

theorem Turn.awaited (ht : Turn l w w') (h : Ledger none w) (ha : Awaited w) : Awaited w' := by
  have hothers : ∀ l', l' ≠ l → (w'.loops l').phase = (w.loops l').phase := by
    intro l' hl
    obtain ⟨queue, heq⟩ := ht.others hl
    rw [heq]
  cases ht with
  | stayed w' hd hstarted huse =>
    refine ⟨hd.numbered h ha.numbered, fun l' event hin => hd.known h (ha.known l' event ?_)⟩
    by_cases hl : l' = l
    · rw [hl, hd.phase] at hin
      rw [hl]
      exact hin
    · rw [hothers l' hl] at hin
      exact hin
  | moved w1 phase hd hlive hstarted huse hpending =>
    have h1 := hd.ledger h
    have hn1 := hd.numbered h ha.numbered
    have hphase : Registers w1 (w1.setLoop l { w1.loops l with phase := phase }) :=
      .setLoop h1.booked rfl (fun _ _ => rfl)
    refine ⟨hphase.numbered hn1, fun l' event hin => hphase.known ?_⟩
    by_cases hl : l' = l
    · rw [hl, World.setLoop_self] at hin
      rw [hl]
      rcases hpending event hin with hold | hnew
      · exact hd.known h (ha.known l event hold)
      · exact hnew.known hn1
    · rw [hothers l' hl] at hin
      exact hd.known h (ha.known l' event hin)
  | destroyed w1 w' hd hw =>
    have hend := hw.registers (hd.ledger h)
    refine ⟨hend.numbered (hd.numbered h ha.numbered), fun l' event hin => ?_⟩
    by_cases hl : l' = l
    · obtain ⟨execDatas, hloop⟩ := hw.loop
      rw [hl, hloop] at hin
      dsimp only at hin
      split at hin <;> exact (nomatch hin)
    · rw [hothers l' hl] at hin
      exact hend.known (hd.known h (ha.known l' event hin))

theorem ClosesAgain.awaited (hc : ClosesAgain w l fd w') (hclosed : w.kernel.openId? fd = none)
    (h : Steady w) (ha : Awaited w) : Awaited w' := by
  have hothers := fun l' (hl : l' ≠ l) => hc.others hl
  obtain ⟨next, hphase, rfl⟩ := hc
  obtain ⟨_, _, _, hepoll, hserial⟩ := Kernel.close_refused hclosed
  have hend : Registers w ((w.setKernel (w.kernel.close fd)).setLoop l
      { w.loops l with phase := next }) := by
    refine .ofKept h.ledger.booked hserial (fun l' fd' reg' hreg' => ⟨reg', ?_, rfl, rfl⟩)
      (fun l' p _ => ?_) (fun l' r _ => ?_)
    · rw [← hepoll]
      exact hreg'
    · unfold World.pollData
      by_cases hl : l' = l
      · rw [hl, World.setLoop_self]
      · rw [hothers l' hl]
    · by_cases hl : l' = l
      · rw [hl, World.setLoop_self]
      · rw [hothers l' hl]
  refine ⟨hend.numbered ha.numbered, fun l' event hin => hend.known (ha.known l' event ?_)⟩
  by_cases hl : l' = l
  · rw [hl, World.setLoop_self] at hin
    rw [hl, hphase]
    exact hin
  · rw [hothers l' hl] at hin
    exact hin

end

end EpollHttp
