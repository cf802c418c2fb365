import EpollHttp.PollLoop.Booked

/-
Every effect of an executor keeps the books, and so do the calls that hand out its data and take
it back.
-/

namespace EpollHttp

open Program

/-! ## Registrations -/

section
variable {w w' : World} {l r : Nat} {fd : Int} {events p : Nat}

/-- The place that is watched from now on. -/
theorem Added.place (ha : Added w l r fd events p w') : ∃ place, w.fdAt l r place = fd ∧
    w.pollDataAt l r place = none ∧ (place = .fd0 ∨ place = .fd1) ∧
    ∀ place', ((w.data l r).setPollDataOf fd p).fdAt place' = w.fdAt l r place' ∧
      ((w.data l r).setPollDataOf fd p).pollDataAt place' =
        if place' = place then some p else w.pollDataAt l r place' := by
  rcases ha.own with ⟨hfd, hnone⟩ | ⟨hne, hfd, hnone⟩
  · refine ⟨.fd0, hfd.symm, hnone, Or.inl rfl, fun place' => ?_⟩
    unfold ExecutorData.setPollDataOf
    rw [if_pos hfd]
    cases place' <;> exact ⟨rfl, rfl⟩
  · refine ⟨.fd1, hfd.symm, hnone, Or.inr rfl, fun place' => ?_⟩
    unfold ExecutorData.setPollDataOf
    rw [if_neg hne, if_pos hfd]
    cases place' <;> exact ⟨rfl, rfl⟩

/-- The place that is watched no longer. -/
theorem Booked.removed_place (h : Booked w) (hp : (w.data l r).pollDataOf fd = some p) :
    ∃ place, w.fdAt l r place = fd ∧ w.pollDataAt l r place = some p ∧
      ∀ place', ((w.data l r).dropPollData p).fdAt place' = w.fdAt l r place' ∧
        ((w.data l r).dropPollData p).pollDataAt place' =
          if place' = place then none else w.pollDataAt l r place' := by
  unfold ExecutorData.pollDataOf at hp
  split at hp
  · rename_i hfd
    refine ⟨.fd0, hfd.symm, hp, fun place' => ?_⟩
    unfold ExecutorData.dropPollData
    rw [if_pos hp.symm]
    cases place' <;> exact ⟨rfl, rfl⟩
  · split at hp
    · rename_i hfd
      have hp1 : w.pollDataAt l r .fd1 = some p := hp
      have hne : ¬ some p = (w.data l r).pollData0 := by
        intro h0
        have hp0 : w.pollDataAt l r .fd0 = some p := h0.symm
        exact absurd (h.slot_unique hp0 hp1).2 (fun hplace => nomatch hplace)
      refine ⟨.fd1, hfd.symm, hp, fun place' => ?_⟩
      unfold ExecutorData.dropPollData
      rw [if_neg hne, if_pos hp.symm]
      cases place' <;> exact ⟨rfl, rfl⟩
    · cases hp

end

namespace World

section
variable (w : World) (l r : Nat) (pollDatas : BlockStorage PollData) (d : ExecutorData) (n : Int)
  (k : Kernel)

theorem rewatch_fdAt (l' r' : Nat) (place : Place) :
    (w.rewatch l r pollDatas d n k).fdAt l' r' place =
      if l' = l ∧ r' = r then d.fdAt place else w.fdAt l' r' place := by
  unfold fdAt
  split
  · rename_i h
    rw [h.1, h.2, rewatch_data_self]
  · rename_i h
    rw [rewatch_data_other _ _ _ _ _ _ _ h]

theorem rewatch_pollDataAt (l' r' : Nat) (place : Place) :
    (w.rewatch l r pollDatas d n k).pollDataAt l' r' place =
      if l' = l ∧ r' = r then d.pollDataAt place else w.pollDataAt l' r' place := by
  unfold pollDataAt
  split
  · rename_i h
    rw [h.1, h.2, rewatch_data_self]
  · rename_i h
    rw [rewatch_data_other _ _ _ _ _ _ _ h]

theorem rewatch_usedPolls :
    (w.rewatch l r pollDatas d n k).usedPolls l = pollDatas.usedItems blockSize := by
  unfold usedPolls
  rw [rewatch_self]

theorem rewatch_sameLists (h : (w.loops l).execDatas.Sound blockSize) :
    SameLists w (w.rewatch l r pollDatas d n k) :=
  .assign (r := r) (d := d) h (by rw [rewatch_self])
    (fun _ hl => rewatch_other _ _ _ _ _ _ _ hl)

theorem rewatch_inUse (h : (w.loops l).execDatas.Sound blockSize) (l' r' : Nat) :
    (w.rewatch l r pollDatas d n k).InUse l' r' ↔ w.InUse l' r' :=
  (rewatch_sameLists w l r pollDatas d n k h).inUse l' r'

end

end World

/-- The books of the other loops, when a loop is given other items of `PollData`. -/
theorem LoopBooked.other {w w' : World} {l : Nat} (h : LoopBooked w l)
    (hloop : w'.loops l = w.loops l)
    (hepoll : ∀ fd, (w'.kernel.epoll l fd).map Registration.ptr =
      (w.kernel.epoll l fd).map Registration.ptr) : LoopBooked w' l := by
  have hdata : w'.data l = w.data l := by
    funext r
    unfold World.data
    rw [hloop]
  have hfd : ∀ r place, w'.fdAt l r place = w.fdAt l r place := by
    intro r place
    unfold World.fdAt
    rw [hdata]
  have hpoll : ∀ r place, w'.pollDataAt l r place = w.pollDataAt l r place := by
    intro r place
    unfold World.pollDataAt
    rw [hdata]
  have hitems : w'.pollData l = w.pollData l := by
    funext p
    unfold World.pollData
    rw [hloop]
  have hused : w'.usedPolls l = w.usedPolls l := by
    unfold World.usedPolls
    rw [hloop]
  refine ⟨by rw [hloop]; exact h.polls, by rw [hloop]; exact h.execs, fun r hr place => ?_,
    fun r place p hp => ?_, fun p hp => ?_, fun fd reg hreg => ?_, by rw [hdata]; exact h.alone,
    by rw [hloop, hused]; exact h.count, by rw [hloop, hused, hitems]; exact h.free⟩
  · rw [hfd, hpoll]
    refine h.idle r (fun huse => hr ?_) place
    unfold World.InUse
    rw [hloop]
    exact huse
  · rw [hpoll] at hp
    obtain ⟨hin, hd, reg, hreg, hptr⟩ := h.slot r place p hp
    have hmap := hepoll (w.fdAt l r place)
    rw [hreg] at hmap
    obtain ⟨reg', hreg', hptr'⟩ := Option.map_eq_some_iff.mp hmap
    rw [hfd, hitems, hused]
    exact ⟨hin, hd, reg', hreg', hptr'.trans hptr⟩
  · rw [hused] at hp
    obtain ⟨r, place, hslot⟩ := h.item p hp
    exact ⟨r, place, (hpoll r place).trans hslot⟩
  · have hmap := hepoll fd
    rw [hreg] at hmap
    obtain ⟨reg', hreg', hptr'⟩ := Option.map_eq_some_iff.mp hmap.symm
    obtain ⟨r, place, hslot, hat⟩ := h.entry fd reg' hreg'
    exact ⟨r, place, (hpoll r place).trans (hslot.trans (by rw [hptr'])), (hfd r place).trans hat⟩

section
variable {w w' : World} {l r : Nat} {fd : Int} {events p : Nat}

/-- The descriptors are held as before when a registration is replaced. -/
theorem Booked.rewatch {pollDatas : BlockStorage PollData} {d : ExecutorData} {n : Int}
    {k : Kernel} (h : Booked w) (hloop : LoopBooked (w.rewatch l r pollDatas d n k) l)
    (hfd : ∀ place, d.fdAt place = w.fdAt l r place) (htable : k.table = w.kernel.table)
    (hother : ∀ l', l' ≠ l → k.epoll l' = w.kernel.epoll l')
    (hregistered : ∀ fd, k.epoll l fd ≠ none → w.kernel.openId? fd ≠ none) :
    Booked (w.rewatch l r pollDatas d n k) := by
  have hopen : ∀ fd, k.openId? fd = w.kernel.openId? fd := by
    intro fd
    unfold Kernel.openId?
    rw [htable]
  have hfdAt : ∀ l' r' place, (w.rewatch l r pollDatas d n k).fdAt l' r' place =
      w.fdAt l' r' place := by
    intro l' r' place
    rw [World.rewatch_fdAt]
    split
    · rename_i heq
      rw [heq.1, heq.2]
      exact hfd place
    · rfl
  refine ⟨fun l' => ?_, fun l' r' place => ?_, fun l' r' place l'' r'' place' => ?_,
    fun l' r' place => ?_, fun fd' hneg => ?_, fun l' fd' hreg => ?_⟩
  · by_cases hl : l' = l
    · rw [hl]
      exact hloop
    · refine (h.loops l').other (World.rewatch_other _ _ _ _ _ _ _ hl) (fun fd' => ?_)
      rw [World.rewatch_kernel, hother l' hl]
  · rw [hfdAt, World.rewatch_kernel, hopen]
    exact h.held l' r' place
  · rw [hfdAt, hfdAt]
    exact h.apart l' r' place l'' r'' place'
  · rw [hfdAt]
    exact h.value l' r' place
  · rw [World.rewatch_kernel, htable]
    exact h.never fd' hneg
  · rw [World.rewatch_kernel] at hreg ⊢
    rw [hopen]
    by_cases hl : l' = l
    · rw [hl] at hreg
      exact hregistered fd' hreg
    · rw [hother l' hl] at hreg
      exact h.registered l' fd' hreg

theorem setRegistration_epoll (k : Kernel) (reg : Option Registration) (fd' : Int) :
    (k.setRegistration l fd reg).epoll l fd' = if fd' = fd then reg else k.epoll l fd' := by
  split
  · rename_i heq
    rw [heq, Kernel.setRegistration_self]
  · rename_i hne
    exact Kernel.setRegistration_other _ (fun heq => hne heq.2)

theorem setRegistration_epoll_other (k : Kernel) (reg : Option Registration) {l' : Nat}
    (h : l' ≠ l) : (k.setRegistration l fd reg).epoll l' = k.epoll l' := by
  funext fd'
  exact Kernel.setRegistration_other _ (fun heq => h heq.1)

theorem one_le_size : 1 ≤ blockSize := by decide

theorem Booked.refused (h : Booked w) (hr : Refused w l r w') : Booked w' := by
  obtain ⟨p, pollDatas, halloc, rfl⟩ := hr
  have hl := h.loops l
  have hslot := hl.polls.allocate one_le_size halloc
  have hfree := hslot.sound.free ((hslot.used p).mpr (Or.inl rfl))
  have hused : ∀ q, q ∈ (pollDatas.free p).usedItems blockSize ↔ q ∈ w.usedPolls l := by
    intro q
    rw [hfree.used, hslot.used]
    constructor
    · rintro ⟨heq | hq, hne⟩
      · exact absurd heq hne
      · exact hq
    · exact fun hq => ⟨Or.inr hq, fun heq => hslot.unused (heq ▸ hq)⟩
  have hperm : ((pollDatas.free p).usedItems blockSize).Perm (w.usedPolls l) :=
    (List.perm_ext_iff_of_nodup (usedItems_nodup hfree.sound) (usedItems_nodup hl.polls)).mpr hused
  have hfields : ∀ q ∈ w.usedPolls l,
      ((pollDatas.free p).items q).fields = w.pollData l q := by
    intro q hq
    rw [hfree.fields]
    exact hslot.fields q (hl.polls.mem_allItems.mpr (Or.inl hq))
  have hfdAt : ∀ r' place, (w.rewatch l r (pollDatas.free p) (w.data l r)
      (w.loops l).numOfPollFds w.kernel).fdAt l r' place = w.fdAt l r' place := by
    intro r' place
    rw [World.rewatch_fdAt]
    split
    · rename_i heq
      rw [heq.2]
      rfl
    · rfl
  have hpoll : ∀ r' place, (w.rewatch l r (pollDatas.free p) (w.data l r)
      (w.loops l).numOfPollFds w.kernel).pollDataAt l r' place = w.pollDataAt l r' place := by
    intro r' place
    rw [World.rewatch_pollDataAt]
    split
    · rename_i heq
      rw [heq.2]
      rfl
    · rfl
  refine h.rewatch ⟨by rw [World.rewatch_self]; exact hfree.sound,
    by rw [World.rewatch_self]; exact (hl.execs.assign r _).1, fun r' hr' place => ?_,
    fun r' place q hq => ?_, fun q hq => ?_, fun fd reg hreg => ?_, fun r' => ?_, fun hlive => ?_,
    fun hlive q hq => ?_⟩ (fun _ => rfl) rfl (fun _ _ => rfl) (h.registered l)
  · rw [hfdAt, hpoll]
    exact hl.idle r' (fun huse => hr' ((World.rewatch_inUse _ _ _ _ _ _ _ hl.execs _ _).mpr huse))
      place
  · rw [hpoll] at hq
    obtain ⟨hin, hd, hreg⟩ := hl.slot r' place q hq
    rw [hfdAt, World.rewatch_usedPolls, World.rewatch_pollData, World.rewatch_kernel,
      hfields q hin]
    exact ⟨(hused q).mpr hin, hd, hreg⟩
  · rw [World.rewatch_usedPolls] at hq
    obtain ⟨r', place, hslot'⟩ := hl.item q ((hused q).mp hq)
    exact ⟨r', place, (hpoll r' place).trans hslot'⟩
  · obtain ⟨r', place, hslot', hat⟩ := hl.entry fd reg hreg
    exact ⟨r', place, (hpoll r' place).trans hslot', (hfdAt r' place).trans hat⟩
  · by_cases heq : r' = r
    · rw [heq, World.rewatch_data_self]
      exact hl.alone r
    · rw [World.rewatch_data_other _ _ _ _ _ _ _ (fun hboth => heq hboth.2)]
      exact hl.alone r'
  · rw [World.rewatch_usedPolls, hperm.length_eq, World.rewatch_self]
    rw [World.rewatch_self] at hlive
    exact hl.count hlive
  · rw [World.rewatch_usedPolls] at hq
    rw [World.rewatch_self] at hlive
    have hnot : q ∉ w.usedPolls l := fun hin => hq ((hused q).mpr hin)
    rw [World.rewatch_pollData, hfree.fields]
    rcases hslot.fresh q with heq | ⟨_, heq⟩
    · rw [heq]
      exact hl.free hlive q hnot
    · rw [heq]
      rfl

theorem Booked.added (h : Booked w) (huse : w.InUse l r) (ha : Added w l r fd events p w') :
    Booked w' := by
  obtain ⟨place, hat, hnone, hplace, hd⟩ := ha.place
  obtain ⟨_, pollDatas, k, halloc, hk, rfl⟩ := ha
  have hl := h.loops l
  obtain ⟨hopen, hunregistered, hset⟩ := Kernel.ctlAdd_some hk
  have hslot := hl.polls.allocate one_le_size halloc
  have hassign := hslot.sound.assign p ({ fd := fd, execData := some r } : PollData)
  have hused : ∀ q, q ∈ (pollDatas.assign p { fd := fd, execData := some r }).usedItems
      blockSize ↔ q = p ∨ q ∈ w.usedPolls l := by
    intro q
    rw [hassign.2.1]
    exact hslot.used q
  have hepoll : ∀ fd', k.epoll l fd' = if fd' = fd then
      some { ptr := p, events := watched events, serial := w.kernel.nextSerial }
      else w.kernel.epoll l fd' := by
    intro fd'
    rw [hset]
    exact setRegistration_epoll w.kernel _ fd'
  have hfields : ∀ q, q ≠ p →
      ((pollDatas.assign p { fd := fd, execData := some r }).items q).fields =
        (pollDatas.items q).fields := by
    intro q hq
    simp [BlockStorage.assign, Function.update_of_ne hq]
  -- A place that was watched before is another one, with another item and another descriptor.
  have hold : ∀ r' place' q, w.pollDataAt l r' place' = some q →
      ¬ (r' = r ∧ place' = place) ∧ q ≠ p ∧ w.fdAt l r' place' ≠ fd := by
    intro r' place' q hq
    obtain ⟨hin, _, reg, hreg, _⟩ := hl.slot r' place' q hq
    refine ⟨?_, fun heq => hslot.unused (heq ▸ hin), fun heq => ?_⟩
    · rintro ⟨rfl, rfl⟩
      rw [hnone] at hq
      cases hq
    · rw [heq, hunregistered] at hreg
      cases hreg
  have hpoll : ∀ r' place', (w.rewatch l r (pollDatas.assign p { fd := fd, execData := some r })
      ((w.data l r).setPollDataOf fd p) ((w.loops l).numOfPollFds + 1) k).pollDataAt l r' place' =
        if r' = r ∧ place' = place then some p else w.pollDataAt l r' place' := by
    intro r' place'
    rw [World.rewatch_pollDataAt]
    by_cases hr : r' = r
    · rw [if_pos ⟨rfl, hr⟩, (hd place').2, hr]
      simp
    · rw [if_neg (fun hboth => hr hboth.2), if_neg (fun hboth => hr hboth.1)]
  have hfdAt : ∀ r' place', (w.rewatch l r (pollDatas.assign p { fd := fd, execData := some r })
      ((w.data l r).setPollDataOf fd p) ((w.loops l).numOfPollFds + 1) k).fdAt l r' place' =
        w.fdAt l r' place' := by
    intro r' place'
    rw [World.rewatch_fdAt]
    split
    · rename_i heq
      rw [(hd place').1, heq.2]
    · rfl
  refine h.rewatch ⟨by rw [World.rewatch_self]; exact hassign.1,
    by rw [World.rewatch_self]; exact (hl.execs.assign r _).1, fun r' hr' place' => ?_,
    fun r' place' q hq => ?_, fun q hq => ?_, fun fd' reg hreg => ?_, fun r' => ?_,
    fun hlive => ?_, fun hlive q hq => ?_⟩ (fun place' => (hd place').1) (by rw [hset]; rfl)
    (fun l' hl' => by rw [hset]; exact setRegistration_epoll_other _ _ hl') (fun fd' hreg => ?_)
  · have hidle : ¬ w.InUse l r' := fun huse' =>
      hr' ((World.rewatch_inUse _ _ _ _ _ _ _ hl.execs _ _).mpr huse')
    have hne : r' ≠ r := fun heq => hidle (heq ▸ huse)
    rw [hfdAt, hpoll, if_neg (fun hboth => hne hboth.1)]
    exact hl.idle r' hidle place'
  · rw [hpoll] at hq
    rw [hfdAt, World.rewatch_usedPolls, World.rewatch_pollData, World.rewatch_kernel, hepoll]
    split at hq
    · rename_i heq
      obtain rfl := Option.some.inj hq
      rw [heq.1, heq.2, hat, if_pos rfl]
      exact ⟨(hused p).mpr (Or.inl rfl), by simp [BlockStorage.assign], _, rfl, rfl⟩
    · obtain ⟨_, hqp, hfd⟩ := hold r' place' q hq
      obtain ⟨hin, hdq, hreg⟩ := hl.slot r' place' q hq
      rw [if_neg hfd, hfields q hqp, hslot.fields q (hl.polls.mem_allItems.mpr (Or.inl hin))]
      exact ⟨(hused q).mpr (Or.inr hin), hdq, hreg⟩
  · rw [World.rewatch_usedPolls] at hq
    rcases (hused q).mp hq with rfl | hin
    · exact ⟨r, place, by rw [hpoll, if_pos ⟨rfl, rfl⟩]⟩
    · obtain ⟨r', place', hslot'⟩ := hl.item q hin
      exact ⟨r', place', by rw [hpoll, if_neg (hold r' place' q hslot').1]; exact hslot'⟩
  · rw [World.rewatch_kernel, hepoll] at hreg
    split at hreg
    · rename_i heq
      obtain rfl := Option.some.inj hreg
      exact ⟨r, place, by rw [hpoll, if_pos ⟨rfl, rfl⟩], by rw [hfdAt, hat, heq]⟩
    · obtain ⟨r', place', hslot', hat'⟩ := hl.entry fd' reg hreg
      exact ⟨r', place', by rw [hpoll, if_neg (hold r' place' _ hslot').1]; exact hslot',
        by rw [hfdAt]; exact hat'⟩
  · by_cases heq : r' = r
    · rw [heq, World.rewatch_data_self]
      unfold ExecutorData.Requester
      rw [setPollDataOf_pExecutor]
      intro hreq
      -- A requester has no second descriptor to watch.
      have halone := hl.alone r hreq
      have hplace0 : place = .fd0 := by
        rcases hplace with h0 | h1
        · exact h0
        · have hfd1 : w.fdAt l r place = -1 := by
            rw [h1]
            exact halone.1
          have hpos := h.positive hopen
          omega
      refine ⟨((hd .fd1).1).trans halone.1, ((hd .fd1).2).trans ?_⟩
      rw [hplace0, if_neg (by decide)]
      exact halone.2
    · rw [World.rewatch_data_other _ _ _ _ _ _ _ (fun hboth => heq hboth.2)]
      exact hl.alone r'
  · have hnodup : (p :: w.usedPolls l).Nodup :=
      List.nodup_cons.mpr ⟨hslot.unused, usedItems_nodup hl.polls⟩
    have hperm := (List.perm_ext_iff_of_nodup (usedItems_nodup hassign.1) hnodup).mpr
      (fun q => (hused q).trans List.mem_cons.symm)
    rw [World.rewatch_usedPolls, hperm.length_eq, World.rewatch_self, List.length_cons]
    rw [World.rewatch_self] at hlive
    have hcount := hl.count hlive
    dsimp only
    omega
  · rw [World.rewatch_usedPolls] at hq
    rw [World.rewatch_self] at hlive
    have hne : q ≠ p := fun heq => hq ((hused q).mpr (Or.inl heq))
    have hnot : q ∉ w.usedPolls l := fun hin => hq ((hused q).mpr (Or.inr hin))
    rw [World.rewatch_pollData, hfields q hne]
    rcases hslot.fresh q with heq | ⟨_, heq⟩
    · rw [heq]
      exact hl.free hlive q hnot
    · rw [heq]
      rfl
  · rw [hepoll] at hreg
    split at hreg
    · rename_i heq
      rw [heq]
      exact hopen
    · exact h.registered l fd' hreg

theorem Booked.removed (h : Booked w) (hr : Removed w l r fd p w') : Booked w' := by
  obtain ⟨place, hat, hslot, hd⟩ := h.removed_place hr.ptr
  obtain ⟨_, k, hk, rfl⟩ := hr
  have hl := h.loops l
  obtain ⟨_, _, hset⟩ := Kernel.ctlDel_some hk
  have hin : p ∈ w.usedPolls l := (hl.slot r place p hslot).1
  have hassign := hl.polls.assign p (w.pollData l p).down
  have hfree := hassign.1.free (p := p) (by rw [hassign.2.1]; exact hin)
  have hused : ∀ q, q ∈ (((w.loops l).pollDatas.assign p (w.pollData l p).down).free
      p).usedItems blockSize ↔ q ∈ w.usedPolls l ∧ q ≠ p := by
    intro q
    rw [hfree.used, hassign.2.1]
    exact Iff.rfl
  have hepoll : ∀ fd', k.epoll l fd' = if fd' = fd then none else w.kernel.epoll l fd' := by
    intro fd'
    rw [hset]
    exact setRegistration_epoll w.kernel _ fd'
  have hfields : ∀ q, q ≠ p → ((((w.loops l).pollDatas.assign p (w.pollData l p).down).free
      p).items q).fields = w.pollData l q := by
    intro q hq
    rw [hfree.fields]
    simp [BlockStorage.assign, Function.update_of_ne hq, World.pollData]
  -- Another place that is watched has another item and another descriptor.
  have hold : ∀ r' place' q, w.pollDataAt l r' place' = some q →
      ¬ (r' = r ∧ place' = place) → q ≠ p ∧ w.fdAt l r' place' ≠ fd := by
    intro r' place' q hq hne
    refine ⟨fun heq => hne ?_, fun heq => hne ?_⟩
    · rw [heq] at hq
      exact h.slot_unique hq hslot
    · exact (h.apart l r' place' l r place (h.watched_positive hq) (heq.trans hat.symm)).2
  have hpoll : ∀ r' place', (w.rewatch l r
      (((w.loops l).pollDatas.assign p (w.pollData l p).down).free p)
      ((w.data l r).dropPollData p) ((w.loops l).numOfPollFds - 1) k).pollDataAt l r' place' =
        if r' = r ∧ place' = place then none else w.pollDataAt l r' place' := by
    intro r' place'
    rw [World.rewatch_pollDataAt]
    by_cases hr : r' = r
    · rw [if_pos ⟨rfl, hr⟩, (hd place').2, hr]
      simp
    · rw [if_neg (fun hboth => hr hboth.2), if_neg (fun hboth => hr hboth.1)]
  have hfdAt : ∀ r' place', (w.rewatch l r
      (((w.loops l).pollDatas.assign p (w.pollData l p).down).free p)
      ((w.data l r).dropPollData p) ((w.loops l).numOfPollFds - 1) k).fdAt l r' place' =
        w.fdAt l r' place' := by
    intro r' place'
    rw [World.rewatch_fdAt]
    split
    · rename_i heq
      rw [(hd place').1, heq.2]
    · rfl
  refine h.rewatch ⟨by rw [World.rewatch_self]; exact hfree.sound,
    by rw [World.rewatch_self]; exact (hl.execs.assign r _).1, fun r' hr' place' => ?_,
    fun r' place' q hq => ?_, fun q hq => ?_, fun fd' reg hreg => ?_, fun r' => ?_,
    fun hlive => ?_, fun hlive q hq => ?_⟩ (fun place' => (hd place').1) (by rw [hset]; rfl)
    (fun l' hl' => by rw [hset]; exact setRegistration_epoll_other _ _ hl') (fun fd' hreg => ?_)
  · have hidle : ¬ w.InUse l r' := fun huse' =>
      hr' ((World.rewatch_inUse _ _ _ _ _ _ _ hl.execs _ _).mpr huse')
    rw [hfdAt, hpoll]
    refine ⟨(hl.idle r' hidle place').1, ?_⟩
    split
    · rfl
    · exact (hl.idle r' hidle place').2
  · rw [hpoll] at hq
    split at hq
    · cases hq
    · rename_i hne
      obtain ⟨hqp, hfd⟩ := hold r' place' q hq hne
      obtain ⟨hqin, hdq, hreg⟩ := hl.slot r' place' q hq
      rw [hfdAt, World.rewatch_usedPolls, World.rewatch_pollData, World.rewatch_kernel, hepoll,
        if_neg hfd, hfields q hqp]
      exact ⟨(hused q).mpr ⟨hqin, hqp⟩, hdq, hreg⟩
  · rw [World.rewatch_usedPolls] at hq
    obtain ⟨hqin, hqp⟩ := (hused q).mp hq
    obtain ⟨r', place', hslot'⟩ := hl.item q hqin
    have hne : ¬ (r' = r ∧ place' = place) := by
      rintro ⟨rfl, rfl⟩
      exact hqp (Option.some.inj (hslot'.symm.trans hslot))
    exact ⟨r', place', by rw [hpoll, if_neg hne]; exact hslot'⟩
  · rw [World.rewatch_kernel, hepoll] at hreg
    split at hreg
    · cases hreg
    · rename_i hfd
      obtain ⟨r', place', hslot', hat'⟩ := hl.entry fd' reg hreg
      have hne : ¬ (r' = r ∧ place' = place) := by
        rintro ⟨rfl, rfl⟩
        exact hfd (hat'.symm.trans hat)
      exact ⟨r', place', by rw [hpoll, if_neg hne]; exact hslot', by rw [hfdAt]; exact hat'⟩
  · by_cases heq : r' = r
    · rw [heq, World.rewatch_data_self]
      unfold ExecutorData.Requester
      rw [dropPollData_pExecutor]
      intro hreq
      have halone := hl.alone r hreq
      refine ⟨((hd .fd1).1).trans halone.1, ((hd .fd1).2).trans ?_⟩
      split
      · rfl
      · exact halone.2
    · rw [World.rewatch_data_other _ _ _ _ _ _ _ (fun hboth => heq hboth.2)]
      exact hl.alone r'
  · have hnodup : (p :: (((w.loops l).pollDatas.assign p (w.pollData l p).down).free
        p).usedItems blockSize).Nodup :=
      List.nodup_cons.mpr ⟨fun hp => ((hused p).mp hp).2 rfl, usedItems_nodup hfree.sound⟩
    have hperm := (List.perm_ext_iff_of_nodup (usedItems_nodup hl.polls) hnodup).mpr (fun q => by
      rw [List.mem_cons, hused]
      by_cases hqp : q = p
      · simp only [hqp, true_or, iff_true]
        exact hin
      · simp [hqp, World.usedPolls])
    rw [World.rewatch_usedPolls, World.rewatch_self]
    rw [World.rewatch_self] at hlive
    have hcount := hl.count hlive
    have hlength : (w.usedPolls l).length = _ := hperm.length_eq
    rw [List.length_cons] at hlength
    dsimp only
    omega
  · rw [World.rewatch_usedPolls] at hq
    rw [World.rewatch_self] at hlive
    by_cases hqp : q = p
    · rw [World.rewatch_pollData, hfree.fields, hqp]
      simp [BlockStorage.assign, PollData.down]
    · rw [World.rewatch_pollData, hfields q hqp]
      exact hl.free hlive q (fun hqin => hq ((hused q).mpr ⟨hqin, hqp⟩))
  · rw [hepoll] at hreg
    split at hreg
    · exact absurd rfl hreg
    · exact h.registered l fd' hreg

end

/-! ## Descriptors -/

section
variable {w : World} {l r : Nat} {place : Place} {fd : Int}

theorem Kernel.opened_table (k : Kernel) (accepted : Bool) (fd' : Int) :
    (k.opened fd accepted).table fd' = if fd' = fd then .opened k.nextId else k.table fd' := by
  unfold Kernel.opened
  dsimp only
  by_cases heq : fd' = fd
  · rw [if_pos heq, heq, Function.update_self]
  · rw [if_neg heq, Function.update_of_ne heq]

theorem Kernel.opened_open (k : Kernel) (accepted : Bool) (fd' : Int)
    (h : k.openId? fd' ≠ none) : (k.opened fd accepted).openId? fd' ≠ none := by
  by_cases heq : fd' = fd
  · rw [heq, Kernel.openId?_opened_self]
    exact fun hnone => nomatch hnone
  · rw [Kernel.openId?_opened_of_ne heq]
    exact h

theorem Kernel.close_never {k : Kernel} (h : k.table fd = .never) : k.close fd = k := by
  unfold Kernel.close
  split
  · rfl
  · rename_i hslot
    rw [h] at hslot
    cases hslot
  · rename_i hslot
    rw [h] at hslot
    cases hslot

theorem Kernel.close_table_of_ne (k : Kernel) {fd' : Int} (h : fd' ≠ fd) :
    (k.close fd).table fd' = k.table fd' := by
  unfold Kernel.close
  split
  · rfl
  · rfl
  · exact Function.update_of_ne h ..

/-- A new descriptor that nobody holds yet. -/
theorem Booked.openedKernel {accepted : Bool} (h : Booked w) (havail : w.kernel.Available fd) :
    Booked (w.setKernel (w.kernel.opened fd accepted)) := by
  refine h.setKernel (fun fd' hfd' => Kernel.opened_open _ _ _ hfd') (fun fd' hneg hnever => ?_)
    (fun l fd' => rfl)
  have hpos := havail.1
  have hne : fd' ≠ fd := by omega
  rw [Kernel.opened_table, if_neg hne]
  exact hnever

/-- A descriptor that nobody holds is closed. -/
theorem Booked.closedKernel (h : Booked w) (hun : w.Unheld fd) :
    Booked (w.setKernel (w.kernel.close fd)) := by
  have hepoll : (w.kernel.close fd).epoll = w.kernel.epoll := by
    funext l fd'
    by_cases heq : fd' = fd
    · rw [heq, h.unregistered hun l]
      by_cases hopen : w.kernel.openId? fd = none
      · rw [(Kernel.close_refused hopen).2.2.2.1]
        exact h.unregistered hun l
      · exact Kernel.epoll_close_self hopen
    · exact Kernel.epoll_close_of_ne heq
  have hopen : ∀ fd', fd' ≠ fd → (w.kernel.close fd).openId? fd' = w.kernel.openId? fd' :=
    fun fd' hne => Kernel.openId?_close_of_ne hne
  refine ⟨fun l => ?_, fun l r place hpos => ?_, h.apart, h.value, fun fd' hneg => ?_,
    fun l fd' hreg => ?_⟩
  · exact (h.loops l).other rfl (fun fd' => by rw [World.setKernel_kernel, hepoll])
  · show (w.kernel.close fd).openId? (w.fdAt l r place) ≠ none
    rw [hopen _ (hun l r place)]
    exact h.held l r place hpos
  · rw [World.setKernel_kernel]
    by_cases heq : fd' = fd
    · have hnever := h.never fd (heq ▸ hneg)
      rw [heq, Kernel.close_never hnever]
      exact hnever
    · rw [Kernel.close_table_of_ne _ heq]
      exact h.never fd' hneg
  · rw [World.setKernel_kernel, hepoll] at hreg
    have hne : fd' ≠ fd := by
      intro heq
      rw [heq] at hreg
      exact hreg (h.unregistered hun l)
    rw [World.setKernel_kernel, hopen fd' hne]
    exact h.registered l fd' hreg

/-- The data holds another descriptor at a place that is not watched. -/
theorem Booked.replace (h : Booked w) (place : Place) (fd : Int)
    (huse : w.InUse l r ∨ fd = -1)
    (hpoll : w.pollDataAt l r place = none)
    (hfd : fd = -1 ∨ (w.kernel.openId? fd ≠ none ∧ w.Unheld fd))
    (halone : (w.data l r).Requester → place = .fd1 → fd = -1) :
    Booked (w.setData l r ((w.data l r).withFd place fd)) := by
  have hexecs : ∀ l, (w.loops l).execDatas.Sound blockSize := fun l => (h.loops l).execs
  have hpollAt : ∀ l' r' place', (w.setData l r ((w.data l r).withFd place fd)).pollDataAt
      l' r' place' = w.pollDataAt l' r' place' := by
    intro l' r' place'
    rw [World.setData_pollDataAt]
    split
    · rename_i heq
      rw [heq.1, heq.2, ExecutorData.withFd_pollDataAt]
      rfl
    · rfl
  have hfdSelf : (w.setData l r ((w.data l r).withFd place fd)).fdAt l r place = fd := by
    rw [World.setData_fdAt, if_pos ⟨rfl, rfl⟩, ExecutorData.withFd_fdAt_self]
  have hfdOther : ∀ l' r' place', ¬ (l' = l ∧ r' = r ∧ place' = place) →
      (w.setData l r ((w.data l r).withFd place fd)).fdAt l' r' place' = w.fdAt l' r' place' := by
    intro l' r' place' hne
    rw [World.setData_fdAt]
    split
    · rename_i heq
      have hplace : place' ≠ place := fun hp => hne ⟨heq.1, heq.2, hp⟩
      rw [heq.1, heq.2, ExecutorData.withFd_fdAt_of_ne _ _ _ hplace]
      rfl
    · rfl
  have hwatched : ∀ l' r' place' p, w.pollDataAt l' r' place' = some p →
      ¬ (l' = l ∧ r' = r ∧ place' = place) := by
    rintro l' r' place' p hp ⟨rfl, rfl, rfl⟩
    rw [hpoll] at hp
    cases hp
  refine ⟨fun l' => ?_, fun l' r' place' hpos => ?_, fun l' r' place' l'' r'' place'' hpos heq => ?_,
    fun l' r' place' => ?_, h.never, h.registered⟩
  · have hl := h.loops l'
    refine ⟨by rw [World.setData_loops]; exact hl.polls, sound_setData hexecs l',
      fun r' hr' place' => ?_, fun r' place' p hp => ?_, fun p hp => ?_, fun fd' reg hreg => ?_,
      fun r' => ?_, fun hlive => ?_, fun hlive p hp => ?_⟩
    · have hidle : ¬ w.InUse l' r' := fun huse' => hr' ((inUse_setData hexecs l' r').mpr huse')
      rw [hpollAt]
      refine ⟨?_, (hl.idle r' hidle place').2⟩
      by_cases hself : l' = l ∧ r' = r ∧ place' = place
      · obtain ⟨rfl, rfl, rfl⟩ := hself
        rw [hfdSelf]
        exact huse.resolve_left hidle
      · rw [hfdOther l' r' place' hself]
        exact (hl.idle r' hidle place').1
    · rw [hpollAt] at hp
      rw [hfdOther l' r' place' (hwatched l' r' place' p hp), World.setData_usedPolls,
        World.setData_pollData]
      exact hl.slot r' place' p hp
    · rw [World.setData_usedPolls] at hp
      obtain ⟨r', place', hslot⟩ := hl.item p hp
      exact ⟨r', place', (hpollAt l' r' place').trans hslot⟩
    · obtain ⟨r', place', hslot, hat⟩ := hl.entry fd' reg hreg
      refine ⟨r', place', (hpollAt l' r' place').trans hslot, ?_⟩
      rw [hfdOther l' r' place' (hwatched l' r' place' _ hslot)]
      exact hat
    · by_cases heq : l' = l ∧ r' = r
      · rw [heq.1, heq.2, World.setData_self]
        unfold ExecutorData.Requester
        rw [ExecutorData.withFd_pExecutor]
        intro hreq
        have hold := (h.loops l).alone r hreq
        refine ⟨?_, ?_⟩
        · have hfd1 : ((w.data l r).withFd place fd).fdAt .fd1 = -1 := by
            by_cases hplace : place = .fd1
            · rw [hplace, ExecutorData.withFd_fdAt_self]
              exact halone hreq hplace
            · rw [ExecutorData.withFd_fdAt_of_ne _ _ _ (fun heq => hplace heq.symm)]
              exact hold.1
          exact hfd1
        · exact (ExecutorData.withFd_pollDataAt _ _ _ .fd1).trans hold.2
      · rw [World.setData_other _ _ heq]
        exact hl.alone r'
    · rw [World.setData_usedPolls, World.setData_loops]
      rw [World.setData_loops] at hlive
      exact hl.count hlive
    · rw [World.setData_usedPolls] at hp
      rw [World.setData_loops] at hlive
      rw [World.setData_pollData]
      exact hl.free hlive p hp
  · by_cases hself : l' = l ∧ r' = r ∧ place' = place
    · obtain ⟨rfl, rfl, rfl⟩ := hself
      rw [hfdSelf] at hpos ⊢
      rcases hfd with hneg | ⟨hopen, _⟩
      · omega
      · exact hopen
    · rw [hfdOther l' r' place' hself] at hpos ⊢
      exact h.held l' r' place' hpos
  · by_cases hself : l' = l ∧ r' = r ∧ place' = place
    · by_cases hself' : l'' = l ∧ r'' = r ∧ place'' = place
      · exact ⟨hself.1.trans hself'.1.symm, hself.2.1.trans hself'.2.1.symm,
          hself.2.2.trans hself'.2.2.symm⟩
      · obtain ⟨rfl, rfl, rfl⟩ := hself
        rw [hfdSelf] at hpos heq
        rw [hfdOther l'' r'' place'' hself'] at heq
        rcases hfd with hneg | ⟨_, hun⟩
        · omega
        · exact absurd heq.symm (hun l'' r'' place'')
    · by_cases hself' : l'' = l ∧ r'' = r ∧ place'' = place
      · obtain ⟨rfl, rfl, rfl⟩ := hself'
        rw [hfdSelf] at heq
        rw [hfdOther l' r' place' hself] at hpos heq
        rcases hfd with hneg | ⟨_, hun⟩
        · omega
        · exact absurd heq (hun l' r' place')
      · rw [hfdOther l' r' place' hself] at hpos heq
        rw [hfdOther l'' r'' place'' hself'] at heq
        exact h.apart l' r' place' l'' r'' place'' hpos heq
  · by_cases hself : l' = l ∧ r' = r ∧ place' = place
    · obtain ⟨rfl, rfl, rfl⟩ := hself
      rw [hfdSelf]
      rcases hfd with hneg | ⟨hopen, _⟩
      · exact Or.inl hneg
      · exact Or.inr (h.positive hopen)
    · rw [hfdOther l' r' place' hself]
      exact h.value l' r' place'

end

/-! ## Data of the executors -/

/-- The world in which the data `r` was handed out. -/
structure HandedOut (w : World) (l r : Nat) (w' : World) : Prop where
  world : ∃ execDatas, (w.loops l).execDatas.allocate blockSize = some (r, execDatas) ∧
    w' = w.setLoop l { w.loops l with
      execDatas := execDatas
      incarnation := Function.update (w.loops l).incarnation r ((w.loops l).incarnation r + 1) }

theorem allocateExecData_spec {w : World} {l : Nat} :
    Ensures (allocateExecData l) w (fun r w' => HandedOut w l r w') := by
  simp only [allocateExecData, ensures_bind, ensures_getLoop]
  cases ha : (w.loops l).execDatas.allocate blockSize with
  | none => simp
  | some handed =>
    obtain ⟨r, execDatas⟩ := handed
    simp only [ensures_bind, ensures_modifyLoop, ensures_pure]
    exact ⟨execDatas, ha, rfl⟩

section
variable {w w' : World} {l r : Nat}

/-- What is handed out was free, and every other data is what it was or new. -/
theorem HandedOut.spec (h : Booked w) (hh : HandedOut w l r w') : ¬ w.InUse l r ∧
    (∀ r', w'.InUse l r' ↔ r' = r ∨ w.InUse l r') ∧
    ∀ r', w'.data l r' = w.data l r' ∨ (¬ w.InUse l r' ∧ w'.data l r' = {}) := by
  obtain ⟨execDatas, halloc, rfl⟩ := hh
  have hslot := (h.loops l).execs.allocate one_le_size halloc
  refine ⟨hslot.unused, fun r' => ?_, fun r' => ?_⟩
  · unfold World.InUse
    rw [World.setLoop_self]
    exact hslot.used r'
  · unfold World.data
    rw [World.setLoop_self]
    rcases hslot.fresh r' with heq | ⟨hnew, heq⟩
    · exact Or.inl heq
    · exact Or.inr ⟨fun huse => hnew ((h.loops l).execs.mem_allItems.mpr (Or.inl huse)), heq⟩

/-- What was not in use may have been set up again. -/
theorem HandedOut.data (h : Booked w) (hh : HandedOut w l r w') (l' r' : Nat) :
    w'.data l' r' = w.data l' r' ∨ (¬ w.InUse l' r' ∧ w'.data l' r' = {}) := by
  by_cases hl : l' = l
  · rw [hl]
    exact (hh.spec h).2.2 r'
  · obtain ⟨_, _, rfl⟩ := hh
    unfold World.data
    rw [World.setLoop_other _ _ hl]
    exact Or.inl rfl

/-- Data that is not in use holds nothing, as new data does. -/
theorem Booked.idle_holding (h : Booked w) (hidle : ¬ w.InUse l r) :
    (w.data l r).SameHolding {} := by
  have hold := (h.loops l).idle r hidle
  have hfd : ∀ place, (w.data l r).fdAt place = -1 := fun place => (hold place).1
  have hpoll : ∀ place, (w.data l r).pollDataAt place = none := fun place => (hold place).2
  refine ⟨fun place => ?_, fun place => ?_⟩
  · rw [hfd place]
    cases place <;> rfl
  · rw [hpoll place]
    cases place <;> rfl

theorem Booked.handedOut (h : Booked w) (hh : HandedOut w l r w') : Booked w' := by
  have hdata := (hh.spec h).2.2
  obtain ⟨execDatas, halloc, rfl⟩ := hh
  have hslot := (h.loops l).execs.allocate one_le_size halloc
  have hself : ∀ r', (execDatas.items r').fields = w.data l r' ∨
      (¬ w.InUse l r' ∧ (execDatas.items r').fields = {}) := by
    intro r'
    have hr := hdata r'
    unfold World.data at hr
    rw [World.setLoop_self] at hr
    exact hr
  refine h.setExecDatas rfl hslot.sound (fun r' huse => Or.inl ((hslot.used r').mpr (Or.inr huse)))
    (fun r' => ?_) (fun r' => ?_) rfl id
  · rcases hself r' with heq | ⟨hidle, heq⟩
    · rw [heq]
      exact ExecutorData.SameHolding.refl _
    · rw [heq]
      exact h.idle_holding hidle
  · rcases hself r' with heq | ⟨_, heq⟩
    · rw [heq]
      exact (h.loops l).alone r'
    · rw [heq]
      exact fun _ => ⟨rfl, rfl⟩

/-- The data is handed back once it holds nothing. -/
theorem Booked.freed (h : Booked w) (huse : w.InUse l r)
    (hempty : ∀ place, w.fdAt l r place = -1 ∧ w.pollDataAt l r place = none) :
    Booked (w.setLoop l { w.loops l with execDatas := (w.loops l).execDatas.free r }) := by
  have hfree := (h.loops l).execs.free huse
  have hself : ∀ r', (((w.loops l).execDatas.free r).items r').fields = w.data l r' := hfree.fields
  refine h.setExecDatas rfl hfree.sound (fun r' huse' => ?_) (fun r' => ?_) (fun r' => ?_) rfl id
  · by_cases hr : r' = r
    · rw [hr]
      exact Or.inr hempty
    · exact Or.inl ((hfree.used r').mpr ⟨huse', hr⟩)
  · rw [hself]
    exact ExecutorData.SameHolding.refl _
  · rw [hself]
    exact (h.loops l).alone r'

end

/-! ## Effects -/

section
variable {w w' : World} {l r : Nat}

theorem Effect.sameLists (h : Effect l r w w') (hb : Booked w) : SameLists w w' := by
  have hexecs : ∀ l, (w.loops l).execDatas.Sound blockSize := fun l => (hb.loops l).execs
  have hnames : ∀ b, SameLists w (w.setLoop l { w.loops l with fileNameBuffer := b }) := by
    intro b
    constructor
    · intro l'
      by_cases hl : l' = l
      · rw [hl, World.setLoop_self]
      · rw [World.setLoop_other _ _ hl]
    · intro l'
      by_cases hl : l' = l
      · rw [hl, World.setLoop_self]
      · rw [World.setLoop_other _ _ hl]
  cases h with
  | bytes k h => exact .sameLoops rfl
  | data d hheld halone => exact setData_sameLists hexecs
  | cut => exact hnames _
  | named name hname => exact hnames _
  | added fd events p w' huse h =>
    obtain ⟨_, pollDatas, k, _, _, rfl⟩ := h
    exact World.rewatch_sameLists _ _ _ _ _ _ _ (hexecs l)
  | refused w' h =>
    obtain ⟨p, pollDatas, _, rfl⟩ := h
    exact World.rewatch_sameLists _ _ _ _ _ _ _ (hexecs l)
  | edited fd events p k hp hk => exact .sameLoops rfl
  | removed fd p w' h =>
    obtain ⟨_, k, _, rfl⟩ := h
    exact World.rewatch_sameLists _ _ _ _ _ _ _ (hexecs l)
  | tried sock h => exact .sameLoops rfl
  | opened place fd huse havail hpoll hfd halone =>
    have hkernel : SameLists w (w.setKernel (w.kernel.opened fd false)) := .sameLoops rfl
    exact hkernel.trans (setData_sameLists hexecs)
  | closed place hpoll =>
    have hkernel : SameLists w (w.setKernel (w.kernel.close (w.fdAt l r place))) := .sameLoops rfl
    exact hkernel.trans (setData_sameLists hexecs)

theorem Effect.inUse (h : Effect l r w w') (hb : Booked w) (l' r' : Nat) :
    w'.InUse l' r' ↔ w.InUse l' r' := (h.sameLists hb).inUse l' r'

theorem ctlMod_ptr {k k' : Kernel} {fd : Int} {p events : Nat} {reg : Registration}
    (hreg : k.epoll l fd = some reg) (hptr : reg.ptr = p)
    (hk : k.ctlMod l fd p events = some k') (l' : Nat) (fd' : Int) :
    (k'.epoll l' fd').map Registration.ptr = (k.epoll l' fd').map Registration.ptr := by
  obtain ⟨reg', hreg', hset⟩ := Kernel.ctlMod_some hk
  rw [hset]
  by_cases heq : l' = l ∧ fd' = fd
  · rw [heq.1, heq.2, Kernel.setRegistration_self, hreg]
    simp [hptr]
  · rw [Kernel.setRegistration_other _ heq]

/-- The executor that watches the descriptor edits its own registration. -/
theorem Booked.edited {fd : Int} {events p : Nat} {k : Kernel} (h : Booked w)
    (hp : (w.data l r).pollDataOf fd = some p)
    (hk : w.kernel.ctlMod l fd p events = some k) : Booked (w.setKernel k) := by
  obtain ⟨place, hat, hslot, _⟩ := h.removed_place hp
  obtain ⟨_, _, reg, hreg, hptr⟩ := (h.loops l).slot r place p hslot
  rw [hat] at hreg
  have hstreams := Kernel.SameStreams.ctlMod hk
  refine h.setKernel (fun fd' hfd' => by rw [hstreams.openId?]; exact hfd')
    (fun fd' _ hnever => by rw [hstreams.table]; exact hnever)
    (fun l' fd' => ctlMod_ptr hreg hptr hk l' fd')

/-- A socket that was opened and closed is not open, as before. -/
theorem Booked.tried {sock : Int} (h : Booked w) (havail : w.kernel.Available sock) :
    Booked (w.setKernel ((w.kernel.opened sock false).close sock)) := by
  have hun := h.unheld_of_closed havail.1 havail.2
  exact (h.openedKernel havail).closedKernel hun

theorem Effect.booked (h : Effect l r w w') (hb : Booked w) : Booked w' := by
  cases h with
  | bytes k h => exact hb.sameTables h
  | data d hheld halone =>
    refine hb.setData hheld (fun hreq => ?_)
    rcases halone with heq | halone
    · have hold : (w.data l r).Requester := by
        unfold ExecutorData.Requester at hreq ⊢
        rw [← heq]
        exact hreq
      have hwas := (hb.loops l).alone r hold
      exact ⟨(hheld.1 .fd1).trans hwas.1, (hheld.2 .fd1).trans hwas.2⟩
    · exact halone hreq
  | cut => exact hb.setLoop rfl rfl rfl id
  | named name hname => exact hb.setLoop rfl rfl rfl id
  | added fd events p w' huse h => exact hb.added huse h
  | refused w' h => exact hb.refused h
  | edited fd events p k hp hk => exact hb.edited hp hk
  | removed fd p w' h => exact hb.removed h
  | tried sock h => exact hb.tried h
  | opened place fd huse havail hpoll hfd halone =>
    have hun := hb.unheld_of_closed havail.1 havail.2
    have hopen : (w.kernel.opened fd false).openId? fd ≠ none := by
      rw [Kernel.openId?_opened_self]
      exact fun hnone => nomatch hnone
    exact (hb.openedKernel havail).replace place fd (Or.inl huse) hpoll (Or.inr ⟨hopen, hun⟩)
      (fun hreq hplace => absurd hreq (halone hplace))
  | closed place hpoll =>
    have hreplaced := hb.replace place (-1) (Or.inr rfl) hpoll (Or.inl rfl) (fun _ _ => rfl)
    rcases hb.value l r place with hneg | hpos
    · have hnever := hb.never (-1) (by decide)
      rw [hneg, Kernel.close_never hnever]
      exact hreplaced
    · refine hreplaced.closedKernel (fun l' r' place' heq => ?_)
      rw [World.setData_fdAt] at heq
      split at heq
      · rename_i hself
        by_cases hplace : place' = place
        · rw [hplace, ExecutorData.withFd_fdAt_self] at heq
          omega
        · rw [ExecutorData.withFd_fdAt_of_ne _ _ _ hplace] at heq
          have hsame := hb.apart l r place l r place' hpos heq.symm
          exact hplace hsame.2.2.symm
      · rename_i hother
        have hsame := hb.apart l r place l' r' place' hpos heq.symm
        exact hother ⟨hsame.1.symm, hsame.2.1.symm⟩

theorem Effects.kept (h : Effects l r w w') (hb : Booked w) : Booked w' ∧ SameLists w w' := by
  induction h with
  | refl => exact ⟨hb, .sameLoops rfl⟩
  | tail _ he ih => exact ⟨he.booked ih.1, ih.2.trans (he.sameLists ih.1)⟩

theorem Effects.booked (h : Effects l r w w') (hb : Booked w) :
    Booked w' ∧ ∀ l' r', w'.InUse l' r' ↔ w.InUse l' r' :=
  ⟨(h.kept hb).1, (h.kept hb).2.inUse⟩

end

end EpollHttp
