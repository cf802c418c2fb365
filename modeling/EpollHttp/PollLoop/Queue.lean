import EpollHttp.PollLoop.Creation

/-
Descriptors that nobody holds yet, and the queue they wait in.

A descriptor in the queue of a loop is open, held by no executor and in the queue once.  Whatever
the executors do, it stays so until the loop takes it.
-/

namespace EpollHttp

open Program

/-- The descriptor is open and nobody holds it. -/
def World.Loose (w : World) (fd : Int) (id : Nat) : Prop :=
  w.kernel.openId? fd = some id ∧ w.Unheld fd

section
variable {w w' : World} {l r : Nat} {fd : Int} {id : Nat}

theorem World.Loose.sameHolding {d : ExecutorData} (h : w.Loose fd id)
    (hheld : (w.data l r).SameHolding d) : (w.setData l r d).Loose fd id := by
  refine ⟨h.1, fun l' r' place => ?_⟩
  rw [World.setData_fdAt]
  split
  · rename_i heq
    rw [hheld.1 place]
    exact h.2 l r place
  · exact h.2 l' r' place

theorem World.Loose.sameKernel {k : Kernel} (h : w.Loose fd id)
    (hk : k.openId? fd = w.kernel.openId? fd) : (w.setKernel k).Loose fd id :=
  ⟨hk.trans h.1, h.2⟩

theorem World.Loose.setLoop {loop : PollLoop} (h : w.Loose fd id)
    (hexecs : loop.execDatas = (w.loops l).execDatas) : (w.setLoop l loop).Loose fd id := by
  refine ⟨h.1, fun l' r' place => ?_⟩
  unfold World.fdAt
  rw [World.setLoop_data _ _ (fun _ => by rw [hexecs])]
  exact h.2 l' r' place

theorem World.Loose.rewatch {pollDatas : BlockStorage PollData} {d : ExecutorData} {n : Int}
    {k : Kernel} (h : w.Loose fd id) (hfd : ∀ place, d.fdAt place = w.fdAt l r place)
    (hk : k.openId? fd = w.kernel.openId? fd) :
    (w.rewatch l r pollDatas d n k).Loose fd id := by
  refine ⟨hk.trans h.1, fun l' r' place => ?_⟩
  rw [World.rewatch_fdAt]
  split
  · rename_i heq
    rw [hfd]
    exact h.2 l r place
  · exact h.2 l' r' place

theorem Effect.loose (he : Effect l r w w') (hb : Booked w) (h : w.Loose fd id) :
    w'.Loose fd id := by
  have hne : ∀ fd', w.kernel.Available fd' → fd ≠ fd' := by
    intro fd' havail heq
    have hopen := h.1
    rw [heq, havail.2] at hopen
    cases hopen
  cases he with
  | bytes k hk => exact h.sameKernel (hk.openId? fd)
  | data d hheld halone => exact h.sameHolding hheld
  | cut => exact h.setLoop rfl
  | named name hname => exact h.setLoop rfl
  | added fd' events p w' huse ha =>
    obtain ⟨_, _, _, _, hd⟩ := ha.place
    obtain ⟨_, pollDatas, k, _, hk, rfl⟩ := ha
    exact h.rewatch (fun place => (hd place).1) ((Kernel.SameStreams.ctlAdd hk).openId? fd)
  | refused w' hr =>
    obtain ⟨p, pollDatas, _, rfl⟩ := hr
    exact h.rewatch (fun _ => rfl) rfl
  | edited fd' events p k hp hk => exact h.sameKernel ((Kernel.SameStreams.ctlMod hk).openId? fd)
  | removed fd' p w' hr =>
    obtain ⟨_, _, _, hd⟩ := hb.removed_place hr.ptr
    obtain ⟨_, k, hk, rfl⟩ := hr
    exact h.rewatch (fun place => (hd place).1) ((Kernel.SameStreams.ctlDel hk).openId? fd)
  | tried sock havail =>
    refine h.sameKernel ?_
    rw [Kernel.openId?_close_of_ne (hne sock havail),
      Kernel.openId?_opened_of_ne (hne sock havail)]
  | opened place fd' huse havail hpoll hfd halone =>
    refine ⟨(Kernel.openId?_opened_of_ne (hne fd' havail) _).trans h.1, fun l' r' place' => ?_⟩
    rw [World.setData_fdAt]
    split
    · by_cases hplace : place' = place
      · rw [hplace, ExecutorData.withFd_fdAt_self]
        exact fun heq => hne fd' havail heq.symm
      · rw [ExecutorData.withFd_fdAt_of_ne _ _ _ hplace]
        exact h.2 l r place'
    · exact h.2 l' r' place'
  | closed place hpoll =>
    refine ⟨(Kernel.openId?_close_of_ne (h.2 l r place).symm).trans h.1, fun l' r' place' => ?_⟩
    have hpos : 0 < fd := hb.positive (by rw [h.1]; exact fun hnone => nomatch hnone)
    rw [World.setData_fdAt]
    split
    · by_cases hplace : place' = place
      · rw [hplace, ExecutorData.withFd_fdAt_self]
        omega
      · rw [ExecutorData.withFd_fdAt_of_ne _ _ _ hplace]
        exact h.2 l r place'
    · exact h.2 l' r' place'

theorem Effects.loose (he : Effects l r w w') (hb : Booked w) (h : w.Loose fd id) :
    w'.Loose fd id := by
  induction he with
  | refl => exact h
  | tail hsteps he ih => exact he.loose (Effects.booked hsteps hb).1 ih

end

/-! ## What no executor touches -/

/-- The fields of the loops that are not for the executors, the parameters among them. -/
structure SameFrame (w w' : World) : Prop where
  parameters : w'.parameters = w.parameters
  newFdsQueue : ∀ l, (w'.loops l).newFdsQueue = (w.loops l).newFdsQueue
  phase : ∀ l, (w'.loops l).phase = (w.loops l).phase
  rootFolderLength : ∀ l, (w'.loops l).rootFolderLength = (w.loops l).rootFolderLength
  eventFd : ∀ l, (w'.loops l).eventFd = (w.loops l).eventFd
  epollFd : ∀ l, (w'.loops l).epollFd = (w.loops l).epollFd

namespace SameFrame

variable {w w' w'' : World} {l r : Nat}

theorem refl (w : World) : SameFrame w w :=
  ⟨rfl, fun _ => rfl, fun _ => rfl, fun _ => rfl, fun _ => rfl, fun _ => rfl⟩

theorem trans (h : SameFrame w w') (h' : SameFrame w' w'') : SameFrame w w'' :=
  ⟨h'.parameters.trans h.parameters, fun l => (h'.newFdsQueue l).trans (h.newFdsQueue l),
    fun l => (h'.phase l).trans (h.phase l),
    fun l => (h'.rootFolderLength l).trans (h.rootFolderLength l),
    fun l => (h'.eventFd l).trans (h.eventFd l), fun l => (h'.epollFd l).trans (h.epollFd l)⟩

theorem setKernel (w : World) (k : Kernel) : SameFrame w (w.setKernel k) :=
  ⟨rfl, fun _ => rfl, fun _ => rfl, fun _ => rfl, fun _ => rfl, fun _ => rfl⟩

/-- One loop was replaced by one with the same frame. -/
theorem ofLoop (hother : ∀ l', l' ≠ l → w'.loops l' = w.loops l')
    (hparameters : w'.parameters = w.parameters)
    (hqueue : (w'.loops l).newFdsQueue = (w.loops l).newFdsQueue)
    (hphase : (w'.loops l).phase = (w.loops l).phase)
    (hroot : (w'.loops l).rootFolderLength = (w.loops l).rootFolderLength)
    (hevent : (w'.loops l).eventFd = (w.loops l).eventFd)
    (hepoll : (w'.loops l).epollFd = (w.loops l).epollFd) : SameFrame w w' := by
  have hcases : ∀ {α : Type} (field : PollLoop → α), field (w'.loops l) = field (w.loops l) →
      ∀ l', field (w'.loops l') = field (w.loops l') := by
    intro α field hself l'
    by_cases hl : l' = l
    · rw [hl, hself]
    · rw [hother l' hl]
  exact ⟨hparameters, hcases _ hqueue, hcases _ hphase, hcases _ hroot, hcases _ hevent,
    hcases _ hepoll⟩

theorem setData (w : World) (d : ExecutorData) : SameFrame w (w.setData l r d) := by
  refine ofLoop (l := l) (fun l' hl => World.setLoop_other _ _ hl _) rfl ?_ ?_ ?_ ?_ ?_ <;>
    rw [World.setData_loops]

theorem rewatch (w : World) (pollDatas : BlockStorage PollData) (d : ExecutorData) (n : Int)
    (k : Kernel) : SameFrame w (w.rewatch l r pollDatas d n k) := by
  refine ofLoop (l := l) (fun l' hl => World.rewatch_other _ _ _ _ _ _ _ hl) rfl ?_ ?_ ?_ ?_ ?_ <;>
    rw [World.rewatch_self]

/-- A change of a loop in other fields. -/
theorem setLoop {loop : PollLoop} (hqueue : loop.newFdsQueue = (w.loops l).newFdsQueue)
    (hphase : loop.phase = (w.loops l).phase)
    (hroot : loop.rootFolderLength = (w.loops l).rootFolderLength)
    (hevent : loop.eventFd = (w.loops l).eventFd) (hepoll : loop.epollFd = (w.loops l).epollFd) :
    SameFrame w (w.setLoop l loop) := by
  refine ofLoop (l := l) (fun l' hl => World.setLoop_other _ _ hl _) rfl ?_ ?_ ?_ ?_ ?_ <;>
    rw [World.setLoop_self] <;> assumption

end SameFrame

section
variable {w w' : World} {l r : Nat}

theorem Effect.frame (he : Effect l r w w') : SameFrame w w' := by
  cases he with
  | bytes k hk => exact .setKernel w k
  | data d hheld halone => exact .setData w d
  | cut => exact .setLoop rfl rfl rfl rfl rfl
  | named name hname => exact .setLoop rfl rfl rfl rfl rfl
  | added fd' events p w' huse ha =>
    obtain ⟨_, pollDatas, k, _, _, rfl⟩ := ha
    exact .rewatch ..
  | refused w' hr =>
    obtain ⟨p, pollDatas, _, rfl⟩ := hr
    exact .rewatch ..
  | edited fd' events p k hp hk => exact .setKernel w k
  | removed fd' p w' hr =>
    obtain ⟨_, k, _, rfl⟩ := hr
    exact .rewatch ..
  | tried sock havail => exact .setKernel w _
  | opened place fd' huse havail hpoll hfd halone =>
    exact (SameFrame.setKernel w _).trans (.setData _ _)
  | closed place hpoll => exact (SameFrame.setKernel w _).trans (.setData _ _)

theorem Effects.frame (he : Effects l r w w') : SameFrame w w' := by
  induction he with
  | refl => exact .refl w
  | tail _ he ih => exact ih.trans he.frame

theorem HandedOut.frame (hh : HandedOut w l r w') : SameFrame w w' := by
  obtain ⟨_, _, rfl⟩ := hh
  exact .setLoop rfl rfl rfl rfl rfl

theorem Adopted.frame {fd : Int} {e : Executor} (ha : Adopted w l r fd e w') :
    SameFrame w w' := by
  obtain ⟨w1, _, hh, rfl⟩ := ha
  exact hh.frame.trans (.setData w1 _)

theorem TakenBack.frame (ht : TakenBack l r w w') : SameFrame w w' := by
  obtain ⟨_, w1, hdid, _, rfl⟩ := ht
  exact hdid.effects.frame.trans (.setLoop rfl rfl rfl rfl rfl)

theorem Created.frame {fd : Int} {e : Executor} {result : Int}
    (hc : Created w l fd e result w') : SameFrame w w' := by
  obtain ⟨_, r, w1, w2, ha, _, h2, hend⟩ := hc
  have hup : SameFrame w w2 := ha.frame.trans h2.effects.frame
  rcases hend with ⟨_, rfl⟩ | ⟨_, ht⟩
  · exact hup
  · exact hup.trans ht.frame

end

/-! ## The queues -/

structure QueueBooked (w : World) : Prop where
  loose : ∀ l, ∀ d ∈ (w.loops l).newFdsQueue, ∃ id, w.Loose d.fd id
  requests : ∀ l, ∀ d ∈ (w.loops l).newFdsQueue, d.execType.Requests
  nodup : ∀ l, ((w.loops l).newFdsQueue.map NewFdData.fd).Nodup
  apart : ∀ l l', l ≠ l' → ∀ d ∈ (w.loops l).newFdsQueue, ∀ d' ∈ (w.loops l').newFdsQueue,
    d.fd ≠ d'.fd

section
variable {w w' : World} {l r : Nat} {fd : Int} {id : Nat}

theorem QueueBooked.keep (hq : QueueBooked w)
    (hqueue : ∀ l, (w'.loops l).newFdsQueue = (w.loops l).newFdsQueue)
    (hloose : ∀ l, ∀ d ∈ (w.loops l).newFdsQueue, ∀ id, w.Loose d.fd id → w'.Loose d.fd id) :
    QueueBooked w' := by
  refine ⟨fun l d hd => ?_, fun l d hd => ?_, fun l => ?_, fun l l' hne d hd d' hd' => ?_⟩
  · rw [hqueue] at hd
    obtain ⟨id, hid⟩ := hq.loose l d hd
    exact ⟨id, hloose l d hd id hid⟩
  · rw [hqueue] at hd
    exact hq.requests l d hd
  · rw [hqueue]
    exact hq.nodup l
  · rw [hqueue] at hd hd'
    exact hq.apart l l' hne d hd d' hd'

/-- A descriptor that was in no queue is put into one. -/
theorem QueueBooked.push (hq : QueueBooked w) {execType : ExecutorType}
    (hloose : w.Loose fd id) (htype : execType.Requests)
    (hnew : ∀ l, ∀ d ∈ (w.loops l).newFdsQueue, d.fd ≠ fd) : QueueBooked (w.setLoop l { w.loops l with
      newFdsQueue := (w.loops l).newFdsQueue ++ [{ execType := execType, fd := fd }] }) := by
  have hmem : ∀ l', ∀ d ∈ ((w.setLoop l { w.loops l with newFdsQueue :=
      (w.loops l).newFdsQueue ++ [{ execType := execType, fd := fd }] }).loops l').newFdsQueue,
      d ∈ (w.loops l').newFdsQueue ∨ (l' = l ∧ d = { execType := execType, fd := fd }) := by
    intro l' d hd
    by_cases hl : l' = l
    · rw [hl, World.setLoop_self] at hd
      rw [hl]
      rcases List.mem_append.mp hd with hold | hone
      · exact Or.inl hold
      · exact Or.inr ⟨rfl, List.mem_singleton.mp hone⟩
    · rw [World.setLoop_other _ _ hl] at hd
      exact Or.inl hd
  refine ⟨fun l' d hd => ?_, fun l' d hd => ?_, fun l' => ?_, fun l' l'' hne d hd d' hd' => ?_⟩
  · rcases hmem l' d hd with hold | ⟨_, rfl⟩
    · obtain ⟨id', hid'⟩ := hq.loose l' d hold
      exact ⟨id', hid'.setLoop rfl⟩
    · exact ⟨id, hloose.setLoop rfl⟩
  · rcases hmem l' d hd with hold | ⟨_, rfl⟩
    · exact hq.requests l' d hold
    · exact htype
  · by_cases hl : l' = l
    · rw [hl, World.setLoop_self, List.map_append]
      refine List.nodup_append.mpr ⟨hq.nodup l, by simp, fun fd' hfd' fd'' hfd'' => ?_⟩
      obtain ⟨d, hd, rfl⟩ := List.mem_map.mp hfd'
      rw [List.map_singleton, List.mem_singleton] at hfd''
      rw [hfd'']
      exact hnew l d hd
    · rw [World.setLoop_other _ _ hl]
      exact hq.nodup l'
  · rcases hmem l' d hd with hold | ⟨hl, rfl⟩
    · rcases hmem l'' d' hd' with hold' | ⟨_, rfl⟩
      · exact hq.apart l' l'' hne d hold d' hold'
      · exact hnew l' d hold
    · rcases hmem l'' d' hd' with hold' | ⟨hl', rfl⟩
      · exact fun heq => hnew l'' d' hold' heq.symm
      · exact absurd (hl.trans hl'.symm) hne

/-- The first descriptor is taken out. -/
theorem QueueBooked.pop (hq : QueueBooked w) {d : NewFdData} {rest : List NewFdData}
    (hqueue : (w.loops l).newFdsQueue = d :: rest) :
    QueueBooked (w.setLoop l { w.loops l with newFdsQueue := rest }) ∧
      (∃ id, (w.setLoop l { w.loops l with newFdsQueue := rest }).Loose d.fd id) ∧
      d.execType.Requests ∧
      ∀ l', ∀ d' ∈ ((w.setLoop l { w.loops l with newFdsQueue := rest }).loops l').newFdsQueue,
        d'.fd ≠ d.fd := by
  have hfirst : d ∈ (w.loops l).newFdsQueue := by
    rw [hqueue]
    exact List.mem_cons_self
  have hmem : ∀ l', ∀ d' ∈ ((w.setLoop l { w.loops l with newFdsQueue := rest }).loops
      l').newFdsQueue, d' ∈ (w.loops l').newFdsQueue := by
    intro l' d' hd'
    by_cases hl : l' = l
    · rw [hl, World.setLoop_self] at hd'
      rw [hl, hqueue]
      exact List.mem_cons_of_mem _ hd'
    · rw [World.setLoop_other _ _ hl] at hd'
      exact hd'
  have hnodup := hq.nodup l
  rw [hqueue, List.map_cons, List.nodup_cons] at hnodup
  refine ⟨⟨fun l' d' hd' => ?_, fun l' d' hd' => hq.requests l' d' (hmem l' d' hd'),
    fun l' => ?_, fun l' l'' hne d' hd' d'' hd'' =>
      hq.apart l' l'' hne d' (hmem l' d' hd') d'' (hmem l'' d'' hd'')⟩, ?_,
    hq.requests l d hfirst, fun l' d' hd' => ?_⟩
  · obtain ⟨id, hid⟩ := hq.loose l' d' (hmem l' d' hd')
    exact ⟨id, hid.setLoop rfl⟩
  · by_cases hl : l' = l
    · rw [hl, World.setLoop_self]
      exact hnodup.2
    · rw [World.setLoop_other _ _ hl]
      exact hq.nodup l'
  · obtain ⟨id, hid⟩ := hq.loose l d hfirst
    exact ⟨id, hid.setLoop rfl⟩
  · by_cases hl : l' = l
    · rw [hl, World.setLoop_self] at hd'
      intro heq
      exact hnodup.1 (List.mem_map.mpr ⟨d', hd', heq⟩)
    · rw [World.setLoop_other _ _ hl] at hd'
      exact hq.apart l' l hl d' hd' d hfirst

end

end EpollHttp
