import EpollHttp.Executors.Footprint

/-
What an executor does leaves the others alone.

An effect reaches at most one descriptor in the kernel, and that is held by the executor itself or
was not open before.  The descriptors of another executor are open and held by nobody else.
-/

namespace EpollHttp

open Program

/-- The kernel is as it was, but for one descriptor. -/
def Kernel.SameBut (fd : Int) (k k' : Kernel) : Prop :=
  ∀ fd', fd' ≠ fd → (∀ l, k'.epoll l fd' = k.epoll l fd') ∧ k'.openId? fd' = k.openId? fd'

/-- The executor and all that it holds are as they were. -/
structure Undisturbed (l r : Nat) (w w' : World) : Prop where
  data : w'.data l r = w.data l r
  items : ∀ place p, w.pollDataAt l r place = some p →
    p ∈ w'.usedPolls l ∧ w'.pollData l p = w.pollData l p
  registered : ∀ place, 0 < w.fdAt l r place → ∀ l',
    w'.kernel.epoll l' (w.fdAt l r place) = w.kernel.epoll l' (w.fdAt l r place)
  opened : ∀ place, 0 < w.fdAt l r place →
    w'.kernel.openId? (w.fdAt l r place) = w.kernel.openId? (w.fdAt l r place)

section
variable {w w' w'' : World} {l r l' r' : Nat} {fd : Int} {k k' : Kernel}

/-! ## The kernel -/

theorem Kernel.SameTables.sameBut (h : k.SameTables k') (fd : Int) : k.SameBut fd k' :=
  fun fd' _ => ⟨fun _ => by rw [h.epoll], h.openId? fd'⟩

theorem Kernel.SameBut.registration {events : Option Registration}
    (htable : k'.table = k.table) (hepoll : k'.epoll = (k.setRegistration l fd events).epoll) :
    k.SameBut fd k' := by
  refine fun fd' hne => ⟨fun l' => ?_, ?_⟩
  · rw [hepoll]
    exact Kernel.setRegistration_other _ (fun hboth => hne hboth.2)
  · unfold Kernel.openId?
    rw [htable]

theorem Kernel.SameBut.opened (accepted : Bool) : k.SameBut fd (k.opened fd accepted) :=
  fun _ hne => ⟨fun _ => rfl, Kernel.openId?_opened_of_ne hne accepted⟩

theorem Kernel.SameBut.close : k.SameBut fd (k.close fd) :=
  fun _ hne => ⟨fun _ => Kernel.epoll_close_of_ne hne, Kernel.openId?_close_of_ne hne⟩

theorem Kernel.SameBut.trans {k'' : Kernel} (h : k.SameBut fd k') (h' : k'.SameBut fd k'') :
    k.SameBut fd k'' := fun fd' hne =>
  ⟨fun l => ((h' fd' hne).1 l).trans ((h fd' hne).1 l), (h' fd' hne).2.trans (h fd' hne).2⟩

/-- The descriptor that an effect reaches. -/
theorem Effect.sameBut (he : Effect l r w w') (hb : Booked w) : ∃ fd,
    w.kernel.SameBut fd w'.kernel ∧
      ((∃ place, w.fdAt l r place = fd) ∨ w.kernel.openId? fd = none) := by
  have hsame : ∀ fd, w.kernel.SameBut fd w.kernel := (Kernel.SameTables.refl _).sameBut
  have hown : ∀ place, ∃ place', w.fdAt l r place' = w.fdAt l r place := fun place => ⟨place, rfl⟩
  cases he with
  | bytes k hk => exact ⟨_, hk.sameBut _, Or.inl (hown .fd0)⟩
  | data d hheld halone => exact ⟨_, hsame _, Or.inl (hown .fd0)⟩
  | cut => exact ⟨_, hsame _, Or.inl (hown .fd0)⟩
  | named name hname => exact ⟨_, hsame _, Or.inl (hown .fd0)⟩
  | added fd events p w' huse ha =>
    obtain ⟨place, hplace, _⟩ := ha.place
    obtain ⟨_, pollDatas, k, _, hk, rfl⟩ := ha
    refine ⟨fd, ?_, Or.inl ⟨place, hplace⟩⟩
    obtain ⟨_, _, rfl⟩ := Kernel.ctlAdd_some hk
    exact Kernel.SameBut.registration rfl rfl
  | refused w' hr =>
    obtain ⟨p, pollDatas, _, rfl⟩ := hr
    exact ⟨_, hsame _, Or.inl (hown .fd0)⟩
  | edited fd events p k hp hk =>
    obtain ⟨place, hplace, _⟩ := hb.removed_place hp
    refine ⟨fd, ?_, Or.inl ⟨place, hplace⟩⟩
    obtain ⟨reg, _, rfl⟩ := Kernel.ctlMod_some hk
    exact Kernel.SameBut.registration rfl rfl
  | removed fd p w' hr =>
    obtain ⟨place, hplace, _⟩ := hb.removed_place hr.ptr
    obtain ⟨_, k, hk, rfl⟩ := hr
    refine ⟨fd, ?_, Or.inl ⟨place, hplace⟩⟩
    obtain ⟨reg, _, rfl⟩ := Kernel.ctlDel_some hk
    exact Kernel.SameBut.registration rfl rfl
  | tried sock havail =>
    exact ⟨sock, (Kernel.SameBut.opened false).trans .close, Or.inr havail.2⟩
  | opened place fd huse havail hpoll hold halone =>
    exact ⟨fd, Kernel.SameBut.opened false, Or.inr havail.2⟩
  | closed place hpoll => exact ⟨_, Kernel.SameBut.close, Or.inl (hown place)⟩

/-! ## Other executors -/

theorem Effect.data_other (he : Effect l r w w') (hne : ¬ (l' = l ∧ r' = r)) :
    w'.data l' r' = w.data l' r' := by
  cases he with
  | bytes k hk => rfl
  | data d hheld halone => exact World.setData_other _ _ hne d
  | cut =>
    refine World.setLoop_data _ _ (fun _ => ?_) l' r'
    rfl
  | named name hname =>
    refine World.setLoop_data _ _ (fun _ => ?_) l' r'
    rfl
  | added fd events p w' huse ha =>
    obtain ⟨_, pollDatas, k, _, _, rfl⟩ := ha
    exact World.rewatch_data_other _ _ _ _ _ _ _ hne
  | refused w' hr =>
    obtain ⟨p, pollDatas, _, rfl⟩ := hr
    exact World.rewatch_data_other _ _ _ _ _ _ _ hne
  | edited fd events p k hp hk => rfl
  | removed fd p w' hr =>
    obtain ⟨_, k, _, rfl⟩ := hr
    exact World.rewatch_data_other _ _ _ _ _ _ _ hne
  | tried sock havail => rfl
  | opened place fd huse havail hpoll hold halone => exact World.setData_other _ _ hne _
  | closed place hpoll => exact World.setData_other _ _ hne _

/-- The items of an executor follow from its data, by the books of both worlds. -/
theorem Undisturbed.ofBooks (hb : Booked w) (hb' : Booked w') (hdata : w'.data l r = w.data l r)
    (hkernel : ∀ place, 0 < w.fdAt l r place →
      (∀ l', w'.kernel.epoll l' (w.fdAt l r place) = w.kernel.epoll l' (w.fdAt l r place)) ∧
        w'.kernel.openId? (w.fdAt l r place) = w.kernel.openId? (w.fdAt l r place)) :
    Undisturbed l r w w' := by
  refine ⟨hdata, fun place p hp => ?_, fun place hpos => (hkernel place hpos).1,
    fun place hpos => (hkernel place hpos).2⟩
  have hp' : w'.pollDataAt l r place = some p := by
    unfold World.pollDataAt
    rw [hdata]
    exact hp
  obtain ⟨_, hitem, _⟩ := (hb.loops l).slot r place p hp
  obtain ⟨hused, hitem', _⟩ := (hb'.loops l).slot r place p hp'
  refine ⟨hused, hitem'.trans (Eq.trans ?_ hitem.symm)⟩
  unfold World.fdAt
  rw [hdata]

theorem Undisturbed.refl (hb : Booked w) : Undisturbed l r w w :=
  .ofBooks hb hb rfl (fun _ _ => ⟨fun _ => rfl, rfl⟩)

theorem Undisturbed.trans (h : Undisturbed l r w w') (h' : Undisturbed l r w' w'') :
    Undisturbed l r w w'' := by
  have hfd : ∀ place, w'.fdAt l r place = w.fdAt l r place := by
    intro place
    unfold World.fdAt
    rw [h.data]
  have hpoll : ∀ place, w'.pollDataAt l r place = w.pollDataAt l r place := by
    intro place
    unfold World.pollDataAt
    rw [h.data]
  refine ⟨h'.data.trans h.data, fun place p hp => ?_, fun place hpos l' => ?_,
    fun place hpos => ?_⟩
  · obtain ⟨hused, hitem⟩ := h'.items place p ((hpoll place).trans hp)
    exact ⟨hused, hitem.trans (h.items place p hp).2⟩
  · have hsecond := h'.registered place (by rw [hfd]; exact hpos) l'
    rw [hfd] at hsecond
    exact hsecond.trans (h.registered place hpos l')
  · have hsecond := h'.opened place (by rw [hfd]; exact hpos)
    rw [hfd] at hsecond
    exact hsecond.trans (h.opened place hpos)

/-- What one executor does leaves the others as they are. -/
theorem Effect.undisturbed (he : Effect l r w w') (hb : Booked w)
    (hne : ¬ (l' = l ∧ r' = r)) : Undisturbed l' r' w w' := by
  obtain ⟨fd, hsame, hfd⟩ := he.sameBut hb
  refine .ofBooks hb (he.booked hb) (he.data_other hne) (fun place hpos => hsame _ ?_)
  rintro rfl
  rcases hfd with ⟨place', hown⟩ | hclosed
  · obtain ⟨rfl, rfl, _⟩ := hb.apart l' r' place l r place' hpos hown.symm
    exact hne ⟨rfl, rfl⟩
  · exact hb.held l' r' place hpos hclosed

theorem Effects.undisturbed (he : Effects l r w w') (hb : Booked w)
    (hne : ¬ (l' = l ∧ r' = r)) : Undisturbed l' r' w w' := by
  induction he with
  | refl => exact .refl hb
  | tail hs hd ih => exact ih.trans (hd.undisturbed (Effects.booked hs hb).1 hne)

theorem TakenBack.data_self (ht : TakenBack l r w w') :
    w'.data l r = (w.data l r).cleared := by
  obtain ⟨_, w1, hdid, hdata, rfl⟩ := ht
  rw [← hdata]
  exact World.setLoop_data _ _ ((hdid.booked.loops l).execs.free hdid.inUse).fields l r

theorem TakenBack.undisturbed (ht : TakenBack l r w w') (hb : Booked w)
    (hne : ¬ (l' = l ∧ r' = r)) : Undisturbed l' r' w w' := by
  obtain ⟨hb', w1, hdid, _, rfl⟩ := ht
  refine (hdid.effects.undisturbed hb hne).trans (.ofBooks hdid.booked hb' ?_
    (fun _ _ => ⟨fun _ => rfl, rfl⟩))
  exact World.setLoop_data _ _ ((hdid.booked.loops l).execs.free hdid.inUse).fields l' r'

end

end EpollHttp
