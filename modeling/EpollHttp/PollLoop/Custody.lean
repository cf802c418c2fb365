import EpollHttp.Executors.AccessRequests
import EpollHttp.PollLoop.Upkeep

/-
What a step leaves of an executor.

An executor is kept when its data, its descriptors and the objects behind them are as they were,
and then nothing that went through these objects changed either.  Otherwise its data was cleared,
or it was set up anew on cleared data and no byte was moved yet.
-/

namespace EpollHttp

open Program

/-! ## Objects -/

/-- The same was recorded of the object. -/
structure Kernel.SameObject (k : Kernel) (id : Nat) (k' : Kernel) : Prop where
  taken : k'.taken id = k.taken id
  ended : k'.ended id = k.ended id
  sent : k'.sent id = k.sent id
  pipes : k'.pipes id = k.pipes id
  readEnd : k'.readEnd id = k.readEnd id

/-- No byte went through the object. -/
structure Kernel.Blank (k : Kernel) (id : Nat) : Prop where
  taken : k.taken id = []
  ended : k.ended id = false
  sent : k.sent id = []

/-- The object was there and is closed. -/
def Kernel.Dead (k : Kernel) (id : Nat) : Prop := id < k.nextId ∧ ∀ fd, k.openId? fd ≠ some id

/-- No byte was moved through what was there. -/
structure Kernel.Calm (k k' : Kernel) : Prop where
  below : k.nextId ≤ k'.nextId
  objects : ∀ id < k.nextId, k.SameObject id k'

/-- Descriptors were closed, and no byte was moved. -/
structure Kernel.OnlyClosed (k k' : Kernel) : Prop where
  nextId : k'.nextId = k.nextId
  objects : ∀ id, k.SameObject id k'
  opened : ∀ fd id, k'.openId? fd = some id → k.openId? fd = some id

namespace Kernel

variable {k k' k'' : Kernel} {id : Nat} {fd : Int}

namespace SameObject

theorem refl (k : Kernel) (id : Nat) : k.SameObject id k := ⟨rfl, rfl, rfl, rfl, rfl⟩

theorem trans (h : k.SameObject id k') (h' : k'.SameObject id k'') : k.SameObject id k'' :=
  ⟨h'.taken.trans h.taken, h'.ended.trans h.ended, h'.sent.trans h.sent, h'.pipes.trans h.pipes,
    h'.readEnd.trans h.readEnd⟩

theorem blank (h : k.SameObject id k') (hblank : k.Blank id) : k'.Blank id :=
  ⟨h.taken.trans hblank.taken, h.ended.trans hblank.ended, h.sent.trans hblank.sent⟩

end SameObject

namespace Calm

theorem refl (k : Kernel) : k.Calm k := ⟨Nat.le_refl _, fun id _ => .refl k id⟩

theorem trans (h : k.Calm k') (h' : k'.Calm k'') : k.Calm k'' :=
  ⟨Nat.le_trans h.below h'.below, fun id hid => (h.objects id hid).trans
    (h'.objects id (Nat.lt_of_lt_of_le hid h.below))⟩

end Calm

theorem SameStreams.onlyClosed (h : SameStreams k k') : k.OnlyClosed k' :=
  ⟨h.nextId, fun _ => ⟨by rw [h.taken], by rw [h.ended], by rw [h.sent], by rw [h.pipes],
    by rw [h.readEnd]⟩, fun fd id hid => h.openId? fd ▸ hid⟩

namespace OnlyClosed

theorem refl (k : Kernel) : k.OnlyClosed k := (SameStreams.refl k).onlyClosed

theorem trans (h : k.OnlyClosed k') (h' : k'.OnlyClosed k'') : k.OnlyClosed k'' :=
  ⟨h'.nextId.trans h.nextId, fun id => (h.objects id).trans (h'.objects id),
    fun fd id hid => h.opened fd id (h'.opened fd id hid)⟩

theorem close (k : Kernel) (fd : Int) : k.OnlyClosed (k.close fd) := by
  obtain ⟨htaken, hended, hsent, hpipes, hreadEnd⟩ := close_streams k fd
  refine ⟨close_nextId k fd, fun id => ⟨by rw [htaken], by rw [hended], by rw [hsent],
    by rw [hpipes], by rw [hreadEnd]⟩, fun fd' id hid => ?_⟩
  by_cases heq : fd' = fd
  · rw [heq, openId?_close_self] at hid
    cases hid
  · rwa [openId?_close_of_ne heq] at hid

theorem closeEpoll (k : Kernel) (l : Nat) : k.OnlyClosed (k.closeEpoll l) :=
  SameStreams.onlyClosed ⟨rfl, rfl, rfl, rfl, rfl, rfl, rfl⟩

theorem calm (h : k.OnlyClosed k') : k.Calm k' :=
  ⟨Nat.le_of_eq h.nextId.symm, fun id _ => h.objects id⟩

theorem dead (h : k.OnlyClosed k') (hdead : k.Dead id) : k'.Dead id :=
  ⟨h.nextId.symm ▸ hdead.1, fun fd hid => hdead.2 fd (h.opened fd id hid)⟩

end OnlyClosed

/-- An object that was there keeps what is recorded of it when another one comes up. -/
theorem opened_object (fd : Int) (accepted : Bool) (h : id < k.nextId) :
    k.SameObject id (k.opened fd accepted) := by
  have hne : id ≠ k.nextId := Nat.ne_of_lt h
  exact ⟨Function.update_of_ne hne .., Function.update_of_ne hne .., Function.update_of_ne hne ..,
    Function.update_of_ne hne .., rfl⟩

theorem opened_calm (fd : Int) (accepted : Bool) : k.Calm (k.opened fd accepted) :=
  ⟨Nat.le_succ _, fun _ hid => opened_object fd accepted hid⟩

theorem opened_blank (fd : Int) (accepted : Bool) : (k.opened fd accepted).Blank k.nextId :=
  ⟨Function.update_self .., Function.update_self .., Function.update_self ..⟩

theorem opened_dead (fd : Int) (accepted : Bool) (h : k.Dead id) :
    (k.opened fd accepted).Dead id := by
  refine ⟨Nat.lt_succ_of_lt h.1, fun fd' hid => ?_⟩
  rcases opened_new hid with ⟨_, rfl⟩ | ⟨_, _, hold⟩
  · exact absurd h.1 (Nat.lt_irrefl _)
  · exact h.2 fd' hold

theorem Moved.dead (hm : k.Moved k') (h : k.Dead id) : k'.Dead id := by
  cases hm with
  | same k' htable hnextId haccepted hcloses =>
    exact ⟨hnextId.symm ▸ h.1, fun fd hid => h.2 fd (openId?_congr htable fd ▸ hid)⟩
  | opened fd havail => exact opened_dead fd false h
  | tried fd havail => exact (OnlyClosed.close _ fd).dead (opened_dead fd false h)
  | closed fd hopen => exact (OnlyClosed.close k fd).dead h

end Kernel

/-! ## What only closes descriptors -/

section
variable {k0 : Kernel} {l r : Nat} {fd : Int}

theorem onlyClosed_close :
    Preserves (fun w : World => k0.OnlyClosed w.kernel) (close fd) :=
  fun w h => ensures_close.mpr (h.trans (.close w.kernel fd))

theorem onlyClosed_modifyData {f : ExecutorData → ExecutorData} :
    Preserves (fun w : World => k0.OnlyClosed w.kernel) (modifyData l r f) :=
  fun _ h => ensures_modifyData.mpr h

theorem onlyClosed_modifyLoop {f : PollLoop → PollLoop} :
    Preserves (fun w : World => k0.OnlyClosed w.kernel) (modifyLoop l f) :=
  fun _ h => ensures_modifyLoop.mpr h

theorem onlyClosed_when {c : Prop} [Decidable c] {m : Prog PUnit}
    (hm : Preserves (fun w : World => k0.OnlyClosed w.kernel) m) :
    Preserves (fun w : World => k0.OnlyClosed w.kernel) (when c m) :=
  Preserves.ite hm Preserves.pure

theorem onlyClosed_removePollFd :
    Preserves (fun w : World => k0.OnlyClosed w.kernel) (removePollFd l r fd) := by
  intro w h
  refine removePollFd_spec.mono (fun res w' hr => ?_)
  rcases hr with ⟨_, p, hr⟩ | ⟨_, rfl, _⟩
  · obtain ⟨_, k, hk, rfl⟩ := hr
    exact h.trans (Kernel.SameStreams.ctlDel hk).onlyClosed
  · exact h

theorem onlyClosed_down : Preserves (fun w : World => k0.OnlyClosed w.kernel) (down l r) := by
  intro w h
  unfold down
  rw [ensures_bind, ensures_getData]
  generalize w.data l r = data
  refine Preserves.bind (onlyClosed_when onlyClosed_close) (fun _ => ?_) w h
  refine Preserves.bind (onlyClosed_when onlyClosed_close) (fun _ => ?_)
  refine Preserves.bind (onlyClosed_when onlyClosed_close) (fun _ => ?_)
  exact Preserves.bind (onlyClosed_when onlyClosed_close) (fun _ => onlyClosed_modifyData)

theorem onlyClosed_removeExecutorData :
    Preserves (fun w : World => k0.OnlyClosed w.kernel) (removeExecutorData l r) := by
  have hwatch : ∀ {c : Prop} [Decidable c] {fd : Int},
      Preserves (fun w : World => k0.OnlyClosed w.kernel)
        (when c (do let _ ← removePollFd l r fd)) :=
    onlyClosed_when (Preserves.bind onlyClosed_removePollFd (fun _ => Preserves.pure))
  intro w h
  unfold removeExecutorData
  rw [ensures_bind, ensures_getData, ensures_bind]
  refine (hwatch w h).mono (fun _ w1 h1 => ?_)
  rw [ensures_bind, ensures_getData]
  refine Preserves.bind hwatch (fun _ => ?_) w1 h1
  exact Preserves.bind onlyClosed_down (fun _ => onlyClosed_modifyLoop)

theorem onlyClosed_downAll (rs : List Nat) :
    Preserves (fun w : World => k0.OnlyClosed w.kernel) (downAll l rs) := by
  induction rs with
  | nil => exact Preserves.pure
  | cons r rest ih => exact Preserves.bind onlyClosed_down (fun _ => ih)

theorem onlyClosed_destroy : Preserves (fun w : World => k0.OnlyClosed w.kernel) (destroy l) := by
  intro w h
  unfold destroy
  rw [ensures_bind, ensures_getLoop]
  generalize w.loops l = loop
  refine Preserves.bind (onlyClosed_downAll _) (fun _ => ?_) w h
  refine Preserves.bind (onlyClosed_when ?_) (fun _ => onlyClosed_modifyLoop)
  refine Preserves.bind onlyClosed_close (fun _ => ?_)
  intro w1 h1
  exact ensures_modifyKernel.mpr (h1.trans (.closeEpoll w1.kernel l))

end

/-! ## What is kept -/

/-- Nothing that the executor is or holds changed, and nothing of an object that was closed. -/
structure Retained (l r : Nat) (w w' : World) : Prop where
  undisturbed : Undisturbed l r w w'
  inUse : w'.InUse l r ↔ w.InUse l r
  holds : ∀ place id, w'.HoldsAt l r place id ↔ w.HoldsAt l r place id
  objects : ∀ place id, w.HoldsAt l r place id → w.kernel.SameObject id w'.kernel
  dead : ∀ id, w.kernel.Dead id → w'.kernel.Dead id ∧ w.kernel.SameObject id w'.kernel

section
variable {a : Access} {l r l' r' : Nat} {w0 w w' w'' : World} {t : Terms} {place : Place}
variable {id : Nat} {fd : Int}

theorem Undisturbed.fdAt (hu : Undisturbed l r w w') (place : Place) :
    w'.fdAt l r place = w.fdAt l r place := by
  unfold World.fdAt
  rw [hu.data]

theorem Booked.holdsAt_positive (hb : Booked w) (h : w.HoldsAt l r place id) :
    0 < w.fdAt l r place := by
  apply hb.positive
  rw [h]
  exact Option.some_ne_none id

/-- The same objects are held when no number below the first one stands for anything. -/
theorem Undisturbed.holds (hu : Undisturbed l r w w') (hb : Booked w)
    (hnever : ∀ fd, ¬ 0 < fd → w'.kernel.openId? fd = none) :
    w'.HoldsAt l r place id ↔ w.HoldsAt l r place id := by
  unfold World.HoldsAt
  rw [hu.fdAt]
  by_cases hpos : 0 < w.fdAt l r place
  · rw [hu.opened place hpos]
  · constructor
    · intro hid
      rw [hnever _ hpos] at hid
      cases hid
    · exact fun hid => absurd (hb.holdsAt_positive hid) hpos

theorem Booked.openId?_never (hb : Booked w) (hneg : ¬ 0 < fd) : w.kernel.openId? fd = none := by
  unfold Kernel.openId?
  rw [hb.never fd hneg]
  rfl

namespace Retained

theorem refl (hb : Booked w) : Retained l r w w :=
  ⟨.refl hb, Iff.rfl, fun _ _ => Iff.rfl, fun _ id _ => .refl _ id, fun id h => ⟨h, .refl _ id⟩⟩

theorem trans (h : Retained l r w w') (h' : Retained l r w' w'') : Retained l r w w'' := by
  refine ⟨h.undisturbed.trans h'.undisturbed, h'.inUse.trans h.inUse,
    fun place id => (h'.holds place id).trans (h.holds place id), fun place id hid => ?_,
    fun id hdead => ?_⟩
  · exact (h.objects place id hid).trans (h'.objects place id ((h.holds place id).mpr hid))
  · obtain ⟨hdead1, hobject1⟩ := h.dead id hdead
    obtain ⟨hdead2, hobject2⟩ := h'.dead id hdead1
    exact ⟨hdead2, hobject1.trans hobject2⟩

/-- Other descriptors were closed, or none. -/
theorem ofClosed (hb : Booked w) (hu : Undisturbed l r w w')
    (huse : w'.InUse l r ↔ w.InUse l r) (hk : w.kernel.OnlyClosed w'.kernel) : Retained l r w w' := by
  refine ⟨hu, huse, fun _ _ => hu.holds hb (fun fd hneg => ?_), fun _ id _ => hk.objects id,
    fun id hdead => ⟨hk.dead hdead, hk.objects id⟩⟩
  cases hopen : w'.kernel.openId? fd with
  | none => rfl
  | some id =>
    have hbefore := hk.opened fd id hopen
    rw [hb.openId?_never hneg] at hbefore
    cases hbefore

theorem joined (h : Retained l r w w') (hjoined : w.Joined l r) : w'.Joined l r := by
  intro id hid
  have hbefore := (h.holds .pipeWrite id).mp hid
  rw [(h.objects .pipeWrite id hbefore).readEnd]
  exact (h.holds _ _).mpr (hjoined id hbefore)

end Retained

/-! ## What an executor keeps of the others -/

theorem Flow.object {k : Kernel} (hf : Flow a l r w0 k) (hid : id < w0.kernel.nextId)
    (hnot : ∀ place, ¬ w0.HoldsAt l r place id) : w0.kernel.SameObject id k :=
  ⟨hf.taken id hid (fun ⟨place, _, h⟩ => hnot place h),
    hf.ended id hid (fun ⟨place, _, h⟩ => hnot place h),
    hf.sent id hid (fun ⟨place, _, h⟩ => hnot place h), hf.pipes id hid (hnot .pipeRead),
    hf.readEnd id hid (fun h => h.elim)⟩

/-- What is closed afterwards moves no bytes. -/
theorem Flow.onlyClosed {k k' : Kernel} (hf : Flow a l r w0 k) (hk : k.OnlyClosed k') :
    Flow a l r w0 k' :=
  ⟨hk.nextId.symm ▸ hf.below, hf.taken.congr (funext fun id => (hk.objects id).taken),
    hf.ended.congr (funext fun id => (hk.objects id).ended),
    hf.sent.congr (funext fun id => (hk.objects id).sent),
    hf.pipes.congr (funext fun id => (hk.objects id).pipes),
    hf.readEnd.congr (funext fun id => (hk.objects id).readEnd)⟩

/-- Nothing is read or written. -/
def Access.none : Access := ⟨fun _ => False, fun _ => False⟩

theorem Flow.calm {k : Kernel} (hf : Flow .none l r w0 k)
    (hpipe : ∀ id, ¬ w0.HoldsAt l r .pipeRead id) : w0.kernel.Calm k :=
  ⟨hf.below, fun id hid => ⟨hf.taken id hid (fun ⟨_, hno, _⟩ => hno),
    hf.ended id hid (fun ⟨_, hno, _⟩ => hno), hf.sent id hid (fun ⟨_, hno, _⟩ => hno),
    hf.pipes id hid (hpipe id), hf.readEnd id hid (fun hno => hno)⟩⟩

theorem Effects.dead (he : Effects l r w w') (hb : Booked w) (h : w.kernel.Dead id) :
    w'.kernel.Dead id := by
  induction he with
  | refl => exact h
  | tail hs he ih => exact (he.moved (Effects.booked hs hb).1).dead ih

/-- What is held at one of the two places is held there afterwards, or was closed. -/
theorem Effect.heldOrDead (he : Effect l r w w') (hb : Booked w) (hone : w.kernel.OneNumber)
    (hplace : place = .fd0 ∨ place = .fd1) (h : w.HoldsAt l r place id) :
    w'.HoldsAt l r place id ∨ w'.kernel.Dead id := by
  have hsame : (∀ fd, w'.kernel.openId? fd = w.kernel.openId? fd) →
      w'.fdAt l r place = w.fdAt l r place → w'.HoldsAt l r place id ∨ w'.kernel.Dead id := by
    intro hopen hfd
    refine Or.inl ?_
    unfold World.HoldsAt
    rw [hfd, hopen]
    exact h
  have hloop : ∀ b : Bytes, (w.setLoop l { w.loops l with fileNameBuffer := b }).fdAt l r place =
      w.fdAt l r place := by
    intro b
    unfold World.fdAt
    rw [World.setLoop_data]
    exact fun _ => rfl
  cases he with
  | bytes k hk => exact hsame hk.openId? rfl
  | data d hheld halone =>
    refine hsame (fun _ => rfl) ?_
    rw [World.setData_fdAt, if_pos ⟨rfl, rfl⟩]
    exact hheld.1 place
  | cut => exact hsame (fun _ => rfl) (hloop _)
  | named name hname => exact hsame (fun _ => rfl) (hloop _)
  | added fd events p w' huse hadded =>
    obtain ⟨_, pollDatas, k, _, hk, rfl⟩ := hadded
    refine hsame (Kernel.SameStreams.ctlAdd hk).openId? ?_
    rw [World.rewatch_fdAt, if_pos ⟨rfl, rfl⟩]
    exact setPollDataOf_fdAt _ _
  | refused w' hrefused =>
    obtain ⟨p, pollDatas, _, rfl⟩ := hrefused
    refine hsame (fun _ => rfl) ?_
    rw [World.rewatch_fdAt, if_pos ⟨rfl, rfl⟩]
    rfl
  | edited fd events p k hp hk => exact hsame (Kernel.SameStreams.ctlMod hk).openId? rfl
  | removed fd p w' hremoved =>
    obtain ⟨_, k, hk, rfl⟩ := hremoved
    refine hsame (Kernel.SameStreams.ctlDel hk).openId? ?_
    rw [World.rewatch_fdAt, if_pos ⟨rfl, rfl⟩]
    exact dropPollData_fdAt _ _
  | tried sock havail =>
    refine Or.inl ?_
    have hne : w.fdAt l r place ≠ sock := by
      intro heq
      have hnone := havail.2
      rw [← heq, show w.kernel.openId? (w.fdAt l r place) = some id from h] at hnone
      cases hnone
    show ((w.kernel.opened sock false).close sock).openId? (w.fdAt l r place) = some id
    rw [Kernel.openId?_close_of_ne hne, Kernel.openId?_opened_of_ne hne]
    exact h
  | opened place' fd huse havail hpoll hfd halone =>
    have hne : place ≠ place' := by
      rintro rfl
      have hpos := hb.holdsAt_positive h
      have hnone := hfd hplace
      omega
    have hfree : w.fdAt l r place ≠ fd := by
      intro heq
      have hnone := havail.2
      rw [← heq, show w.kernel.openId? (w.fdAt l r place) = some id from h] at hnone
      cases hnone
    refine Or.inl ?_
    unfold World.HoldsAt
    rw [World.setData_fdAt, if_pos ⟨rfl, rfl⟩, ExecutorData.withFd_fdAt_of_ne _ _ _ hne]
    show (w.kernel.opened fd false).openId? (w.fdAt l r place) = some id
    rw [Kernel.openId?_opened_of_ne hfree]
    exact h
  | closed place' hpoll =>
    by_cases hne : place = place'
    · -- The object had no other number.
      subst hne
      refine Or.inr ⟨?_, fun fd hid => ?_⟩
      · show id < (w.kernel.close (w.fdAt l r place)).nextId
        rw [close_nextId]
        exact Kernel.openId?_below h
      · have hid : (w.kernel.close (w.fdAt l r place)).openId? fd = some id := hid
        by_cases heq : fd = w.fdAt l r place
        · rw [heq, Kernel.openId?_close_self] at hid
          cases hid
        · rw [Kernel.openId?_close_of_ne heq] at hid
          exact heq (hone _ _ id hid h)
    · have hapart : w.fdAt l r place ≠ w.fdAt l r place' := fun heq =>
        hne (hb.apart l r place l r place' (hb.holdsAt_positive h) heq).2.2
      refine Or.inl ?_
      unfold World.HoldsAt
      rw [World.setData_fdAt, if_pos ⟨rfl, rfl⟩, ExecutorData.withFd_fdAt_of_ne _ _ _ hne]
      show (w.kernel.close (w.fdAt l r place')).openId? (w.fdAt l r place) = some id
      rw [Kernel.openId?_close_of_ne hapart]
      exact h

theorem Effects.heldOrDead (he : Effects l r w w') (hb : Booked w) (hone : w.kernel.OneNumber)
    (hplace : place = .fd0 ∨ place = .fd1)
    (h : w.HoldsAt l r place id ∨ w.kernel.Dead id) :
    w'.HoldsAt l r place id ∨ w'.kernel.Dead id := by
  have hall : w'.kernel.OneNumber ∧ (w'.HoldsAt l r place id ∨ w'.kernel.Dead id) := by
    induction he with
    | refl => exact ⟨hone, h⟩
    | tail hs he ih =>
      refine ⟨(he.moved (Effects.booked hs hb).1).oneNumber ih.1, ?_⟩
      rcases ih.2 with hheld | hdead
      · exact he.heldOrDead (Effects.booked hs hb).1 ih.1 hplace hheld
      · exact Or.inr ((he.moved (Effects.booked hs hb).1).dead hdead)
  exact hall.2

theorem Handled.kept (H : Handled a l r w0 t w) (hb : Booked w0) (hone : w0.kernel.OneNumber)
    (hne : ¬ (l' = l ∧ r' = r)) : Retained l' r' w0 w := by
  obtain ⟨h, H⟩ := H
  have hu := H.did.effects.undisturbed hb hne
  refine ⟨hu, (Effects.booked H.did.effects hb).2 l' r',
    fun _ _ => hu.holds hb (fun _ hneg => H.did.booked.openId?_never hneg),
    fun place id hid => H.flow.object (Kernel.openId?_below hid) (fun place' hid' => ?_),
    fun id hdead => ⟨H.did.effects.dead hb hdead, H.flow.object hdead.1 (fun place' hid' =>
      hdead.2 _ hid')⟩⟩
  obtain ⟨rfl, rfl, _⟩ := hb.apart l' r' place l r place' (hb.holdsAt_positive hid)
    (hone _ _ id hid hid')
  exact hne ⟨rfl, rfl⟩

/-- What nobody holds stays as it is. -/
theorem Handled.loose (H : Handled a l r w0 t w) (hb : Booked w0) (hone : w0.kernel.OneNumber)
    (h : w0.Loose fd id) : w.Loose fd id ∧ w0.kernel.SameObject id w.kernel := by
  obtain ⟨_, H⟩ := H
  refine ⟨H.did.effects.loose hb h, H.flow.object (Kernel.openId?_below h.1) (fun place hid => ?_)⟩
  exact h.2 l r place (hone _ _ id hid h.1)

/-! ## The queues -/

/-- No byte went through a connection that waits in a queue. -/
def World.QueueBlank (w : World) : Prop :=
  ∀ l, ∀ d ∈ (w.loops l).newFdsQueue, ∀ id, w.kernel.openId? d.fd = some id → w.kernel.Blank id

theorem World.QueueBlank.closed (h : w.QueueBlank)
    (hqueue : ∀ l, (w'.loops l).newFdsQueue = (w.loops l).newFdsQueue)
    (hk : w.kernel.OnlyClosed w'.kernel) : w'.QueueBlank := by
  intro l d hd id hid
  rw [hqueue] at hd
  exact (hk.objects id).blank (h l d hd id (hk.opened _ _ hid))

theorem Handled.queueBlank (H : Handled a l r w0 t w) (hb : Booked w0)
    (hone : w0.kernel.OneNumber) (hq : QueueBooked w0) (h : w0.QueueBlank) : w.QueueBlank := by
  intro l' d hd id hid
  have hframe : SameFrame w0 w := by
    obtain ⟨_, H1⟩ := H
    exact H1.did.effects.frame
  rw [hframe.newFdsQueue] at hd
  obtain ⟨id0, hloose⟩ := hq.loose l' d hd
  obtain ⟨hopen, hobject⟩ := H.loose hb hone hloose
  obtain rfl : id0 = id := Option.some.inj (hopen.1.symm.trans hid)
  exact hobject.blank (h l' d hd id0 hloose.1)

end

end EpollHttp
