import EpollHttp.Executors.Bystanders
import EpollHttp.PollLoop.Conduct

/-
What an executor is watched for.

The stance of an executor is its class, its state and the interest masks of its two descriptors.
Bytes and most fields of the data do not belong to it; the calls on the epoll set replace the mask
of one descriptor and leave all others alone.
-/

namespace EpollHttp

open Program

/-- The interest mask that was set last for the descriptor, if it is watched. -/
def World.mask (w : World) (l r : Nat) (place : Place) : Option Nat :=
  match w.pollDataAt l r place with
  | none => none
  | some _ => (w.kernel.epoll l (w.fdAt l r place)).map Registration.events

structure Stance where
  exec : Option Executor
  state : ExecutorData.State
  client : Option Nat
  upstream : Option Nat

def World.stance (w : World) (l r : Nat) : Stance where
  exec := (w.data l r).pExecutor
  state := (w.data l r).state
  client := w.mask l r .fd0
  upstream := w.mask l r .fd1

/-- The mask of one descriptor is replaced. -/
def Stance.watch (s : Stance) (place : Place) (mask : Option Nat) : Stance :=
  match place with
  | .fd0 => { s with client := mask }
  | .fd1 => { s with upstream := mask }
  | _ => s

/-! ## Masks -/

section
variable {w w' : World} {l r : Nat} {place : Place} {fd : Int} {p events : Nat}

theorem mask_none (h : w.pollDataAt l r place = none) : w.mask l r place = none := by
  unfold World.mask
  rw [h]

theorem mask_some {reg : Registration} (hp : w.pollDataAt l r place = some p)
    (hreg : w.kernel.epoll l (w.fdAt l r place) = some reg) :
    w.mask l r place = some reg.events := by
  unfold World.mask
  rw [hp]
  dsimp only
  rw [hreg]
  rfl

/-- What is watched has a mask. -/
theorem Booked.mask_eq_none (hb : Booked w) :
    w.mask l r place = none ↔ w.pollDataAt l r place = none := by
  refine ⟨fun h => ?_, mask_none⟩
  cases hp : w.pollDataAt l r place with
  | none => rfl
  | some p =>
    obtain ⟨_, _, reg, hreg, _⟩ := (hb.loops l).slot r place p hp
    rw [mask_some hp hreg] at h
    cases h

theorem mask_congr (hpoll : w'.pollDataAt l r place = w.pollDataAt l r place)
    (hepoll : w.pollDataAt l r place ≠ none →
      w'.kernel.epoll l (w'.fdAt l r place) = w.kernel.epoll l (w.fdAt l r place)) :
    w'.mask l r place = w.mask l r place := by
  cases hp : w.pollDataAt l r place with
  | none => rw [mask_none hp, mask_none (hpoll.trans hp)]
  | some p =>
    unfold World.mask
    rw [hpoll, hp]
    dsimp only
    rw [hepoll (by rw [hp]; exact fun hnone => nomatch hnone)]

theorem stance_congr (hexec : (w'.data l r).pExecutor = (w.data l r).pExecutor)
    (hstate : (w'.data l r).state = (w.data l r).state)
    (hclient : w'.mask l r .fd0 = w.mask l r .fd0)
    (hupstream : w'.mask l r .fd1 = w.mask l r .fd1) : w'.stance l r = w.stance l r := by
  unfold World.stance
  rw [hexec, hstate, hclient, hupstream]

/-- Whether a change concerns a place. -/
abbrev At (l r : Nat) (place : Place) (l' r' : Nat) (place' : Place) : Prop :=
  l' = l ∧ r' = r ∧ place' = place

/-- A change of one registration changes one mask. -/
theorem Booked.mask_update (hb : Booked w) {mask : Option Nat} (hat : w.fdAt l r place = fd)
    (hpos : 0 < fd) (hfd : ∀ l' r' place', w'.fdAt l' r' place' = w.fdAt l' r' place')
    (hepoll : ∀ l' fd', ¬ (l' = l ∧ fd' = fd) →
      w'.kernel.epoll l' fd' = w.kernel.epoll l' fd')
    (hpoll : ∀ l' r' place', ¬ At l r place l' r' place' →
      w'.pollDataAt l' r' place' = w.pollDataAt l' r' place')
    (hself : w'.mask l r place = mask) (l' r' : Nat) (place' : Place) :
    w'.mask l' r' place' =
      if At l r place l' r' place' then mask else w.mask l' r' place' := by
  split
  · rename_i heq
    obtain ⟨rfl, rfl, rfl⟩ := heq
    exact hself
  · rename_i hne
    refine mask_congr (hpoll l' r' place' hne) (fun _ => ?_)
    rw [hfd]
    refine hepoll l' _ (fun hboth => hne ?_)
    have hsame : w.fdAt l' r' place' = w.fdAt l r place := hboth.2.trans hat.symm
    exact hb.apart l' r' place' l r place (by rw [hsame, hat]; exact hpos) hsame

theorem Added.mask (hb : Booked w) (ha : Added w l r fd events p w')
    (hat : w.fdAt l r place = fd) (l' r' : Nat) (place' : Place) : w'.mask l' r' place' =
      if At l r place l' r' place' then some (watched events) else w.mask l' r' place' := by
  obtain ⟨place0, hat0, _, _, hd⟩ := ha.place
  obtain ⟨_, pollDatas, k, _, hk, rfl⟩ := ha
  obtain ⟨hopen, _, hset⟩ := Kernel.ctlAdd_some hk
  have hpos := hb.positive hopen
  obtain ⟨_, _, rfl⟩ := hb.apart l r place0 l r place (hat0 ▸ hpos) (hat0.trans hat.symm)
  have hfd : ∀ l' r' place', (w.rewatch l r (pollDatas.assign p { fd := fd, execData := some r })
      ((w.data l r).setPollDataOf fd p) ((w.loops l).numOfPollFds + 1) k).fdAt l' r' place' =
        w.fdAt l' r' place' := by
    intro l' r' place'
    rw [World.rewatch_fdAt]
    split
    · rename_i heq
      rw [heq.1, heq.2]
      exact (hd place').1
    · rfl
  refine hb.mask_update hat hpos hfd (fun l' fd' hne => ?_) (fun l' r' place' hne => ?_) ?_
    l' r' place'
  · rw [World.rewatch_kernel, hset]
    exact Kernel.setRegistration_other _ hne
  · rw [World.rewatch_pollDataAt]
    split
    · rename_i heq
      rw [(hd place').2, if_neg (fun hplace => hne ⟨heq.1, heq.2, hplace⟩), heq.1, heq.2]
    · rfl
  · have hreg : k.epoll l fd =
        some { ptr := p, events := watched events, serial := w.kernel.nextSerial } := by
      rw [hset]
      exact Kernel.setRegistration_self _
    refine (mask_some (p := p) ?_ ((congrArg _ ((hfd l r place0).trans hat)).trans hreg)).trans rfl
    rw [World.rewatch_pollDataAt, if_pos ⟨rfl, rfl⟩, (hd place0).2, if_pos rfl]

theorem edited_mask (hb : Booked w) {k : Kernel} (hp : (w.data l r).pollDataOf fd = some p)
    (hk : w.kernel.ctlMod l fd p (watched events) = some k) (hat : w.fdAt l r place = fd)
    (l' r' : Nat) (place' : Place) : (w.setKernel k).mask l' r' place' =
      if At l r place l' r' place' then some (watched events) else w.mask l' r' place' := by
  obtain ⟨place0, hat0, hslot, _⟩ := hb.removed_place hp
  obtain ⟨reg, _, hset⟩ := Kernel.ctlMod_some hk
  have hpos : 0 < fd := hat0 ▸ hb.watched_positive hslot
  obtain ⟨_, _, rfl⟩ := hb.apart l r place0 l r place (hat0 ▸ hpos) (hat0.trans hat.symm)
  refine hb.mask_update hat hpos (fun _ _ _ => ?_) (fun l' fd' hne => ?_) (fun _ _ _ _ => ?_) ?_
    l' r' place'
  · rfl
  · rw [World.setKernel_kernel, hset]
    exact Kernel.setRegistration_other _ hne
  · rfl
  · have hreg : k.epoll l (w.fdAt l r place0) =
        some { ptr := p, events := watched events, serial := reg.serial } := by
      rw [hat, hset]
      exact Kernel.setRegistration_self _
    exact mask_some (w := w.setKernel k) hslot hreg

theorem Removed.mask (hb : Booked w) (hr : Removed w l r fd p w') (hat : w.fdAt l r place = fd)
    (l' r' : Nat) (place' : Place) : w'.mask l' r' place' =
      if At l r place l' r' place' then none else w.mask l' r' place' := by
  obtain ⟨place0, hat0, hslot, hd⟩ := hb.removed_place hr.ptr
  obtain ⟨_, k, hk, rfl⟩ := hr
  obtain ⟨_, _, hset⟩ := Kernel.ctlDel_some hk
  have hpos : 0 < fd := hat0 ▸ hb.watched_positive hslot
  obtain ⟨_, _, rfl⟩ := hb.apart l r place0 l r place (hat0 ▸ hpos) (hat0.trans hat.symm)
  refine hb.mask_update hat hpos (fun l' r' place' => ?_) (fun l' fd' hne => ?_)
    (fun l' r' place' hne => ?_) (mask_none ?_) l' r' place'
  · rw [World.rewatch_fdAt]
    split
    · rename_i heq
      rw [heq.1, heq.2]
      exact (hd place').1
    · rfl
  · rw [World.rewatch_kernel, hset]
    exact Kernel.setRegistration_other _ hne
  · rw [World.rewatch_pollDataAt]
    split
    · rename_i heq
      rw [(hd place').2, if_neg (fun hplace => hne ⟨heq.1, heq.2, hplace⟩), heq.1, heq.2]
    · rfl
  · rw [World.rewatch_pollDataAt, if_pos ⟨rfl, rfl⟩, (hd place0).2, if_pos rfl]

/-- A close leaves the masks of all descriptors but the one that is closed. -/
theorem close_mask {k : Kernel} {sock : Int}
    (hepoll : ∀ l' fd', k.epoll l' fd' = w.kernel.epoll l' fd')
    (hne : w.pollDataAt l r place ≠ none → w.fdAt l r place ≠ sock) :
    (w.setKernel (k.close sock)).mask l r place = w.mask l r place := by
  refine mask_congr rfl (fun hp => ?_)
  exact (Kernel.epoll_close_of_ne (hne hp)).trans (hepoll _ _)

end

/-! ## Other executors -/

section
variable {w w' : World} {l r l' r' : Nat}

/-- Only one executor is concerned. -/
theorem setData_mask_other (hne : ¬ (l' = l ∧ r' = r)) (d : ExecutorData) (place : Place) :
    (w.setData l r d).mask l' r' place = w.mask l' r' place := by
  refine mask_congr ?_ (fun _ => ?_)
  · rw [World.setData_pollDataAt, if_neg hne]
  · rw [World.setData_fdAt, if_neg hne]
    rfl

theorem setLoop_mask {loop : PollLoop} (hexecs : ∀ r, (loop.execDatas.items r).fields =
    ((w.loops l).execDatas.items r).fields) (l' r' : Nat) (place : Place) :
    (w.setLoop l loop).mask l' r' place = w.mask l' r' place := by
  unfold World.mask World.pollDataAt World.fdAt
  rw [World.setLoop_data _ _ hexecs]
  rfl

theorem setLoop_stance {loop : PollLoop} (hexecs : ∀ r, (loop.execDatas.items r).fields =
    ((w.loops l).execDatas.items r).fields) (l' r' : Nat) :
    (w.setLoop l loop).stance l' r' = w.stance l' r' :=
  stance_congr (by rw [World.setLoop_data _ _ hexecs]) (by rw [World.setLoop_data _ _ hexecs])
    (setLoop_mask hexecs l' r' .fd0) (setLoop_mask hexecs l' r' .fd1)

theorem setKernel_mask {k : Kernel} (hepoll : k.epoll = w.kernel.epoll) (place : Place) :
    (w.setKernel k).mask l r place = w.mask l r place := by
  refine mask_congr rfl (fun _ => ?_)
  rw [World.setKernel_kernel, hepoll]
  rfl

theorem setKernel_stance {k : Kernel} (hmask : ∀ place, (w.setKernel k).mask l r place =
    w.mask l r place) : (w.setKernel k).stance l r = w.stance l r :=
  stance_congr rfl rfl (hmask .fd0) (hmask .fd1)

theorem setKernel_stance_epoll {k : Kernel} (hepoll : k.epoll = w.kernel.epoll) :
    (w.setKernel k).stance l r = w.stance l r := setKernel_stance (setKernel_mask hepoll)

theorem Undisturbed.mask (h : Undisturbed l r w w') (hb : Booked w) (place : Place) :
    w'.mask l r place = w.mask l r place := by
  refine mask_congr ?_ (fun hp => ?_)
  · unfold World.pollDataAt
    rw [h.data]
  · obtain ⟨p, hp⟩ := Option.ne_none_iff_exists'.mp hp
    have hregistered := h.registered place (hb.watched_positive hp) l
    unfold World.fdAt at hregistered ⊢
    rw [h.data]
    exact hregistered

/-- What one executor does leaves the others as they are. -/
theorem Effects.stance_other (he : Effects l r w w') (hb : Booked w)
    (hne : ¬ (l' = l ∧ r' = r)) : w'.stance l' r' = w.stance l' r' := by
  have hother := he.undisturbed hb hne
  exact stance_congr (by rw [hother.data]) (by rw [hother.data]) (hother.mask hb .fd0)
    (hother.mask hb .fd1)

end

end EpollHttp
