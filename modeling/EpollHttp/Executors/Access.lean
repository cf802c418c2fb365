import EpollHttp.Lib.Confined
import EpollHttp.Executors.FootprintSteps
import EpollHttp.Executors.ProxyRun
import EpollHttp.PollLoop.Deeds

/-
Which bytes an executor moves.

A class reads from some of the descriptors it holds and writes to some.  What went through any other
object, open or closed, is as it was before the call.  The descriptors of one call are the same up to
the one that is closed, so a descriptor that was read out of the data before is still the executor's
own when it is used.
-/

namespace EpollHttp

open Program

/-- The places whose objects are read from, and those whose objects are written to. -/
structure Access where
  reads : Place → Prop
  writes : Place → Prop

/-- The object is held at the place. -/
def World.HoldsAt (w : World) (l r : Nat) (place : Place) (id : Nat) : Prop :=
  w.kernel.openId? (w.fdAt l r place) = some id

/-- The object is held at one of the places. -/
def World.HoldsIn (w : World) (l r : Nat) (places : Place → Prop) (id : Nat) : Prop :=
  ∃ place, places place ∧ w.HoldsAt l r place id

/-- The write end of the pipe leads to the read end. -/
def World.Joined (w : World) (l r : Nat) : Prop :=
  ∀ id, w.HoldsAt l r .pipeWrite id → w.HoldsAt l r .pipeRead (w.kernel.readEnd id)

/-- Bytes moved through the objects of the places and of the pipe, and through no others that were
there. -/
structure Flow (a : Access) (l r : Nat) (w : World) (k : Kernel) : Prop where
  below : w.kernel.nextId ≤ k.nextId
  taken : Confined w.kernel.nextId (w.HoldsIn l r a.reads) w.kernel.taken k.taken
  ended : Confined w.kernel.nextId (w.HoldsIn l r a.reads) w.kernel.ended k.ended
  sent : Confined w.kernel.nextId (w.HoldsIn l r a.writes) w.kernel.sent k.sent
  pipes : Confined w.kernel.nextId (w.HoldsAt l r .pipeRead) w.kernel.pipes k.pipes
  readEnd : Confined w.kernel.nextId (fun _ => False) w.kernel.readEnd k.readEnd

theorem Flow.refl (a : Access) (l r : Nat) (w : World) : Flow a l r w w.kernel :=
  ⟨Nat.le_refl _, .refl _ _ _, .refl _ _ _, .refl _ _ _, .refl _ _ _, .refl _ _ _⟩

/-- What was agreed on when the connection was set up and handed over. -/
structure Terms where
  exec : Option Executor
  connectionType : Nat
  ssl : Bool
  request : HttpRequest
  proxy : Option ProxyParameters
  createTime : Int
  lastProcessTime : Int
  removeOnTimeout : Bool

def ExecutorData.terms (d : ExecutorData) : Terms where
  exec := d.pExecutor
  connectionType := d.connectionType
  ssl := d.ssl
  request := d.request
  proxy := d.proxy
  createTime := d.createTime
  lastProcessTime := d.lastProcessTime
  removeOnTimeout := d.removeOnTimeout

/-- The descriptor stands for nothing, or for an object that is new or among those that `may`. -/
def Reached (may : Nat → Prop) (w0 w : World) (fd : Int) : Prop :=
  ∀ id, w.kernel.openId? fd = some id → w0.kernel.nextId ≤ id ∨ may id

/-- What the executor `r` of the loop `l` did since `w0`; it holds the descriptors `h` on the terms
`t`. -/
structure Handling (a : Access) (l r : Nat) (w0 : World) (h : Place → Int) (t : Terms)
    (w : World) : Prop where
  did : Did l r t.exec w0 w
  terms : (w.data l r).terms = t
  flow : Flow a l r w0 w.kernel
  held : ∀ place, w.fdAt l r place = h place
  reads : ∀ place, a.reads place → Reached (w0.HoldsIn l r a.reads) w0 w (h place)
  writes : ∀ place, a.writes place → Reached (w0.HoldsIn l r a.writes) w0 w (h place)
  pipe : Reached (w0.HoldsAt l r .pipeRead) w0 w (h .pipeRead)
  joined : w.Joined l r

section
variable {a : Access} {l r : Nat} {w0 w w' : World} {h : Place → Int} {t : Terms}
variable {ans : Answers} {α : Type} {place : Place} {fd : Int}

theorem Handling.start (hb : Booked w) (huse : w.InUse l r) (hjoined : w.Joined l r) :
    Handling a l r w (w.fdAt l r) (w.data l r).terms w := by
  refine ⟨⟨.refl, hb, huse, rfl⟩, rfl, .refl a l r w, fun _ => rfl, fun place hreads id hid => ?_,
    fun place hwrites id hid => ?_, fun id hid => Or.inr hid, hjoined⟩
  · exact Or.inr ⟨place, hreads, hid⟩
  · exact Or.inr ⟨place, hwrites, hid⟩

theorem Reached.congr {may : Nat → Prop} (hr : Reached may w0 w fd)
    (hopen : w'.kernel.openId? fd = w.kernel.openId? fd) : Reached may w0 w' fd :=
  fun id hid => hr id (hopen ▸ hid)

/-- A call that moves no bytes and keeps the descriptors. -/
theorem Handling.same (H : Handling a l r w0 h t w) {t' : Terms} (hd : Did l r t'.exec w0 w')
    (hk : Kernel.SameStreams w.kernel w'.kernel)
    (hfd : ∀ place, w'.fdAt l r place = w.fdAt l r place)
    (hterms : (w'.data l r).terms = t') : Handling a l r w0 h t' w' := by
  have hopen := hk.openId?
  refine ⟨hd, hterms, ?_, fun place => (hfd place).trans (H.held place),
    fun place ha => (H.reads place ha).congr (hopen _),
    fun place ha => (H.writes place ha).congr (hopen _), H.pipe.congr (hopen _), ?_⟩
  · have hf := H.flow
    exact ⟨hk.nextId ▸ hf.below, hf.taken.congr hk.taken, hf.ended.congr hk.ended,
      hf.sent.congr hk.sent, hf.pipes.congr hk.pipes, hf.readEnd.congr hk.readEnd⟩
  · intro id hid
    unfold World.HoldsAt at hid ⊢
    rw [hopen, hfd] at hid ⊢
    rw [hk.readEnd]
    exact H.joined id hid

/-- The descriptors that were read out of the data are those that are held. -/
theorem handling_getData {f : ExecutorData → Prog α}
    (hf : ∀ d, (∀ place, d.fdAt place = h place) → Preserves (Handling a l r w0 h t) (f d)) :
    Preserves (Handling a l r w0 h t) (getData l r >>= f) := by
  intro w H
  rw [ensures_bind, ensures_getData]
  exact hf _ H.held w H

theorem handling_assign {f : ExecutorData → ExecutorData}
    (hfd : ∀ d place, (f d).fdAt place = d.fdAt place)
    (hpoll : ∀ d place, (f d).pollDataAt place = d.pollDataAt place)
    (hterms : ∀ d, (f d).terms = d.terms) :
    Preserves (Handling a l r w0 h t) (modifyData l r f) := by
  intro w H
  rw [ensures_modifyData]
  have hexec := congrArg Terms.exec (hterms (w.data l r))
  refine H.same (H.did.data ⟨hfd _, hpoll _⟩ hexec) (Kernel.SameStreams.refl _) (fun place => ?_) ?_
  · rw [World.setData_fdAt, if_pos ⟨rfl, rfl⟩]
    exact hfd _ _
  · rw [World.setData_self]
    exact (hterms _).trans H.terms

theorem handling_setState {state : ExecutorData.State} :
    Preserves (Handling a l r w0 h t) (setState l r state) :=
  handling_assign (fun _ _ => rfl) (fun _ _ => rfl) (fun _ => rfl)

theorem handling_countRetry : Preserves (Handling a l r w0 h t) (countRetry l r) :=
  handling_assign (fun _ _ => rfl) (fun _ _ => rfl) (fun _ => rfl)

theorem handling_clearRetries : Preserves (Handling a l r w0 h t) (clearRetries l r) :=
  handling_assign (fun _ _ => rfl) (fun _ _ => rfl) (fun _ => rfl)

/-! ## The epoll set -/

theorem setPollDataOf_fdAt (d : ExecutorData) (p : Nat) :
    (d.setPollDataOf fd p).fdAt place = d.fdAt place := by
  unfold ExecutorData.setPollDataOf
  split
  · cases place <;> rfl
  · split
    · cases place <;> rfl
    · rfl

theorem setPollDataOf_terms (d : ExecutorData) (p : Nat) :
    (d.setPollDataOf fd p).terms = d.terms := by
  unfold ExecutorData.setPollDataOf
  split
  · rfl
  · split <;> rfl

theorem dropPollData_fdAt (d : ExecutorData) (p : Nat) :
    (d.dropPollData p).fdAt place = d.fdAt place := by
  unfold ExecutorData.dropPollData
  split
  · cases place <;> rfl
  · split
    · cases place <;> rfl
    · rfl

theorem dropPollData_terms (d : ExecutorData) (p : Nat) : (d.dropPollData p).terms = d.terms := by
  unfold ExecutorData.dropPollData
  split
  · rfl
  · split <;> rfl

theorem handling_addPollFd {events : Nat} :
    Preserves (Handling a l r w0 h t) (addPollFd ans l r fd events) := by
  intro w H
  refine (addPollFd_spec.and (did_addPollFd w H.did)).mono (fun res w' hboth => ?_)
  obtain ⟨hadd, hd⟩ := hboth
  rcases hadd with ⟨_, p, hadded⟩ | ⟨_, rfl | hrefused⟩
  · obtain ⟨_, pollDatas, k, _, hk, rfl⟩ := hadded
    refine H.same hd (Kernel.SameStreams.ctlAdd hk) (fun place => ?_) ?_
    · rw [World.rewatch_fdAt, if_pos ⟨rfl, rfl⟩]
      exact setPollDataOf_fdAt _ _
    · rw [World.rewatch_data_self, setPollDataOf_terms]
      exact H.terms
  · exact H
  · obtain ⟨p, pollDatas, _, rfl⟩ := hrefused
    refine H.same hd (Kernel.SameStreams.refl _) (fun place => ?_) ?_
    · rw [World.rewatch_fdAt, if_pos ⟨rfl, rfl⟩]
      rfl
    · rw [World.rewatch_data_self]
      exact H.terms

theorem handling_editPollFd {events : Nat} :
    Preserves (Handling a l r w0 h t) (editPollFd ans l r fd events) := by
  intro w H
  refine (editPollFd_spec.and (did_editPollFd w H.did)).mono (fun res w' hboth => ?_)
  obtain ⟨hedit, hd⟩ := hboth
  rcases hedit with ⟨_, p, k, _, hk, rfl⟩ | ⟨_, rfl⟩
  · exact H.same hd (Kernel.SameStreams.ctlMod hk) (fun _ => rfl) H.terms
  · exact H

theorem handling_removePollFd : Preserves (Handling a l r w0 h t) (removePollFd l r fd) := by
  intro w H
  refine (removePollFd_spec.and (did_removePollFd w H.did)).mono (fun res w' hboth => ?_)
  obtain ⟨hremove, hd⟩ := hboth
  rcases hremove with ⟨_, p, hremoved⟩ | ⟨_, rfl, _⟩
  · obtain ⟨_, k, hk, rfl⟩ := hremoved
    refine H.same hd (Kernel.SameStreams.ctlDel hk) (fun place => ?_) ?_
    · rw [World.rewatch_fdAt, if_pos ⟨rfl, rfl⟩]
      exact dropPollData_fdAt _ _
    · rw [World.rewatch_data_self, dropPollData_terms]
      exact H.terms
  · exact H

/-! ## Bytes -/

/-- A change of the bytes that stays within the bounds. -/
theorem Handling.bytes (H : Handling a l r w0 h t w) {k : Kernel} (hk : w.kernel.SameTables k)
    (hflow : Flow a l r w0 k) (hreadEnd : k.readEnd = w.kernel.readEnd) :
    Handling a l r w0 h t (w.setKernel k) := by
  have hopen : ∀ fd, (w.setKernel k).kernel.openId? fd = w.kernel.openId? fd := hk.openId?
  refine ⟨H.did.bytes hk, H.terms, hflow, H.held, fun place ha => (H.reads place ha).congr (hopen _),
    fun place ha => (H.writes place ha).congr (hopen _), H.pipe.congr (hopen _), fun id hid => ?_⟩
  unfold World.HoldsAt at hid ⊢
  rw [hopen] at hid ⊢
  rw [World.setKernel_kernel, hreadEnd]
  exact H.joined id hid

theorem Handling.take (H : Handling a l r w0 h t w) {id : Nat}
    (hid : w0.kernel.nextId ≤ id ∨ w0.HoldsIn l r a.reads id) (bytes : Bytes) :
    Handling a l r w0 h t (w.setKernel (w.kernel.take id bytes)) := by
  have hf := H.flow
  exact H.bytes (Kernel.SameTables.take _ _ _) ⟨hf.below, hf.taken.update hid _,
    hf.ended.update hid _, hf.sent, hf.pipes, hf.readEnd⟩ rfl

theorem Handling.send (H : Handling a l r w0 h t w) {id : Nat}
    (hid : w0.kernel.nextId ≤ id ∨ w0.HoldsIn l r a.writes id) (bytes : Bytes) :
    Handling a l r w0 h t (w.setKernel (w.kernel.send id bytes)) := by
  have hf := H.flow
  exact H.bytes (Kernel.SameTables.send _ _ _) ⟨hf.below, hf.taken, hf.ended,
    hf.sent.update hid _, hf.pipes, hf.readEnd⟩ rfl

theorem Handling.setPipe (H : Handling a l r w0 h t w) {id : Nat}
    (hid : w.kernel.openId? (h .pipeRead) = some id) (bytes : Bytes) :
    Handling a l r w0 h t (w.setKernel (w.kernel.setPipe id bytes)) := by
  have hf := H.flow
  exact H.bytes (Kernel.SameTables.setPipe _ _ _) ⟨hf.below, hf.taken, hf.ended, hf.sent,
    hf.pipes.update (H.pipe id hid) _, hf.readEnd⟩ rfl

theorem handling_receive {id count : Nat} {answer : ReadAnswer}
    (hid : w0.kernel.nextId ≤ id ∨ w0.HoldsIn l r a.reads id) :
    Preserves (Handling a l r w0 h t) (receive id count answer) := by
  unfold receive
  cases answer.bytes with
  | none => exact Preserves.pure
  | some bytes =>
    intro w H
    rw [ensures_bind, ensures_modifyKernel, ensures_pure]
    exact H.take hid _

theorem handling_sendSome {id : Nat} {bytes : Bytes} {count : Int}
    (hid : w0.kernel.nextId ≤ id ∨ w0.HoldsIn l r a.writes id) :
    Preserves (Handling a l r w0 h t) (sendSome id bytes count) := by
  intro w H
  unfold sendSome
  rw [ensures_modifyKernel]
  exact H.send hid _

theorem handling_read {count : Nat} (ha : a.reads place) (hfd : fd = h place) :
    Preserves (Handling a l r w0 h t) (read ans fd count) := by
  intro w H
  rw [read, ensures_bind, ensures_getKernel]
  cases hid : w.kernel.openId? fd with
  | none => exact ensures_pure.mpr H
  | some id => exact handling_receive (H.reads place ha id (hfd ▸ hid)) w H

theorem handling_write {bytes : Bytes} (ha : a.writes place) (hfd : fd = h place) :
    Preserves (Handling a l r w0 h t) (write ans fd bytes) := by
  intro w H
  rw [write, ensures_bind, ensures_getKernel]
  cases hid : w.kernel.openId? fd with
  | none => exact ensures_pure.mpr H
  | some id =>
    have hmay := H.writes place ha id (hfd ▸ hid)
    exact Preserves.bind (handling_sendSome hmay) (fun _ => Preserves.pure) w H

theorem handling_sslRead {count : Nat} (ha : a.reads place) (hfd : fd = h place) :
    Preserves (Handling a l r w0 h t) (sslRead ans fd count) := by
  intro w H
  rw [sslRead, ensures_bind, ensures_getKernel]
  split
  · rename_i id c rest hid _
    rw [ensures_bind, ensures_modifyKernel, ensures_pure]
    exact H.take (H.reads place ha id (hfd ▸ hid)) _
  · exact ensures_pure.mpr H

theorem handling_sslWrite {bytes : Bytes} (ha : a.writes place) (hfd : fd = h place) :
    Preserves (Handling a l r w0 h t) (sslWrite ans fd bytes) := by
  intro w H
  rw [sslWrite, ensures_bind, ensures_getKernel]
  cases hid : w.kernel.openId? fd with
  | none => exact ensures_pure.mpr H
  | some id =>
    have hmay := H.writes place ha id (hfd ▸ hid)
    exact Preserves.bind (handling_sendSome hmay) (fun _ => Preserves.pure) w H

theorem handling_sendfile {outFd inFd count : Int} {place' : Place} (hout : a.writes place)
    (houtFd : outFd = h place) (hin : a.reads place') (hinFd : inFd = h place') :
    Preserves (Handling a l r w0 h t) (sendfile ans outFd inFd count) := by
  intro w H
  rw [sendfile, ensures_bind, ensures_getKernel]
  cases houtId : w.kernel.openId? outFd with
  | none => exact ensures_pure.mpr H
  | some outId =>
    cases hinId : w.kernel.openId? inFd with
    | none => exact ensures_pure.mpr H
    | some inId =>
      have hmayOut := H.writes place hout outId (houtFd ▸ houtId)
      have hmayIn := H.reads place' hin inId (hinFd ▸ hinId)
      refine Preserves.bind (handling_receive hmayIn) (fun received => ?_) w H
      exact Preserves.bind (handling_sendSome hmayOut) (fun _ => Preserves.pure)

/-- The pipe that is written to is the executor's own, since its ends belong together. -/
theorem handling_spliceIn {pipeFd : Int} {count : Nat} (ha : a.reads place) (hfd : fd = h place)
    (hpipe : pipeFd = h .pipeWrite) :
    Preserves (Handling a l r w0 h t) (spliceIn ans fd pipeFd count) := by
  intro w H
  rw [spliceIn, ensures_bind, ensures_getKernel]
  cases hid : w.kernel.openId? fd with
  | none => exact ensures_pure.mpr H
  | some id =>
    cases hpipeId : w.kernel.openId? pipeFd with
    | none => exact ensures_pure.mpr H
    | some pipeId =>
      dsimp only
      rw [ensures_bind]
      refine (handling_receive (H.reads place ha id (hfd ▸ hid)) w H).and
        (?_ : Ensures _ w (fun _ w1 => w1.kernel.table = w.kernel.table)) |>.mono
          (fun received w1 hboth => ?_)
      · unfold receive
        cases ans.spliceIn.bytes with
        | none => exact ensures_pure.mpr rfl
        | some bytes =>
          rw [ensures_bind, ensures_modifyKernel, ensures_pure]
          rfl
      · obtain ⟨H1, htable⟩ := hboth
        rw [ensures_bind, ensures_modifyKernel, ensures_pure]
        have hwrite : w1.HoldsAt l r .pipeWrite pipeId := by
          unfold World.HoldsAt Kernel.openId?
          rw [H1.held, ← hpipe, htable]
          exact hpipeId
        have hread := H1.joined pipeId hwrite
        unfold World.HoldsAt at hread
        rw [H1.held] at hread
        exact H1.setPipe hread _

theorem handling_spliceOut {pipeFd : Int} {count : Nat} (hpipe : pipeFd = h .pipeRead)
    (ha : a.writes place) (hfd : fd = h place) :
    Preserves (Handling a l r w0 h t) (spliceOut ans pipeFd fd count) := by
  intro w H
  rw [spliceOut, ensures_bind, ensures_getKernel]
  cases hpipeId : w.kernel.openId? pipeFd with
  | none => exact ensures_pure.mpr H
  | some pipeId =>
    cases hid : w.kernel.openId? fd with
    | none => exact ensures_pure.mpr H
    | some id =>
      dsimp only
      rw [ensures_bind, sendSome, ensures_modifyKernel, ensures_bind, ensures_modifyKernel,
        ensures_pure]
      exact (H.send (H.writes place ha id (hfd ▸ hid)) _).setPipe (hpipe ▸ hpipeId) _

/-! ## Descriptors that come and go -/

/-- The same without naming the descriptors. -/
def Handled (a : Access) (l r : Nat) (w0 : World) (t : Terms) (w : World) : Prop :=
  ∃ h, Handling a l r w0 h t w

theorem Handling.handled (H : Handling a l r w0 h t w) : Handled a l r w0 t w := ⟨h, H⟩

theorem Preserves.handled {m : Prog α} (hm : ∀ h, Preserves (Handling a l r w0 h t) m) :
    Preserves (Handled a l r w0 t) m := by
  rintro w ⟨h, H⟩
  exact (hm h w H).mono (fun _ _ H' => ⟨h, H'⟩)

/-- What is called last may be one that keeps the descriptors, or one that does not. -/
theorem handling_leads {m : Prog α} (hm : Preserves (Handling a l r w0 h t) m) :
    Leads (Handling a l r w0 h t) (Handled a l r w0 t) m :=
  hm.leads (fun _ H => H.handled)

theorem handled_leads {m : Prog α} (hm : Preserves (Handled a l r w0 t) m) :
    Leads (Handling a l r w0 h t) (Handled a l r w0 t) m :=
  Leads.of hm (fun _ H => H.handled)

theorem handled_getData {f : ExecutorData → Prog α}
    (hf : ∀ h d, (∀ place, d.fdAt place = h place) →
      Leads (Handling a l r w0 h t) (Handled a l r w0 t) (f d)) :
    Preserves (Handled a l r w0 t) (getData l r >>= f) := by
  rintro w ⟨h, H⟩
  rw [ensures_bind, ensures_getData]
  exact hf h _ H.held w H

theorem withFd_terms (d : ExecutorData) : (d.withFd place fd).terms = d.terms := by
  cases place <;> rfl

/-- One descriptor is replaced by one that stands for nothing, or for a new object. -/
theorem Handling.moved (H : Handling a l r w0 h t w) {k : Kernel}
    (hplace : place = .fd0 ∨ place = .fd1)
    (hd : Did l r t.exec w0 ((w.setKernel k).setData l r ((w.data l r).withFd place fd)))
    (hflow : Flow a l r w0 k) (hreadEnd : k.readEnd = w.kernel.readEnd)
    (hopen : ∀ place', place' ≠ place → k.openId? (h place') = w.kernel.openId? (h place'))
    (hnew : ∀ id, k.openId? fd = some id → w0.kernel.nextId ≤ id) :
    Handling a l r w0 (Function.update h place fd) t
      ((w.setKernel k).setData l r ((w.data l r).withFd place fd)) := by
  have hself : ∀ may : Nat → Prop, Reached may w0 ((w.setKernel k).setData l r
      ((w.data l r).withFd place fd)) fd := fun _ id hid => Or.inl (hnew id hid)
  have hread : (.pipeRead : Place) ≠ place := by
    rcases hplace with rfl | rfl <;> exact fun heq => nomatch heq
  have hwrite : (.pipeWrite : Place) ≠ place := by
    rcases hplace with rfl | rfl <;> exact fun heq => nomatch heq
  have hheld : ∀ place', ((w.setKernel k).setData l r ((w.data l r).withFd place fd)).fdAt l r
      place' = Function.update h place fd place' := by
    intro place'
    rw [World.setData_fdAt, if_pos ⟨rfl, rfl⟩]
    by_cases heq : place' = place
    · rw [heq, ExecutorData.withFd_fdAt_self, Function.update_self]
    · rw [ExecutorData.withFd_fdAt_of_ne _ _ _ heq, Function.update_of_ne heq]
      exact H.held place'
  refine ⟨hd, ?_, hflow, hheld, fun place' ha => ?_, fun place' ha => ?_, ?_, fun id hid => ?_⟩
  · rw [World.setData_self, withFd_terms]
    exact H.terms
  · by_cases heq : place' = place
    · rw [heq, Function.update_self]
      exact hself _
    · rw [Function.update_of_ne heq]
      exact (H.reads place' ha).congr (hopen place' heq)
  · by_cases heq : place' = place
    · rw [heq, Function.update_self]
      exact hself _
    · rw [Function.update_of_ne heq]
      exact (H.writes place' ha).congr (hopen place' heq)
  · rw [Function.update_of_ne hread]
    exact H.pipe.congr (hopen _ hread)
  · unfold World.HoldsAt at hid ⊢
    rw [hheld, Function.update_of_ne hwrite] at hid
    rw [hheld, Function.update_of_ne hread]
    have hbefore : w.HoldsAt l r .pipeWrite id := by
      unfold World.HoldsAt
      rw [H.held]
      exact (hopen _ hwrite).symm.trans hid
    have hjoined := H.joined id hbefore
    unfold World.HoldsAt at hjoined
    rw [H.held] at hjoined
    show k.openId? (h .pipeRead) = some (k.readEnd id)
    rw [hreadEnd]
    exact (hopen _ hread).trans hjoined

theorem close_nextId (k : Kernel) (fd : Int) : (k.close fd).nextId = k.nextId := by
  unfold Kernel.close
  split <;> rfl

theorem Flow.close {k : Kernel} (hf : Flow a l r w0 k) (fd : Int) :
    Flow a l r w0 (k.close fd) := by
  obtain ⟨htaken, hended, hsent, hpipes, hreadEnd⟩ := close_streams k fd
  exact ⟨(close_nextId k fd).symm ▸ hf.below, hf.taken.congr htaken, hf.ended.congr hended,
    hf.sent.congr hsent, hf.pipes.congr hpipes, hf.readEnd.congr hreadEnd⟩

theorem Flow.opened {k : Kernel} (hf : Flow a l r w0 k) (fd : Int) (accepted : Bool) :
    Flow a l r w0 (k.opened fd accepted) := by
  have hnew := hf.below
  exact ⟨Nat.le_succ_of_le hnew, hf.taken.update (Or.inl hnew) _, hf.ended.update (Or.inl hnew) _,
    hf.sent.update (Or.inl hnew) _, hf.pipes.update (Or.inl hnew) _, hf.readEnd⟩

/-- Of the descriptors that are held, a closed one is no other. -/
theorem Handling.apart (H : Handling a l r w0 h t w) {place' : Place} (hne : place' ≠ place) :
    (w.kernel.close (h place)).openId? (h place') = w.kernel.openId? (h place') := by
  by_cases heq : h place' = h place
  · have hneg : ¬ 0 < w.fdAt l r place := by
      intro hpos
      have hboth : w.fdAt l r place = w.fdAt l r place' := by
        rw [H.held, H.held, heq]
      exact hne (H.did.booked.apart l r place l r place' hpos hboth).2.2.symm
    rw [← H.held place, Kernel.close_never (H.did.booked.never _ hneg)]
  · exact Kernel.openId?_close_of_ne heq

theorem Handling.closed (H : Handling a l r w0 h t w) (hplace : place = .fd0 ∨ place = .fd1)
    (hpoll : w.pollDataAt l r place = none) :
    Handling a l r w0 (Function.update h place (-1)) t ((w.setKernel (w.kernel.close
      (w.fdAt l r place))).setData l r ((w.data l r).withFd place (-1))) := by
  refine H.moved hplace (H.did.closed place hpoll) (H.flow.close _)
    (close_streams _ _).2.2.2.2 (fun place' hne => ?_) (fun id hid => ?_)
  · rw [H.held]
    exact H.apart hne
  · have hnever := (H.did.closed place hpoll).booked.never (-1) (by decide)
    unfold Kernel.openId? at hid
    rw [show (w.kernel.close (w.fdAt l r place)).table (-1) = .never from hnever] at hid
    cases hid

theorem handled_closeFd : Preserves (Handled a l r w0 t) (closeFd l r fd) := by
  rintro w ⟨h, H⟩
  -- Either place is closed once it is watched no longer.
  have hclose : ∀ place, place = .fd0 ∨ place = .fd1 → ∀ w1, Handling a l r w0 h t w1 →
      w1.pollDataAt l r place = none → w1.fdAt l r place = w.fdAt l r place →
      Handled a l r w0 t ((w1.setKernel (w1.kernel.close (w.fdAt l r place))).setData l r
        ((w1.data l r).withFd place (-1))) := by
    intro place hplace w1 H1 hpoll hfd
    have hclosed := H1.closed hplace hpoll
    rw [hfd] at hclosed
    exact hclosed.handled
  simp only [closeFd, ensures_bind, ensures_getData, ensures_ite, ensures_when, ensures_pure,
    ensures_close, ensures_modifyData]
  refine ⟨fun _ => ⟨fun hslot => ?_, fun hslot => ?_⟩, fun _ => ⟨fun _ =>
    ⟨fun hslot => ?_, fun hslot => ?_⟩, fun _ => H.handled⟩⟩
  · have hremoved := (removePollFd_watched .fd0 H.did hslot).and (handling_removePollFd w H)
    refine Ensures.mono hremoved (fun res w1 h1 => ?_)
    obtain ⟨⟨_, _, _, hfd, hpoll⟩, H1⟩ := h1
    exact hclose .fd0 (Or.inl rfl) w1 H1 (hpoll .fd0) (hfd .fd0)
  · exact hclose .fd0 (Or.inl rfl) w H (not_not.mp hslot) rfl
  · have hremoved := (removePollFd_watched .fd1 H.did hslot).and (handling_removePollFd w H)
    refine Ensures.mono hremoved (fun res w1 h1 => ?_)
    obtain ⟨⟨_, _, _, hfd, hpoll⟩, H1⟩ := h1
    exact hclose .fd1 (Or.inr rfl) w1 H1 (hpoll .fd1) (hfd .fd1)
  · exact hclose .fd1 (Or.inr rfl) w H (not_not.mp hslot) rfl

/-- A number that may be handed out is held nowhere. -/
theorem Handling.unheld (H : Handling a l r w0 h t w) (havail : w.kernel.Available fd) :
    h place ≠ fd := by
  intro heq
  refine H.did.booked.held l r place ?_ ?_
  · rw [H.held, heq]
    exact havail.1
  · rw [H.held, heq]
    exact havail.2

/-- A socket that was opened, or none, is assigned to a place. -/
theorem Handling.socket (H : Handling a l r w0 h t w) (place : Place)
    (hplace : place = .fd0 ∨ place = .fd1)
    (hs : Socket w fd w') (hd : Did l r t.exec w0 (w'.setData l r ((w'.data l r).withFd place fd))) :
    Handled a l r w0 t (w'.setData l r ((w'.data l r).withFd place fd)) := by
  have hnone : ∀ k : Kernel, (w.setKernel k).setData l r ((w.data l r).withFd place (-1)) =
      w'.setData l r ((w'.data l r).withFd place fd) → ∀ id, k.openId? (-1) = some id →
      w0.kernel.nextId ≤ id := by
    intro k heq id hid
    have hnever := hd.booked.never (-1) (by decide)
    rw [← heq] at hnever
    unfold Kernel.openId? at hid
    rw [show k.table (-1) = .never from hnever] at hid
    cases hid
  rcases hs with ⟨rfl, rfl | ⟨sock, havail, rfl⟩⟩ | ⟨havail, rfl⟩
  · exact (H.moved (k := w'.kernel) hplace hd H.flow rfl (fun _ _ => rfl)
      (hnone w'.kernel rfl)).handled
  · refine (H.moved (k := (w.kernel.opened sock false).close sock) hplace hd
      ((H.flow.opened sock false).close sock) (close_streams _ _).2.2.2.2 (fun place' _ => ?_)
      (hnone _ rfl)).handled
    have hne : h place' ≠ sock := H.unheld havail
    rw [Kernel.openId?_close_of_ne hne, Kernel.openId?_opened_of_ne hne]
  · refine (H.moved hplace hd (H.flow.opened fd false) rfl (fun place' _ =>
      Kernel.openId?_opened_of_ne (H.unheld havail) false) (fun id hid => ?_)).handled
    rw [Kernel.openId?_opened_self] at hid
    rw [← Option.some.inj hid]
    exact H.flow.below

end

end EpollHttp
