import EpollHttp.PollLoop.Bookkeeping
import EpollHttp.PollLoop.Registrations

/-
Whom an entry of the epoll set reaches.

An entry is handled for the executor and the descriptor it was reported for, in every run in which
the item that it points to was not handed out again and no descriptor of somebody else is closed.
-/

namespace EpollHttp

open Program

/-- The entry that a step looks at, with its loop. -/
def Action.drains (a : Action) (w : World) : Option (Nat × EpollEvent) :=
  match a with
  | .continue l _ =>
    match (w.loops l).phase with
    | .draining _ (event :: _) => some (l, event)
    | _ => none
  | _ => none

/-- The entry is for the descriptor `fd` of the executor `r`, which are registered as they were
when it was reported. -/
structure World.Reaches (w : World) (l : Nat) (event : EpollEvent) (r : Nat) (fd : Int) : Prop where
  executor : event.execData = some r
  incarnation : (w.loops l).incarnation r = event.incarnation
  descriptor : event.fd = fd
  registered : ∃ reg, w.kernel.epoll l fd = some reg ∧ reg.serial = event.serial

/-- What `run` does about the entry, it does to whom the entry was reported for. -/
def World.DeliversRight (w : World) (l : Nat) (event : EpollEvent) : Prop :=
  match w.delivery l event with
  | .skipped => True
  | .removed r => w.Reaches l event r (w.data l r).fd0
  | .processed r fd => w.Reaches l event r fd

/-- The item of the entry was not handed out again to another registration. -/
def World.ItemKept (w : World) (l : Nat) (event : EpollEvent) : Prop :=
  ∀ reg ∈ w.kernel.epoll l (w.pollData l event.ptr).fd, reg.ptr = event.ptr →
    reg.serial = event.serial

instance (w : World) (l : Nat) (event : EpollEvent) : Decidable (w.ItemKept l event) :=
  inferInstanceAs (Decidable (∀ reg ∈ w.kernel.epoll l _, _ → _))

/-- No descriptor is closed that is open, and no item is handed out while an entry points to it. -/
def KeepsItems (w : World) (a : Action) : Prop :=
  (∀ fd ∈ a.closesAgain w, w.kernel.openId? fd = none) ∧
    ∀ entry ∈ a.drains w, w.ItemKept entry.1 entry.2

instance (w : World) (a : Action) : Decidable (KeepsItems w a) :=
  inferInstanceAs (Decidable ((∀ fd ∈ a.closesAgain w, _) ∧ ∀ entry ∈ a.drains w, _))

section
variable {w w' : World} {l r : Nat} {fd : Int} {a : Action} {event : EpollEvent}

theorem delivery_removed_fd (h : w.delivery l event = .removed r) :
    (w.pollData l event.ptr).fd = (w.data l r).fd0 := by
  unfold World.delivery at h
  dsimp only at h
  split at h
  · cases h
  · split at h
    · cases h
    · split at h
      · rename_i hclosed
        rw [← Delivery.removed.inj h]
        exact hclosed.2
      · cases h

/-- An item that belongs to an executor leads to the registration of the entry. -/
theorem reaches_of_kept (hb : Booked w) (hlive : (w.loops l).phase.Live)
    (hknown : Known w l event) (hkept : w.ItemKept l event)
    (hexec : (w.pollData l event.ptr).execData = some r) :
    w.Reaches l event r (w.pollData l event.ptr).fd := by
  obtain ⟨_, place, hslot, hfd⟩ := hb.points hlive hexec
  obtain ⟨_, _, reg, hreg, hptr⟩ := (hb.loops l).slot r place event.ptr hslot
  rw [← hfd] at hreg
  have hserial := hkept reg hreg hptr
  obtain ⟨_, hevent, _, hdata, hinc⟩ := hknown.registered l _ reg hreg hserial
  have hexecutor : event.execData = some r := hdata.symm.trans hexec
  exact ⟨hexecutor, hinc r hexecutor, hevent.symm, reg, hreg, hserial⟩

theorem deliversRight_of_kept (hb : Booked w) (hlive : (w.loops l).phase.Live)
    (hknown : Known w l event) (hkept : w.ItemKept l event) : w.DeliversRight l event := by
  unfold World.DeliversRight
  cases hdel : w.delivery l event with
  | skipped => trivial
  | removed r =>
    dsimp only
    rw [← delivery_removed_fd hdel]
    exact reaches_of_kept hb hlive hknown hkept (delivery_removed hdel)
  | processed r fd =>
    obtain ⟨hexec, hfd⟩ := delivery_processed hdel
    dsimp only
    rw [← hfd]
    exact reaches_of_kept hb hlive hknown hkept hexec

theorem drains_phase (h : a.drains w = some (l, event)) :
    ∃ curMillis pending, (w.loops l).phase = .draining curMillis (event :: pending) := by
  unfold Action.drains at h
  split at h
  · split at h
    · rename_i l' _ curMillis event' pending hphase
      obtain ⟨rfl, rfl⟩ := Prod.mk.inj (Option.some.inj h)
      exact ⟨curMillis, pending, hphase⟩
    · cases h
  · cases h

theorem step_awaited (h : Steady w ∧ Awaited w)
    (hstep : Run.guard KeepsItems World.step w a = some w') : Steady w' ∧ Awaited w' := by
  obtain ⟨hkeeps, hstep⟩ := Run.guard_some hstep
  obtain ⟨l, ht | ⟨fd, hagain, hc⟩⟩ := step_turn h.1 hstep
  · exact ⟨ht.steady h.1, ht.awaited h.1.ledger h.2⟩
  · have hclosed := hkeeps.1 fd hagain
    exact ⟨hc.steady hclosed h.1, hc.awaited hclosed h.1 h.2⟩

theorem awaited_start (parameters : ServerParameters) : Awaited { parameters := parameters } :=
  ⟨⟨fun _ _ _ hreg => (nomatch hreg), fun _ _ _ _ _ _ hreg => (nomatch hreg)⟩,
    fun _ _ hin => (nomatch hin)⟩

end

/-- Every step of every run that keeps the items handles its entry for whom it was reported for. -/
theorem run_deliversRight {parameters : ServerParameters} {actions : List Action} {w w' : World}
    (hrun : Run.run (Run.guard KeepsItems World.step) { parameters := parameters } actions = some w)
    {a : Action} (hstep : Run.guard KeepsItems World.step w a = some w') {l : Nat}
    {event : EpollEvent} (hentry : a.drains w = some (l, event)) : w.DeliversRight l event := by
  have hinv : Steady w ∧ Awaited w :=
    Run.run_invariant (fun _ _ _ h hs => step_awaited h hs)
      ⟨steady_start parameters, awaited_start parameters⟩ hrun
  obtain ⟨curMillis, pending, hphase⟩ := drains_phase hentry
  refine deliversRight_of_kept hinv.1.ledger.booked ?_ (hinv.2.known l event ?_)
    ((Run.guard_some hstep).1.2 (l, event) hentry)
  · rw [hphase]
    trivial
  · rw [hphase]
    exact List.mem_cons_self

/-- `GET / HTTP` with one header. -/
def proxiedRequest : Bytes :=
  [71, 69, 84, 32, 47, 32, 72, 84, 84, 80, 13, 10, 65, 58, 32, 98, 13, 10, 13, 10]

def proxying : ServerParameters where
  rootFolder := [47]
  proxies := [{ urlPrefix := [47], connectionType := ConnectionType.clear, socketType := .tcp }]

/-- A client is answered by an upstream server, takes one byte of two and is watched from then on,
as the server is. -/
def proxiedClient : List Action :=
  [.init 0 { epollCreate := 3, eventfd := 4 },
    .listenPort 0 .server { socket := 5 },
    .epollWait 0 [(5, EPOLLIN)] 0,
    .continue 0 { accept4 := 6 },
    .continue 0 {},
    .epollWait 0 [(6, EPOLLIN)] 0,
    .continue 0 { read := { bytes := some proxiedRequest }, socket := 7 },
    .continue 0 {},
    .epollWait 0 [(7, EPOLLOUT)] 0,
    .continue 0 { write := { count := 20 }, pipe2 := some (8, 9) },
    .continue 0 {},
    .epollWait 0 [(7, EPOLLIN)] 0,
    .continue 0 { spliceIn := { bytes := some [1, 2] }, spliceOut := { count := 1 } },
    .continue 0 {}]

/-- The client hangs up, so that both registrations are removed, while an entry of the upstream
server and one of the listening socket are pending. -/
def clientGone : List Action :=
  proxiedClient ++ [.epollWait 0 [(6, EPOLLRDHUP), (7, EPOLLIN), (5, EPOLLIN)] 0, .continue 0 {}]

/-- The entry of the upstream server is dropped, and the next one reaches the listening socket. -/
theorem run_deliversRight_proxiedClient : ∃ w w' w'' event event',
    Run.run (Run.guard KeepsItems World.step) { parameters := proxying } clientGone = some w ∧
      (Action.continue 0 {}).drains w = some (0, event) ∧ event.fd = 7 ∧
      w.delivery 0 event = .skipped ∧
      Run.guard KeepsItems World.step w (.continue 0 {}) = some w' ∧
      (Action.continue 0 { accept4 := 10 }).drains w' = some (0, event') ∧
      w'.delivery 0 event' = .processed 1 5 ∧
      Run.guard KeepsItems World.step w' (.continue 0 { accept4 := 10 }) = some w'' ∧
      w.DeliversRight 0 event ∧ w'.DeliversRight 0 event' := by
  have hrun : (Run.run (Run.guard KeepsItems World.step) { parameters := proxying }
      clientGone).bind (fun w => (Run.guard KeepsItems World.step w (.continue 0 {})).map
        (fun w' => (((Action.continue 0 {}).drains w).map (fun entry =>
            (entry.1, entry.2.fd, w.delivery 0 entry.2)),
          ((Action.continue 0 { accept4 := 10 }).drains w').map (fun entry =>
            (entry.1, w'.delivery 0 entry.2)),
          (Run.guard KeepsItems World.step w' (.continue 0 { accept4 := 10 })).isSome))) =
      some (some (0, 7, .skipped), some (0, .processed 1 5), true) := by
    decide +kernel
  obtain ⟨w, hw, hnext⟩ := Option.bind_eq_some_iff.mp hrun
  obtain ⟨w', hw', heq⟩ := Option.map_eq_some_iff.mp hnext
  obtain ⟨hdropped, heq⟩ := Prod.mk.inj heq
  obtain ⟨hreached, hsome⟩ := Prod.mk.inj heq
  obtain ⟨w'', hw''⟩ := Option.isSome_iff_exists.mp hsome
  obtain ⟨⟨l, event⟩, hentry, heq⟩ := Option.map_eq_some_iff.mp hdropped
  obtain ⟨rfl, hfd, hdel⟩ : l = 0 ∧ event.fd = 7 ∧ w.delivery 0 event = .skipped := by
    simpa using heq
  obtain ⟨⟨l, event'⟩, hentry', heq'⟩ := Option.map_eq_some_iff.mp hreached
  obtain ⟨rfl, hdel'⟩ := Prod.mk.inj heq'
  have hboth : Run.run (Run.guard KeepsItems World.step) { parameters := proxying }
      (clientGone ++ [.continue 0 {}]) = some w' := Run.run_append hw (Run.run_one hw')
  exact ⟨w, w', w'', event, event', hw, hentry, hfd, hdel, hw', hentry', hdel', hw'',
    run_deliversRight hw hw' hentry, run_deliversRight hboth hw'' hentry'⟩

/-- The client hangs up, and the next one gets the item of the upstream server while the entry of
the server is pending: `process` is called for the new client with the events of the server. -/
theorem proxiedClient_misdelivered : ∃ w w' event,
    Run.run World.step { parameters := proxying } (proxiedClient ++
        [.epollWait 0 [(6, EPOLLRDHUP), (5, EPOLLIN), (7, EPOLLIN)] 0, .continue 0 {},
          .continue 0 { accept4 := 10 }]) = some w ∧
      w.step (.continue 0 {}) = some w' ∧
      (Action.continue 0 {}).drains w = some (0, event) ∧ ¬ w.DeliversRight 0 event := by
  have hrun : ((Run.run World.step { parameters := proxying } (proxiedClient ++
      [.epollWait 0 [(6, EPOLLRDHUP), (5, EPOLLIN), (7, EPOLLIN)] 0, .continue 0 {},
        .continue 0 { accept4 := 10 }])).map (fun w =>
          ((w.step (.continue 0 {})).isSome,
            ((Action.continue 0 {}).drains w).map (fun entry =>
              (entry.1, entry.2.fd, w.delivery 0 entry.2))))) =
        some (true, some (0, 7, .processed 2 10)) := by
    decide +kernel
  obtain ⟨w, hw, hnext⟩ := Option.map_eq_some_iff.mp hrun
  obtain ⟨hsome, hdrains⟩ := Prod.mk.inj hnext
  obtain ⟨w', hw'⟩ := Option.isSome_iff_exists.mp hsome
  obtain ⟨⟨l, event⟩, hentry, heq⟩ := Option.map_eq_some_iff.mp hdrains
  obtain ⟨hl, hfd, hdel⟩ : l = 0 ∧ event.fd = 7 ∧ w.delivery 0 event = .processed 2 10 := by
    simpa using heq
  refine ⟨w, w', event, hw, hw', hl ▸ hentry, fun hright => ?_⟩
  unfold World.DeliversRight at hright
  rw [hdel] at hright
  have hdescriptor := hright.descriptor
  rw [hfd] at hdescriptor
  cases hdescriptor

end EpollHttp
