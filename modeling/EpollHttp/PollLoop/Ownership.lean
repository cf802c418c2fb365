import EpollHttp.PollLoop.Bookkeeping

/-
Who owns the descriptors of the clients.

A descriptor that `accept4` returned is owned by an entry of a queue or by one executor until it is
closed, and it is closed once, in every run in which no descriptor is closed for a second time
while it stands, or stood last, for a client.
-/

namespace EpollHttp

open Program

/-- Who may own the descriptor of a client. -/
inductive Party
  /-- The entry `i` of the queue of the loop `l`. -/
  | queue (l i : Nat)
  | executor (l r : Nat)
  deriving DecidableEq, Repr

def World.Owns (w : World) (fd : Int) : Party → Prop
  | .queue l i => (w.loops l).newFdsQueue[i]?.map NewFdData.fd = some fd
  | .executor l r => w.InUse l r ∧ (w.data l r).fd0 = fd

structure ClientsOwned (w : World) : Prop where
  opened : ∀ fd id, w.kernel.openId? fd = some id → w.kernel.accepted id = true →
    w.kernel.closes id = 0 ∧ ∃ party, w.Owns fd party ∧ ∀ other, w.Owns fd other → other = party
  closed : ∀ id < w.kernel.nextId, w.kernel.accepted id = true →
    (∀ fd, w.kernel.openId? fd ≠ some id) → w.kernel.closes id = 1

section
variable {w w' : World} {l : Nat} {fd : Int} {a : Action}

theorem Ledger.owns_unique (h : Ledger none w) (hopen : w.kernel.openId? fd ≠ none)
    {party other : Party} (hparty : w.Owns fd party) (hother : w.Owns fd other) :
    other = party := by
  have hpos := h.booked.positive hopen
  have hentry : ∀ l i, w.Owns fd (.queue l i) → ∃ d, (w.loops l).newFdsQueue[i]? = some d ∧
      d ∈ (w.loops l).newFdsQueue ∧ d.fd = fd := by
    intro l i ho
    obtain ⟨d, hd, hfd⟩ := Option.map_eq_some_iff.mp ho
    exact ⟨d, hd, List.mem_of_getElem? hd, hfd⟩
  -- What waits in a queue is held by no executor.
  have hapart : ∀ l i l' r, w.Owns fd (.queue l i) → ¬ w.Owns fd (.executor l' r) := by
    intro l i l' r hq he
    obtain ⟨d, _, hin, rfl⟩ := hentry l i hq
    obtain ⟨id, hloose⟩ := h.queue.loose l d hin
    exact hloose.2 l' r .fd0 he.2
  cases party with
  | queue l i =>
    cases other with
    | queue l' i' =>
      obtain ⟨d, hd, hin, hfd⟩ := hentry l i hparty
      obtain ⟨d', hd', hin', hfd'⟩ := hentry l' i' hother
      obtain rfl : l' = l := by
        by_contra hne
        exact h.queue.apart l' l hne d' hin' d hin (hfd'.trans hfd.symm)
      have hsame : ((w.loops l').newFdsQueue.map NewFdData.fd)[i']? =
          ((w.loops l').newFdsQueue.map NewFdData.fd)[i]? := by
        rw [List.getElem?_map, List.getElem?_map]
        exact hother.trans hparty.symm
      have hlt : i' < ((w.loops l').newFdsQueue.map NewFdData.fd).length := by
        rw [List.length_map]
        exact (List.getElem?_eq_some_iff.mp hd').1
      rw [(List.getElem?_inj hlt (h.queue.nodup l')).mp hsame]
    | executor l' r => exact absurd hother (hapart l i l' r hparty)
  | executor l r =>
    cases other with
    | queue l' i' => exact absurd hparty (hapart l' i' l r hother)
    | executor l' r' =>
      have hheld : 0 < w.fdAt l r .fd0 := by
        rw [show w.fdAt l r .fd0 = fd from hparty.2]
        exact hpos
      obtain ⟨rfl, rfl, _⟩ := h.booked.apart l r .fd0 l' r' .fd0 hheld
        (hparty.2.trans hother.2.symm)
      rfl

theorem Ledger.clientsOwned (h : Ledger none w) (hk : w.kernel.ClosedOnce) : ClientsOwned w := by
  refine ⟨fun fd id hopen hid => ⟨hk.opened fd id hopen hid, ?_⟩, hk.closed⟩
  have hne : w.kernel.openId? fd ≠ none := by
    rw [hopen]
    exact fun hnone => nomatch hnone
  have howner : ∃ party, w.Owns fd party := by
    rcases h.owner fd id hopen hid with hhand | ⟨l, d, hd, hfd⟩ | ⟨l, r, hat⟩
    · cases hhand
    · obtain ⟨i, hi⟩ := List.getElem?_of_mem hd
      exact ⟨.queue l i, Option.map_eq_some_iff.mpr ⟨d, hi, hfd⟩⟩
    · refine ⟨.executor l r, ?_, hat⟩
      by_contra hidle
      have hpos := h.booked.positive hne
      have hneg := ((h.booked.loops l).idle r hidle .fd0).1
      omega
  obtain ⟨party, hparty⟩ := howner
  exact ⟨party, hparty, fun other hother => h.owns_unique hne hparty hother⟩

/-- What is closed again, if anything, is closed and was no client. -/
def SparesClients (w : World) (a : Action) : Prop :=
  ∀ fd ∈ a.closesAgain w, w.kernel.openId? fd = none ∧
    ∀ id ∈ (w.kernel.table fd).id?, w.kernel.accepted id = false

instance (w : World) (a : Action) : Decidable (SparesClients w a) :=
  inferInstanceAs (Decidable (∀ fd ∈ a.closesAgain w, _ ∧ _))

/-- A second `close` is counted for the object that the number stood for last. -/
theorem Kernel.close_again {k : Kernel} (hclosed : k.openId? fd = none) {id : Nat}
    (hother : ∀ id' ∈ (k.table fd).id?, id' ≠ id) : (k.close fd).closes id = k.closes id := by
  unfold Kernel.openId? at hclosed
  unfold Kernel.close
  split
  · rfl
  · rename_i id' hslot
    have hne : id' ≠ id := hother id' (by rw [hslot]; rfl)
    exact Function.update_of_ne hne.symm ..
  · rename_i id' hslot
    rw [hslot] at hclosed
    cases hclosed

theorem ClosesAgain.closedOnce (hc : ClosesAgain w l fd w') (hclosed : w.kernel.openId? fd = none)
    (hclient : ∀ id ∈ (w.kernel.table fd).id?, w.kernel.accepted id = false)
    (h : w.kernel.ClosedOnce) : w'.kernel.ClosedOnce := by
  obtain ⟨next, _, rfl⟩ := hc
  obtain ⟨htable, hnextId, haccepted, _, _⟩ := Kernel.close_refused hclosed
  have hsame : ∀ id, w.kernel.accepted id = true →
      (w.kernel.close fd).closes id = w.kernel.closes id := by
    intro id hid
    refine Kernel.close_again hclosed (fun id' hid' heq => ?_)
    rw [← heq, hclient id' hid'] at hid
    cases hid
  have hopen : ∀ fd', (w.kernel.close fd).openId? fd' = w.kernel.openId? fd' :=
    Kernel.openId?_congr htable
  refine ⟨fun fd' id hfd' hid => ?_, fun id hlt hid hnone => ?_⟩
  · rw [World.setLoop_kernel, World.setKernel_kernel] at hfd' hid ⊢
    rw [haccepted] at hid
    rw [hsame id hid]
    exact h.opened fd' id ((hopen fd').symm.trans hfd') hid
  · rw [World.setLoop_kernel, World.setKernel_kernel] at hlt hid ⊢
    rw [haccepted] at hid
    rw [hsame id hid]
    exact h.closed id (hnextId ▸ hlt) hid (fun fd' hfd' => hnone fd' ((hopen fd').trans hfd'))

theorem step_owned (h : Steady w ∧ w.kernel.ClosedOnce)
    (hstep : Run.guard SparesClients World.step w a = some w') :
    Steady w' ∧ w'.kernel.ClosedOnce := by
  obtain ⟨hspares, hstep⟩ := Run.guard_some hstep
  obtain ⟨l, ht | ⟨fd, hagain, hc⟩⟩ := step_turn h.1 hstep
  · exact ⟨ht.steady h.1, ht.closedOnce h.1.ledger h.2⟩
  · obtain ⟨hclosed, hclient⟩ := hspares fd hagain
    exact ⟨hc.steady hclosed h.1, hc.closedOnce hclosed hclient h.2⟩

end

/-- The clients are owned in every state of every run in which no step closes a client again. -/
theorem run_clientsOwned {parameters : ServerParameters} {actions : List Action} {w : World}
    (hrun : Run.run (Run.guard SparesClients World.step) { parameters := parameters } actions =
      some w) : ClientsOwned w := by
  have hinv : Steady w ∧ w.kernel.ClosedOnce :=
    Run.run_invariant (fun _ _ _ h hstep => step_owned h hstep)
      ⟨steady_start parameters, fun _ _ hfd => (nomatch hfd),
        fun _ hlt => absurd hlt (Nat.not_lt_zero _)⟩ hrun
  exact hinv.1.ledger.clientsOwned hinv.2

/-- A client is accepted, waits in the queue and is taken out of it. -/
def takenClient (ans : Answers) : List Action :=
  [.init 0 { epollCreate := 3, eventfd := 4 },
    .listenPort 0 .server { socket := 5 },
    .epollWait 0 [(5, EPOLLIN)] 0,
    .continue 0 { accept4 := 6 },
    .continue 0 {},
    .epollWait 0 [(4, EPOLLIN)] 0,
    .continue 0 {},
    .continue 0 ans,
    .continue 0 {}]

def twoThreads : ServerParameters := { rootFolder := [47], threadCount := 2 }

theorem run_clientsOwned_takenClient : ∃ w,
    Run.run (Run.guard SparesClients World.step) { parameters := twoThreads } (takenClient {}) =
      some w ∧ ClientsOwned w := by
  have hrun : (Run.run (Run.guard SparesClients World.step) { parameters := twoThreads }
      (takenClient {})).isSome = true := by decide +kernel
  obtain ⟨w, hw⟩ := Option.isSome_iff_exists.mp hrun
  exact ⟨w, hw, run_clientsOwned hw⟩

/-- The client is refused by the epoll set: it is closed by `removeExecutorData` and once more by
`checkNewFd`. -/
theorem takenClient_closedTwice : ∃ w,
    Run.run World.step { parameters := twoThreads } (takenClient { epollAdd := false }) = some w ∧
      ¬ ClientsOwned w := by
  have hrun : (Run.run World.step { parameters := twoThreads }
      (takenClient { epollAdd := false })).map (fun w =>
        (w.kernel.nextId, w.kernel.accepted 3, w.kernel.closes 3)) = some (4, true, 2) := by
    decide +kernel
  obtain ⟨w, hw, heq⟩ := Option.map_eq_some_iff.mp hrun
  obtain ⟨hnextId, hid, hcloses⟩ : w.kernel.nextId = 4 ∧ w.kernel.accepted 3 = true ∧
      w.kernel.closes 3 = 2 := by simpa using heq
  refine ⟨w, hw, fun howned => ?_⟩
  by_cases hopen : ∃ fd, w.kernel.openId? fd = some 3
  · obtain ⟨fd, hfd⟩ := hopen
    have hzero := (howned.opened fd 3 hfd hid).1
    rw [hcloses] at hzero
    cases hzero
  · have hone := howned.closed 3 (by rw [hnextId]; decide) hid
      (fun fd hfd => hopen ⟨fd, hfd⟩)
    rw [hcloses] at hone
    cases hone

end EpollHttp
