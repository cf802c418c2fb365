import EpollHttp.Accounts.Serving
import EpollHttp.ProxyRelay

/-
What a connection accounts for.

Nothing is sent to a client whose request is read.  A client that is answered sent a complete
request, and what it gets is the answer to it: headers and a file, or what the upstream server
sends, which got nothing but what the client sent.
-/

namespace EpollHttp

open Program HttpRequest

/-- The file or the upstream socket is held still, or was closed. -/
def World.HeldOrDead (w : World) (l r : Nat) (id : Nat) : Prop :=
  w.HoldsAt l r .fd1 id ∨ w.kernel.Dead id

/-- The relay of a class. -/
inductive ProxyRelay.Relay.Of : Relay → Executor → Prop
  | splice : Of .splice .proxySplice
  | readWrite : Of (.readWrite .sslProxy) .sslProxy

/-- The client sent a complete request, which is answered with headers and a file. -/
structure Answered (w : World) (l r : Nat) (e : Executor) (c : Answer) : Prop where
  loop : c.l = l
  slot : c.r = r
  complete : Complete (w.kernel.taken c.id0) (w.data l r).request
  announces : c.Announces
  serving : Serving c e w
  file : ∀ id, c.file = some id → w.HeldOrDead l r id

/-- The client sent a complete request, which is forwarded. -/
structure Relayed (w : World) (l r : Nat) (x : ProxyRelay.Relay) (c : ProxyRelay.Connection) :
    Prop where
  loop : c.l = l
  slot : c.r = r
  base : c.base = []
  request : c.request = w.kernel.taken c.id0
  complete : Complete (w.kernel.taken c.id0) (w.data l r).request
  inv : ProxyRelay.Inv (x.medium c) c w
  server : w.HeldOrDead l r c.id1

inductive Accounted (w : World) (l r : Nat) : Prop
  | none (he : (w.data l r).pExecutor = none)
  | service (e : Executor) (he : (w.data l r).pExecutor = some e)
      (hclass : e = .newFd ∨ e = .server ∨ e = .sslServer)
  | reading (e : Executor) (he : (w.data l r).pExecutor = some e)
      (hclass : e = .request ∨ e = .sslRequest)
      (h : ∀ id0, w.HoldsAt l r .fd0 id0 → Reads l r id0 w)
  | answered (e : Executor) (he : (w.data l r).pExecutor = some e)
      (hclass : e = .file ∨ e = .sslFile) (c : Answer) (h : Answered w l r e c)
  | relayed (e : Executor) (he : (w.data l r).pExecutor = some e) (x : ProxyRelay.Relay)
      (hx : x.Of e) (c : ProxyRelay.Connection) (h : Relayed w l r x c)

section
variable {w w' : World} {l r id id0 : Nat} {e : Executor} {c : Answer} {fd : Int}

/-! ## What is kept -/

theorem Booked.slots (hb : Booked w) (l r : Nat) : Slots w l r := by
  have hloop := hb.loops l
  refine ⟨hloop.polls, fun p hp => (hloop.slot r .fd0 p hp).1,
    fun p hp => (hloop.slot r .fd1 p hp).1, fun p hp0 hp1 => ?_⟩
  have hslot0 : w.pollDataAt l r .fd0 = some p := hp0
  have hslot1 : w.pollDataAt l r .fd1 = some p := hp1
  have hplaces := (hb.slot_unique hslot0 hslot1).2
  cases hplaces

theorem ExecutorData.Holds.place {d : ExecutorData} (h : d.Holds fd) :
    ∃ place, d.fdAt place = fd := by
  rcases h with rfl | rfl | rfl | rfl
  · exact ⟨.fd0, rfl⟩
  · exact ⟨.fd1, rfl⟩
  · exact ⟨.pipeRead, rfl⟩
  · exact ⟨.pipeWrite, rfl⟩

theorem Kernel.table_of_openId? {k : Kernel} (h : k.openId? fd = some id) :
    k.table fd = .opened id := by
  unfold openId? Slot.openId? at h
  split at h
  · rename_i id' htable
    rw [htable, Option.some.inj h]
  · cases h

theorem World.HeldOrDead.kept (h : w.HeldOrDead l r id) (hk : Retained l r w w') :
    w'.HeldOrDead l r id ∧ w.kernel.SameObject id w'.kernel := by
  rcases h with h | h
  · exact ⟨Or.inl ((hk.holds .fd1 id).mpr h), hk.objects .fd1 id h⟩
  · obtain ⟨hdead, hobject⟩ := hk.dead id h
    exact ⟨Or.inr hdead, hobject⟩

/-- What is kept is untouched. -/
theorem Retained.untouched (hk : Retained l r w w') (hb : Booked w) (hb' : Booked w') {id1 : Nat}
    (h0 : w.HoldsAt l r .fd0 id0) (h1 : w.HeldOrDead l r id1) :
    Untouched l r [id0, id1] w w' := by
  have hends : ∀ id ∈ [id0, id1], w.kernel.SameObject id w'.kernel := by
    intro id hid
    rcases List.mem_cons.mp hid with rfl | hid
    · exact hk.objects .fd0 id h0
    · rw [List.mem_singleton.mp hid]
      exact (h1.kept hk).2
  refine ⟨hk.undisturbed.data, hb'.slots l r, fun fd hfd => ?_, fun fd hfd => ?_,
    fun id hid => (hends id hid).taken, fun id hid => (hends id hid).ended,
    fun id hid => (hends id hid).sent, fun fd hfd id hid => ?_⟩
  all_goals obtain ⟨place, rfl⟩ := hfd.place
  · by_cases hpos : 0 < w.fdAt l r place
    · obtain ⟨id, hid⟩ := Option.ne_none_iff_exists'.mp (hb.held l r place hpos)
      have hid' : w'.kernel.openId? (w.fdAt l r place) = some id :=
        (hk.undisturbed.opened place hpos).trans hid
      exact (Kernel.table_of_openId? hid').trans (Kernel.table_of_openId? hid).symm
    · exact (hb'.never _ hpos).trans (hb.never _ hpos).symm
  · by_cases hpos : 0 < w.fdAt l r place
    · exact hk.undisturbed.registered place hpos l
    · have hunwatched : ∀ {v : World}, Booked v →
          v.kernel.epoll l (w.fdAt l r place) = none := by
        intro v hv
        by_contra hreg
        exact hpos (hv.positive (hv.registered l _ hreg))
      exact (hunwatched hb').trans (hunwatched hb).symm
  · have hobject := hk.objects place id hid
    exact ⟨hobject.pipes, hobject.readEnd⟩

theorem Reads.kept (h : Reads l r id0 w) (hk : Retained l r w w') : Reads l r id0 w' := by
  have hclient : w.HoldsAt l r .fd0 id0 := h.client
  have hobject := hk.objects .fd0 id0 hclient
  have hclient' : w'.HoldsAt l r .fd0 id0 := (hk.holds .fd0 id0).mpr hclient
  unfold Reads
  refine ⟨hclient', hobject.sent.trans h.sent, ?_, ?_, ?_, ?_, ?_, ?_, ?_⟩
  all_goals rw [hk.undisturbed.data]
  · exact h.buffer
  · exact h.size
  · exact h.front
  · rw [hobject.taken]
    exact h.held
  · rw [hobject.taken]
    exact h.session
  · exact h.pipe
  · exact h.position

namespace Serving

theorem client (h : Serving c e w) : w.HoldsAt c.l c.r .fd0 c.id0 := by
  cases h with
  | headers h => exact h.client
  | body h => exact h.client

/-- The answer is not disturbed when its data, its descriptors and its bytes are as they were. -/
theorem kept (h : Serving c e w) (hk : Retained c.l c.r w w') (hb' : Booked w')
    (hfile : ∀ id, c.file = some id → w.HeldOrDead c.l c.r id) : Serving c e w' := by
  have hdata := hk.undisturbed.data
  have hcame : c.came w'.kernel = c.came w.kernel := by
    unfold Answer.came
    cases hid : c.file with
    | none => rfl
    | some id => exact ((hfile id hid).kept hk).2.taken
  have hbase : Base c w → Base c w' := by
    intro h
    refine ⟨hb'.slots _ _, (hk.holds .fd0 c.id0).mpr h.client, ?_⟩
    rw [hdata]
    exact h.buffer
  have hsent : Base c w → w'.kernel.sent c.id0 = w.kernel.sent c.id0 := fun h =>
    (hk.objects .fd0 c.id0 h.client).sent
  cases h with
  | headers h =>
    refine .headers ⟨hbase h.toBase, ?_, ?_, fun id hid => ?_, ?_, hcame.trans h.came,
      fun hsome => ?_, h.nothing, ?_⟩
    · rw [hdata]
      exact h.state
    · rw [hdata]
      exact h.front
    · exact (hk.holds .fd1 id).mpr (h.file id hid)
    · rw [hdata, hsent h.toBase]
      exact h.account
    · rw [hdata]
      exact h.toSend hsome
    · rw [hdata]
      exact h.position
  | body h =>
    refine .body ⟨hbase h.toBase, ?_, h.follows, fun id hid hat => ?_, ?_, ?_, ?_,
      fun hplain => ?_⟩
    · rw [hdata]
      exact h.state
    · rw [hdata] at hat
      exact (hk.holds .fd1 id).mpr (h.file id hid hat)
    · rw [hcame, hdata, hsent h.toBase]
      exact h.account
    · rw [hsent h.toBase]
      exact h.began
    · rw [hdata, hsent h.toBase]
      exact h.toSend
    · rw [hdata, hcame]
      exact h.plain hplain

end Serving

theorem Answered.kept (h : Answered w l r e c) (hk : Retained l r w w') (hb' : Booked w') :
    Answered w' l r e c := by
  obtain ⟨rfl, rfl, hcomplete, hannounces, hserving, hfile⟩ := h
  refine ⟨rfl, rfl, ?_, hannounces, hserving.kept hk hb' hfile,
    fun id hid => ((hfile id hid).kept hk).1⟩
  rw [(hk.objects .fd0 c.id0 hserving.client).taken, hk.undisturbed.data]
  exact hcomplete

namespace ProxyRelay

theorem Inv.client {M : Medium} {c : Connection} (h : Inv M c w) :
    w.HoldsAt c.l c.r .fd0 c.id0 := by
  cases h with
  | requesting h => exact h.client
  | responding q h => exact h.client

end ProxyRelay

theorem Relayed.kept {x : ProxyRelay.Relay} {c : ProxyRelay.Connection} (h : Relayed w l r x c)
    (hk : Retained l r w w') (hb : Booked w) (hb' : Booked w') : Relayed w' l r x c := by
  obtain ⟨rfl, rfl, hbase, hrequest, hcomplete, hinv, hserver⟩ := h
  have htaken := (hk.objects .fd0 c.id0 hinv.client).taken
  refine ⟨rfl, rfl, hbase, hrequest.trans htaken.symm, ?_,
    ProxyRelay.Relay.inv_elsewhere hinv (hk.untouched hb hb' hinv.client hserver),
    (hserver.kept hk).1⟩
  rw [htaken, hk.undisturbed.data]
  exact hcomplete

theorem Accounted.kept (h : Accounted w l r) (hk : Retained l r w w') (hb : Booked w)
    (hb' : Booked w') : Accounted w' l r := by
  have hdata := congrArg ExecutorData.pExecutor hk.undisturbed.data
  cases h with
  | none he => exact .none (hdata.trans he)
  | service e he hclass => exact .service e (hdata.trans he) hclass
  | reading e he hclass h =>
    exact .reading e (hdata.trans he) hclass (fun id0 hid =>
      (h id0 ((hk.holds .fd0 id0).mp hid)).kept hk)
  | answered e he hclass c h =>
    exact .answered e (hdata.trans he) hclass c (h.kept hk hb')
  | relayed e he x hx c h =>
    exact .relayed e (hdata.trans he) x hx c (h.kept hk hb hb')

end

end EpollHttp
