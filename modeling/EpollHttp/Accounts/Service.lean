import EpollHttp.Accounts.Accounted

/-
The account is opened by a new connection, and every call of `process` balances it.
-/

namespace EpollHttp

open Program HttpRequest

section
variable {w w' : World} {l r id id0 : Nat} {e : Executor} {c : Answer} {fd curMillis : Int}
variable {d : ExecutorData} {k : Kernel} {ans : Answers} {events : Nat} {result : ProcessResult}

/-! ## New connections -/

theorem TransferRingBuffer.init_spec (b : TransferRingBuffer) {memory : Bytes}
    (hpos : 0 < memory.length) : (b.init memory).WellFormed ∧
      (b.init memory).bufSize = memory.length ∧ (b.init memory).unread = [] := by
  have hsize : (b.init memory).bufSize = memory.length := by
    unfold TransferRingBuffer.init bufSize
    dsimp only
    split
    · rfl
    · rename_i hsame
      exact (not_not.mp hsame).symm
  refine ⟨⟨?_, Nat.zero_le _⟩, hsize, ?_⟩
  · rw [hsize]
    exact hpos
  · rw [unread_of_le (Nat.le_refl _)]
    exact List.take_zero

theorem ExecutorData.Admits.reading {connectionType : Nat} {ssl : Bool}
    (h : d.Admits connectionType ssl) (hbegins : d.Begins e) (hopen : k.openId? d.fd0 = some id0)
    (hblank : k.Blank id0) : Reading id0 d k := by
  obtain ⟨request, hrequest⟩ := h.request
  obtain ⟨buffer, memory, hlength, hbuffer⟩ := h.buffer
  have hpos : 0 < memory.length := by
    rw [hlength]
    decide
  obtain ⟨hwf, hsize, hunread⟩ := buffer.init_spec hpos
  refine ⟨hopen, hblank.sent, ?_, ?_, ?_, ?_, ?_, hbegins.bytesInPipe, hbegins.filePosition⟩
  · rw [hbuffer]
    exact hwf
  · rw [hbuffer]
    exact hsize.trans hlength
  · rw [hbuffer]
    rfl
  · rw [hbuffer, hblank.taken]
    exact hunread
  · rw [hrequest]
    exact .start request

theorem Novel.accounted (h : Novel l r w) : Accounted w l r := by
  cases h with
  | request hbegins hadmits hblank =>
    exact .reading .request hbegins.exec (Or.inl rfl) (fun id0 hid =>
      hadmits.reading hbegins hid (hblank id0 hid))
  | sslRequest hbegins hadmits hblank =>
    exact .reading .sslRequest hbegins.exec (Or.inr rfl) (fun id0 hid =>
      hadmits.reading hbegins hid (hblank id0 hid))
  | service e he hbegins hstays => exact .service e hbegins.exec he

/-! ## The time of the call -/

theorem World.stamped_data : (w.stamped l r curMillis).data l r =
    { w.data l r with lastProcessTime := curMillis } := World.setData_self ..

theorem World.HeldOrDead.stamped (h : w.HeldOrDead l r id) :
    (w.stamped l r curMillis).HeldOrDead l r id := by
  refine h.imp (fun hheld => ?_) (fun hdead => hdead)
  unfold World.HoldsAt at hheld ⊢
  rw [World.stamped_fdAt]
  exact hheld

theorem Reads.stamped (h : Reads l r id0 w) : Reads l r id0 (w.stamped l r curMillis) := by
  unfold Reads
  rw [World.stamped_data]
  exact ⟨h.client, h.sent, h.buffer, h.size, h.front, h.held, h.session, h.pipe, h.position⟩

theorem Serving.stamped (h : Serving c e w) : Serving c e (w.stamped c.l c.r curMillis) := by
  cases h with
  | headers h => exact .headers (h.setData rfl rfl rfl rfl rfl rfl rfl rfl)
  | body h => exact .body (h.setData rfl rfl rfl rfl rfl h.buffer rfl rfl rfl)

theorem ProxyRelay.Inv.stamped {M : Medium} {c : Connection} (h : Inv M c w) :
    Inv M c (w.stamped c.l c.r curMillis) := by
  have hsame : SameTransfer (w.data c.l c.r) ((w.stamped c.l c.r curMillis).data c.l c.r) := by
    rw [World.stamped_data]
    exact ⟨rfl, rfl, rfl, rfl, rfl, rfl, rfl⟩
  cases h with
  | requesting h => exact .requesting (h.congr (h.slots.setData rfl rfl) hsame (.refl _))
  | responding q h => exact .responding q (h.congr (h.slots.setData rfl rfl) hsame (.refl _))

theorem Accounted.stamped (h : Accounted w l r) : Accounted (w.stamped l r curMillis) l r := by
  have hexec : ((w.stamped l r curMillis).data l r).pExecutor = (w.data l r).pExecutor := by
    rw [World.stamped_data]
  cases h with
  | none he => exact .none (hexec.trans he)
  | service e he hclass => exact .service e (hexec.trans he) hclass
  | reading e he hclass h =>
    refine .reading e (hexec.trans he) hclass (fun id0 hid => (h id0 ?_).stamped)
    unfold World.HoldsAt at hid ⊢
    rw [World.stamped_fdAt] at hid
    exact hid
  | answered e he hclass c h =>
    refine .answered e (hexec.trans he) hclass c ?_
    obtain ⟨rfl, rfl, hcomplete, hannounces, hserving, hfile⟩ := h
    refine ⟨rfl, rfl, ?_, hannounces, hserving.stamped, fun id hid => (hfile id hid).stamped⟩
    rw [World.stamped_data]
    exact hcomplete
  | relayed e he x hx c h =>
    refine .relayed e (hexec.trans he) x hx c ?_
    obtain ⟨rfl, rfl, hbase, hrequest, hcomplete, hinv, hserver⟩ := h
    refine ⟨rfl, rfl, hbase, hrequest, ?_, hinv.stamped, hserver.stamped⟩
    rw [World.stamped_data]
    exact hcomplete

/-! ## Calls of an executor that answers -/

/-- What a call of an executor that answers leaves of the request and of what it holds. -/
structure Answering (w : World) (l r : Nat) (e : Executor) (w' : World) : Prop where
  exec : (w'.data l r).pExecutor = some e
  request : (w'.data l r).request = (w.data l r).request
  taken : ∀ id, w.HoldsAt l r .fd0 id → w'.kernel.taken id = w.kernel.taken id
  upstream : ∀ id, w.HeldOrDead l r id → w'.HeldOrDead l r id

/-- Executors that answer read from no client. -/
theorem Executor.access_reads (h : e.successors = none) {place : Place}
    (hreads : e.access.reads place) : place = .fd1 := by
  cases e with
  | request => cases h
  | sslRequest => cases h
  | newFd => exact hreads.elim
  | server => exact hreads.elim
  | sslServer => exact hreads.elim
  | _ => exact hreads

theorem Terms.Next.answering {proxies : List ProxyParameters} {t t' : Terms}
    (h : Terms.Next proxies t t') (he : t.exec = some e) (hsuccessors : e.successors = none) :
    t' = t := by
  cases h with
  | same => rfl
  | parsed e1 _ _ _ he1 hsome =>
    obtain rfl := Option.some.inj (he.symm.trans he1)
    rw [hsuccessors] at hsome
    cases hsome
  | handedOver e1 _ _ _ _ _ he1 hsome =>
    obtain rfl := Option.some.inj (he.symm.trans he1)
    rw [hsuccessors] at hsome
    cases hsome

theorem Orderly.answering (ho : Orderly w) (he : (w.data l r).pExecutor = some e)
    (hserves : e.Serves) (hsuccessors : e.successors = none)
    (hrun : e.process ans l r fd events w = some (result, w')) : Answering w l r e w' := by
  have hb := ho.steady.ledger.booked
  have hone := ho.steady.ledger.kernel
  obtain ⟨t', ⟨h, H⟩, hnext⟩ := ho.handled he hserves hrun
  obtain rfl := hnext.answering he hsuccessors
  have hterms := H.terms
  refine ⟨(congrArg Terms.exec hterms).trans he, congrArg Terms.request hterms,
    fun id hid => H.flow.taken id (Kernel.openId?_below hid) ?_,
    fun id hid => H.did.effects.heldOrDead hb hone (Or.inr rfl) hid⟩
  rintro ⟨place, hreads, hheld⟩
  obtain rfl := Executor.access_reads hsuccessors hreads
  have hplaces := (hb.apart l r .fd0 l r .fd1 (hb.holdsAt_positive hid)
    (hone _ _ id hid hheld)).2.2
  cases hplaces

theorem Answered.served (h : Answered w l r e c) (ho : Orderly w)
    (he : (w.data l r).pExecutor = some e) (hclass : e = .file ∨ e = .sslFile) (ans : Answers)
    (fd : Int) (events : Nat) : Ensures (e.process ans l r fd events) w (fun result w' =>
      Delivered c e result w'.kernel ∧ (result = .ok → Accounted w' l r)) := by
  obtain ⟨rfl, rfl, hcomplete, hannounces, hserving, hfile⟩ := h
  intro result w' hrun
  have hpost : Serving.Post c e result w' := by
    rcases hclass with rfl | rfl
    · exact Serving.plain_post hserving result w' hrun
    · exact Serving.ssl_post hserving result w' hrun
  have hclient : w.HoldsAt c.l c.r .fd0 c.id0 := hserving.client
  have hafter : Answering w c.l c.r e w' := by
    rcases hclass with rfl | rfl
    · exact ho.answering he trivial rfl hrun
    · exact ho.answering he trivial rfl hrun
  refine ⟨hpost.delivered, fun hok => .answered e hafter.exec hclass c ⟨rfl, rfl, ?_, hannounces,
    hpost.inv hok, fun id hid => hafter.upstream id (hfile id hid)⟩⟩
  rw [hafter.taken _ hclient, hafter.request]
  exact hcomplete

theorem Relayed.served {x : ProxyRelay.Relay} {c : ProxyRelay.Connection} (h : Relayed w l r x c)
    (ho : Orderly w) (he : (w.data l r).pExecutor = some e) (hx : x.Of e) (ans : Answers)
    (fd : Int) (events : Nat) : Ensures (e.process ans l r fd events) w (fun result w' =>
      ProxyRelay.Integrity c result (w'.data l r).state w'.kernel ∧
        (result = .ok → Accounted w' l r)) := by
  obtain ⟨rfl, rfl, hbase, hrequest, hcomplete, hinv, hserver⟩ := h
  intro result w' hrun
  have hpost : ProxyRelay.Post (x.medium c) c result w' := by
    cases hx with
    | splice => exact ProxyRelay.Relay.process_post hinv result w' hrun
    | readWrite => exact ProxyRelay.Relay.process_post hinv result w' hrun
  have hafter : Answering w c.l c.r e w' := by
    cases hx with
    | splice => exact ho.answering he trivial rfl hrun
    | readWrite => exact ho.answering he trivial rfl hrun
  have htaken := hafter.taken _ hinv.client
  refine ⟨hpost.integrity, fun hok => .relayed e hafter.exec x hx c ⟨rfl, rfl, hbase,
    hrequest.trans htaken.symm, ?_, hpost.inv hok, hafter.upstream _ hserver⟩⟩
  rw [htaken, hafter.request]
  exact hcomplete

/-! ## Handing over -/

/-- A request that was read to its end. -/
structure Ready (w : World) (l r : Nat) (id0 : Nat) : Prop where
  booked : Booked w
  inUse : w.InUse l r
  joined : w.Joined l r
  alone : (w.data l r).Alone
  reads : Reads l r id0 w
  complete : Complete (w.kernel.taken id0) (w.data l r).request

/-- The class is assigned, and the request is as it was. -/
theorem Ready.taken (h : Ready w l r id0) (he : e ≠ .request ∧ e ≠ .sslRequest) :
    Ensures (RequestExecutor.setExecutor e ans l r) w (fun _ w' =>
      (w'.data l r).pExecutor = some e ∧ w'.kernel.taken id0 = w.kernel.taken id0 ∧
        Complete (w'.kernel.taken id0) (w'.data l r).request) := by
  have H := Handling.start (a := .none) h.booked h.inUse h.joined
  refine (RequestExecutor.handled_setExecutor he H h.alone).mono (fun _ w' H' => ?_)
  obtain ⟨_, H'⟩ := H'
  have htaken : w'.kernel.taken id0 = w.kernel.taken id0 :=
    H'.flow.taken id0 (Kernel.openId?_below h.reads.client) (fun ⟨_, hno, _⟩ => hno)
  have hrequest : (w'.data l r).request = (w.data l r).request := congrArg Terms.request H'.terms
  refine ⟨congrArg Terms.exec H'.terms, htaken, ?_⟩
  rw [htaken, hrequest]
  exact h.complete

/-- A successful `setExecutor` is a successful `up` of the class. -/
theorem setExecutor_up {Q : World → Prop}
    (hup : Ensures (RequestExecutor.upAnswering e ans l r)
      (w.setData l r { w.data l r with pExecutor := some e }) (fun res w' => res = 0 → Q w')) :
    Ensures (RequestExecutor.setExecutor e ans l r) w (fun result w' => result = .ok → Q w') := by
  rw [RequestExecutor.setExecutor, ensures_bind, ensures_modifyData, ensures_bind]
  refine hup.mono (fun res w' h => ?_)
  rw [ensures_ite, ensures_pure, ensures_pure]
  exact ⟨fun _ => ProcessResult.noConfusion, fun hok _ => h (not_not.mp hok)⟩

theorem Ready.reassigned (h : Ready w l r id0) :
    Reads l r id0 (w.setData l r { w.data l r with pExecutor := some e }) ∧
      Slots (w.setData l r { w.data l r with pExecutor := some e }) l r := by
  refine ⟨?_, (h.booked.slots l r).setData rfl rfl⟩
  have hreads := h.reads
  unfold Reads at hreads ⊢
  rw [World.setData_self]
  exact ⟨hreads.client, hreads.sent, hreads.buffer, hreads.size, hreads.front, hreads.held,
    hreads.session, hreads.pipe, hreads.position⟩

theorem Ready.toFile (h : Ready w l r id0) (hclass : e = .file ∨ e = .sslFile) :
    Ensures (RequestExecutor.setExecutor e ans l r) w (fun result w' =>
      result = .ok → Accounted w' l r) := by
  have he : e ≠ .request ∧ e ≠ .sslRequest := by
    rcases hclass with rfl | rfl <;> exact ⟨by decide, by decide⟩
  obtain ⟨hreads, hslots⟩ := h.reassigned (e := e)
  have hup : Ensures (RequestExecutor.upAnswering e ans l r)
      (w.setData l r { w.data l r with pExecutor := some e }) (fun res w' => res = 0 →
        ∃ c : Answer, c.l = l ∧ c.r = r ∧ c.id0 = id0 ∧ c.Announces ∧ Serving.Heading c w') := by
    rcases hclass with rfl | rfl
    · exact Serving.up_serves hreads hslots
    · exact Serving.up_serves hreads hslots
  refine ((setExecutor_up hup).and (h.taken he)).mono (fun result w' hboth hok => ?_)
  obtain ⟨hserves, hexec, htaken, hcomplete⟩ := hboth
  obtain ⟨c, rfl, rfl, rfl, hannounces, hheading⟩ := hserves hok
  exact .answered e hexec hclass c ⟨rfl, rfl, hcomplete, hannounces, .headers hheading,
    fun id hid => Or.inl (hheading.file id hid)⟩

theorem Ready.handed (h : Ready w l r id0) :
    Handed (w.setData l r { w.data l r with pExecutor := some e }) l r (w.kernel.taken id0) id0 := by
  obtain ⟨hreads, hslots⟩ := h.reassigned (e := e)
  refine ⟨hreads.client, hslots, ?_, hreads.buffer, hreads.size, hreads.front, hreads.held,
    hreads.pipe⟩
  rw [World.setData_self]
  exact h.alone.2

theorem Ready.toProxy (h : Ready w l r id0) {x : ProxyRelay.Relay} (hx : x.Of e) :
    Ensures (RequestExecutor.setExecutor e ans l r) w (fun result w' =>
      result = .ok → Accounted w' l r) := by
  have he : e ≠ .request ∧ e ≠ .sslRequest := by
    cases hx with
    | splice => exact ⟨by decide, by decide⟩
    | readWrite => exact ⟨by decide, by decide⟩
  have hhanded := h.handed (e := e)
  have hup : Ensures (RequestExecutor.upAnswering e ans l r)
      (w.setData l r { w.data l r with pExecutor := some e }) (fun res w' => res = 0 →
        ∃ c : ProxyRelay.Connection, c.l = l ∧ c.r = r ∧ c.id0 = id0 ∧ c.base = [] ∧
          c.request = w.kernel.taken id0 ∧ w'.HoldsAt l r .fd1 c.id1 ∧
          ProxyRelay.Inv (x.medium c) c w') := by
    rintro res w' hrun rfl
    have hspec : ProxyExecutor.up ans l r
        (w.setData l r { w.data l r with pExecutor := some e }) = some (0, w') := by
      cases hx with
      | splice => exact hrun
      | readWrite => exact hrun
    obtain ⟨id1, hstarted⟩ := ProxyExecutor.up_spec hhanded 0 w' hspec rfl
    refine ⟨⟨l, r, id0, id1, w.kernel.taken id0, [], hstarted.ids⟩, rfl, rfl, rfl, rfl, rfl,
      hstarted.server, ?_⟩
    have hsent := h.reads.sent
    cases hx with
    | splice => exact ProxyRelay.Relay.up_inv (x := .splice) hhanded hsent hrun hstarted.server
    | readWrite =>
      exact ProxyRelay.Relay.up_inv (x := .readWrite .sslProxy) hhanded hsent hrun hstarted.server
  refine ((setExecutor_up hup).and (h.taken he)).mono (fun result w' hboth hok => ?_)
  obtain ⟨hserves, hexec, htaken, hcomplete⟩ := hboth
  obtain ⟨c, rfl, rfl, rfl, hbase, hrequest, hserver, hinv⟩ := hserves hok
  exact .relayed e hexec x hx c ⟨rfl, rfl, hbase, hrequest.trans htaken.symm, hcomplete, hinv,
    Or.inl hserver⟩

/-! ## Calls that read a request -/

/-- What is read is kept in the buffer, and a request that is complete is handed over. -/
theorem processReadRequest_accounted {fileType proxyType : ExecutorType} {x : ProxyRelay.Relay}
    (ho : Orderly w) (he : (w.data l r).pExecutor = some e)
    (hclass : e = .request ∨ e = .sslRequest)
    (hfile : PollLoop.getExecutor fileType = .file ∨ PollLoop.getExecutor fileType = .sslFile)
    (hproxy : x.Of (PollLoop.getExecutor proxyType)) (hreads : Reads l r id0 w) :
    Ensures (RequestExecutor.processReadRequest e fileType proxyType ans l r) w
      (fun result w' => result = .ok → Accounted w' l r) := by
  have H := Handling.start (a := e.access) ho.steady.ledger.booked (ho.inUse he) (ho.joined l r)
  have hread : e.access.reads .fd0 := by
    rcases hclass with rfl | rfl <;> rfl
  rw [RequestExecutor.processReadRequest, ensures_bind]
  refine ((RequestExecutor.handling_readRequest e hread w H).and
    (reads_readRequest e w hreads)).mono (fun received w1 hboth1 => ?_)
  obtain ⟨H1, hreads1⟩ := hboth1
  rw [ensures_ite, ensures_pure, ensures_bind]
  refine ⟨fun _ => ProcessResult.noConfusion, fun _ => ?_⟩
  refine ((RequestExecutor.handling_parseRequest H1).and (reads_parseRequest hreads1)).mono
    (fun parsed w2 hboth2 => ?_)
  obtain ⟨⟨request, proxy, H2, _⟩, hreads2, hcomplete⟩ := hboth2
  have hexec : (w2.data l r).pExecutor = some e := H2.did.exec.trans he
  have halone : (w2.data l r).Alone := by
    refine (H2.did.booked.loops l).alone r ?_
    unfold ExecutorData.Requester
    rw [hexec]
    exact hclass.imp (congrArg some) (congrArg some)
  have hready : parsed = .file ∨ parsed = .proxy → Ready w2 l r id0 := fun hparsed =>
    ⟨H2.did.booked, H2.did.inUse, H2.joined, halone, hreads2, hcomplete hparsed⟩
  cases parsed with
  | file => exact (hready (Or.inl rfl)).toFile hfile
  | proxy => exact (hready (Or.inr rfl)).toProxy hproxy
  | invalid => exact ensures_pure.mpr ProcessResult.noConfusion
  | again =>
    refine ensures_pure.mpr (fun _ => .reading e hexec hclass (fun id hid => ?_))
    obtain rfl := Option.some.inj (hid.symm.trans hreads2.client)
    exact hreads2

theorem processHandshake_accounted (ho : Orderly w)
    (he : (w.data l r).pExecutor = some .sslRequest) (hreads : Reads l r id0 w) :
    Ensures (SslRequestExecutor.processHandshake ans l r) w
      (fun result w' => result = .ok → Accounted w' l r) := by
  have H := Handling.start (a := Executor.sslRequest.access) ho.steady.ledger.booked (ho.inUse he)
    (ho.joined l r)
  refine ((SslRequestExecutor.handling_processHandshake w H).and
    (reads_processHandshake w hreads)).mono (fun result w' hboth _ => ?_)
  obtain ⟨H', hreads'⟩ := hboth
  refine .reading .sslRequest (H'.did.exec.trans he) (Or.inr rfl) (fun id hid => ?_)
  obtain rfl := Option.some.inj (hid.symm.trans hreads'.client)
  exact hreads'

/-- Both classes compare the descriptor of the entry with the client's. -/
theorem reading_served (ho : Orderly w) (he : (w.data l r).pExecutor = some e)
    (hclass : e = .request ∨ e = .sslRequest) (hpos : 0 < fd)
    (hreads : ∀ id0, w.HoldsAt l r .fd0 id0 → Reads l r id0 w) :
    Ensures (e.process ans l r fd events) w (fun result w' =>
      result = .ok → Accounted w' l r) := by
  have hclient : fd = (w.data l r).fd0 → ∃ id0, Reads l r id0 w := by
    rintro rfl
    have hopen := ho.steady.ledger.booked.held l r .fd0 hpos
    obtain ⟨id0, hid⟩ := Option.ne_none_iff_exists'.mp hopen
    exact ⟨id0, hreads id0 hid⟩
  rcases hclass with rfl | rfl
  · rw [Executor.process, RequestExecutor.process, ensures_bind, ensures_getData, ensures_ite,
      ensures_pure]
    refine ⟨fun hgo => ?_, fun _ => ProcessResult.noConfusion⟩
    obtain ⟨id0, hreads⟩ := hclient hgo.2.1
    exact processReadRequest_accounted ho he (Or.inl rfl) (Or.inl rfl) .splice hreads
  · rw [Executor.process, SslRequestExecutor.process, ensures_bind, ensures_getData, ensures_ite,
      ensures_ite, ensures_pure]
    refine ⟨fun hgo => ?_, fun _ => ⟨fun hgo => ?_, fun _ => ProcessResult.noConfusion⟩⟩
    · obtain ⟨id0, hreads⟩ := hclient hgo.2
      exact processHandshake_accounted ho he hreads
    · obtain ⟨id0, hreads⟩ := hclient hgo.2.1
      exact processReadRequest_accounted ho he (Or.inr rfl) (Or.inr rfl) .readWrite hreads

end

/-! ## Runs -/

theorem upheld_accounted (parameters : ServerParameters) : Upheld parameters Accounted := by
  refine ⟨fun w l r hidle => .none hidle.exec, fun w l r hnovel => hnovel.accounted,
    fun w w' l r hb hb' hk h => h.kept hk hb hb', fun w l r curMillis h => h.stamped,
    fun w l r e ans fd events ho _ he hserves hpos h => ?_⟩
  have hnext : Ensures (e.process ans l r fd events) w (fun result w' =>
      result = .ok → Accounted w' l r) := by
    cases h with
    | none hnone =>
      rw [he] at hnone
      cases hnone
    | service e' he' hclass =>
      obtain rfl := Option.some.inj (he.symm.trans he')
      rcases hclass with rfl | rfl | rfl
      · exact hserves.elim
      · exact hserves.elim
      · exact hserves.elim
    | reading e' he' hclass h =>
      obtain rfl := Option.some.inj (he.symm.trans he')
      exact reading_served ho he hclass hpos h
    | answered e' he' hclass c h =>
      obtain rfl := Option.some.inj (he.symm.trans he')
      exact (h.served ho he hclass ans fd events).mono (fun _ _ h' => h'.2)
    | relayed e' he' x hx c h =>
      obtain rfl := Option.some.inj (he.symm.trans he')
      exact (h.served ho he hx ans fd events).mono (fun _ _ h' => h'.2)
  exact hnext.mono (fun _ _ h' hok _ => h' hok)

end EpollHttp
