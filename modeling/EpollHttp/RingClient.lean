import EpollHttp.TransferRingBuffer

/-
Users of a ring buffer.

A user starts and ends writes and reads, stores bytes through the window of a write, and
clears the buffer.  Whatever the order of these calls, the buffer is a queue: what was
consumed is what was produced, up to the bytes that are still unread.
-/

namespace EpollHttp
namespace RingClient

open TransferRingBuffer

/-- The buffer, the windows of the latest successful starts that no end has closed, and the bytes
that went in and out since the last `clear`. -/
structure Client where
  rb : TransferRingBuffer
  writing : Option Window := none
  reading : Option Window := none
  produced : Bytes := []
  consumed : Bytes := []

inductive Call
  | clear
  | startWrite
  | store (i : Nat) (c : UInt8)
  | endWrite (k : Nat)
  | startRead
  | endRead (k : Nat)

/-- A call that closes no open window, or more than it, is refused. -/
def step (s : Client) : Call → Option Client
  | .clear => some { rb := s.rb.clear }
  | .startWrite =>
    some { s with rb := s.rb.startWrite.2, writing := s.rb.startWrite.1.or s.writing }
  | .store i c =>
    match s.writing with
    | some w => if i < w.size then some { s with rb := s.rb.store (w.start + i) c } else none
    | none => none
  | .endWrite k =>
    match s.writing with
    | some w =>
      if k ≤ w.size then
        some { s with
          rb := s.rb.endWrite k
          writing := none
          produced := s.produced ++ s.rb.slice w.start (w.start + k) }
      else none
    | none => none
  | .startRead => some { s with reading := s.rb.startRead.or s.reading }
  | .endRead k =>
    match s.reading with
    | some w =>
      if k ≤ w.size then
        some { s with
          rb := s.rb.endRead k
          reading := none
          consumed := s.consumed ++ s.rb.slice w.start (w.start + k) }
      else none
    | none => none

/-- A buffer just made over some memory. -/
def fresh (memory : Bytes) : Client := { rb := { buf := memory } }

/-- The queue that the client sees. -/
structure Inv (n : Nat) (s : Client) (q : Fifo UInt8) : Prop where
  wellFormed : s.rb.WellFormed
  size : s.rb.bufSize = n
  produced : s.produced = q.put
  consumed : s.consumed = q.got
  unread : s.rb.unread = q.held
  writing : ∀ w, s.writing = some w → s.rb.WriteWindow w
  reading : ∀ w, s.reading = some w → s.rb.ReadWindow w

theorem inv_fresh {memory : Bytes} (h : 1 ≤ memory.length) :
    Inv memory.length (fresh memory) Fifo.empty where
  wellFormed := ⟨h, Nat.zero_le _⟩
  size := rfl
  produced := rfl
  consumed := rfl
  unread := unread_of_le (Nat.le_refl 0)
  writing := fun w h => by simp [fresh] at h
  reading := fun w h => by simp [fresh] at h

section
variable {n : Nat} {s : Client} {q : Fifo UInt8}

theorem inv_clear (h : Inv n s q) : Inv n { rb := s.rb.clear } Fifo.empty where
  wellFormed := ⟨Nat.lt_of_le_of_lt (Nat.zero_le _) h.wellFormed.readHead, Nat.zero_le _⟩
  size := h.size
  produced := rfl
  consumed := rfl
  unread := unread_of_le (Nat.le_refl 0)
  writing := fun w hw => by simp at hw
  reading := fun w hr => by simp at hr

theorem inv_startWrite (h : Inv n s q) :
    Inv n { s with rb := s.rb.startWrite.2, writing := s.rb.startWrite.1.or s.writing } q := by
  obtain ⟨hwf, hunread, hbuf, _, hcase⟩ := startWrite_snd h.wellFormed
  refine ⟨hwf, (congrArg List.length hbuf).trans h.size, h.produced, h.consumed,
    hunread.trans h.unread, fun w hw => ?_, fun w hr => (h.reading w hr).startWrite h.wellFormed⟩
  cases hstart : s.rb.startWrite.1 with
  | some v =>
    have heq : v = w := by
      have hor : s.rb.startWrite.1.or s.writing = some w := hw
      rw [hstart] at hor
      exact Option.some.inj hor
    rw [← heq]
    exact startWrite_some h.wellFormed hstart
  | none =>
    -- An open window keeps the write head in front of the end, so nothing was wrapped.
    have hold : s.writing = some w := by
      have hor : s.rb.startWrite.1.or s.writing = some w := hw
      rwa [hstart] at hor
    have hwindow := h.writing w hold
    have hpos := hwindow.pos
    have hinside := hwindow.inside
    have hstart' := hwindow.start
    rcases hcase with heq | ⟨hwrap, _, _⟩
    · show s.rb.startWrite.2.WriteWindow w
      rw [heq]
      exact hwindow
    · omega

theorem inv_store {w : Window} (h : Inv n s q) (hw : s.writing = some w) {i : Nat}
    (hi : i < w.size) (c : UInt8) : Inv n { s with rb := s.rb.store (w.start + i) c } q := by
  have hfree := (h.writing w hw).not_unread (Nat.le_add_right w.start i) (by omega)
  have hsize := store_bufSize s.rb (w.start + i) c
  refine ⟨⟨by rw [hsize]; exact h.wellFormed.readHead, by rw [hsize]; exact h.wellFormed.writeHead⟩,
    hsize.trans h.size, h.produced, h.consumed, (store_unread c hfree).trans h.unread,
    fun v hv => ?_, fun v hv => ?_⟩
  · have hwin := h.writing v hv
    exact ⟨hwin.start, hwin.pos, by rw [hsize]; exact hwin.inside, hwin.free⟩
  · have hwin := h.reading v hv
    exact ⟨hwin.start, hwin.pos, by rw [hsize]; exact hwin.inside, hwin.unread⟩

theorem inv_endWrite {w : Window} (h : Inv n s q) (hw : s.writing = some w) {k : Nat}
    (hk : k ≤ w.size) :
    Inv n
      { s with
        rb := s.rb.endWrite k
        writing := none
        produced := s.produced ++ s.rb.slice w.start (w.start + k) }
      (q.write (s.rb.slice w.start (w.start + k))) := by
  have hwin := h.writing w hw
  refine ⟨endWrite_wellFormed h.wellFormed hwin hk, h.size, congrArg (· ++ _) h.produced,
    h.consumed, ?_, fun v hv => by simp at hv, fun v hv => (h.reading v hv).endWrite hwin hk⟩
  show (s.rb.endWrite k).unread = _
  rw [endWrite_unread hwin hk, h.unread]
  rfl

theorem inv_startRead (h : Inv n s q) :
    Inv n { s with reading := s.rb.startRead.or s.reading } q := by
  refine ⟨h.wellFormed, h.size, h.produced, h.consumed, h.unread, h.writing, fun w hr => ?_⟩
  have hor : s.rb.startRead.or s.reading = some w := hr
  cases hstart : s.rb.startRead with
  | some v =>
    rw [hstart] at hor
    rw [← Option.some.inj hor]
    exact startRead_some h.wellFormed hstart
  | none =>
    rw [hstart] at hor
    exact h.reading w hor

theorem inv_endRead {w : Window} (h : Inv n s q) (hr : s.reading = some w) {k : Nat}
    (hk : k ≤ w.size) :
    Inv n
      { s with
        rb := s.rb.endRead k
        reading := none
        consumed := s.consumed ++ s.rb.slice w.start (w.start + k) }
      (q.read k) := by
  have hwin := h.reading w hr
  have hsize : (s.rb.endRead k).bufSize = s.rb.bufSize := by
    unfold endRead
    split <;> rfl
  refine ⟨endRead_wellFormed h.wellFormed hwin hk, hsize.trans h.size, h.produced, ?_, ?_,
    fun v hv => (h.writing v hv).endRead h.wellFormed hwin hk, fun v hv => by simp at hv⟩
  · show s.consumed ++ _ = q.got ++ q.held.take k
    rw [hwin.slice_eq h.wellFormed hk, h.consumed, h.unread]
  · show (s.rb.endRead k).unread = q.held.drop k
    rw [endRead_unread h.wellFormed hwin hk, h.unread]

/-- Every call is a call on the queue, or leaves the queue alone. -/
theorem inv_step {s' : Client} {c : Call} (h : ∃ q, Inv n s q) (hstep : step s c = some s') :
    ∃ q, Inv n s' q := by
  obtain ⟨q, h⟩ := h
  cases c with
  | clear => exact ⟨_, Option.some.inj hstep ▸ inv_clear h⟩
  | startWrite => exact ⟨_, Option.some.inj hstep ▸ inv_startWrite h⟩
  | store i c =>
    simp only [step] at hstep
    split at hstep
    · rename_i w hw
      split at hstep
      · rename_i hi
        exact ⟨_, Option.some.inj hstep ▸ inv_store h hw hi c⟩
      · simp at hstep
    · simp at hstep
  | endWrite k =>
    simp only [step] at hstep
    split at hstep
    · rename_i w hw
      split at hstep
      · rename_i hk
        exact ⟨_, Option.some.inj hstep ▸ inv_endWrite h hw hk⟩
      · simp at hstep
    · simp at hstep
  | startRead => exact ⟨_, Option.some.inj hstep ▸ inv_startRead h⟩
  | endRead k =>
    simp only [step] at hstep
    split at hstep
    · rename_i w hr
      split at hstep
      · rename_i hk
        exact ⟨_, Option.some.inj hstep ▸ inv_endRead h hr hk⟩
      · simp at hstep
    · simp at hstep

end

/-! ## The buffer is a queue -/

/-- What a user may rely on. -/
structure Lossless (n : Nat) (s : Client) : Prop where
  /-- Consumed bytes are the produced bytes in order; the rest is unread. -/
  order : s.produced = s.consumed ++ s.rb.unread
  writeInside : ∀ w, s.writing = some w → w.start + w.size ≤ n
  readInside : ∀ w, s.reading = some w → w.start + w.size ≤ n
  writeFree : ∀ w, s.writing = some w →
    ∀ i, w.start ≤ i → i < w.start + w.size → ¬ s.rb.IsUnread i
  readFront : ∀ w, s.reading = some w → s.rb.slice w.start (w.start + w.size) <+: s.rb.unread
  readFails : s.rb.startRead = none ↔ s.rb.unread = []
  writeFails : s.rb.startWrite.1 = none → n - 1 ≤ s.rb.unread.length

theorem Inv.lossless {n : Nat} {s : Client} {q : Fifo UInt8} (h : Inv n s q) : Lossless n s where
  order := by rw [h.produced, h.consumed, h.unread, q.order]
  writeInside := fun w hw => h.size ▸ (h.writing w hw).inside
  readInside := fun w hr => h.size ▸ (h.reading w hr).inside
  writeFree := fun w hw i h1 h2 => (h.writing w hw).not_unread h1 h2
  readFront := fun w hr => ⟨_, ((h.reading w hr).front h.wellFormed (Nat.le_refl w.size)).symm⟩
  readFails := startRead_none_iff h.wellFormed
  writeFails := fun hnone => h.size ▸ startWrite_none h.wellFormed hnone

/-- For every capacity and every sequence of calls the ring buffer is a lossless queue. -/
theorem run_lossless {memory : Bytes} (hsize : 1 ≤ memory.length) {calls : List Call}
    {s : Client} (h : Run.run step (fresh memory) calls = some s) :
    Lossless memory.length s := by
  have hinv : ∃ q, Inv memory.length s q :=
    Run.run_invariant (fun _ _ _ hq hstep => inv_step hq hstep) ⟨_, inv_fresh hsize⟩ h
  obtain ⟨q, hq⟩ := hinv
  exact hq.lossless

/-- Two bytes of memory: a write that wraps while a read window is open. -/
theorem run_lossless_wrap :
    ∃ s, Run.run step (fresh [0, 0])
      [.startWrite, .store 0 7, .store 1 8, .endWrite 2, .startRead, .endRead 1, .startRead,
        .startWrite, .endRead 1] = some s ∧ Lossless 2 s := by
  have hsome : (Run.run step (fresh [0, 0])
      [.startWrite, .store 0 7, .store 1 8, .endWrite 2, .startRead, .endRead 1, .startRead,
        .startWrite, .endRead 1]).isSome = true := by decide
  obtain ⟨s, hs⟩ := Option.isSome_iff_exists.mp hsome
  exact ⟨s, hs, run_lossless (by decide) hs⟩

end RingClient
end EpollHttp
