import EpollHttp.RingClient

/-
The unread window while its reader waits.

A reader that could not take the bytes of its window comes back for them later, and writes may go
on in between.  The write head wraps behind the read head and `startRead` changes its formula, but
the window stays where it is, keeps its bytes, and can only become larger.
-/

namespace EpollHttp
namespace TransferRingBuffer

/-- Once `w` was seen in `b`: what is still to be seen of it in `b'`. -/
structure Keeps (w : Window) (b b' : TransferRingBuffer) : Prop where
  readHead : b'.readHead = b.readHead
  size : b.readSize ≤ b'.readSize
  bytes : b'.slice w.start (w.start + w.size) = b.slice w.start (w.start + w.size)

theorem Keeps.refl (w : Window) (b : TransferRingBuffer) : Keeps w b b :=
  ⟨rfl, Nat.le_refl _, rfl⟩

theorem Keeps.trans {w : Window} {b c d : TransferRingBuffer} (h : Keeps w b c)
    (h' : Keeps w c d) : Keeps w b d :=
  ⟨h'.readHead.trans h.readHead, h.size.trans h'.size, h'.bytes.trans h.bytes⟩

section
variable {b : TransferRingBuffer} {w : Window}

/-- The write head wraps only behind a reader, and both formulas give the same size there. -/
theorem startWrite_readSize (hb : b.WellFormed) : b.startWrite.2.readSize = b.readSize := by
  obtain ⟨_, _, hbuf, hread, hcase⟩ := startWrite_snd hb
  rcases hcase with heq | ⟨hwrap, hne, hzero⟩
  · rw [heq]
  · have hlt := hb.readHead
    have hsize : b.startWrite.2.bufSize = b.bufSize := congrArg List.length hbuf
    unfold readSize
    rw [hread, hzero, hsize, if_neg (Nat.not_lt_zero _), if_pos (Nat.pos_of_ne_zero hne),
      if_pos (hwrap ▸ hlt), hwrap]

theorem startWrite_keeps (hb : b.WellFormed) (w : Window) : Keeps w b b.startWrite.2 := by
  obtain ⟨_, _, hbuf, hread, _⟩ := startWrite_snd hb
  refine ⟨hread, Nat.le_of_eq (startWrite_readSize hb).symm, ?_⟩
  unfold slice
  rw [hbuf]

/-- In front of the read head the size does not change; behind it, it grows with the write. -/
theorem endWrite_readSize (hw : b.WriteWindow w) {k : Nat} (hk : k ≤ w.size) :
    b.readSize ≤ (b.endWrite k).readSize := by
  have hstart := hw.start
  have hfree := hw.free
  unfold readSize
  show _ ≤ if b.readHead < b.writeHead + k then b.writeHead + k - b.readHead
    else if b.writeHead + k < b.readHead then b.bufSize - b.readHead else 0
  by_cases hlt : b.readHead < b.writeHead
  · rw [if_pos hlt, if_pos (by omega)]
    omega
  · rw [if_neg hlt]
    by_cases hgt : b.writeHead < b.readHead
    · have hbound := hfree hgt
      rw [if_pos hgt, if_neg (by omega), if_pos (by omega)]
    · rw [if_neg hgt]
      exact Nat.zero_le _

theorem endWrite_keeps {v : Window} (hv : b.WriteWindow v) {k : Nat} (hk : k ≤ v.size)
    (w : Window) : Keeps w b (b.endWrite k) :=
  ⟨rfl, endWrite_readSize hv hk, rfl⟩

theorem ReadWindow.store (hw : b.ReadWindow w) (i : Nat) (c : UInt8) :
    (b.store i c).ReadWindow w :=
  ⟨hw.start, hw.pos, by rw [store_bufSize]; exact hw.inside, hw.unread⟩

/-- A window that may be written and one that may be read have no position in common. -/
theorem ReadWindow.apart {v : Window} (hw : b.ReadWindow w) (hv : b.WriteWindow v) {i : Nat}
    (hi : i < v.size) : v.start + i < w.start ∨ w.start + w.size ≤ v.start + i := by
  obtain ⟨hstart, _, hinside, hunread⟩ := hw
  obtain ⟨hstart', _, hinside', hfree⟩ := hv
  by_cases hle : b.readHead ≤ b.writeHead
  · have hbound := hunread hle
    omega
  · have hbound := hfree (Nat.lt_of_not_le hle)
    omega

theorem store_keeps {v : Window} (hw : b.ReadWindow w) (hv : b.WriteWindow v) {i : Nat}
    (hi : i < v.size) (c : UInt8) : Keeps w b (b.store (v.start + i) c) := by
  refine ⟨rfl, ?_, store_slice c (hw.apart hv hi)⟩
  unfold readSize
  rw [store_bufSize]
  exact Nat.le_refl _

/-- A window whose reader comes back. -/
theorem Keeps.startRead {b' : TransferRingBuffer} (h : Keeps w b b')
    (hw : b.startRead = some w) : ∃ w', b'.startRead = some w' ∧ w'.start = w.start ∧
      w.size ≤ w'.size ∧
      b'.slice w.start (w.start + w.size) = b.slice w.start (w.start + w.size) := by
  unfold TransferRingBuffer.startRead at hw
  by_cases hpos : 0 < b.readSize
  · rw [if_pos hpos] at hw
    obtain rfl := Option.some.inj hw
    refine ⟨{ start := b'.readHead, size := b'.readSize }, ?_, h.readHead, h.size, h.bytes⟩
    exact if_pos (Nat.lt_of_lt_of_le hpos h.size)
  · rw [if_neg hpos] at hw
    simp at hw

end

end TransferRingBuffer

namespace RingClient

open TransferRingBuffer

/-- Calls that neither end a read nor clear the buffer. -/
def Call.Writes : Call → Prop
  | .startWrite | .store _ _ | .endWrite _ | .startRead => True
  | .clear | .endRead _ => False

/-! ## A buffer without memory -/

/-- Nothing was ever handed out. -/
structure Idle (s : Client) : Prop where
  rb : s.rb = { buf := [] }
  writing : s.writing = none
  reading : s.reading = none

theorem Idle.step {s s' : Client} {c : Call} (h : Idle s) (hstep : step s c = some s') :
    Idle s' := by
  obtain ⟨hrb, hwriting, hreading⟩ := h
  cases c with
  | clear =>
    rw [← Option.some.inj hstep, hrb]
    exact ⟨rfl, rfl, rfl⟩
  | startWrite =>
    rw [← Option.some.inj hstep, hrb, hwriting]
    exact ⟨rfl, rfl, hreading⟩
  | store i c => simp [RingClient.step, hwriting] at hstep
  | endWrite k => simp [RingClient.step, hwriting] at hstep
  | startRead =>
    rw [← Option.some.inj hstep, hrb, hreading]
    exact ⟨rfl, hwriting, rfl⟩
  | endRead k => simp [RingClient.step, hreading] at hstep

/-! ## Writes while the reader waits -/

section
variable {n : Nat} {s s' : Client} {w : Window}

/-- A call of a writer keeps the window. -/
theorem writes_step {c : Call} {q : Fifo UInt8} (h : Inv n s q) (hw : s.rb.ReadWindow w)
    (hc : c.Writes) (hstep : step s c = some s') :
    (∃ q', Inv n s' q') ∧ s'.rb.ReadWindow w ∧ Keeps w s.rb s'.rb := by
  refine ⟨inv_step ⟨q, h⟩ hstep, ?_⟩
  cases c with
  | clear => exact absurd hc not_false
  | endRead k => exact absurd hc not_false
  | startRead =>
    rw [← Option.some.inj hstep]
    exact ⟨hw, Keeps.refl w s.rb⟩
  | startWrite =>
    rw [← Option.some.inj hstep]
    exact ⟨hw.startWrite h.wellFormed, startWrite_keeps h.wellFormed w⟩
  | store i c =>
    simp only [step] at hstep
    split at hstep
    · rename_i v hv
      split at hstep
      · rename_i hi
        rw [← Option.some.inj hstep]
        exact ⟨hw.store _ c, store_keeps hw (h.writing v hv) hi c⟩
      · simp at hstep
    · simp at hstep
  | endWrite k =>
    simp only [step] at hstep
    split at hstep
    · rename_i v hv
      split at hstep
      · rename_i hk
        rw [← Option.some.inj hstep]
        exact ⟨hw.endWrite (h.writing v hv) hk, endWrite_keeps (h.writing v hv) hk w⟩
      · simp at hstep
    · simp at hstep

theorem writes_run {later : List Call} (h : ∃ q, Inv n s q) (hw : s.rb.ReadWindow w)
    (hwrites : ∀ c ∈ later, c.Writes) (hrun : Run.run step s later = some s') :
    Keeps w s.rb s'.rb := by
  induction later generalizing s with
  | nil =>
    rw [← Option.some.inj hrun]
    exact Keeps.refl w s.rb
  | cons c later ih =>
    obtain ⟨q, hq⟩ := h
    obtain ⟨t, ht, hrest⟩ := Run.run_cons hrun
    obtain ⟨hinv, hwindow, hkeeps⟩ := writes_step hq hw (hwrites c List.mem_cons_self) ht
    exact hkeeps.trans
      (ih hinv hwindow (fun d hd => hwrites d (List.mem_cons_of_mem c hd)) hrest)

end

/-- From every reachable state: a window that was seen is seen again after any writes, at the same
place, no smaller, and with the same bytes. -/
theorem startRead_stable {memory : Bytes} {calls later : List Call} {s s' : Client} {w : Window}
    (h : Run.run step (fresh memory) calls = some s) (hw : s.rb.startRead = some w)
    (hwrites : ∀ c ∈ later, c.Writes) (hrun : Run.run step s later = some s') :
    ∃ w', s'.rb.startRead = some w' ∧ w'.start = w.start ∧ w.size ≤ w'.size ∧
      s'.rb.slice w.start (w.start + w.size) = s.rb.slice w.start (w.start + w.size) := by
  by_cases hsize : 1 ≤ memory.length
  · have hinv : ∃ q, Inv memory.length s q :=
      Run.run_invariant (fun _ _ _ hq hstep => inv_step hq hstep) ⟨_, inv_fresh hsize⟩ h
    obtain ⟨q, hq⟩ := hinv
    exact (writes_run ⟨q, hq⟩ (startRead_some hq.wellFormed hw) hwrites hrun).startRead hw
  · have hempty : memory = [] := List.length_eq_zero_iff.mp (by omega)
    have hidle : Idle s :=
      Run.run_invariant (fun _ _ _ hq hstep => hq.step hstep)
        (show Idle (fresh memory) from ⟨by rw [hempty]; rfl, rfl, rfl⟩) h
    have hnone : ({ buf := [] } : TransferRingBuffer).startRead = none := by decide
    rw [hidle.rb, hnone] at hw
    simp at hw

/-- The write that follows wraps behind the reader. -/
theorem startRead_stable_wrap :
    ∃ s s' w, Run.run step (fresh [0, 0, 0])
        [.startWrite, .store 2 7, .endWrite 3, .startRead, .endRead 2] = some s ∧
      s.rb.startRead = some w ∧
      Run.run step s [.startWrite, .store 0 9, .endWrite 1] = some s' ∧
      ∃ w', s'.rb.startRead = some w' ∧ w'.start = w.start ∧ w.size ≤ w'.size ∧
        s'.rb.slice w.start (w.start + w.size) = s.rb.slice w.start (w.start + w.size) := by
  have hsome : ((Run.run step (fresh [0, 0, 0])
        [.startWrite, .store 2 7, .endWrite 3, .startRead, .endRead 2]).bind (fun s =>
      s.rb.startRead.bind (fun _ =>
        Run.run step s [.startWrite, .store 0 9, .endWrite 1]))).isSome = true := by decide
  obtain ⟨s', hs'⟩ := Option.isSome_iff_exists.mp hsome
  obtain ⟨s, hs, hrest⟩ := Option.bind_eq_some_iff.mp hs'
  obtain ⟨w, hw, hrun⟩ := Option.bind_eq_some_iff.mp hrest
  have hwrites : ∀ c ∈ [Call.startWrite, .store 0 9, .endWrite 1], c.Writes := by
    simp [Call.Writes]
  exact ⟨s, s', w, hs, hw, hrun, startRead_stable hs hw hwrites hrun⟩

end RingClient
end EpollHttp
