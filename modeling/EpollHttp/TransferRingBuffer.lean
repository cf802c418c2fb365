import EpollHttp.Lib.CString
import EpollHttp.Lib.Fifo
import EpollHttp.Lib.Run

/-
`TransferRingBuffer`: a ring buffer whose windows are handed out and closed in two steps.

`writeHead` ranges over `[0, N]` and is wrapped by `startWrite`; `readHead` ranges over
`[0, N)` and is wrapped by `endRead`.  The unread bytes are those between the heads, and the
write head never catches up with the read head from behind.
-/

namespace EpollHttp

/-- The bytes of the allocation and the two heads. -/
structure TransferRingBuffer where
  buf : Bytes
  readHead : Nat := 0
  writeHead : Nat := 0
  deriving DecidableEq, Repr

namespace TransferRingBuffer

/-- `data - buf` and `size`. -/
structure Window where
  start : Nat
  size : Nat
  deriving DecidableEq, Repr

def bufSize (b : TransferRingBuffer) : Nat := b.buf.length

/-- `memory` is the new allocation, which is made only when the size changes. -/
def init (b : TransferRingBuffer) (memory : Bytes) : TransferRingBuffer :=
  { buf := if memory.length ≠ b.bufSize then memory else b.buf, readHead := 0, writeHead := 0 }

def clear (b : TransferRingBuffer) : TransferRingBuffer :=
  { b with readHead := 0, writeHead := 0 }

/-- The size that `startWrite` computes behind `writeHead`. -/
def writeSize (b : TransferRingBuffer) : Nat :=
  if b.readHead ≤ b.writeHead then b.bufSize - b.writeHead else b.readHead - b.writeHead - 1

def writeWindow (b : TransferRingBuffer) : Option Window :=
  if 0 < b.writeSize then some { start := b.writeHead, size := b.writeSize } else none

/-- Whether true is returned, with the window, and the wrapped buffer. -/
def startWrite (b : TransferRingBuffer) : Option Window × TransferRingBuffer :=
  if b.writeHead = b.bufSize then
    if b.readHead = 0 then (none, b)
    else
      let b := { b with writeHead := 0 }
      (b.writeWindow, b)
  else (b.writeWindow, b)

def endWrite (b : TransferRingBuffer) (size : Nat) : TransferRingBuffer :=
  { b with writeHead := b.writeHead + size }

/-- The size that `startRead` computes behind `readHead`. -/
def readSize (b : TransferRingBuffer) : Nat :=
  if b.readHead < b.writeHead then b.writeHead - b.readHead
  else if b.writeHead < b.readHead then b.bufSize - b.readHead
  else 0

def startRead (b : TransferRingBuffer) : Option Window :=
  if 0 < b.readSize then some { start := b.readHead, size := b.readSize } else none

def endRead (b : TransferRingBuffer) (size : Nat) : TransferRingBuffer :=
  if b.readHead + size = b.bufSize then
    { b with
      readHead := 0
      writeHead := if b.writeHead = b.bufSize then 0 else b.writeHead }
  else { b with readHead := b.readHead + size }

def readAvailable (b : TransferRingBuffer) : Bool := b.startRead.isSome

/-- A byte stored through the pointer of a window. -/
def store (b : TransferRingBuffer) (i : Nat) (c : UInt8) : TransferRingBuffer :=
  { b with buf := b.buf.set i c }

/-- Bytes stored one after the other from position `i` on. -/
def fill (b : TransferRingBuffer) (i : Nat) : Bytes → TransferRingBuffer
  | [] => b
  | c :: rest => (b.store i c).fill (i + 1) rest

/-! ## Unread bytes -/

/-- The bytes from `start` up to `stop`. -/
def slice (b : TransferRingBuffer) (start stop : Nat) : Bytes :=
  (b.buf.drop start).take (stop - start)

/-- The positions that hold unread bytes, in the order they are read. -/
def unreadRanges (b : TransferRingBuffer) : List (Nat × Nat) :=
  if b.readHead ≤ b.writeHead then [(b.readHead, b.writeHead)]
  else [(b.readHead, b.bufSize), (0, b.writeHead)]

def unread (b : TransferRingBuffer) : Bytes :=
  b.unreadRanges.flatMap (fun x => b.slice x.1 x.2)

def IsUnread (b : TransferRingBuffer) (i : Nat) : Prop :=
  ∃ x ∈ b.unreadRanges, x.1 ≤ i ∧ i < x.2

/-- The heads of a buffer in use. -/
structure WellFormed (b : TransferRingBuffer) : Prop where
  readHead : b.readHead < b.bufSize
  writeHead : b.writeHead ≤ b.bufSize

/-- A window that may be written: it begins at the write head, lies inside the buffer, and
stops in front of the read head. -/
structure WriteWindow (b : TransferRingBuffer) (w : Window) : Prop where
  start : w.start = b.writeHead
  pos : 0 < w.size
  inside : w.start + w.size ≤ b.bufSize
  free : b.writeHead < b.readHead → w.start + w.size < b.readHead

/-- A window that may be read. -/
structure ReadWindow (b : TransferRingBuffer) (w : Window) : Prop where
  start : w.start = b.readHead
  pos : 0 < w.size
  inside : w.start + w.size ≤ b.bufSize
  unread : b.readHead ≤ b.writeHead → w.start + w.size ≤ b.writeHead

section
variable {b : TransferRingBuffer}

theorem unread_of_le (h : b.readHead ≤ b.writeHead) :
    b.unread = b.slice b.readHead b.writeHead := by
  unfold unread unreadRanges
  rw [if_pos h]
  simp

theorem unread_of_lt (h : b.writeHead < b.readHead) :
    b.unread = b.buf.drop b.readHead ++ b.buf.take b.writeHead := by
  have hall : b.slice b.readHead b.bufSize = b.buf.drop b.readHead := by
    unfold slice bufSize
    rw [← List.length_drop, List.take_length]
  unfold unread unreadRanges
  rw [if_neg (Nat.not_le.mpr h)]
  simp only [List.flatMap_cons, List.flatMap_nil, List.append_nil, hall]
  rfl

theorem isUnread_iff {i : Nat} :
    b.IsUnread i ↔ (b.readHead ≤ b.writeHead ∧ b.readHead ≤ i ∧ i < b.writeHead) ∨
      (b.writeHead < b.readHead ∧ (b.readHead ≤ i ∧ i < b.bufSize ∨ i < b.writeHead)) := by
  unfold IsUnread unreadRanges
  by_cases h : b.readHead ≤ b.writeHead
  · rw [if_pos h]
    simp
    omega
  · rw [if_neg h]
    simp
    omega

theorem slice_length {start stop : Nat} (h : stop ≤ b.bufSize) :
    (b.slice start stop).length = stop - start := by
  unfold bufSize at h
  unfold slice
  rw [List.length_take, List.length_drop]
  omega

/-- A slice in two parts. -/
theorem slice_split {start mid stop : Nat} (h1 : start ≤ mid) (h2 : mid ≤ stop) :
    b.slice start stop = b.slice start mid ++ b.slice mid stop := by
  have hstop : stop - start = (mid - start) + (stop - mid) := by omega
  unfold slice
  rw [hstop, List.take_add, List.drop_drop]
  congr 3
  omega

theorem unread_length (h : b.WellFormed) :
    b.unread.length =
      if b.readHead ≤ b.writeHead then b.writeHead - b.readHead
      else b.bufSize - b.readHead + b.writeHead := by
  have hw := h.writeHead
  split
  · rename_i hle
    rw [unread_of_le hle, slice_length hw]
  · rename_i hlt
    have htake : (b.buf.take b.writeHead).length = b.writeHead := by
      rw [List.length_take]
      exact Nat.min_eq_left hw
    rw [unread_of_lt (Nat.lt_of_not_le hlt), List.length_append, List.length_drop, htake]
    rfl

/-! ## Starting a write -/

theorem writeWindow_some {w : Window} (hb : b.WellFormed) (h : b.writeWindow = some w) :
    b.WriteWindow w := by
  have hr := hb.readHead
  have hw := hb.writeHead
  unfold writeWindow at h
  by_cases hpos : 0 < b.writeSize
  · rw [if_pos hpos] at h
    have hsize : b.writeSize =
        if b.readHead ≤ b.writeHead then b.bufSize - b.writeHead
        else b.readHead - b.writeHead - 1 := rfl
    rw [← Option.some.inj h]
    refine ⟨rfl, hpos, ?_, fun hlt => ?_⟩
    · show b.writeHead + b.writeSize ≤ b.bufSize
      rw [hsize]
      split <;> omega
    · show b.writeHead + b.writeSize < b.readHead
      rw [hsize, if_neg (by omega)] at hpos ⊢
      omega
  · rw [if_neg hpos] at h
    simp at h

theorem writeWindow_none (h : b.writeWindow = none) : b.writeSize = 0 := by
  unfold writeWindow at h
  by_cases hpos : 0 < b.writeSize
  · rw [if_pos hpos] at h
    simp at h
  · omega

/-- Wrapping the write head changes no unread byte. -/
theorem unread_wrap (hwrap : b.writeHead = b.bufSize) (hr : b.readHead ≠ 0)
    (hb : b.WellFormed) : ({ b with writeHead := 0 } : TransferRingBuffer).unread = b.unread := by
  have hlt := hb.readHead
  rw [unread_of_le (b := b) (by omega), unread_of_lt (by show 0 < b.readHead; omega)]
  unfold slice
  show b.buf.drop b.readHead ++ b.buf.take 0 = _
  rw [List.take_zero, List.append_nil, hwrap]
  unfold bufSize
  rw [← List.length_drop, List.take_length]

theorem startWrite_snd (hb : b.WellFormed) :
    b.startWrite.2.WellFormed ∧ b.startWrite.2.unread = b.unread ∧
      b.startWrite.2.buf = b.buf ∧ b.startWrite.2.readHead = b.readHead ∧
      (b.startWrite.2 = b ∨ (b.writeHead = b.bufSize ∧ b.readHead ≠ 0 ∧
        b.startWrite.2.writeHead = 0)) := by
  unfold startWrite
  split
  · rename_i hwrap
    split
    · exact ⟨hb, rfl, rfl, rfl, Or.inl rfl⟩
    · rename_i hr
      exact ⟨⟨hb.readHead, Nat.zero_le _⟩, unread_wrap hwrap hr hb, rfl, rfl,
        Or.inr ⟨hwrap, hr, rfl⟩⟩
  · exact ⟨hb, rfl, rfl, rfl, Or.inl rfl⟩

theorem startWrite_some {w : Window} (hb : b.WellFormed) (h : b.startWrite.1 = some w) :
    b.startWrite.2.WriteWindow w := by
  have hw := (startWrite_snd hb).1
  have heq : b.startWrite.2.writeWindow = some w := by
    unfold startWrite at h ⊢
    split at h
    · rename_i hwrap
      rw [if_pos hwrap]
      split at h
      · simp at h
      · rename_i hr
        rw [if_neg hr]
        exact h
    · rename_i hwrap
      rw [if_neg hwrap]
      exact h
  exact writeWindow_some hw heq

/-- A write is refused only when at most one byte is free. -/
theorem startWrite_none (hb : b.WellFormed) (h : b.startWrite.1 = none) :
    b.bufSize - 1 ≤ b.unread.length := by
  have hr := hb.readHead
  have hw := hb.writeHead
  rw [unread_length hb]
  unfold startWrite at h
  by_cases hwrap : b.writeHead = b.bufSize
  · rw [if_pos hwrap] at h
    by_cases hzero : b.readHead = 0
    · split <;> omega
    · -- The write head was wrapped in front of the first unread byte.
      rw [if_neg hzero] at h
      have hsize := writeWindow_none h
      unfold writeSize at hsize
      rw [if_neg (show ¬ b.readHead ≤ 0 by omega)] at hsize
      have hone : b.readHead - 0 - 1 = 0 := hsize
      split <;> omega
  · rw [if_neg hwrap] at h
    have hsize := writeWindow_none h
    unfold writeSize at hsize
    split at hsize <;> split <;> omega

/-! ## Storing into the window -/

variable {w : Window}

theorem WriteWindow.not_unread (hw : b.WriteWindow w) {i : Nat} (h1 : w.start ≤ i)
    (h2 : i < w.start + w.size) : ¬ b.IsUnread i := by
  have hstart := hw.start
  have hfree := hw.free
  rw [isUnread_iff]
  omega

@[simp] theorem store_bufSize (b : TransferRingBuffer) (i : Nat) (c : UInt8) :
    (b.store i c).bufSize = b.bufSize := by
  simp [store, bufSize]

theorem store_slice {start stop i : Nat} (c : UInt8) (h : i < start ∨ stop ≤ i) :
    (b.store i c).slice start stop = b.slice start stop := by
  unfold slice store
  rcases h with h | h
  · rw [List.drop_set_of_lt h]
  · by_cases hle : start ≤ i
    · rw [List.drop_set, if_neg (by omega), List.take_set_of_le (by omega)]
    · rw [List.drop_set_of_lt (by omega)]

/-- Storing at a position that holds no unread byte changes no unread byte. -/
theorem store_unread {i : Nat} (c : UInt8) (h : ¬ b.IsUnread i) :
    (b.store i c).unread = b.unread := by
  have hslice : ∀ x ∈ b.unreadRanges, (b.store i c).slice x.1 x.2 = b.slice x.1 x.2 := by
    intro x hx
    refine store_slice c ?_
    by_contra hin
    exact h ⟨x, hx, by omega, by omega⟩
  have hranges : (b.store i c).unreadRanges = b.unreadRanges := by
    unfold unreadRanges
    rw [store_bufSize]
    rfl
  unfold unread
  rw [hranges]
  exact List.flatMap_congr hslice

theorem fill_heads (b : TransferRingBuffer) (i : Nat) (bytes : Bytes) :
    (b.fill i bytes).readHead = b.readHead ∧ (b.fill i bytes).writeHead = b.writeHead ∧
      (b.fill i bytes).bufSize = b.bufSize := by
  induction bytes generalizing b i with
  | nil => exact ⟨rfl, rfl, rfl⟩
  | cons c rest ih =>
    obtain ⟨hread, hwrite, hsize⟩ := ih (b.store i c) (i + 1)
    exact ⟨hread, hwrite, hsize.trans (store_bufSize b i c)⟩

theorem WriteWindow.store (hw : b.WriteWindow w) (i : Nat) (c : UInt8) :
    (b.store i c).WriteWindow w :=
  ⟨hw.start, hw.pos, by rw [store_bufSize]; exact hw.inside, hw.free⟩

/-- Filling a part of the window changes no unread byte. -/
theorem fill_unread (hw : b.WriteWindow w) {i : Nat} {bytes : Bytes} (h1 : w.start ≤ i)
    (h2 : i + bytes.length ≤ w.start + w.size) : (b.fill i bytes).unread = b.unread := by
  induction bytes generalizing b i with
  | nil => rfl
  | cons c rest ih =>
    have hlen : (c :: rest).length = rest.length + 1 := rfl
    have hstore := store_unread c (hw.not_unread h1 (by omega))
    have hrest := ih (hw.store i c) (i := i + 1) (by omega) (by omega)
    exact hrest.trans hstore

theorem fill_slice_before {i stop : Nat} {bytes : Bytes} (start : Nat) (h : stop ≤ i) :
    (b.fill i bytes).slice start stop = b.slice start stop := by
  induction bytes generalizing b i with
  | nil => rfl
  | cons c rest ih =>
    have hrest := ih (b := b.store i c) (i := i + 1) (by omega)
    exact hrest.trans (store_slice c (Or.inr h))

theorem store_slice_self {i : Nat} (c : UInt8) (h : i < b.bufSize) :
    (b.store i c).slice i (i + 1) = [c] := by
  have hset : (b.buf.set i c).drop i = c :: b.buf.drop (i + 1) := by
    have hlt : i < (b.buf.set i c).length := by
      rw [List.length_set]
      exact h
    rw [List.drop_eq_getElem_cons hlt, List.getElem_set_self,
      List.drop_set_of_lt (Nat.lt_succ_self i)]
  unfold slice TransferRingBuffer.store
  rw [hset, Nat.add_sub_cancel_left]
  rfl

/-- The bytes that were filled in are read back. -/
theorem fill_slice {i : Nat} {bytes : Bytes} (h : i + bytes.length ≤ b.bufSize) :
    (b.fill i bytes).slice i (i + bytes.length) = bytes := by
  induction bytes generalizing b i with
  | nil => simp [slice]
  | cons c rest ih =>
    have hlen : (c :: rest).length = rest.length + 1 := rfl
    have hself := store_slice_self (b := b) c (i := i) (by omega)
    have hrest := ih (b := b.store i c) (i := i + 1) (by rw [store_bufSize]; omega)
    have hfirst : ((b.store i c).fill (i + 1) rest).slice i (i + 1) = [c] :=
      (fill_slice_before i (Nat.le_refl _)).trans hself
    calc (b.fill i (c :: rest)).slice i (i + (c :: rest).length)
        = ((b.store i c).fill (i + 1) rest).slice i (i + 1) ++
            ((b.store i c).fill (i + 1) rest).slice (i + 1) (i + 1 + rest.length) := by
          rw [show i + (c :: rest).length = i + 1 + rest.length by omega]
          exact slice_split (Nat.le_succ i) (Nat.le_add_right _ _)
      _ = c :: rest := by rw [hfirst, hrest]; rfl

/-! ## Ending a write -/

theorem endWrite_wellFormed (hb : b.WellFormed) (hw : b.WriteWindow w) {k : Nat}
    (hk : k ≤ w.size) : (b.endWrite k).WellFormed := by
  have hstart := hw.start
  have hinside := hw.inside
  exact ⟨hb.readHead, show b.writeHead + k ≤ b.bufSize by omega⟩

/-- The first `k` bytes of the window become unread. -/
theorem endWrite_unread (hw : b.WriteWindow w) {k : Nat} (hk : k ≤ w.size) :
    (b.endWrite k).unread = b.unread ++ b.slice w.start (w.start + k) := by
  have hstart := hw.start
  have hfree := hw.free
  rw [hstart] at hfree ⊢
  by_cases hle : b.readHead ≤ b.writeHead
  · rw [unread_of_le (b := b.endWrite k) (show b.readHead ≤ b.writeHead + k by omega),
      unread_of_le hle]
    exact slice_split hle (Nat.le_add_right _ k)
  · rw [unread_of_lt (b := b.endWrite k) (show b.writeHead + k < b.readHead by omega),
      unread_of_lt (by omega), List.append_assoc]
    refine congrArg (b.buf.drop b.readHead ++ ·) ?_
    show b.buf.take (b.writeHead + k) = _
    unfold slice
    rw [List.take_add]
    congr 2
    omega

/-- Of what was stored through a window the bytes that are handed over become unread. -/
theorem fill_append_endWrite (hb : b.WellFormed) (hw : b.WriteWindow w) {bytes tail : Bytes}
    (h : bytes.length + tail.length ≤ w.size) :
    ((b.fill w.start (bytes ++ tail)).endWrite bytes.length).WellFormed ∧
      ((b.fill w.start (bytes ++ tail)).endWrite bytes.length).unread = b.unread ++ bytes := by
  obtain ⟨hread, hwrite, hsize⟩ := fill_heads b w.start (bytes ++ tail)
  have hstart := hw.start
  have hinside := hw.inside
  have hr := hb.readHead
  have hall : (bytes ++ tail).length = bytes.length + tail.length := List.length_append
  have hwf : (b.fill w.start (bytes ++ tail)).WellFormed :=
    ⟨by rw [hread, hsize]; exact hr, by rw [hwrite, hsize]; exact hb.writeHead⟩
  have hw' : (b.fill w.start (bytes ++ tail)).WriteWindow w :=
    ⟨by rw [hwrite]; exact hstart, hw.pos, by rw [hsize]; exact hinside, by
      rw [hread, hwrite]
      exact hw.free⟩
  have hfirst : (b.fill w.start (bytes ++ tail)).slice w.start (w.start + bytes.length) = bytes := by
    have hfilled : (b.fill w.start (bytes ++ tail)).slice w.start
        (w.start + (bytes ++ tail).length) = bytes ++ tail := fill_slice (by omega)
    rw [slice_split (Nat.le_add_right w.start bytes.length) (by omega)] at hfilled
    refine (List.append_inj hfilled ?_).1
    rw [slice_length (by omega)]
    omega
  refine ⟨endWrite_wellFormed hwf hw' (by omega), ?_⟩
  rw [endWrite_unread hw' (by omega), fill_unread hw (Nat.le_refl _) (by omega), hfirst]

/-- Bytes that were stored through a window and then handed over become unread. -/
theorem fill_endWrite (hb : b.WellFormed) (hw : b.WriteWindow w) {bytes : Bytes}
    (h : bytes.length ≤ w.size) :
    ((b.fill w.start bytes).endWrite bytes.length).WellFormed ∧
      ((b.fill w.start bytes).endWrite bytes.length).unread = b.unread ++ bytes := by
  have hlen : bytes.length + ([] : Bytes).length ≤ w.size := h
  have hall := fill_append_endWrite hb hw hlen
  rwa [List.append_nil] at hall

/-! ## Reading -/

theorem startRead_some (hb : b.WellFormed) (h : b.startRead = some w) : b.ReadWindow w := by
  have hr := hb.readHead
  have hwr := hb.writeHead
  unfold startRead at h
  by_cases hpos : 0 < b.readSize
  · rw [if_pos hpos] at h
    rw [← Option.some.inj h]
    have hsize : b.readSize = if b.readHead < b.writeHead then b.writeHead - b.readHead
        else if b.writeHead < b.readHead then b.bufSize - b.readHead else 0 := rfl
    refine ⟨rfl, hpos, ?_, fun hle => ?_⟩
    · show b.readHead + b.readSize ≤ b.bufSize
      rw [hsize]
      split
      · omega
      · split <;> omega
    · show b.readHead + b.readSize ≤ b.writeHead
      rw [hsize] at hpos ⊢
      split
      · omega
      · split at hpos
        · omega
        · split at hpos <;> omega
  · rw [if_neg hpos] at h
    simp at h

theorem readSize_eq_zero (hb : b.WellFormed) : b.readSize = 0 ↔ b.readHead = b.writeHead := by
  have hr := hb.readHead
  unfold readSize
  split
  · omega
  · split <;> omega

theorem startRead_none_iff (hb : b.WellFormed) : b.startRead = none ↔ b.unread = [] := by
  have hr := hb.readHead
  have hnone : b.startRead = none ↔ b.readSize = 0 := by
    unfold startRead
    by_cases hpos : 0 < b.readSize
    · rw [if_pos hpos]
      simp
      omega
    · rw [if_neg hpos]
      simp
      omega
  rw [hnone, readSize_eq_zero hb, ← List.length_eq_zero_iff, unread_length hb]
  split <;> omega

/-- The window shows the bytes that are unread first. -/
theorem ReadWindow.front (hb : b.WellFormed) (hw : b.ReadWindow w) {k : Nat} (hk : k ≤ w.size) :
    b.unread = b.slice w.start (w.start + k) ++ (b.endRead k).unread := by
  obtain ⟨hstart, hpos, hinside, hunread⟩ := hw
  have hr := hb.readHead
  have hwr := hb.writeHead
  rw [hstart] at hinside hunread ⊢
  by_cases hend : b.readHead + k = b.bufSize
  · have hread : b.endRead k = { b with
        readHead := 0
        writeHead := if b.writeHead = b.bufSize then 0 else b.writeHead } := by
      unfold endRead
      rw [if_pos hend]
    rw [hread, hend]
    by_cases hle : b.readHead ≤ b.writeHead
    · have hfull : b.writeHead = b.bufSize := by
        have hin := hunread hle
        omega
      rw [unread_of_le hle, if_pos hfull, hfull, unread_of_le (Nat.le_refl 0)]
      simp [slice]
    · rw [unread_of_lt (by omega), if_neg (by omega), unread_of_le (Nat.zero_le _)]
      unfold slice bufSize
      rw [← List.length_drop, List.take_length, List.drop_zero, Nat.sub_zero]
  · have hread : b.endRead k = { b with readHead := b.readHead + k } := by
      unfold endRead
      rw [if_neg hend]
    rw [hread]
    by_cases hle : b.readHead ≤ b.writeHead
    · have hin := hunread hle
      rw [unread_of_le hle, unread_of_le (show b.readHead + k ≤ b.writeHead by omega)]
      exact slice_split (Nat.le_add_right _ k) (by omega)
    · rw [unread_of_lt (by omega), unread_of_lt (show b.writeHead < b.readHead + k by omega),
        ← List.append_assoc]
      refine congrArg (· ++ b.buf.take b.writeHead) ?_
      unfold slice
      rw [Nat.add_sub_cancel_left, ← List.drop_drop, List.take_append_drop]

theorem endRead_wellFormed (hb : b.WellFormed) (hw : b.ReadWindow w) {k : Nat}
    (hk : k ≤ w.size) : (b.endRead k).WellFormed := by
  have hr := hb.readHead
  have hwr := hb.writeHead
  have hstart := hw.start
  have hinside := hw.inside
  unfold endRead
  split
  · refine ⟨show 0 < b.bufSize by omega, ?_⟩
    show (if b.writeHead = b.bufSize then 0 else b.writeHead) ≤ b.bufSize
    split <;> omega
  · exact ⟨show b.readHead + k < b.bufSize by omega, hwr⟩

theorem endRead_unread (hb : b.WellFormed) (hw : b.ReadWindow w) {k : Nat} (hk : k ≤ w.size) :
    (b.endRead k).unread = b.unread.drop k := by
  have hinside := hw.inside
  have hlen : (b.slice w.start (w.start + k)).length = k := by
    rw [slice_length (by omega)]
    omega
  rw [hw.front hb hk]
  exact (List.drop_left' hlen).symm

theorem ReadWindow.slice_eq (hb : b.WellFormed) (hw : b.ReadWindow w) {k : Nat}
    (hk : k ≤ w.size) : b.slice w.start (w.start + k) = b.unread.take k := by
  have hinside := hw.inside
  have hlen : (b.slice w.start (w.start + k)).length = k := by
    rw [slice_length (by omega)]
    omega
  rw [hw.front hb hk]
  exact (List.take_left' hlen).symm

/-- Without a wrapped part the window shows everything that is unread. -/
theorem startRead_size (hb : b.WellFormed) (hle : b.readHead ≤ b.writeHead)
    (h : b.startRead = some w) : w.size = b.unread.length := by
  have hpos := (startRead_some hb h).pos
  have hsize : w.size = b.readSize := by
    unfold startRead at h
    by_cases hread : 0 < b.readSize
    · rw [if_pos hread] at h
      exact congrArg Window.size (Option.some.inj h).symm
    · rw [if_neg hread] at h
      cases h
  rw [unread_length hb, if_pos hle, hsize]
  unfold readSize at hsize ⊢
  by_cases hlt : b.readHead < b.writeHead
  · rw [if_pos hlt]
  · rw [if_neg hlt, if_neg (by omega)] at hsize
    omega

theorem unread_eq_nil_iff (hb : b.WellFormed) : b.unread = [] ↔ b.readHead = b.writeHead := by
  rw [← startRead_none_iff hb, ← readSize_eq_zero hb]
  unfold startRead
  by_cases hpos : 0 < b.readSize
  · rw [if_pos hpos]
    simp
    omega
  · rw [if_neg hpos]
    simp
    omega

/-- What an empty buffer is filled with is not wrapped. -/
theorem fill_endWrite_front (hb : b.WellFormed) (hempty : b.unread = []) {w : Window}
    (bytes : Bytes) :
    ((b.startWrite.2.fill w.start bytes).endWrite bytes.length).readHead ≤
      ((b.startWrite.2.fill w.start bytes).endWrite bytes.length).writeHead := by
  have hheads := (unread_eq_nil_iff hb).mp hempty
  have hr := hb.readHead
  have hsame : b.startWrite.2 = b := by
    unfold startWrite
    rw [if_neg (by omega)]
  obtain ⟨hread, hwrite, _⟩ := fill_heads b.startWrite.2 w.start bytes
  show (b.startWrite.2.fill w.start bytes).readHead ≤
    (b.startWrite.2.fill w.start bytes).writeHead + bytes.length
  rw [hread, hwrite, hsame]
  omega

/-! ## A window that stays open -/

theorem WriteWindow.endRead {w' : Window} (hb : b.WellFormed) (hw : b.WriteWindow w)
    (hr : b.ReadWindow w') {k : Nat} (hk : k ≤ w'.size) : (b.endRead k).WriteWindow w := by
  obtain ⟨hstart, hpos, hinside, hfree⟩ := hw
  obtain ⟨hstart', _, hinside', hunread'⟩ := hr
  have hread := hb.readHead
  unfold TransferRingBuffer.endRead
  split
  · refine ⟨?_, hpos, hinside, fun h => ?_⟩
    · show w.start = if b.writeHead = b.bufSize then 0 else b.writeHead
      rw [if_neg (by omega)]
      exact hstart
    · exact absurd h (Nat.not_lt_zero _)
  · refine ⟨hstart, hpos, hinside, fun h => ?_⟩
    have hlt : b.writeHead < b.readHead + k := h
    show w.start + w.size < b.readHead + k
    omega

theorem ReadWindow.endWrite {w' : Window} (hr : b.ReadWindow w) (hw : b.WriteWindow w')
    {k : Nat} (hk : k ≤ w'.size) : (b.endWrite k).ReadWindow w := by
  obtain ⟨hstart, hpos, hinside, hunread⟩ := hr
  obtain ⟨hstart', _, hinside', hfree'⟩ := hw
  refine ⟨hstart, hpos, hinside, fun h => ?_⟩
  have hle : b.readHead ≤ b.writeHead + k := h
  show w.start + w.size ≤ b.writeHead + k
  by_cases hlt : b.writeHead < b.readHead
  · have hbound := hfree' hlt
    omega
  · have hbound := hunread (Nat.le_of_not_lt hlt)
    omega

theorem ReadWindow.startWrite (hb : b.WellFormed) (hr : b.ReadWindow w) :
    b.startWrite.2.ReadWindow w := by
  obtain ⟨hwf, hunread, hbuf, hread, hcase⟩ := startWrite_snd hb
  have hsize : b.startWrite.2.bufSize = b.bufSize := congrArg List.length hbuf
  refine ⟨by rw [hread]; exact hr.start, hr.pos, by rw [hsize]; exact hr.inside, fun h => ?_⟩
  rcases hcase with heq | ⟨_, hne, hzero⟩
  · rw [heq] at h ⊢
    exact hr.unread h
  · rw [hread, hzero] at h
    omega

end

end TransferRingBuffer
end EpollHttp
