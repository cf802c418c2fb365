import EpollHttp.LogRotation

/-
What is logged stands in the files without a gap.

`snprintf` stores one byte more than it prints.  That byte is a zero in front of zeros, and the next
record begins on it.
-/

namespace EpollHttp
namespace LogMmap

/-! ## Text in front of zeros -/

/-- A file of `size` bytes whose used part is `text`. -/
structure Holds (size : Nat) (text data : Bytes) : Prop where
  fits : text.length ≤ size
  data_eq : data = text ++ List.replicate (size - text.length) 0

section
variable {size : Nat} {text data : Bytes}

theorem holds_zeros (size : Nat) : Holds size [] (List.replicate size 0) where
  fits := Nat.zero_le _
  data_eq := rfl

/-- Bytes with their terminator behind the used part lengthen it by the bytes. -/
theorem Holds.written (h : Holds size text data) {bytes : Bytes}
    (hroom : text.length + (bytes.length + 1) ≤ size) :
    Holds size (text ++ bytes) (written text.length (bytes ++ [0]) data) := by
  refine ⟨by rw [List.length_append]; omega, ?_⟩
  have hdrop : data.drop (text.length + (bytes ++ [0]).length) =
      List.replicate (size - text.length - (bytes.length + 1)) 0 := by
    rw [h.data_eq, List.drop_append, List.drop_of_length_le (by omega), List.nil_append,
      List.drop_replicate, List.length_append, List.length_singleton]
    congr 1
    omega
  have hzeros : [0] ++ List.replicate (size - text.length - (bytes.length + 1)) 0 =
      List.replicate (size - (text ++ bytes).length) (0 : UInt8) := by
    rw [List.singleton_append, ← List.replicate_succ, List.length_append]
    congr 1
    omega
  unfold LogMmap.written
  rw [hdrop, h.data_eq, List.take_left, List.append_assoc, List.append_assoc bytes, hzeros,
    List.append_assoc]

end

/-! ## Records -/

/-- What a call puts into the log. -/
def Call.record (c : Call) : Bytes := (c.header ++ c.message).take 1023

/-- The records with their files, oldest first, and what one file has of them. -/
def textOf (file : Nat) (records : List (Nat × Bytes)) : Bytes :=
  (records.filter (fun r => r.1 == file)).flatMap (·.2)

theorem textOf_append_self (file : Nat) (records : List (Nat × Bytes)) (bytes : Bytes) :
    textOf file (records ++ [(file, bytes)]) = textOf file records ++ bytes := by
  unfold textOf
  rw [List.filter_append, List.flatMap_append]
  simp

theorem textOf_append_other {file file' : Nat} (h : file' ≠ file) (records : List (Nat × Bytes))
    (bytes : Bytes) : textOf file (records ++ [(file', bytes)]) = textOf file records := by
  unfold textOf
  rw [List.filter_append, List.filter_cons_of_neg (by simpa using h), List.filter_nil,
    List.append_nil]

theorem textOf_new {file : Nat} {records : List (Nat × Bytes)}
    (h : ∀ r ∈ records, r.1 < file) : textOf file records = [] := by
  unfold textOf
  rw [List.filter_eq_nil_iff.mpr (fun r hr => by simpa using Nat.ne_of_lt (h r hr))]
  rfl

/-- The log and the files fit the records: the files hold them, and the write head of the open
file stands behind its own. -/
structure Logged (x : LogMmap × Disk) (records : List (Nat × Bytes)) : Prop where
  closed : x.1.fd = none → x.1.buffer = {}
  opened : ∀ file, x.1.fd = some file → file < x.2.next ∧ 0 < x.1.logFileSize ∧
    x.1.buffer.buf = some file ∧ x.1.buffer.bufSize = x.1.logFileSize ∧
    x.1.buffer.writeHead = (textOf file records).length ∧
    Holds x.1.logFileSize.toNat (textOf file records) (x.2.data file)
  kept : ∀ r ∈ records, r.1 < x.2.next ∧
    Holds x.1.logFileSize.toNat (textOf r.1 records) (x.2.data r.1)
  current : ∀ r ∈ records, ∀ file, x.1.fd = some file → r.1 ≤ file
  inOrder : (records.map Prod.fst).Pairwise (· ≤ ·)

section
variable {x : LogMmap × Disk} {records : List (Nat × Bytes)}

/-! ## A place for a record -/

/-- A rotation changes no file that holds records, and the new one holds none. -/
theorem Logged.rotate (h : Logged x records) (a : OpenAnswers) :
    Logged (rotate a x.1 x.2).2 records ∧
      (rotate a x.1 x.2).2.1.logFileSize = x.1.logFileSize ∧
      ((rotate a x.1 x.2).1 = true ↔ OpenAnswers.Good a ∧ 0 < x.1.logFileSize) ∧
      ((rotate a x.1 x.2).1 = true → (rotate a x.1 x.2).2.1.fd = some x.2.next) ∧
      textOf x.2.next records = [] := by
  obtain ⟨hfree, hdata, hnext⟩ := moved_free x.1.closeFile x.2
  have hopened := openFile_opened a hfree
  rw [← rotate_eq] at hopened
  obtain ⟨hsize, hfiles, hsuccess, hup, hdown⟩ :=
    And.intro hopened.size (And.intro hopened.files
      (And.intro hopened.success_iff (And.intro hopened.up hopened.down)))
  obtain ⟨_, _, hother, hlater⟩ := hfiles
  rw [closeFile_size] at hsize hsuccess
  rw [hnext] at hup hother hlater
  rw [hdata] at hother
  have hempty : textOf x.2.next records = [] := textOf_new (fun r hr => (h.kept r hr).1)
  have hkept : ∀ r ∈ records, r.1 < (LogMmap.rotate a x.1 x.2).2.2.next ∧
      Holds (LogMmap.rotate a x.1 x.2).2.1.logFileSize.toNat (textOf r.1 records)
        ((LogMmap.rotate a x.1 x.2).2.2.data r.1) := by
    intro r hr
    obtain ⟨hlt, hholds⟩ := h.kept r hr
    rw [hsize, hother r.1 (Nat.ne_of_lt hlt)]
    exact ⟨by omega, hholds⟩
  have hbuffer : x.1.closeFile.buffer = {} := by
    unfold closeFile
    split
    · rename_i hfd
      exact h.closed hfd
    · rfl
  -- A file that is open behind a rotation is the new one.
  have hnewest : ∀ file, (LogMmap.rotate a x.1 x.2).2.1.fd = some file →
      (LogMmap.rotate a x.1 x.2).1 = true ∧ x.2.next = file := by
    intro file hfd
    cases hresult : (LogMmap.rotate a x.1 x.2).1 with
    | false => exact absurd (hfd.symm.trans (hdown hresult).1) (Option.some_ne_none _)
    | true => exact ⟨rfl, Option.some.inj ((hup hresult).1.symm.trans hfd)⟩
  refine ⟨⟨?_, ?_, hkept, ?_, h.inOrder⟩, hsize, hsuccess, fun htrue => (hup htrue).1, hempty⟩
  · intro hfd
    cases hresult : (LogMmap.rotate a x.1 x.2).1 with
    | false => rw [(hdown hresult).2, hbuffer]
    | true => exact absurd ((hup hresult).1.symm.trans hfd) (Option.some_ne_none _)
  · intro file hfd
    obtain ⟨hresult, rfl⟩ := hnewest file hfd
    obtain ⟨_, hentry, hzeros, hbuf⟩ := hup hresult
    rw [hsize, hbuf, hempty, hzeros, closeFile_size]
    exact ⟨Directory.entry_lt _ hentry, (hsuccess.mp hresult).2, rfl, rfl, rfl, holds_zeros _⟩
  · intro r hr file hfd
    obtain ⟨_, rfl⟩ := hnewest file hfd
    exact Nat.le_of_lt (h.kept r hr).1

/-- A place is the end of the used part, with room for a message of the greatest size. -/
theorem Logged.place (h : Logged x records) {data : Int} (hplace : x.1.place = some data) :
    ∃ file, x.1.fd = some file ∧ data = (textOf file records).length ∧
      data + maxMessageSize ≤ x.1.logFileSize := by
  unfold LogMmap.place TransferBuffer.startWrite at hplace
  cases hfd : x.1.fd with
  | none =>
    rw [h.closed hfd] at hplace
    simp at hplace
  | some file =>
    obtain ⟨_, _, _, hsize, hhead, _⟩ := h.opened file hfd
    rw [hsize, hhead] at hplace
    by_cases hfull : ((textOf file records).length : Int) ≥ x.1.logFileSize
    · rw [if_pos hfull] at hplace
      exact absurd hplace.symm (Option.some_ne_none _)
    · rw [if_neg hfull] at hplace
      dsimp only at hplace
      by_cases hshort : x.1.logFileSize - ((textOf file records).length : Int) < maxMessageSize
      · rw [if_pos hshort] at hplace
        exact absurd hplace.symm (Option.some_ne_none _)
      · rw [if_neg hshort] at hplace
        have hdata := Option.some.inj hplace
        exact ⟨file, rfl, hdata.symm, by omega⟩

/-- A new file of at least that size has a place. -/
theorem Logged.place_new (h : Logged x records) {file : Nat} (hfd : x.1.fd = some file)
    (hnew : textOf file records = []) (hsize : maxMessageSize ≤ x.1.logFileSize) :
    x.1.place = some 0 := by
  obtain ⟨_, hpos, _, hbuf, hhead, _⟩ := h.opened file hfd
  rw [hnew] at hhead
  have hzero : x.1.buffer.writeHead = 0 := hhead
  unfold LogMmap.place TransferBuffer.startWrite
  rw [hbuf, hzero, if_neg (by omega)]
  dsimp only
  rw [if_neg (by omega)]

/-- The search for a place rotates at most once, and it finds one when the files are large enough
and the new one comes up. -/
theorem Logged.findPlace (h : Logged x records) (a : OpenAnswers) :
    ((findPlace a x.1 x.2).2 = x ∨ (findPlace a x.1 x.2).2 = (LogMmap.rotate a x.1 x.2).2) ∧
      Logged (findPlace a x.1 x.2).2 records ∧
      (findPlace a x.1 x.2).2.1.logFileSize = x.1.logFileSize ∧
      (∀ data, (findPlace a x.1 x.2).1 = some data →
        (findPlace a x.1 x.2).2.1.place = some data) ∧
      (OpenAnswers.Good a → maxMessageSize ≤ x.1.logFileSize →
        (findPlace a x.1 x.2).1.isSome) := by
  obtain ⟨hrotated, hsize, hsuccess, hfd, hempty⟩ := h.rotate a
  unfold LogMmap.findPlace
  split
  · rename_i data hplace
    refine ⟨Or.inl rfl, h, rfl, fun data' hdata => ?_, fun _ _ => rfl⟩
    rw [← Option.some.inj hdata]
    exact hplace
  · dsimp only
    split
    · rename_i hfails
      refine ⟨Or.inr rfl, hrotated, hsize, fun data hdata => ?_, fun hgood hlarge => ?_⟩
      · exact absurd hdata.symm (Option.some_ne_none _)
      · have hpos : 0 < x.1.logFileSize := Int.lt_of_lt_of_le (by decide) hlarge
        exact Bool.noConfusion (hfails.symm.trans (hsuccess.mpr ⟨hgood, hpos⟩))
    · refine ⟨Or.inr rfl, hrotated, hsize, fun data hdata => hdata, fun hgood hlarge => ?_⟩
      have hpos : 0 < x.1.logFileSize := Int.lt_of_lt_of_le (by decide) hlarge
      have hplace := hrotated.place_new (hfd (hsuccess.mpr ⟨hgood, hpos⟩)) hempty
        (by rw [hsize]; exact hlarge)
      show (LogMmap.rotate a x.1 x.2).2.1.place.isSome
      rw [hplace]
      rfl

/-! ## Printing -/

/-- A store with its terminator into the room behind a text. -/
theorem store_holds {log : LogMmap} {d : Disk} {file : Nat} {text bytes : Bytes}
    (hbuf : log.buffer.buf = some file) (hholds : Holds log.logFileSize.toNat text (d.data file))
    (hroom : (text.length : Int) + (bytes.length + 1) ≤ log.logFileSize) :
    ∃ data, log.store text.length (bytes ++ [0]) d = some (d.setData file data) ∧
      Holds log.logFileSize.toNat (text ++ bytes) data := by
  have hbytes : (bytes ++ [0]).length = bytes.length + 1 := by simp
  unfold store
  rw [hbuf]
  dsimp only
  rw [if_pos ⟨by omega, by rw [hbytes]; omega⟩]
  exact ⟨_, rfl, hholds.written (by omega)⟩

/-- The record of a call comes behind the used part of the open file, and its length is added to
the write head. -/
theorem print_stores (c : Call) {log : LogMmap} {d : Disk} {file : Nat} {text : Bytes}
    (hbuf : log.buffer.buf = some file) (hholds : Holds log.logFileSize.toNat text (d.data file))
    (hroom : (text.length : Int) + maxMessageSize ≤ log.logFileSize) :
    ∃ data, print c text.length log d = some ({ log with
        buffer := log.buffer.endWrite c.record.length }, d.setData file data) ∧
      Holds log.logFileSize.toNat (text ++ c.record) data := by
  have hheader : printed maxMessageSize c.header = c.header.take 1023 := rfl
  have hlen : (c.header.take 1023).length ≤ 1023 := List.length_take_le _ _
  have hmax : maxMessageSize = 1024 := rfl
  have hroom' : (text.length : Int) + ((c.header.take 1023).length + 1) ≤ log.logFileSize := by
    omega
  obtain ⟨data, hstore, hdata⟩ := store_holds hbuf hholds hroom'
  unfold print
  dsimp only
  rw [hheader, hstore]
  dsimp only [Option.bind_eq_bind, Option.bind_some]
  by_cases hlong : (c.header.length : Int) ≥ maxMessageSize
  · -- The header fills the message.
    have hrecord : c.record = c.header.take 1023 :=
      List.take_append_of_le_length (by omega)
    have hcount : (c.header.take 1023).length = 1023 := List.length_take_of_le (by omega)
    rw [if_pos hlong, hrecord, hcount]
    exact ⟨data, rfl, hdata⟩
  · have hwhole : c.header.take 1023 = c.header := List.take_of_length_le (by omega)
    have hrest : printed (maxMessageSize - (c.header.length : Int)) c.message =
        c.message.take (1023 - c.header.length) := by
      unfold printed
      congr 1
      omega
    have hrecord : c.record = c.header ++ c.message.take (1023 - c.header.length) := by
      unfold Call.record
      rw [List.take_append, hwhole]
    have hrestLen := List.length_take (i := 1023 - c.header.length) (l := c.message)
    rw [hwhole] at hdata hstore
    have hplace : ((text ++ c.header).length : Int) = text.length + c.header.length := by
      rw [List.length_append, Int.natCast_add]
    have hholds' : Holds log.logFileSize.toNat (text ++ c.header)
        ((d.setData file data).data file) := by
      rw [Directory.data_setData, Function.update_self]
      exact hdata
    have hroom'' : ((text ++ c.header).length : Int) +
        ((c.message.take (1023 - c.header.length)).length + 1) ≤ log.logFileSize := by
      omega
    obtain ⟨data', hstore', hdata'⟩ := store_holds hbuf hholds' hroom''
    have htwice : (d.setData file data).setData file data' = d.setData file data' := by
      unfold Directory.setData
      simp only [Function.update_idem]
    rw [if_neg hlong, hrest, ← hplace, hstore', Option.bind_some, htwice, hrecord,
      ← List.append_assoc]
    refine ⟨data', ?_, hdata'⟩
    -- What `vsnprintf` returned is cut to what it printed.
    have hwritten : (if (c.message.length : Int) ≥ maxMessageSize - c.header.length then
        maxMessageSize - (c.header.length : Int) - 1 else c.message.length) =
        ((c.message.take (1023 - c.header.length)).length : Int) := by
      split <;> omega
    rw [hwritten, List.length_append, Int.natCast_add]

/-- One more record in the open file. -/
theorem Logged.append (h : Logged x records) {file : Nat} {bytes data : Bytes}
    (hfd : x.1.fd = some file)
    (hholds : Holds x.1.logFileSize.toNat (textOf file records ++ bytes) data) :
    Logged ({ x.1 with buffer := x.1.buffer.endWrite bytes.length }, x.2.setData file data)
      (records ++ [(file, bytes)]) := by
  obtain ⟨hlt, hpos, hbuf, hsize, hhead, _⟩ := h.opened file hfd
  have hself := textOf_append_self file records bytes
  have hnew : (x.2.setData file data).data file = data := Function.update_self ..
  refine ⟨fun hnone => ?_, fun file' hfd' => ?_, fun r hr => ?_, fun r hr file' hfd' => ?_, ?_⟩
  · exact absurd (hfd.symm.trans hnone) (Option.some_ne_none _)
  · obtain rfl : file = file' := Option.some.inj (hfd.symm.trans hfd')
    rw [hself, hnew]
    refine ⟨hlt, hpos, hbuf, hsize, ?_, hholds⟩
    show x.1.buffer.writeHead + (bytes.length : Int) = _
    rw [hhead, List.length_append, Int.natCast_add]
  · by_cases heq : r.1 = file
    · rw [heq, hself, hnew]
      exact ⟨hlt, hholds⟩
    · have hold : r ∈ records := by
        rcases List.mem_append.mp hr with hmem | hmem
        · exact hmem
        · exact absurd (congrArg Prod.fst (List.mem_singleton.mp hmem)) heq
      obtain ⟨hlt', hholds'⟩ := h.kept r hold
      rw [textOf_append_other (Ne.symm heq), Directory.data_setData, Function.update_of_ne heq]
      exact ⟨hlt', hholds'⟩
  · rcases List.mem_append.mp hr with hmem | hmem
    · exact h.current r hmem file' hfd'
    · rw [List.mem_singleton.mp hmem]
      exact Nat.le_of_eq (Option.some.inj (hfd.symm.trans hfd'))
  · rw [List.map_append, List.pairwise_append]
    refine ⟨h.inOrder, List.pairwise_singleton _ _, fun f hf f' hf' => ?_⟩
    obtain ⟨r, hr, rfl⟩ := List.mem_map.mp hf
    rw [List.mem_singleton.mp hf']
    exact h.current r hr file hfd

/-! ## Calls -/

/-- The file that gets the record of a call, none when the call returns without it. -/
def target (c : Call) (x : LogMmap × Disk) : Option Nat :=
  match findPlace c.answers x.1 x.2 with
  | (none, _) => none
  | (some _, x) => x.1.buffer.buf

/-- What the call adds to the records. -/
def added (c : Call) (x : LogMmap × Disk) : List (Nat × Bytes) :=
  match target c x with
  | none => []
  | some file => [(file, c.record)]

theorem writeLog_logged (h : Logged x records) (c : Call) :
    ∃ x', writeLog c x.1 x.2 = some x' ∧ Logged x' (records ++ added c x) ∧
      x'.1.logFileSize = x.1.logFileSize ∧
      (OpenAnswers.Good c.answers → maxMessageSize ≤ x.1.logFileSize → (target c x).isSome) := by
  obtain ⟨_, hlogged, hsize, hplace, hfound⟩ := h.findPlace c.answers
  unfold writeLog added target
  cases hresult : findPlace c.answers x.1 x.2 with
  | mk found x1 =>
    rw [hresult] at hlogged hsize hplace hfound
    cases found with
    | none =>
      refine ⟨x1, rfl, ?_, hsize, hfound⟩
      rw [List.append_nil]
      exact hlogged
    | some data =>
      obtain ⟨file, hfd, hdata, hroom⟩ := hlogged.place (hplace data rfl)
      obtain ⟨_, _, hbuf, _, _, hholds⟩ := hlogged.opened file hfd
      rw [hdata] at hroom
      obtain ⟨memory, hprint, hmemory⟩ := print_stores c hbuf hholds hroom
      dsimp only
      rw [hdata, hprint, hbuf]
      exact ⟨_, rfl, hlogged.append hfd hmemory, hsize, fun _ _ => rfl⟩

end

def writeLogs : List Call → LogMmap × Disk → Option (LogMmap × Disk)
  | [], x => some x
  | c :: calls, x => (writeLog c x.1 x.2).bind (writeLogs calls)

/-- The records of a run with their files. -/
def logged : List Call → LogMmap × Disk → List (Nat × Bytes)
  | [], _ => []
  | c :: calls, x =>
    added c x ++
      match writeLog c x.1 x.2 with
      | none => []
      | some x => logged calls x

section
variable {x : LogMmap × Disk} {records : List (Nat × Bytes)}

theorem writeLogs_logged (h : Logged x records) (calls : List Call) :
    ∃ x', writeLogs calls x = some x' ∧ Logged x' (records ++ logged calls x) ∧
      x'.1.logFileSize = x.1.logFileSize := by
  induction calls generalizing x records with
  | nil => exact ⟨x, rfl, by rw [logged, List.append_nil]; exact h, rfl⟩
  | cons c calls ih =>
    obtain ⟨x1, hcall, hlogged, hsize, _⟩ := writeLog_logged h c
    obtain ⟨x2, hrest, hlogged', hsize'⟩ := ih hlogged
    unfold writeLogs logged
    rw [hcall, ← List.append_assoc]
    exact ⟨x2, hrest, hlogged', hsize'.trans hsize⟩

/-- The records are those of the calls, in their order, without the calls that found no place. -/
theorem logged_sublist (h : Logged x records) (calls : List Call) :
    ((logged calls x).map Prod.snd).Sublist (calls.map Call.record) := by
  induction calls generalizing x records with
  | nil => exact List.Sublist.refl _
  | cons c calls ih =>
    obtain ⟨x1, hcall, hlogged, _, _⟩ := writeLog_logged h c
    unfold logged added
    rw [hcall, List.map_append, List.map_cons]
    cases target c x with
    | none => exact List.Sublist.cons _ (ih hlogged)
    | some file => exact List.Sublist.cons_cons _ (ih hlogged)

/-- With files for the greatest message, and rotations that succeed, no record is missing. -/
theorem logged_all (h : Logged x records) (hsize : maxMessageSize ≤ x.1.logFileSize)
    {calls : List Call} (hgood : ∀ c ∈ calls, OpenAnswers.Good c.answers) :
    (logged calls x).map Prod.snd = calls.map Call.record := by
  induction calls generalizing x records with
  | nil => rfl
  | cons c calls ih =>
    obtain ⟨x1, hcall, hlogged, hsame, hfound⟩ := writeLog_logged h c
    obtain ⟨file, hfile⟩ := Option.isSome_iff_exists.mp
      (hfound (hgood c List.mem_cons_self) hsize)
    have hrest := ih hlogged (by rw [hsame]; exact hsize)
      (fun c' hc' => hgood c' (List.mem_cons_of_mem _ hc'))
    unfold logged added
    rw [hfile, hcall, List.map_append, List.map_cons, hrest]
    rfl

end

/-! ## Runs of the log -/

/-- What stands in the files behind a run of calls from `x0` to `x`. -/
structure Appended (size : Int) (calls : List Call) (x0 x : LogMmap × Disk) : Prop where
  /-- A file that has records holds them one behind the other, and zeros behind them. -/
  files : ∀ r ∈ logged calls x0,
    Holds size.toNat (textOf r.1 (logged calls x0)) (x.2.data r.1)
  /-- The open file is used up to the write head. -/
  used : ∀ file, x.1.fd = some file → Holds size.toNat (textOf file (logged calls x0))
      (x.2.data file) ∧ x.1.buffer.writeHead = (textOf file (logged calls x0)).length
  /-- Later records are in the same file or in a later one. -/
  inOrder : ((logged calls x0).map Prod.fst).Pairwise (· ≤ ·)
  records : ((logged calls x0).map Prod.snd).Sublist
    (calls.map (fun c => (c.header ++ c.message).take (maxMessageSize - 1).toNat))
  noNul : (∀ c ∈ calls, 0 ∉ c.header ∧ 0 ∉ c.message) → ∀ file, 0 ∉ textOf file (logged calls x0)
  /-- The next call rotates at most once. -/
  rotatesOnce : ∀ c : Call, (findPlace c.answers x.1 x.2).2 = x ∨
    (findPlace c.answers x.1 x.2).2 = (rotate c.answers x.1 x.2).2
  all : maxMessageSize ≤ size → (∀ c ∈ calls, OpenAnswers.Good c.answers) →
    (logged calls x0).map Prod.snd =
      calls.map (fun c => (c.header ++ c.message).take (maxMessageSize - 1).toNat)

/-- From its first rotation on, no call of the log stores outside of the mapping, and what the
calls leave is their records. -/
theorem writeLog_appends (log : LogMmap) (hfd : log.fd = none) (hbuffer : log.buffer = {})
    (a : OpenAnswers) (d : Disk) (calls : List Call) :
    ∃ x, writeLogs calls (rotate a log d).2 = some x ∧
      Appended log.logFileSize calls (rotate a log d).2 x := by
  have hstart : Logged (log, d) [] := by
    refine ⟨fun _ => hbuffer, fun file h => ?_, ?_, ?_, List.Pairwise.nil⟩
    · exact absurd (hfd.symm.trans h).symm (Option.some_ne_none _)
    · intro r hr
      exact absurd hr List.not_mem_nil
    · intro r hr
      exact absurd hr List.not_mem_nil
  obtain ⟨hrotated, hsize, _⟩ := hstart.rotate a
  obtain ⟨x, hrun, hlogged, hsame⟩ := writeLogs_logged hrotated calls
  rw [List.nil_append] at hlogged
  have hfinal : x.1.logFileSize = log.logFileSize := hsame.trans hsize
  have hsublist : ((logged calls (rotate a log d).2).map Prod.snd).Sublist
      (calls.map Call.record) := logged_sublist hrotated calls
  refine ⟨x, hrun, ?_, ?_, hlogged.inOrder, hsublist, ?_, ?_, ?_⟩
  · intro r hr
    rw [← hfinal]
    exact (hlogged.kept r hr).2
  · intro file hopen
    obtain ⟨_, _, _, _, hhead, hholds⟩ := hlogged.opened file hopen
    rw [← hfinal]
    exact ⟨hholds, hhead⟩
  · intro htexts file hmem
    unfold textOf at hmem
    obtain ⟨r, hr, hzero⟩ := List.mem_flatMap.mp hmem
    have hrecord := hsublist.subset (List.mem_map_of_mem (List.mem_of_mem_filter hr))
    obtain ⟨c, hc, heq⟩ := List.mem_map.mp hrecord
    rw [← heq] at hzero
    rcases List.mem_append.mp (List.mem_of_mem_take hzero) with hin | hin
    · exact (htexts c hc).1 hin
    · exact (htexts c hc).2 hin
  · intro c
    exact (hlogged.findPlace c.answers).1
  · intro hlarge hgood
    have hlarge' : maxMessageSize ≤ (rotate a log d).2.1.logFileSize := by
      rw [hsize]
      exact hlarge
    exact logged_all hrotated hlarge' hgood

/-- A message that is longer than the room for it. -/
def longCall : Call where
  logPrefix := Config.ascii "[INFO]   "
  time := Config.ascii "20160101 00:00:00"
  message := List.replicate 2000 97

theorem writeLog_appends_long :
    ∃ x, writeLogs [longCall, longCall, longCall, longCall, longCall]
        (rotate {} twoArchives gapFolder).2 = some x ∧
      Appended 4096 [longCall, longCall, longCall, longCall, longCall]
        (rotate {} twoArchives gapFolder).2 x :=
  writeLog_appends twoArchives rfl rfl {} gapFolder _

end LogMmap
end EpollHttp
