import EpollHttp.Lib.Directory
import EpollHttp.ServerParameters

/-
`LogMmap`: a log that is written into a mapped file and moved to numbered archives.

A descriptor and a mapping stand for the file that is behind them.  What the kernel answers is
given with each call: whether a new log file can be opened, sized and mapped.  `remove` and
`rename` succeed whenever their source exists.  A store outside of the mapping has no result.
-/

namespace EpollHttp

open CString (cString intMax)
open Config (ascii intMin)

/-- `TransferBuffer`, whose heads count from the begin of the block. -/
structure TransferBuffer (Block : Type) where
  buf : Option Block := none
  readHead : Int := 0
  writeHead : Int := 0
  bufSize : Int := 0

namespace TransferBuffer

variable {Block : Type}

def init (buffer : Option Block) (size : Int) : TransferBuffer Block :=
  { buf := buffer, bufSize := size }

/-- The place to write at and the room behind it; none when false is returned. -/
def startWrite (b : TransferBuffer Block) : Option (Int × Int) :=
  if b.writeHead ≥ b.bufSize then none else some (b.writeHead, b.bufSize - b.writeHead)

def endWrite (size : Int) (b : TransferBuffer Block) : TransferBuffer Block :=
  { b with writeHead := b.writeHead + size }

end TransferBuffer

/-- The files of the folder. -/
abbrev Disk := Directory Bytes UInt8

/-- What the calls of `openFile` answer. -/
structure OpenAnswers where
  opens : Bool := true
  truncates : Bool := true
  maps : Bool := true
  deriving DecidableEq, Repr

/-- `fd` is the file behind the descriptor, none for -1, and the mapping is of the file `buf`. -/
structure LogMmap where
  logFileSize : Int
  logArchiveCount : Int
  logFileName : Bytes
  buffer : TransferBuffer Nat := {}
  fd : Option Nat := none
  count_int : intMin ≤ logArchiveCount ∧ logArchiveCount ≤ intMax
  name_fits : logFileName.length ≤ 277

namespace LogMmap

def maxMessageSize : Int := 1024

def maxLogFileNameSize : Nat := 300

/-- What `snprintf` prints into `size` bytes in front of the terminator. -/
def printed (size : Int) (text : Bytes) : Bytes := text.take (size - 1).toNat

/-- `%d` -/
def printInt : Int → Bytes
  | .ofNat n => Config.toString n
  | .negSucc n => 45 :: Config.toString (n + 1)

/-- `snprintf(p, 300, "%s.%d", logFileName, i)` -/
def archiveName (log : LogMmap) (i : Int) : Bytes :=
  printed 300 (log.logFileName ++ 46 :: printInt i)

/-! ## Files -/

/-- `ftruncate` refuses a negative size and `mmap` an empty mapping. -/
def openFile (a : OpenAnswers) (log : LogMmap) (d : Disk) : Bool × LogMmap × Disk :=
  if a.opens = false then (false, { log with fd := none }, d)
  else
    let (file, d) := d.create log.logFileName
    if a.truncates = false ∨ log.logFileSize < 0 then (false, { log with fd := none }, d)
    else
      let d := d.truncate 0 file log.logFileSize.toNat
      if a.maps = false ∨ log.logFileSize = 0 then (false, { log with fd := none }, d)
      else
        (true, { log with fd := some file, buffer := .init (some file) log.logFileSize }, d)

def closeFile (log : LogMmap) : LogMmap :=
  match log.fd with
  | none => log
  | some _ => { log with buffer := .init none 0, fd := none }

/-- The loop of `rotate` over the archives `i`, .., 1.  Every round prints into `p0`, which then
becomes `p1`. -/
def renameArchives (log : LogMmap) : Nat → Bytes → Bytes → Disk → Bytes × Disk
  | 0, _, p1, d => (p1, d)
  | i + 1, _, p1, d =>
    let p0 := log.archiveName (i + 1 : Nat)
    renameArchives log i p1 p0 (d.rename p0 p1)

def rotate (a : OpenAnswers) (log : LogMmap) (d : Disk) : Bool × LogMmap × Disk :=
  let log := log.closeFile
  let p1 := log.archiveName log.logArchiveCount
  let d := d.remove p1
  let (p1, d) := log.renameArchives (log.logArchiveCount - 1).toNat [] p1 d
  openFile a log (d.rename log.logFileName p1)

/-- What `stat` and `mkdir` answer about the folder. -/
structure FolderAnswers where
  found : Bool := true
  made : Bool := true
  deriving DecidableEq, Repr

/-- The log behind a name that fits, and what `rotate` returned; none when `init` gives up before
it. -/
def init (params : Config.ServerParameters)
    (hint : intMin ≤ params.logArchiveCount ∧ params.logArchiveCount ≤ intMax)
    (f : FolderAnswers) (a : OpenAnswers) (d : Disk) : Option (Bool × LogMmap × Disk) :=
  if h : params.logFolder.length + 2 > maxLogFileNameSize - 30 then none
  else if f.found = false ∧ f.made = false then none
  else
    some (rotate a
      { logFileSize := params.logFileSize
        logArchiveCount := params.logArchiveCount
        logFileName := cString params.logFolder ++ ascii "/http.log"
        count_int := hint
        name_fits := by
          have hlen : (cString params.logFolder).length ≤ params.logFolder.length :=
            (List.takeWhile_prefix _).length_le
          have hname : (ascii "/http.log").length = 9 := by decide +kernel
          rw [List.length_append, hname]
          unfold maxLogFileNameSize at h
          omega } d)

/-- A log that starts has no file yet, and is what its first `rotate` finds. -/
theorem init_rotates {params : Config.ServerParameters}
    {hint : intMin ≤ params.logArchiveCount ∧ params.logArchiveCount ≤ intMax} {f : FolderAnswers}
    {a : OpenAnswers} {d : Disk} {x : Bool × LogMmap × Disk}
    (h : init params hint f a d = some x) : ∃ log : LogMmap, log.fd = none ∧ log.buffer = {} ∧
      log.logFileSize = params.logFileSize ∧ log.logArchiveCount = params.logArchiveCount ∧
      rotate a log d = x := by
  unfold init at h
  split at h
  · cases h
  · split at h
    · cases h
    · exact ⟨_, rfl, rfl, rfl, rfl, Option.some.inj h⟩

/-! ## Messages -/

/-- `bytes` behind the first `pos` cells of the memory. -/
def written (pos : Nat) (bytes memory : Bytes) : Bytes :=
  memory.take pos ++ bytes ++ memory.drop (pos + bytes.length)

/-- A store at `data` into the mapping, which is of `logFileSize` bytes. -/
def store (log : LogMmap) (data : Int) (bytes : Bytes) (d : Disk) : Option Disk :=
  match log.buffer.buf with
  | none => none
  | some file =>
    if 0 ≤ data ∧ data + bytes.length ≤ log.logFileSize then
      some (d.setData file (written data.toNat bytes (d.data file)))
    else none

/-- The room for a message at a place, if there is enough. -/
def place (log : LogMmap) : Option Int :=
  match log.buffer.startWrite with
  | none => none
  | some (data, size) => if size < maxMessageSize then none else some data

/-- The begin of `writeLog`: the place of the message, none when the call returns without it. -/
def findPlace (a : OpenAnswers) (log : LogMmap) (d : Disk) : Option Int × LogMmap × Disk :=
  match log.place with
  | some data => (some data, log, d)
  | none =>
    let (success, log, d) := rotate a log d
    if success = false then (none, log, d) else (log.place, log, d)

/-- One call of `writeLog`.  `message` is what the format and its arguments stand for. -/
structure Call where
  logPrefix : Bytes
  time : Bytes
  message : Bytes
  answers : OpenAnswers := {}
  deriving DecidableEq, Repr

/-- `"%s %s   "` -/
def Call.header (c : Call) : Bytes := c.logPrefix ++ 32 :: (c.time ++ [32, 32, 32])

/-- Behind the search for a place. -/
def print (c : Call) (data : Int) (log : LogMmap) (d : Disk) : Option (LogMmap × Disk) := do
  let bytesToWrite := maxMessageSize
  let d ← log.store data (printed bytesToWrite c.header ++ [0]) d
  let prefixLength : Int := c.header.length
  if prefixLength ≥ bytesToWrite then
    -- The terminator that `snprintf` adds is not counted.
    some ({ log with buffer := log.buffer.endWrite (bytesToWrite - 1) }, d)
  else
    let bytesToWrite := maxMessageSize - prefixLength
    let d ← log.store (data + prefixLength) (printed bytesToWrite c.message ++ [0]) d
    let bytesWritten : Int := c.message.length
    let bytesWritten := if bytesWritten ≥ bytesToWrite then bytesToWrite - 1 else bytesWritten
    some ({ log with buffer := log.buffer.endWrite (prefixLength + bytesWritten) }, d)

/-- None for a store outside of the mapping. -/
def writeLog (c : Call) (log : LogMmap) (d : Disk) : Option (LogMmap × Disk) :=
  match findPlace c.answers log d with
  | (none, log, d) => some (log, d)
  | (some data, log, d) => print c data log d

end LogMmap
end EpollHttp
