import EpollHttp.LogMmap

/-
Rotation moves every archive up by one.

When a round of the loop renames the archive `i`, the name that it renames to is free: the round in
front of it has moved the file away, or there was none.
-/

namespace EpollHttp
namespace LogMmap

open CString (intMax)

/-! ## Names -/

/-- The name of an archive in full. -/
def archive (log : LogMmap) (k : Nat) : Bytes := log.logFileName ++ 46 :: Config.toString k

theorem toString_length {k : Nat} (h : (k : Int) ≤ intMax) : (Config.toString k).length ≤ 10 := by
  have hk : k < 10 ^ 10 := by
    unfold intMax at h
    omega
  unfold Config.toString
  rw [List.length_map]
  exact (Nat.length_toDigits_le_iff (by decide) (by decide)).mpr hk

/-- No name of an archive is cut. -/
theorem archiveName_eq (log : LogMmap) {k : Nat} (h : (k : Int) ≤ intMax) :
    log.archiveName k = log.archive k := by
  have hfits := log.name_fits
  have hdigits := toString_length h
  have hname : log.logFileName ++ 46 :: printInt k = log.archive k := rfl
  unfold archiveName printed
  rw [hname]
  refine List.take_of_length_le ?_
  unfold archive
  rw [List.length_append, List.length_cons]
  show _ ≤ 299
  omega

/-- The digits of a number, read back. -/
theorem toString_inj {j k : Nat} (h : Config.toString j = Config.toString k) : j = k := by
  have hback : ∀ n, (Config.toString n).map (fun b => Char.ofNat b.toNat) = Nat.toDigits 10 n := by
    intro n
    unfold Config.toString
    rw [List.map_map]
    refine (List.map_congr_left (fun c hc => ?_)).trans (List.map_id _)
    have hdigit : c.isDigit = true := Nat.isDigit_of_mem_toDigits (by decide) (by decide) hc
    have hlt : c.toNat < 256 := by
      unfold Char.isDigit at hdigit
      simp only [Bool.and_eq_true, decide_eq_true_eq] at hdigit
      have hle : c.toNat ≤ 57 := hdigit.2
      omega
    show Char.ofNat (UInt8.ofNat c.toNat).toNat = c
    rw [UInt8.toNat_ofNat_of_lt' hlt, Char.ofNat_toNat]
  have hdigits : Nat.toDigits 10 j = Nat.toDigits 10 k := by
    rw [← hback j, ← hback k, h]
  rw [← Nat.ofDigitChars_ten_toDigits (n := j), hdigits, Nat.ofDigitChars_ten_toDigits]

theorem archive_inj {log : LogMmap} {j k : Nat} (h : log.archive j = log.archive k) : j = k := by
  unfold archive at h
  rw [List.append_cancel_left_eq] at h
  exact toString_inj (List.cons.inj h).2

theorem archive_ne {log : LogMmap} {j k : Nat} (h : j ≠ k) : log.archive j ≠ log.archive k :=
  fun heq => h (archive_inj heq)

theorem archive_ne_log (log : LogMmap) (k : Nat) : log.archive k ≠ log.logFileName := by
  intro h
  have hlen := congrArg List.length h
  unfold archive at hlen
  rw [List.length_append, List.length_cons] at hlen
  omega

/-! ## The loop -/

section
variable {log : LogMmap} {d : Disk}

/-- The archives up to `i` move up by one, and nothing else moves.  `p1` is the name in front of
the loop and behind every round: the name of a free archive. -/
structure MovedUp (log : LogMmap) (i : Nat) (d d' : Disk) : Prop where
  free : d'.entry (log.archive 1) = none
  up : ∀ k, 1 ≤ k → k ≤ i → d'.entry (log.archive (k + 1)) = d.entry (log.archive k)
  other : ∀ name, (∀ k, 1 ≤ k → k ≤ i + 1 → name ≠ log.archive k) → d'.entry name = d.entry name
  data : d'.data = d.data
  next : d'.next = d.next

theorem renameArchives_moves {i : Nat} (hi : ((i + 1 : Nat) : Int) ≤ intMax) (p0 : Bytes)
    (hfree : d.entry (log.archive (i + 1)) = none) :
    (log.renameArchives i p0 (log.archive (i + 1)) d).1 = log.archive 1 ∧
      MovedUp log i d (log.renameArchives i p0 (log.archive (i + 1)) d).2 := by
  induction i generalizing d p0 with
  | zero =>
    refine ⟨rfl, hfree, fun k hk hk' => by omega, fun name _ => rfl, rfl, rfl⟩
  | succ i ih =>
    have hlt : ((i + 1 : Nat) : Int) ≤ intMax := by omega
    have hne : log.archive (i + 1) ≠ log.archive (i + 1 + 1) := archive_ne (by omega)
    have hnext : (d.rename (log.archive (i + 1)) (log.archive (i + 1 + 1))).entry
        (log.archive (i + 1)) = none := Directory.entry_rename_old hne hfree
    obtain ⟨hp, hmoved⟩ := ih hlt (log.archive (i + 1 + 1)) hnext
    have hname : log.archiveName (i + 1 : Nat) = log.archive (i + 1) := archiveName_eq log hlt
    unfold renameArchives
    simp only [hname]
    refine ⟨hp, hmoved.free, ?_, ?_, ?_, ?_⟩
    · intro k hk hki
      rcases Nat.lt_or_eq_of_le hki with hlt | heq
      · -- Below the archive of this round, the rest of the loop moves it.
        rw [hmoved.up k hk (by omega), Directory.entry_rename_other (archive_ne (by omega))
          (archive_ne (by omega))]
      · rw [heq, hmoved.other _ (fun j _ hj => archive_ne (by omega)),
          Directory.entry_rename_new hfree]
    · intro name hname
      rw [hmoved.other name (fun k hk hki => hname k hk (by omega)),
        Directory.entry_rename_other (hname (i + 1) (by omega) (by omega))
          (hname (i + 1 + 1) (by omega) (by omega))]
    · rw [hmoved.data, Directory.data_rename]
    · rw [hmoved.next, Directory.next_rename]

end

@[simp] theorem closeFile_name (log : LogMmap) : log.closeFile.logFileName = log.logFileName := by
  unfold closeFile
  split <;> rfl

@[simp] theorem closeFile_count (log : LogMmap) :
    log.closeFile.logArchiveCount = log.logArchiveCount := by
  unfold closeFile
  split <;> rfl

@[simp] theorem closeFile_size (log : LogMmap) : log.closeFile.logFileSize = log.logFileSize := by
  unfold closeFile
  split <;> rfl

/-- The files when the log file is to be opened. -/
def moved (log : LogMmap) (d : Disk) : Disk :=
  let p1 := log.archiveName log.logArchiveCount
  let r := log.renameArchives (log.logArchiveCount - 1).toNat [] p1 (d.remove p1)
  r.2.rename log.logFileName r.1

theorem rotate_eq (a : OpenAnswers) (log : LogMmap) (d : Disk) :
    rotate a log d = openFile a log.closeFile (log.closeFile.moved d) := rfl

/-- How many archives there are. -/
def archives (log : LogMmap) : Nat := log.logArchiveCount.toNat

/-- Every archive and the log file have moved up by one. -/
structure Moved (log : LogMmap) (d d' : Disk) : Prop where
  log_free : d'.entry log.logFileName = none
  first : d'.entry (log.archive 1) = d.entry log.logFileName
  up : ∀ k, 1 ≤ k → k + 1 ≤ log.archives → d'.entry (log.archive (k + 1)) = d.entry (log.archive k)
  other : ∀ name, name ≠ log.logFileName →
    (∀ k, 1 ≤ k → k ≤ log.archives → name ≠ log.archive k) → d'.entry name = d.entry name
  data : d'.data = d.data
  next : d'.next = d.next

theorem moved_moves {log : LogMmap} (hN : 1 ≤ log.logArchiveCount) (d : Disk) :
    Moved log d (log.moved d) := by
  obtain ⟨n, hn⟩ : ∃ n : Nat, log.logArchiveCount = (n + 1 : Nat) :=
    ⟨(log.logArchiveCount - 1).toNat, by omega⟩
  have hint : ((n + 1 : Nat) : Int) ≤ intMax := hn ▸ log.count_int.2
  have hcount : log.archives = n + 1 := by
    unfold archives
    rw [hn]
    rfl
  have hname : log.archiveName log.logArchiveCount = log.archive (n + 1) := by
    rw [hn, archiveName_eq log hint]
  have hrounds : (log.logArchiveCount - 1).toNat = n := by
    rw [hn]
    omega
  obtain ⟨hp, hloop⟩ := renameArchives_moves (d := d.remove (log.archive (n + 1))) hint []
    (Directory.entry_remove_self d _)
  unfold moved
  simp only [hname, hrounds, hp]
  -- The oldest archive is gone before the loop, every other name still stands for its file.
  have hkept : ∀ name, name ≠ log.archive (n + 1) →
      (d.remove (log.archive (n + 1))).entry name = d.entry name := fun name hne =>
    Directory.entry_remove_other hne
  have hlog : (log.renameArchives n [] (log.archive (n + 1))
      (d.remove (log.archive (n + 1)))).2.entry log.logFileName = d.entry log.logFileName := by
    rw [hloop.other _ (fun k _ _ => (archive_ne_log log k).symm),
      hkept _ (archive_ne_log log _).symm]
  refine ⟨Directory.entry_rename_old (archive_ne_log log 1).symm hloop.free, ?_, ?_, ?_, ?_, ?_⟩
  · rw [Directory.entry_rename_new hloop.free, hlog]
  · intro k hk hki
    rw [Directory.entry_rename_other (archive_ne_log log _) (archive_ne (by omega)),
      hloop.up k hk (by omega), hkept _ (archive_ne (by omega))]
  · intro name hne hother
    rw [Directory.entry_rename_other hne (hother 1 (by omega) (by omega)),
      hloop.other name (fun k hk hki => hother k hk (by omega)),
      hkept name (hother (n + 1) (by omega) (by omega))]
  · rw [Directory.data_rename, hloop.data, Directory.data_remove]
  · rw [Directory.next_rename, hloop.next, Directory.next_remove]

theorem archiveName_ne_log (log : LogMmap) (i : Int) : log.archiveName i ≠ log.logFileName := by
  intro h
  have hlen := congrArg List.length h
  have hfits := log.name_fits
  unfold archiveName printed at hlen
  rw [List.length_take, List.length_append, List.length_cons] at hlen
  have hroom : (300 - 1 : Int).toNat = 299 := rfl
  rw [hroom] at hlen
  omega

/-- However many archives there are to be, the name of the log file is free. -/
theorem moved_free (log : LogMmap) (d : Disk) :
    (log.moved d).entry log.logFileName = none ∧ (log.moved d).data = d.data ∧
      (log.moved d).next = d.next := by
  by_cases hN : 1 ≤ log.logArchiveCount
  · have hmoved := moved_moves hN d
    exact ⟨hmoved.log_free, hmoved.data, hmoved.next⟩
  · have hrounds : (log.logArchiveCount - 1).toNat = 0 := by omega
    unfold moved
    simp only [hrounds]
    exact ⟨Directory.entry_rename_old (archiveName_ne_log log _).symm
      (Directory.entry_remove_self d _), Directory.data_rename .., Directory.next_rename ..⟩

/-! ## The new log file -/

/-- The answers with which a log file comes up. -/
def OpenAnswers.Good (a : OpenAnswers) : Prop := a.opens = true ∧ a.truncates = true ∧ a.maps = true

/-- At most one file is new, and only `name` may stand for it. -/
structure NewFile (name : Bytes) (d d' : Disk) : Prop where
  other : ∀ name', name' ≠ name → d'.entry name' = d.entry name'
  fresh : ∀ file, d'.entry name = some file → file = d.next
  data : ∀ file, file ≠ d.next → d'.data file = d.data file
  next : d.next ≤ d'.next

section
variable {name : Bytes} {d d' : Disk}

theorem newFile_refused (hfree : d.entry name = none) : NewFile name d d where
  other := fun _ _ => rfl
  fresh := fun _ h => absurd (hfree.symm.trans h).symm (Option.some_ne_none _)
  data := fun _ _ => rfl
  next := Nat.le_refl _

theorem newFile_create (hfree : d.entry name = none) : NewFile name d (d.create name).2 := by
  obtain ⟨_, hentry, hdata, hnext⟩ := Directory.create_new hfree
  refine ⟨?_, ?_, ?_, ?_⟩
  · intro name' hne
    rw [hentry, Function.update_of_ne hne]
  · intro file h
    rw [hentry, Function.update_self] at h
    exact (Option.some.inj h).symm
  · intro file hne
    rw [hdata, Function.update_of_ne hne]
  · rw [hnext]
    exact Nat.le_succ _

theorem NewFile.setData (h : NewFile name d d') (cells : Bytes) :
    NewFile name d (d'.setData d.next cells) where
  other := h.other
  fresh := h.fresh
  data := fun file hne => by
    rw [Directory.data_setData, Function.update_of_ne hne]
    exact h.data file hne
  next := h.next

end

/-- What `openFile` leaves when the name of the log file is free. -/
structure Opened (a : OpenAnswers) (log : LogMmap) (d : Disk) (success : Bool) (log' : LogMmap)
    (d' : Disk) : Prop where
  name : log'.logFileName = log.logFileName
  count : log'.logArchiveCount = log.logArchiveCount
  size : log'.logFileSize = log.logFileSize
  files : NewFile log.logFileName d d'
  success_iff : success = true ↔ OpenAnswers.Good a ∧ 0 < log.logFileSize
  up : success = true → log'.fd = some d.next ∧ d'.entry log.logFileName = some d.next ∧
    d'.data d.next = List.replicate log.logFileSize.toNat 0 ∧
    log'.buffer = .init (some d.next) log.logFileSize
  down : success = false → log'.fd = none ∧ log'.buffer = log.buffer

theorem openFile_opened {log : LogMmap} {d : Disk} (a : OpenAnswers)
    (hfree : d.entry log.logFileName = none) :
    Opened a log d (openFile a log d).1 (openFile a log d).2.1 (openFile a log d).2.2 := by
  obtain ⟨hfile, hentry, hdata, _⟩ := Directory.create_new hfree
  have hcreated := newFile_create hfree
  have hsized : (d.create log.logFileName).2.truncate 0 (d.create log.logFileName).1
      log.logFileSize.toNat = (d.create log.logFileName).2.setData d.next
        (List.replicate log.logFileSize.toNat 0) := by
    rw [hfile]
    exact Directory.truncate_empty (by rw [hdata, Function.update_self])
  have hrefused : ∀ h : ¬ (OpenAnswers.Good a ∧ 0 < log.logFileSize),
      (false = true ↔ OpenAnswers.Good a ∧ 0 < log.logFileSize) := fun h =>
    ⟨fun hfalse => absurd hfalse Bool.false_ne_true, fun hgood => absurd hgood h⟩
  unfold openFile
  split
  · rename_i hopens
    refine ⟨rfl, rfl, rfl, newFile_refused hfree, hrefused ?_, fun h => absurd h Bool.false_ne_true,
      fun _ => ⟨rfl, rfl⟩⟩
    rintro ⟨⟨hgood, _⟩, _⟩
    exact Bool.noConfusion (hopens.symm.trans hgood)
  · rename_i hopens
    dsimp only
    split
    · rename_i hsize
      refine ⟨rfl, rfl, rfl, hcreated, hrefused ?_, fun h => absurd h Bool.false_ne_true,
        fun _ => ⟨rfl, rfl⟩⟩
      rintro ⟨⟨_, hgood, _⟩, hpos⟩
      rcases hsize with hfails | hneg
      · exact Bool.noConfusion (hfails.symm.trans hgood)
      · omega
    · rename_i hsize
      rw [hsized]
      split
      · rename_i hmaps
        refine ⟨rfl, rfl, rfl, hcreated.setData _, hrefused ?_,
          fun h => absurd h Bool.false_ne_true, fun _ => ⟨rfl, rfl⟩⟩
        rintro ⟨⟨_, _, hgood⟩, hpos⟩
        rcases hmaps with hfails | hzero
        · exact Bool.noConfusion (hfails.symm.trans hgood)
        · omega
      · rename_i hmaps
        simp only [not_or, Bool.not_eq_false] at hopens hsize hmaps
        refine ⟨rfl, rfl, rfl, hcreated.setData _,
          ⟨fun _ => ⟨⟨hopens, hsize.1, hmaps.1⟩, by omega⟩, fun _ => rfl⟩, fun _ => ?_,
          fun h => absurd h.symm Bool.false_ne_true⟩
        refine ⟨by rw [hfile], ?_, ?_, by rw [hfile]⟩
        · show (d.create log.logFileName).2.entry log.logFileName = _
          rw [hentry, Function.update_self]
        · rw [Directory.data_setData, Function.update_self]

/-! ## One rotation -/

/-- What a rotation leaves. -/
structure Rotated (a : OpenAnswers) (log : LogMmap) (d : Disk) (success : Bool) (log' : LogMmap)
    (d' : Disk) : Prop where
  name : log'.logFileName = log.logFileName
  count : log'.logArchiveCount = log.logArchiveCount
  size : log'.logFileSize = log.logFileSize
  first : d'.entry (log.archive 1) = d.entry log.logFileName
  up : ∀ k, 1 ≤ k → k + 1 ≤ log.archives → d'.entry (log.archive (k + 1)) = d.entry (log.archive k)
  other : ∀ name, name ≠ log.logFileName →
    (∀ k, 1 ≤ k → k ≤ log.archives → name ≠ log.archive k) → d'.entry name = d.entry name
  fresh : ∀ file, d'.entry log.logFileName = some file → file = d.next
  data : ∀ file, file ≠ d.next → d'.data file = d.data file
  next : d.next ≤ d'.next
  success_iff : success = true ↔ OpenAnswers.Good a ∧ 0 < log.logFileSize
  opened : success = true → log'.fd = some d.next ∧ d'.entry log.logFileName = some d.next ∧
    d'.data d.next = List.replicate log.logFileSize.toNat 0 ∧
    log'.buffer = .init (some d.next) log.logFileSize
  closed : success = false → log'.fd = none ∧ log'.buffer = log.closeFile.buffer

theorem rotate_rotated {log : LogMmap} (hN : 1 ≤ log.logArchiveCount) (a : OpenAnswers) (d : Disk) :
    Rotated a log d (rotate a log d).1 (rotate a log d).2.1 (rotate a log d).2.2 := by
  have hname : ∀ k, log.closeFile.archive k = log.archive k := fun k => by
    unfold archive
    rw [closeFile_name]
  have hcount : log.closeFile.archives = log.archives := by
    unfold archives
    rw [closeFile_count]
  have hmoved : Moved log.closeFile d (log.closeFile.moved d) :=
    moved_moves (by rw [closeFile_count]; exact hN) d
  have hopened := openFile_opened a hmoved.log_free
  rw [← rotate_eq] at hopened
  have hsuccess := hopened.success_iff
  have hup := hopened.up
  obtain ⟨hlogOther, hlogFresh, hlogData, hlogNext⟩ := hopened.files
  obtain ⟨_, hfirst, hmoveUp, hother, hdata, hnext⟩ := hmoved
  simp only [closeFile_name, closeFile_size, hname, hcount, hnext] at *
  refine ⟨hopened.name.trans (closeFile_name log), hopened.count.trans (closeFile_count log),
    hopened.size.trans (closeFile_size log), ?_, ?_, ?_, hlogFresh, ?_, hlogNext, hsuccess, hup,
    hopened.down⟩
  · rw [hlogOther _ (archive_ne_log log 1), hfirst]
  · intro k hk hki
    rw [hlogOther _ (archive_ne_log log _), hmoveUp k hk hki]
  · intro name hne hnone
    rw [hlogOther name hne, hother name hne hnone]
  · intro file hne
    rw [hlogData file hne, hdata]

/-- A name reads as another did when it stands for the file of the other. -/
theorem Rotated.read {a : OpenAnswers} {log log' : LogMmap} {d d' : Disk} {success : Bool}
    (h : Rotated a log d success log' d') {name name' : Bytes}
    (hentry : d'.entry name' = d.entry name) : d'.read name' = d.read name := by
  unfold Directory.read
  rw [hentry]
  cases hfile : d.entry name with
  | none => rfl
  | some file =>
    rw [Option.map_some, Option.map_some, h.data file (Nat.ne_of_lt (d.entry_lt hfile))]

/-! ## Any number of rotations -/

/-- What the archives hold, the newest first. -/
def shelf (log : LogMmap) (d : Disk) : List (Option Bytes) :=
  (List.range log.archives).map (fun k => d.read (log.archive (k + 1)))

/-- A rotation, with what has become of the open log file before it. -/
structure Turn where
  content : Bytes
  answers : OpenAnswers

/-- The files when the rotation begins. -/
def Turn.filled (t : Turn) (x : LogMmap × Disk) : Disk :=
  match x.1.fd with
  | none => x.2
  | some file => x.2.setData file t.content

def Turn.apply (t : Turn) (x : LogMmap × Disk) : LogMmap × Disk :=
  (rotate t.answers x.1 (t.filled x)).2

def rotations (turns : List Turn) (x : LogMmap × Disk) : LogMmap × Disk :=
  turns.foldl (fun x t => t.apply x) x

/-- What the log file held at each rotation, the newest first. -/
def rotatedLogs : List Turn → LogMmap × Disk → List (Option Bytes)
  | [], _ => []
  | t :: turns, x =>
    rotatedLogs turns (t.apply x) ++ [(t.filled x).read x.1.logFileName]

/-- Only the name of the log file stands for the open file. -/
def OpenIsLog (x : LogMmap × Disk) : Prop :=
  ∀ file, x.1.fd = some file → ∀ name, x.2.entry name = some file → name = x.1.logFileName

section
variable {log log' : LogMmap} {d d' : Disk} {a : OpenAnswers} {success : Bool}

theorem Rotated.shelf (h : Rotated a log d success log' d') (hN : 1 ≤ log.logArchiveCount) :
    log'.shelf d' = (d.read log.logFileName :: log.shelf d).take log.archives := by
  obtain ⟨n, hn⟩ : ∃ n, log.archives = n + 1 := by
    refine ⟨log.archives - 1, ?_⟩
    unfold archives
    omega
  have hname : ∀ k, log'.archive k = log.archive k := fun k => by
    unfold archive
    rw [h.name]
  have hcount : log'.archives = log.archives := by
    unfold archives
    rw [h.count]
  have hup : ∀ k ∈ List.range n,
      d'.read (log.archive (k + 1 + 1)) = d.read (log.archive (k + 1)) := by
    intro k hk
    have hlt : k < n := List.mem_range.mp hk
    exact h.read (h.up (k + 1) (by omega) (by omega))
  have hlast : (log.shelf d).take n =
      (List.range n).map (fun k => d.read (log.archive (k + 1))) := by
    unfold LogMmap.shelf
    rw [hn, ← List.map_take, List.take_range, Nat.min_eq_left (Nat.le_succ n)]
  rw [hn, List.take_succ_cons, hlast]
  unfold LogMmap.shelf
  simp only [hname, hcount, hn]
  rw [List.range_succ_eq_map, List.map_cons, List.map_map, h.read h.first]
  exact congrArg _ (List.map_congr_left hup)

/-- Filling the open file changes no archive. -/
theorem Turn.filled_read {t : Turn} {x : LogMmap × Disk} (h : OpenIsLog x) {name : Bytes}
    (hne : name ≠ x.1.logFileName) : (t.filled x).read name = x.2.read name := by
  unfold Turn.filled Directory.read
  split
  · rfl
  · rename_i file hfd
    rw [Directory.entry_setData, Directory.data_setData]
    cases hentry : x.2.entry name with
    | none => rfl
    | some file' =>
      have hfile : file' ≠ file := fun heq => hne (h file hfd name (heq ▸ hentry))
      rw [Option.map_some, Option.map_some, Function.update_of_ne hfile]

theorem Rotated.openIsLog (h : Rotated a log d success log' d') : OpenIsLog (log', d') := by
  intro file hfd name hentry
  cases hsuccess : success with
  | false =>
    rw [(h.closed hsuccess).1] at hfd
    exact absurd hfd.symm (Option.some_ne_none _)
  | true =>
    have hnew : file = d.next := Option.some.inj (hfd.symm.trans (h.opened hsuccess).1)
    show name = log'.logFileName
    rw [h.name]
    by_contra hne
    -- Every other name stands for a file that was there before.
    have hold : ∃ old, d.entry old = some file := by
      by_cases hk : ∃ k, 1 ≤ k ∧ k ≤ log.archives ∧ name = log.archive k
      · obtain ⟨k, hk, hki, rfl⟩ := hk
        obtain ⟨k, rfl⟩ := Nat.exists_eq_add_of_le' hk
        cases k with
        | zero => exact ⟨_, h.first.symm.trans hentry⟩
        | succ k => exact ⟨_, (h.up (k + 1) (by omega) hki).symm.trans hentry⟩
      · have hother := h.other name hne (fun k hk1 hki heq => hk ⟨k, hk1, hki, heq⟩)
        exact ⟨name, hother.symm.trans hentry⟩
    obtain ⟨old, hold⟩ := hold
    exact absurd (d.entry_lt hold) (by omega)

end

/-- The names and the number of the archives do not change. -/
theorem shelf_congr {log log' : LogMmap} (hname : log'.logFileName = log.logFileName)
    (hcount : log'.logArchiveCount = log.logArchiveCount) (d : Disk) :
    log'.shelf d = log.shelf d := by
  unfold shelf archives archive
  rw [hname, hcount]

section
variable {x : LogMmap × Disk}

theorem Turn.apply_rotated (t : Turn) (hN : 1 ≤ x.1.logArchiveCount) :
    Rotated t.answers x.1 (t.filled x) (rotate t.answers x.1 (t.filled x)).1 (t.apply x).1
      (t.apply x).2 :=
  rotate_rotated hN t.answers (t.filled x)

/-- One turn puts what the log file held in front, and what does not fit is gone. -/
theorem Turn.apply_shelf (t : Turn) (hN : 1 ≤ x.1.logArchiveCount) (h : OpenIsLog x) :
    (t.apply x).1.shelf (t.apply x).2 =
      ((t.filled x).read x.1.logFileName :: x.1.shelf x.2).take x.1.archives := by
  have hfilled : x.1.shelf (t.filled x) = x.1.shelf x.2 := by
    unfold shelf
    exact List.map_congr_left (fun k _ => Turn.filled_read h (archive_ne_log x.1 (k + 1)))
  rw [(t.apply_rotated hN).shelf hN, hfilled]

theorem rotations_shelf (turns : List Turn) (hN : 1 ≤ x.1.logArchiveCount) (h : OpenIsLog x) :
    x.1.shelf (rotations turns x).2 =
      (rotatedLogs turns x ++ x.1.shelf x.2).take x.1.archives := by
  induction turns generalizing x with
  | nil =>
    have hlen : (x.1.shelf x.2).length = x.1.archives := by
      unfold shelf
      rw [List.length_map, List.length_range]
    exact (List.take_of_length_le (Nat.le_of_eq hlen)).symm
  | cons t turns ih =>
    have hturn := t.apply_rotated hN
    have hcount : (t.apply x).1.archives = x.1.archives := by
      unfold archives
      rw [hturn.count]
    have hrest := ih (by rw [hturn.count]; exact hN) hturn.openIsLog
    rw [t.apply_shelf hN h, hcount, shelf_congr hturn.name hturn.count] at hrest
    show x.1.shelf (rotations turns (t.apply x)).2 = ((rotatedLogs turns (t.apply x) ++
      [(t.filled x).read x.1.logFileName]) ++ x.1.shelf x.2).take x.1.archives
    rw [hrest, List.append_assoc, List.singleton_append, List.take_append, List.take_append,
      List.take_take, Nat.min_eq_left (Nat.sub_le _ _)]

end

/-! ## The newest logs are kept -/

/-- One rotation moves every archive up by one and begins a new log file, so any number of them
keeps the last logs, the newest first. -/
theorem rotate_keeps_newest (log : LogMmap) (hN : 1 ≤ log.logArchiveCount) (d : Disk) :
    (∀ a : OpenAnswers,
      (∀ k, 2 ≤ k → k ≤ log.archives →
        (rotate a log d).2.2.read (log.archive k) = d.read (log.archive (k - 1))) ∧
      (rotate a log d).2.2.read (log.archive 1) = d.read log.logFileName ∧
      (∀ k, log.archives < k →
        (rotate a log d).2.2.read (log.archive k) = d.read (log.archive k)) ∧
      (∀ file, (rotate a log d).2.2.entry log.logFileName = some file → d.next ≤ file) ∧
      (OpenAnswers.Good a → 0 < log.logFileSize → (rotate a log d).1 = true ∧
        (rotate a log d).2.2.read log.logFileName =
          some (List.replicate log.logFileSize.toNat 0) ∧
        ∀ t : Turn, (t.filled (rotate a log d).2).read log.logFileName = some t.content)) ∧
    (log.fd = none → ∀ turns,
      log.shelf (rotations turns (log, d)).2 =
        (rotatedLogs turns (log, d) ++ log.shelf d).take log.archives) := by
  refine ⟨fun a => ?_, ?_⟩
  · have hrotated := rotate_rotated hN a d
    refine ⟨fun k hk hki => ?_, hrotated.read hrotated.first, fun k hk => ?_,
      fun file hfile => Nat.le_of_eq (hrotated.fresh file hfile).symm, fun hgood hsize => ?_⟩
    · obtain ⟨j, rfl⟩ := Nat.exists_eq_add_of_le' hk
      exact hrotated.read (hrotated.up (j + 1) (by omega) hki)
    · exact hrotated.read (hrotated.other _ (archive_ne_log log k)
        (fun j _ hj => archive_ne (by omega)))
    · have hsuccess := hrotated.success_iff.mpr ⟨hgood, hsize⟩
      obtain ⟨hfd, hentry, hdata, _⟩ := hrotated.opened hsuccess
      refine ⟨hsuccess, ?_, fun t => ?_⟩
      · unfold Directory.read
        rw [hentry, Option.map_some, hdata]
      · unfold Turn.filled Directory.read
        rw [hfd]
        dsimp only
        rw [Directory.entry_setData, hentry, Option.map_some, Directory.data_setData,
          Function.update_self]
  · intro hfd turns
    have hopen : OpenIsLog (log, d) := fun file h =>
      absurd (hfd.symm.trans h).symm (Option.some_ne_none _)
    exact rotations_shelf turns hN hopen

/-- A log with two archives. -/
def twoArchives : LogMmap where
  logFileSize := 4096
  logArchiveCount := 2
  logFileName := Config.ascii "log/http.log"
  count_int := by decide
  name_fits := by decide +kernel

/-- The folder of that log, whose first archive is missing. -/
def gapFolder : Disk :=
  ((((Directory.empty.create (Config.ascii "log/http.log")).2.setData 0 [97]).create
    (Config.ascii "log/http.log.2")).2).setData 1 [98]

theorem rotate_keeps_newest_gap :
    (rotate {} twoArchives gapFolder).2.2.read (twoArchives.archive 2) =
        gapFolder.read (twoArchives.archive 1) ∧
      twoArchives.shelf (rotations [⟨[], {}⟩, ⟨[99], {}⟩] (twoArchives, gapFolder)).2 =
        (rotatedLogs [⟨[], {}⟩, ⟨[99], {}⟩] (twoArchives, gapFolder) ++
          twoArchives.shelf gapFolder).take 2 :=
  ⟨((rotate_keeps_newest twoArchives (by decide) gapFolder).1 {}).1 2 (by decide) (by decide),
    (rotate_keeps_newest twoArchives (by decide) gapFolder).2 rfl _⟩

end LogMmap
end EpollHttp
