import EpollHttp.HttpRequest.Finished
import EpollHttp.HttpRequest.HeaderLookup

/-
The parser by indices.

The readers, the comparison with Content-Length, the URL decoder and the scans of the URL buffer
once more, as the loops over indices that they are.  An access outside a buffer has no value, and
neither has a length that would be negative, so a function that has a value made none of them.
-/

namespace EpollHttp
namespace HttpRequest

open CString

/-! ## Loops over an array -/

/-- `*length = i - cur`. -/
def lengthFrom (cur i : Nat) : Option Nat := if cur ≤ i then some (i - cur) else none

/-- `memory[i] = c`. -/
def store (memory : Bytes) (i : Nat) (c : UInt8) : Option Bytes :=
  if i < memory.length then some (memory.set i c) else none

/-- `for(; i < size && p(data[i]); ++i)`: where it ends. -/
def skipAt (memory : Bytes) (p : UInt8 → Bool) (i : Nat) : Option Nat :=
  if i < memory.length then do
    let c ← memory[i]?
    if p c then skipAt memory p (i + 1) else some i
  else some i
termination_by memory.length - i

/-- `while(i < size)`: go past the symbols of a class, and answer by the first other one. -/
def scanAt (memory : Bytes) (skip : UInt8 → Bool) (stop : UInt8 → Nat → Option ReadResult)
    (i : Nat) : Option ReadResult :=
  if i < memory.length then do
    let c ← memory[i]?
    if skip c then scanAt memory skip stop (i + 1) else stop c i
  else some .needMoreData
termination_by memory.length - i

/-- The loop that goes past line breaks and counts the line feeds. -/
def breaksAt (memory : Bytes) (i counter : Nat) : Option (Nat × Nat) :=
  if i < memory.length then do
    let c ← memory[i]?
    if isBreak c then breaksAt memory (i + 1) (if c = lf then counter + 1 else counter)
    else some (i, counter)
  else some (i, counter)
termination_by memory.length - i

theorem lengthFrom_add (cur n : Nat) : lengthFrom cur (cur + n) = some n := by
  unfold lengthFrom
  rw [if_pos (Nat.le_add_right cur n), Nat.add_sub_cancel_left]

section
variable {memory : Bytes}

theorem skipAt_eq {p : UInt8 → Bool} {i : Nat} (h : i ≤ memory.length) :
    skipAt memory p i = some (i + ((memory.drop i).takeWhile p).length) := by
  fun_induction skipAt memory p i with
  | case1 i hi ih =>
    rw [List.getElem?_eq_getElem hi, List.drop_eq_getElem_cons hi]
    show (if p memory[i] then skipAt memory p (i + 1) else some i) = _
    by_cases hp : p memory[i] = true
    · rw [if_pos hp, ih hi, List.takeWhile_cons_of_pos hp, List.length_cons]
      congr 1
      omega
    · rw [if_neg hp, List.takeWhile_cons_of_neg hp]
      rfl
  | case2 i hi =>
    rw [List.drop_eq_nil_of_le (Nat.le_of_not_lt hi)]
    rfl

theorem scanAt_eq {skip : UInt8 → Bool} {stop : UInt8 → Nat → Option ReadResult} {i : Nat}
    (h : i ≤ memory.length) : scanAt memory skip stop i =
      match (memory.drop i).dropWhile skip with
      | [] => some .needMoreData
      | c :: _ => stop c (i + ((memory.drop i).takeWhile skip).length) := by
  fun_induction scanAt memory skip stop i with
  | case1 i hi ih =>
    rw [List.getElem?_eq_getElem hi, List.drop_eq_getElem_cons hi]
    show (if skip memory[i] then scanAt memory skip stop (i + 1) else stop memory[i] i) = _
    by_cases hp : skip memory[i] = true
    · rw [if_pos hp, ih hi, List.takeWhile_cons_of_pos hp, List.dropWhile_cons_of_pos hp,
        List.length_cons, Nat.add_right_comm, Nat.add_assoc]
    · rw [if_neg hp, List.takeWhile_cons_of_neg hp, List.dropWhile_cons_of_neg hp]
      rfl
  | case2 i hi =>
    rw [List.drop_eq_nil_of_le (Nat.le_of_not_lt hi)]
    rfl

theorem breaksAt_eq {i counter : Nat} (h : i ≤ memory.length) : breaksAt memory i counter =
    some (i + ((memory.drop i).takeWhile isBreak).length,
      counter + lineBreakCounter ((memory.drop i).takeWhile isBreak)) := by
  fun_induction breaksAt memory i counter with
  | case1 i counter hi ih =>
    rw [List.getElem?_eq_getElem hi, List.drop_eq_getElem_cons hi]
    show (if isBreak memory[i] then
      breaksAt memory (i + 1) (if memory[i] = lf then counter + 1 else counter)
        else some (i, counter)) = _
    by_cases hp : isBreak memory[i] = true
    · have hrest := ih memory[i] hi
      simp only [dite_eq_ite] at hrest
      rw [if_pos hp, hrest, List.takeWhile_cons_of_pos hp, List.length_cons]
      unfold lineBreakCounter
      rw [List.count_cons]
      congr 2
      · omega
      · by_cases hlf : memory[i] = lf
        · rw [if_pos hlf, if_pos (by simp [hlf])]
          omega
        · rw [if_neg hlf, if_neg (by simp [hlf])]
          omega
    · rw [if_neg hp, List.takeWhile_cons_of_neg hp]
      rfl
  | case2 i counter hi =>
    rw [List.drop_eq_nil_of_le (Nat.le_of_not_lt hi)]
    rfl

end

/-! ## The readers -/

section
variable (r : HttpRequest)

def readMethodAt : Option ReadResult :=
  scanAt r.data isUpper (fun c i =>
    if c = space then (lengthFrom r.cur i).map .ok else some .invalid) r.cur

def readSpacesAt : Option ReadResult := do
  let i ← skipAt r.data (· == space) r.cur
  if i = r.size then some .needMoreData
  else
    let c ← r.data[i]?
    if isBreak c then some .invalid else (lengthFrom r.cur i).map .ok

def readUrlAt : Option ReadResult :=
  scanAt r.data readUrlSymbols (fun c i =>
    if c = space then (lengthFrom r.cur i).map .ok
    else if c = HttpRequest.question then (lengthFrom r.cur i).map .question
    else some .invalid) r.cur

def readUrlParametersAt : Option ReadResult := do
  let i ← skipAt r.data (· != space) r.cur
  if i = r.size then some .needMoreData
  else
    let c ← r.data[i]?
    if isBreak c then some .invalid else (lengthFrom r.cur i).map .ok

def readToNextLineAt : Option ReadResult := do
  let i ← skipAt r.data (!isBreak ·) r.cur
  if i = r.size then some .needMoreData
  else
    let (i, lineBreakCounter) ← breaksAt r.data i 0
    if 1 < lineBreakCounter then some (.endOfHeaders none)
    else if i = r.size then some .needMoreData
    else (lengthFrom r.cur i).map .ok

def readHeaderKeyAt : Option ReadResult :=
  scanAt r.data readHeaderKeySymbols (fun c i =>
    if c = colon then (lengthFrom r.cur i).map .ok else some .invalid) r.cur

def readHeaderSpaceAt : Option ReadResult :=
  scanAt r.data isHeaderSpace (fun c i =>
    if isBreak c then some .invalid else (lengthFrom r.cur i).map .ok) r.cur

def readHeaderValueAt : Option ReadResult :=
  scanAt r.data (!isBreak ·) (fun _ i => (lengthFrom r.cur i).map .ok) r.cur

def readHeaderLineBreakAt : Option ReadResult := do
  let (i, lineBreakCounter) ← breaksAt r.data r.cur 0
  if 1 < lineBreakCounter then (lengthFrom r.cur i).map (fun length => .endOfHeaders (some length))
  else if i = r.size then some .needMoreData
  else (lengthFrom r.cur i).map .ok

end

section
variable {r : HttpRequest}

/-- A reader that answers by the first symbol outside its class. -/
theorem scanAt_scan {skip : UInt8 → Bool} {stop : UInt8 → Nat → ReadResult}
    {stopAt : UInt8 → Nat → Option ReadResult} (hcur : r.cur ≤ r.size)
    (hstop : ∀ c n, stopAt c (r.cur + n) = some (stop c n)) :
    scanAt r.data skip stopAt r.cur = some (scan skip stop r.rest) := by
  rw [scanAt_eq hcur]
  unfold scan rest
  cases (r.data.drop r.cur).dropWhile skip with
  | nil => rfl
  | cons c tail => exact hstop c _

/-- The symbol a scan stops at. -/
theorem getElem?_stop {memory token tail : Bytes} {c : UInt8} {i : Nat}
    (h : memory.drop i = token ++ c :: tail) : memory[i + token.length]? = some c := by
  rw [← List.getElem?_drop, h, List.getElem?_append_right (Nat.le_refl _), Nat.sub_self]
  rfl

/-- A reader that goes past a class and then looks at the symbol behind it. -/
theorem skipAt_scan {skip : UInt8 → Bool} (hcur : r.cur ≤ r.size) :
    (do
      let i ← skipAt r.data skip r.cur
      if i = r.size then some ReadResult.needMoreData
      else
        let c ← r.data[i]?
        if isBreak c then some .invalid else (lengthFrom r.cur i).map .ok) =
      some (scan skip (fun c i => if isBreak c then .invalid else .ok i) r.rest) := by
  have hle : r.cur ≤ r.data.length := hcur
  rw [skipAt_eq hcur]
  show (if r.cur + ((r.data.drop r.cur).takeWhile skip).length = r.size then _ else _) = _
  unfold scan rest size
  cases hstop : (r.data.drop r.cur).dropWhile skip with
  | nil =>
    rw [Scan.takeWhile_all (Scan.dropWhile_nil_iff.mp hstop), List.length_drop,
      if_pos (by omega)]
  | cons c tail =>
    have hsplit := Scan.split hstop
    have hlen := congrArg List.length hsplit
    rw [List.length_append, List.length_drop, List.length_cons] at hlen
    rw [if_neg (by omega), getElem?_stop hsplit]
    show (if isBreak c then some ReadResult.invalid else (lengthFrom r.cur _).map .ok) = _
    rw [lengthFrom_add]
    dsimp only
    by_cases hb : isBreak c = true
    · rw [if_pos hb, if_pos hb]
    · rw [if_neg hb, if_neg hb]
      rfl

theorem readMethodAt_eq (hcur : r.cur ≤ r.size) : r.readMethodAt = some r.readMethod :=
  scanAt_scan hcur (fun c n => by rw [lengthFrom_add]; split <;> rfl)

theorem readSpacesAt_eq (hcur : r.cur ≤ r.size) : r.readSpacesAt = some r.readSpaces :=
  skipAt_scan hcur

theorem readUrlAt_eq (hcur : r.cur ≤ r.size) : r.readUrlAt = some r.readUrl :=
  scanAt_scan hcur (fun c n => by
    rw [lengthFrom_add]
    split
    · rfl
    · split <;> rfl)

theorem readUrlParametersAt_eq (hcur : r.cur ≤ r.size) :
    r.readUrlParametersAt = some r.readUrlParameters := skipAt_scan hcur

theorem readHeaderKeyAt_eq (hcur : r.cur ≤ r.size) : r.readHeaderKeyAt = some r.readHeaderKey :=
  scanAt_scan hcur (fun c n => by rw [lengthFrom_add]; split <;> rfl)

theorem readHeaderSpaceAt_eq (hcur : r.cur ≤ r.size) :
    r.readHeaderSpaceAt = some r.readHeaderSpace :=
  scanAt_scan hcur (fun c n => by rw [lengthFrom_add]; split <;> rfl)

theorem readHeaderValueAt_eq (hcur : r.cur ≤ r.size) :
    r.readHeaderValueAt = some r.readHeaderValue :=
  scanAt_scan hcur (fun c n => by rw [lengthFrom_add]; rfl)

theorem drop_cur (r : HttpRequest) : r.data.drop r.cur = r.rest := rfl

/-- A scan that is measured from `cur` ends at the end of the data when it sees nothing else. -/
theorem stop_eq_size (skip : UInt8 → Bool) {i : Nat} (hi : i ≤ r.size) :
    i + ((r.data.drop i).takeWhile skip).length = r.size ↔
      (r.data.drop i).dropWhile skip = [] := by
  have hle : i ≤ r.data.length := hi
  have hlen := congrArg List.length
    (List.takeWhile_append_dropWhile (p := skip) (l := r.data.drop i))
  rw [List.length_append, List.length_drop] at hlen
  rw [← List.length_eq_zero_iff]
  unfold size
  omega

theorem readHeaderLineBreakAt_eq (hcur : r.cur ≤ r.size) :
    r.readHeaderLineBreakAt = some r.readHeaderLineBreak := by
  have hend := stop_eq_size isBreak hcur
  unfold readHeaderLineBreakAt readHeaderLineBreak
  rw [breaksAt_eq hcur, Nat.zero_add, drop_cur]
  rw [drop_cur] at hend
  show (if 1 < lineBreakCounter (r.rest.takeWhile isBreak) then
    (lengthFrom r.cur (r.cur + _)).map _ else if _ = r.size then _ else
      (lengthFrom r.cur (r.cur + _)).map _) = _
  rw [lengthFrom_add]
  by_cases htwo : 1 < lineBreakCounter (r.rest.takeWhile isBreak)
  · rw [if_pos htwo, if_pos htwo]
    rfl
  · rw [if_neg htwo, if_neg htwo]
    unfold scan
    cases hstop : r.rest.dropWhile isBreak with
    | nil => rw [if_pos (hend.mpr hstop)]
    | cons c tail =>
      rw [if_neg (fun h => List.cons_ne_nil c tail (hstop.symm.trans (hend.mp h)))]
      rfl

theorem readToNextLineAt_eq (hcur : r.cur ≤ r.size) :
    r.readToNextLineAt = some r.readToNextLine := by
  have hall := stop_eq_size (!isBreak ·) hcur
  unfold readToNextLineAt readToNextLine
  rw [skipAt_eq hcur, drop_cur]
  rw [drop_cur] at hall
  show (if r.cur + (r.rest.takeWhile (!isBreak ·)).length = r.size then _ else _) = _
  cases hstop : r.rest.dropWhile (!isBreak ·) with
  | nil => rw [if_pos (hall.mpr hstop)]
  | cons c line =>
    have hsplit : r.data.drop r.cur = r.rest.takeWhile (!isBreak ·) ++ c :: line :=
      Scan.split hstop
    have hmore : ¬ r.cur + (r.rest.takeWhile (!isBreak ·)).length = r.size :=
      fun h => List.cons_ne_nil c line (hstop.symm.trans (hall.mp h))
    generalize r.rest.takeWhile (!isBreak ·) = token at hsplit hmore ⊢
    have hend : r.cur + token.length ≤ r.size := cur_add_length_le hcur hsplit
    have hdrop : r.data.drop (r.cur + token.length) = c :: line := by
      rw [← List.drop_drop, hsplit, List.drop_left]
    rw [if_neg hmore, breaksAt_eq hend, hdrop, Nat.zero_add]
    show (if 1 < lineBreakCounter ((c :: line).takeWhile isBreak) then _ else
      if r.cur + token.length + ((c :: line).takeWhile isBreak).length = r.size then _ else
        (lengthFrom r.cur (r.cur + token.length + _)).map _) = some (if _ then _ else _)
    have hsize : r.cur + token.length + ((c :: line).takeWhile isBreak).length = r.size ↔
        (c :: line).dropWhile isBreak = [] := by
      rw [← hdrop]
      exact stop_eq_size isBreak hend
    by_cases htwo : 1 < lineBreakCounter ((c :: line).takeWhile isBreak)
    · rw [if_pos htwo, if_pos htwo]
    · rw [if_neg htwo, if_neg htwo]
      unfold scan
      cases hline : (c :: line).dropWhile isBreak with
      | nil => rw [if_pos (hsize.mpr hline)]
      | cons d tail =>
        rw [if_neg (fun h => List.cons_ne_nil d tail (hline.symm.trans (hsize.mp h))),
          Nat.add_assoc, lengthFrom_add]
        rfl

end

/-! ## The Content-Length branch -/

/-- `strncasecmp(s, memory + i, n) == 0`. -/
def strncaseEqAt (memory : Bytes) : Nat → Bytes → Nat → Option Bool
  | 0, _, _ => some true
  | n + 1, s, i => do
    let c ← memory[i]?
    if toLower (s.headD 0) != toLower c then some false
    else if s.headD 0 == 0 then some true
    else strncaseEqAt memory n s.tail (i + 1)

/-- `strncpy(buf, memory + i, n)`: the bytes stored. -/
def strncpyAt (memory : Bytes) : Nat → Nat → Option Bytes
  | 0, _ => some []
  | n + 1, i => do
    let c ← memory[i]?
    if c = 0 then some (List.replicate (n + 1) 0)
    else (strncpyAt memory n (i + 1)).map (c :: ·)

theorem strncaseEqAt_eq {memory : Bytes} {n i : Nat} (s : Bytes) (h : i + n ≤ memory.length) :
    strncaseEqAt memory n s i = some (strncaseEq n s (memory.drop i)) := by
  induction n generalizing s i with
  | zero => rfl
  | succ n ih =>
    have hi : i < memory.length := by omega
    unfold strncaseEqAt strncaseEq
    rw [List.getElem?_eq_getElem hi, List.drop_eq_getElem_cons hi]
    show (if toLower (s.headD 0) != toLower memory[i] then _ else
      if s.headD 0 == 0 then _ else strncaseEqAt memory n s.tail (i + 1)) =
        some (if toLower (s.headD 0) != toLower memory[i] then _ else
          if s.headD 0 == 0 then _ else strncaseEq n s.tail (memory.drop (i + 1)))
    rw [ih s.tail (by omega)]
    split
    · rfl
    · split <;> rfl

/-- The copy is the bytes of the field as a C string. -/
theorem strncpyAt_eq {memory : Bytes} {n i : Nat} (h : i + n ≤ memory.length) :
    ∃ copied, strncpyAt memory n i = some copied ∧
      cString copied = cString ((memory.drop i).take n) := by
  induction n generalizing i with
  | zero => exact ⟨[], rfl, by rw [List.take_zero]⟩
  | succ n ih =>
    have hi : i < memory.length := by omega
    unfold strncpyAt
    rw [List.getElem?_eq_getElem hi, List.drop_eq_getElem_cons hi, List.take_succ_cons]
    by_cases hzero : memory[i] = 0
    · refine ⟨List.replicate (n + 1) 0, if_pos hzero, ?_⟩
      rw [hzero]
      rfl
    · obtain ⟨copied, hcopied, heq⟩ := ih (show i + 1 + n ≤ memory.length by omega)
      refine ⟨memory[i] :: copied, ?_, ?_⟩
      · show (if memory[i] = 0 then _ else (strncpyAt memory n (i + 1)).map _) = _
        rw [if_neg hzero, hcopied]
        rfl
      · unfold cString at heq ⊢
        rw [List.takeWhile_cons_of_pos (by simpa using hzero),
          List.takeWhile_cons_of_pos (by simpa using hzero), heq]

/-! ## The rounds -/

section
variable (r : HttpRequest)

def iterMethodAt : Option Iteration := do
  match ← r.readMethodAt with
  | .ok length =>
    some ({ r with
        methodStart := r.cur, methodLength := length,
        cur := r.cur + length, state := .spaceAfterMethod }, none)
  | .needMoreData => some (r, some .needMoreData)
  | _ => some (r, some .finishInvalid)

def iterSpaceAfterMethodAt : Option Iteration := do
  match ← r.readSpacesAt with
  | .ok length => some ({ r with cur := r.cur + length, state := .url }, none)
  | .needMoreData => some (r, some .needMoreData)
  | _ => some (r, some .finishInvalid)

def iterUrlAt : Option Iteration := do
  match ← r.readUrlAt with
  | .ok length =>
    some ({ r with
        urlStart := r.cur, urlLength := length,
        cur := r.cur + length, state := .spaceAfterUrl }, none)
  | .question length =>
    some ({ r with
        urlStart := r.cur, urlLength := length,
        cur := r.cur + length, state := .urlParameters }, none)
  | .needMoreData => some (r, some .needMoreData)
  | _ => some (r, some .finishInvalid)

def iterUrlParametersAt : Option Iteration := do
  match ← r.readUrlParametersAt with
  | .ok length =>
    some ({ r with
        urlParametersStart := r.cur, urlParametersLength := length,
        cur := r.cur + length, state := .spaceAfterUrl }, none)
  | _ => some (r, none)

def iterSpaceAfterUrlAt : Option Iteration := do
  match ← r.readToNextLineAt with
  | .ok length => some ({ r with cur := r.cur + length, state := .headerKey }, none)
  | .needMoreData => some (r, some .needMoreData)
  | _ => some (r, some .finishInvalid)

def iterHeaderKeyAt : Option Iteration := do
  match ← r.readHeaderKeyAt with
  | .ok length =>
    some ({ r with
        curKey := { start := r.cur, length := length },
        cur := r.cur + length, state := .headerSpace }, none)
  | .needMoreData => some (r, some .needMoreData)
  | _ => some (r, some .finishInvalid)

def iterHeaderSpaceAt : Option Iteration := do
  match ← r.readHeaderSpaceAt with
  | .ok length => some ({ r with cur := r.cur + length, state := .headerValue }, none)
  | .needMoreData => some (r, some .needMoreData)
  | _ => some (r, some .finishInvalid)

/-- The value is copied into `buf`, which has `BUF_CHARS + 1` bytes, with a terminator. -/
def iterHeaderValueAt : Option Iteration := do
  match ← r.readHeaderValueAt with
  | .ok length =>
    let value : Field := { start := r.cur, length := length }
    let pushed := { r with headers := r.headers ++ [{ key := r.curKey, value := value }] }
    if ← strncaseEqAt r.data r.curKey.length contentLengthName r.curKey.start then
      if bufChars < length then some (pushed, some .finishInvalid)
      else
        let copied ← strncpyAt r.data value.length value.start
        let buf ← if length < bufChars + 1 then some (copied ++ [0]) else none
        some ({ pushed with
            contentLength := atoi buf,
            cur := r.cur + length, state := .headerLineBreak }, none)
    else some ({ pushed with cur := r.cur + length, state := .headerLineBreak }, none)
  | .needMoreData => some (r, some .needMoreData)
  | _ => some (r, some .finishInvalid)

def iterHeaderLineBreakAt : Option Iteration := do
  match ← r.readHeaderLineBreakAt with
  | .ok length => some ({ r with cur := r.cur + length, state := .headerKey }, none)
  | .endOfHeaders length =>
    if r.contentLength = 0 then some ({ r with state := .finishOk }, some .finishOk)
    else some ({ r with cur := r.cur + length.getD 0, state := .content }, none)
  | .needMoreData => some (r, some .needMoreData)
  | _ => some (r, some .finishInvalid)

def iterationAt : Option Iteration :=
  match r.state with
  | .method => r.iterMethodAt
  | .spaceAfterMethod => r.iterSpaceAfterMethodAt
  | .url => r.iterUrlAt
  | .urlParameters => r.iterUrlParametersAt
  | .spaceAfterUrl => r.iterSpaceAfterUrlAt
  | .headerKey => r.iterHeaderKeyAt
  | .headerSpace => r.iterHeaderSpaceAt
  | .headerValue => r.iterHeaderValueAt
  | .headerLineBreak => r.iterHeaderLineBreakAt
  | .content => some r.iterContent
  | .finishOk => some (r, some .finishOk)
  | .invalid => some (r, some .finishInvalid)

end

section
variable {r : HttpRequest}

theorem iterHeaderValueAt_eq (hr : InRange r) : r.iterHeaderValueAt = some r.iterHeaderValue := by
  have hlength : (r.fieldBytes r.curKey).length = r.curKey.length := bytesAt_length hr.curKey
  have hname : strncaseEqAt r.data r.curKey.length contentLengthName r.curKey.start =
      some (namesContentLength (r.fieldBytes r.curKey)) := by
    rw [strncaseEqAt_eq _ hr.curKey]
    unfold namesContentLength
    rw [hlength]
    exact congrArg some (strncaseEq_take _ _ _).symm
  unfold iterHeaderValueAt iterHeaderValue
  rw [readHeaderValueAt_eq hr.cur, hname]
  cases hread : r.readHeaderValue with
  | ok length =>
    obtain ⟨token, c, tail, hrest, _, _, rfl⟩ := readHeaderValue_ok hread
    obtain ⟨copied, hcopied, hstring⟩ := strncpyAt_eq (cur_add_length_le hr.cur hrest)
    dsimp only [Option.bind_eq_bind, Option.bind_some]
    by_cases hcl : namesContentLength (r.fieldBytes r.curKey) = true
    · rw [if_pos hcl, if_pos hcl]
      by_cases hlong : bufChars < token.length
      · rw [if_pos hlong, if_pos hlong]
      · have hvalue : atoi (copied ++ [0]) =
            atoi (r.fieldBytes { start := r.cur, length := token.length }) := by
          unfold atoi
          rw [cString_terminated, hstring]
          rfl
        rw [if_neg hlong, if_neg hlong, hcopied]
        dsimp only [Option.bind_some]
        rw [if_pos (by omega), hvalue]
    · rw [if_neg hcl, if_neg hcl]
  | _ => rfl

/-- A round inside the data has a value, the one of the round. -/
theorem iterationAt_eq (hr : InRange r) : r.iterationAt = some r.iteration := by
  unfold iterationAt iteration
  cases r.state
  case method =>
    unfold iterMethodAt iterMethod
    rw [readMethodAt_eq hr.cur]
    cases r.readMethod <;> rfl
  case spaceAfterMethod =>
    unfold iterSpaceAfterMethodAt iterSpaceAfterMethod
    rw [readSpacesAt_eq hr.cur]
    cases r.readSpaces <;> rfl
  case url =>
    unfold iterUrlAt iterUrl
    rw [readUrlAt_eq hr.cur]
    cases r.readUrl <;> rfl
  case urlParameters =>
    unfold iterUrlParametersAt iterUrlParameters
    rw [readUrlParametersAt_eq hr.cur]
    cases r.readUrlParameters <;> rfl
  case spaceAfterUrl =>
    unfold iterSpaceAfterUrlAt iterSpaceAfterUrl
    rw [readToNextLineAt_eq hr.cur]
    cases r.readToNextLine <;> rfl
  case headerKey =>
    unfold iterHeaderKeyAt iterHeaderKey
    rw [readHeaderKeyAt_eq hr.cur]
    cases r.readHeaderKey <;> rfl
  case headerSpace =>
    unfold iterHeaderSpaceAt iterHeaderSpace
    rw [readHeaderSpaceAt_eq hr.cur]
    cases r.readHeaderSpace <;> rfl
  case headerValue => exact iterHeaderValueAt_eq hr
  case headerLineBreak =>
    unfold iterHeaderLineBreakAt iterHeaderLineBreak
    rw [readHeaderLineBreakAt_eq hr.cur]
    cases r.readHeaderLineBreak with
    | endOfHeaders length =>
      dsimp only [Option.bind_eq_bind, Option.bind_some]
      split <;> rfl
    | _ => rfl
  all_goals rfl

end

end HttpRequest
end EpollHttp
