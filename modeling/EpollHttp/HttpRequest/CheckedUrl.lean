import EpollHttp.HttpRequest.Checked
import EpollHttp.HttpRequest.UrlPrefix

/-
The URL buffer by indices.

The decoder stores byte by byte into a buffer with room for the URL and a terminator, so the scans
of `checkUrl` and `isUrlPrefix`, which have no bound of their own, end at a terminator inside it.
-/

namespace EpollHttp
namespace HttpRequest

open CString

/-! ## The decoder -/

/-- `percentDecode(memory + start, dst, srcLength)` from `si` and `di` on. -/
def percentDecodeAt (memory : Bytes) (start srcLength : Nat) (dst : Bytes) (si di : Nat) :
    Option (Bool × Bytes) :=
  if si < srcLength then do
    let c ← memory[start + si]?
    if c = 0 then (store dst di 0).map (true, ·)
    else if c = percent ∧ si + 2 < srcLength then do
      let h1 ← memory[start + (si + 1)]?
      if hex2int h1 < 0 then some (false, dst)
      else
        let h2 ← memory[start + (si + 2)]?
        if hex2int h2 < 0 then some (false, dst)
        else
          let dst ← store dst di (hexByte (hex2int h1) (hex2int h2))
          percentDecodeAt memory start srcLength dst (si + 3) (di + 1)
    else
      let dst ← store dst di c
      percentDecodeAt memory start srcLength dst (si + 1) (di + 1)
  else (store dst di 0).map (true, ·)
termination_by srcLength - si

/-- Memory after `stored` was written from `di` on. -/
def writeFrom (memory : Bytes) (di : Nat) (stored : Bytes) : Bytes :=
  memory.take di ++ overwrite (memory.drop di) stored

/-- What `percentDecode` stores: the terminator only on success. -/
def terminated : Bool × Bytes → Bytes
  | (true, stored) => stored ++ [0]
  | (false, stored) => stored

theorem writeFrom_nil (memory : Bytes) (di : Nat) : writeFrom memory di [] = memory :=
  List.take_append_drop di memory

theorem writeFrom_set {memory : Bytes} {di : Nat} (h : di < memory.length) (c : UInt8)
    (stored : Bytes) :
    writeFrom (memory.set di c) (di + 1) stored = writeFrom memory di (c :: stored) := by
  have hset : memory.set di c = (memory.take di ++ [c]) ++ memory.drop (di + 1) := by
    rw [List.set_eq_take_append_cons_drop, if_pos h, List.append_assoc, List.singleton_append]
  have hlen : (memory.take di ++ [c]).length = di + 1 := by
    rw [List.length_append, List.length_take, Nat.min_eq_left (Nat.le_of_lt h)]
    rfl
  unfold writeFrom overwrite
  rw [hset, List.take_left' hlen, List.drop_left' hlen, List.append_assoc,
    List.length_cons, List.drop_drop, List.drop_drop, List.singleton_append, List.cons_append,
    Nat.add_assoc, Nat.add_comm 1]

theorem store_eq {memory : Bytes} {i : Nat} (h : i < memory.length) (c : UInt8) :
    store memory i c = some (memory.set i c) := if_pos h

theorem writeFrom_zero (memory stored : Bytes) :
    writeFrom memory 0 stored = overwrite memory stored :=
  rfl

/-- The terminator at `di`. -/
theorem writeFrom_terminator {memory : Bytes} {di : Nat} (h : di < memory.length) :
    memory.set di 0 = writeFrom memory di [0] := by
  rw [← writeFrom_set h, writeFrom_nil]

theorem terminated_storeByte (c : UInt8) (x : Bool × Bytes) :
    terminated (storeByte c x) = c :: terminated x := by
  obtain ⟨ok, stored⟩ := x
  cases ok <;> rfl

theorem getElem?_drop_cons {memory tail : Bytes} {c : UInt8} {i : Nat}
    (h : memory.drop i = c :: tail) : memory[i]? = some c :=
  @getElem?_stop memory [] tail c i h

section
variable {memory dst : Bytes} {start srcLength si di : Nat}

theorem percentDecodeAt_end (h : srcLength ≤ si) (hdi : di < dst.length) :
    percentDecodeAt memory start srcLength dst si di = some (true, writeFrom dst di [0]) := by
  rw [percentDecodeAt, if_neg (Nat.not_lt.mpr h), store_eq hdi, writeFrom_terminator hdi]
  rfl

theorem percentDecodeAt_nul (h : si < srcLength) (hc : memory[start + si]? = some 0)
    (hdi : di < dst.length) :
    percentDecodeAt memory start srcLength dst si di = some (true, writeFrom dst di [0]) := by
  rw [percentDecodeAt, if_pos h, hc, ← writeFrom_terminator hdi]
  show (store dst di 0).map (true, ·) = _
  rw [store_eq hdi]
  rfl

/-- A byte that is copied: no percent sign, or one that the end cuts. -/
theorem percentDecodeAt_copy {c : UInt8} (h : si < srcLength)
    (hc : memory[start + si]? = some c) (hzero : c ≠ 0)
    (hcopy : ¬ (c = percent ∧ si + 2 < srcLength)) (hdi : di < dst.length) :
    percentDecodeAt memory start srcLength dst si di =
      percentDecodeAt memory start srcLength (dst.set di c) (si + 1) (di + 1) := by
  rw [percentDecodeAt, if_pos h, hc]
  show (if c = 0 then _ else if c = percent ∧ si + 2 < srcLength then _ else
    (store dst di c).bind _) = _
  rw [if_neg hzero, if_neg hcopy, store_eq hdi]
  rfl

theorem percentDecodeAt_escape {h1 h2 : UInt8} (h : si + 2 < srcLength)
    (hc : memory[start + si]? = some percent) (hc1 : memory[start + (si + 1)]? = some h1)
    (hc2 : memory[start + (si + 2)]? = some h2) (hdi : di < dst.length) :
    percentDecodeAt memory start srcLength dst si di =
      if hex2int h1 < 0 ∨ hex2int h2 < 0 then some (false, dst)
      else
        percentDecodeAt memory start srcLength
          (dst.set di (hexByte (hex2int h1) (hex2int h2))) (si + 3) (di + 1) := by
  rw [percentDecodeAt, if_pos (by omega), hc, hc1, hc2]
  dsimp only [Option.bind_eq_bind, Option.bind_some]
  rw [if_neg (by decide), if_pos ⟨rfl, h⟩, store_eq hdi]
  by_cases hv1 : hex2int h1 < 0
  · rw [if_pos hv1, if_pos (Or.inl hv1)]
  · rw [if_neg hv1]
    by_cases hv2 : hex2int h2 < 0
    · rw [if_pos hv2, if_pos (Or.inr hv2)]
    · rw [if_neg hv2, if_neg (by simp [hv1, hv2])]
      rfl

end

theorem drop_behind {memory front tail : Bytes} {i : Nat} (h : memory.drop i = front ++ tail) :
    memory.drop (i + front.length) = tail := by
  rw [← List.drop_drop, h, List.drop_left]

/-- Decoding stores inside a buffer that has room for the rest of the source and a terminator. -/
theorem percentDecodeAt_eq {memory src back dst : Bytes} {start srcLength si di : Nat}
    (hsrc : memory.drop (start + si) = src ++ back) (hlen : srcLength = si + src.length)
    (hdst : di + src.length < dst.length) :
    percentDecodeAt memory start srcLength dst si di =
      some ((percentDecode src).1, writeFrom dst di (terminated (percentDecode src))) := by
  fun_induction percentDecode src generalizing si di dst with
  | case1 => exact percentDecodeAt_end (Nat.le_of_eq hlen) (by omega)
  | case2 rest =>
    rw [List.length_cons] at hlen
    exact percentDecodeAt_nul (by omega) (getElem?_drop_cons hsrc) (by omega)
  | case3 h1 h2 tail hv1 _ =>
    rw [List.length_cons, List.length_cons, List.length_cons] at hlen
    have hsrc1 := @drop_behind memory [percent] _ _ hsrc
    have hsrc2 := @drop_behind memory [percent, h1] _ _ hsrc
    rw [percentDecodeAt_escape (by omega) (getElem?_drop_cons hsrc) (getElem?_drop_cons hsrc1)
      (getElem?_drop_cons hsrc2) (by omega), if_pos (Or.inl hv1)]
    exact congrArg (fun b => some (false, b)) (writeFrom_nil dst di).symm
  | case4 h1 h2 tail _ hv2 _ =>
    rw [List.length_cons, List.length_cons, List.length_cons] at hlen
    have hsrc1 := @drop_behind memory [percent] _ _ hsrc
    have hsrc2 := @drop_behind memory [percent, h1] _ _ hsrc
    rw [percentDecodeAt_escape (by omega) (getElem?_drop_cons hsrc) (getElem?_drop_cons hsrc1)
      (getElem?_drop_cons hsrc2) (by omega), if_pos (Or.inr hv2)]
    exact congrArg (fun b => some (false, b)) (writeFrom_nil dst di).symm
  | case5 h1 h2 tail hv1 hv2 _ ih =>
    rw [List.length_cons, List.length_cons, List.length_cons] at hlen hdst
    have hsrc1 := @drop_behind memory [percent] _ _ hsrc
    have hsrc2 := @drop_behind memory [percent, h1] _ _ hsrc
    have hsrc3 : memory.drop (start + (si + 3)) = tail ++ back :=
      @drop_behind memory [percent, h1, h2] _ _ hsrc
    rw [percentDecodeAt_escape (by omega) (getElem?_drop_cons hsrc) (getElem?_drop_cons hsrc1)
      (getElem?_drop_cons hsrc2) (by omega), if_neg (by simp [hv1, hv2]),
      ih hsrc3 (by omega) (by rw [List.length_set]; omega), writeFrom_set (by omega),
      terminated_storeByte]
    rfl
  | case6 short hshort hne ih =>
    rw [List.length_cons] at hlen hdst
    have hcut : ¬ (percent = percent ∧ si + 2 < srcLength) := by
      rintro ⟨_, hlt⟩
      match short with
      | [] => simp at hlen; omega
      | [_] => simp at hlen; omega
      | h1 :: h2 :: tail => exact hshort h1 h2 tail rfl
    have hsrc1 : memory.drop (start + (si + 1)) = short ++ back :=
      @drop_behind memory [percent] _ _ hsrc
    rw [percentDecodeAt_copy (by omega) (getElem?_drop_cons hsrc) hne hcut (by omega),
      ih hsrc1 (by omega) (by rw [List.length_set]; omega), writeFrom_set (by omega),
      terminated_storeByte]
    rfl
  | case7 c rest hzero hne ih =>
    rw [List.length_cons] at hlen hdst
    have hsrc1 : memory.drop (start + (si + 1)) = rest ++ back := @drop_behind memory [c] _ _ hsrc
    rw [percentDecodeAt_copy (by omega) (getElem?_drop_cons hsrc) hzero (fun h => hne h.1)
      (by omega), ih hsrc1 (by omega) (by rw [List.length_set]; omega),
      writeFrom_set (by omega), terminated_storeByte]
    rfl

/-! ## The scans -/

/-- `for(int i = 0; urlBuffer[i] != 0; ++i)`. -/
def checkUrlAt (memory : Bytes) (prevChar : UInt8) (i : Nat) : Option Bool :=
  if i < memory.length then do
    let c ← memory[i]?
    if c = 0 then some true
    else if !checkUrlSymbols c then some false
    else if c == dot && c == prevChar then some false
    else checkUrlAt memory c (i + 1)
  else none
termination_by memory.length - i

/-- `for(i = 0; memory[i] == '/'; ++i);` -/
def slashesAt (memory : Bytes) (i : Nat) : Option Nat :=
  if i < memory.length then do
    let c ← memory[i]?
    if c = slash then slashesAt memory (i + 1) else some i
  else none
termination_by memory.length - i

/-- The loop that compares the URL buffer with a prefix, and the tests behind it. -/
def comparePrefixAt (memory front : Bytes) (ui pi : Nat) : Option Bool :=
  if ui < memory.length then do
    let uc ← memory[ui]?
    let pc := front.getD pi 0
    if uc ≠ 0 ∧ pc ≠ 0 ∧ uc = pc then comparePrefixAt memory front (ui + 1) (pi + 1)
    else if pc = 0 then
      if uc = slash ∨ uc = 0 then some true
      else if 0 < pi ∧ 0 < ui ∧ front.getD (pi - 1) 0 = slash then do
        let u ← memory[ui - 1]?
        some (u == slash)
      else some false
    else if pc = slash then some (uc == 0)
    else some false
  else none
termination_by memory.length - ui

def isUrlPrefixAt (r : HttpRequest) (front : Bytes) : Option Bool :=
  if r.state ≠ .finishOk then some false
  else do
    let front := cString front
    let ui ← slashesAt r.urlBuffer 0
    comparePrefixAt r.urlBuffer front ui (front.takeWhile (· == slash)).length

section
variable {memory url back : Bytes} {i : Nat}

theorem lt_of_drop_cons {c : UInt8} (h : memory.drop i = c :: back) : i < memory.length := by
  by_contra hge
  rw [List.drop_eq_nil_of_le (Nat.le_of_not_lt hge)] at h
  exact List.cons_ne_nil c back h.symm

theorem drop_succ_of_cons {c : UInt8} (h : memory.drop i = c :: back) :
    memory.drop (i + 1) = back :=
  @drop_behind memory [c] back i h

/-- The scan of `checkUrl` ends at the terminator. -/
theorem checkUrlAt_eq {prevChar : UInt8} (h : memory.drop i = url ++ 0 :: back) (hurl : 0 ∉ url) :
    checkUrlAt memory prevChar i = some (checkUrlFrom prevChar url) := by
  induction url generalizing prevChar i with
  | nil =>
    rw [checkUrlAt, if_pos (lt_of_drop_cons h), getElem?_drop_cons h]
    rfl
  | cons c url ih =>
    have hc : c ≠ 0 := fun h0 => hurl (by rw [h0]; exact List.mem_cons_self)
    rw [checkUrlAt, if_pos (lt_of_drop_cons h), getElem?_drop_cons h]
    dsimp only [Option.bind_eq_bind, Option.bind_some]
    rw [if_neg hc, ih (drop_succ_of_cons h) (fun h0 => hurl (List.mem_cons_of_mem c h0))]
    show _ = some (if !checkUrlSymbols c then false else
      if c == dot && c == prevChar then false else checkUrlFrom c url)
    split
    · rfl
    · split <;> rfl

theorem slashesAt_eq (h : memory.drop i = url ++ 0 :: back) :
    slashesAt memory i = some (i + (url.takeWhile (· == slash)).length) := by
  induction url generalizing i with
  | nil =>
    rw [slashesAt, if_pos (lt_of_drop_cons h), getElem?_drop_cons h]
    rfl
  | cons c url ih =>
    rw [slashesAt, if_pos (lt_of_drop_cons h), getElem?_drop_cons h]
    dsimp only [Option.bind_eq_bind, Option.bind_some]
    rw [ih (drop_succ_of_cons h)]
    by_cases hc : c = slash
    · rw [if_pos hc, List.takeWhile_cons_of_pos (by simpa using hc), List.length_cons,
        Nat.add_right_comm, Nat.add_assoc]
    · rw [if_neg hc, List.takeWhile_cons_of_neg (by simpa using hc)]
      rfl

theorem nul_split (h : 0 ∈ memory) : ∃ back, memory = cString memory ++ 0 :: back := by
  cases hstop : memory.dropWhile (· != 0) with
  | nil =>
    have hall := Scan.dropWhile_nil_iff.mp hstop 0 h
    simp at hall
  | cons c back =>
    have hc : c = 0 := by simpa using Scan.stop_not hstop
    exact ⟨back, hc ▸ Scan.split hstop⟩

/-- The last byte that was gone past. -/
theorem getLast?_take_succ {c : UInt8} (h : memory.drop i = c :: back) :
    (memory.take (i + 1)).getLast? = some c := by
  rw [List.take_add_one, getElem?_drop_cons h]
  exact List.getLast?_concat

theorem getD_drop_cons {c : UInt8} (h : memory.drop i = c :: back) : memory.getD i 0 = c := by
  rw [List.getD_eq_getElem?_getD, getElem?_drop_cons h]
  rfl

theorem getD_drop_nil (h : memory.drop i = []) : memory.getD i 0 = 0 := by
  rw [List.getD_eq_getElem?_getD, List.getElem?_eq_none (List.drop_eq_nil_iff.mp h)]
  rfl

/-- A byte in front of an index is the last one that was gone past. -/
theorem getLast?_take (h : 0 < i) (hi : i ≤ memory.length) :
    (memory.take i).getLast? = memory[i - 1]? := by
  rw [List.getLast?_eq_getElem?, List.length_take, Nat.min_eq_left hi,
    List.getElem?_take_of_lt (by omega)]

theorem comparePrefixAt_eq {front rest : Bytes} {ui pi : Nat}
    (hu : memory.drop ui = url ++ 0 :: back) (hurl : 0 ∉ url) (hp : front.drop pi = rest)
    (hpi : pi ≤ front.length) (hfront : 0 ∉ front) :
    comparePrefixAt memory front ui pi =
      some (comparePrefix (memory.take ui).getLast? (front.take pi).getLast? url rest) := by
  induction url generalizing rest ui pi with
  | nil =>
    rw [comparePrefixAt, if_pos (lt_of_drop_cons hu), getElem?_drop_cons hu]
    dsimp only [Option.bind_eq_bind, Option.bind_some]
    rw [if_neg (by simp)]
    cases rest with
    | nil =>
      rw [if_pos (getD_drop_nil hp), if_pos (Or.inr rfl)]
      rfl
    | cons pc rest =>
      have hpc : pc ≠ 0 := fun h0 => hfront (List.mem_of_mem_drop (i := pi) (by rw [hp, h0]; simp))
      rw [getD_drop_cons hp, if_neg hpc]
      show (if pc = slash then some true else some false) = some (pc == slash)
      by_cases hslash : pc = slash
      · rw [if_pos hslash, beq_iff_eq.mpr hslash]
      · rw [if_neg hslash, beq_eq_false_iff_ne.mpr hslash]
  | cons uc url ih =>
    have huc : uc ≠ 0 := fun h0 => hurl (by rw [h0]; exact List.mem_cons_self)
    have hui : ui < memory.length := lt_of_drop_cons hu
    rw [comparePrefixAt, if_pos hui, getElem?_drop_cons hu]
    dsimp only [Option.bind_eq_bind, Option.bind_some]
    cases rest with
    | nil =>
      rw [getD_drop_nil hp, if_neg (by simp), if_pos rfl, comparePrefix_nil, List.head?_cons]
      by_cases hslash : uc = slash
      · rw [if_pos (Or.inl hslash), hslash]
        rfl
      · rw [if_neg (by simp [hslash, huc]), show (some uc == some slash) = false by simp [hslash],
          show (some uc == none) = false from rfl, Bool.or_false, Bool.false_or]
        by_cases hboth : 0 < pi ∧ 0 < ui
        · obtain ⟨hpos, hupos⟩ := hboth
          rw [getLast?_take hpos hpi, getLast?_take hupos (Nat.le_of_lt hui),
            List.getD_eq_getElem?_getD, List.getElem?_eq_getElem (show ui - 1 < _ by omega),
            List.getElem?_eq_getElem (show pi - 1 < front.length by omega)]
          by_cases hlast : front[pi - 1] = slash
          · simp [hpos, hupos, hlast]
          · simp [hlast]
        · rw [if_neg (fun h => hboth ⟨h.1, h.2.1⟩)]
          rcases Nat.eq_zero_or_pos pi with rfl | hpos
          · rfl
          · obtain rfl : ui = 0 := by omega
            rw [List.take_zero, List.getLast?_nil, Bool.and_comm]
            rfl
    | cons pc rest =>
      have hpc : pc ≠ 0 := fun h0 => hfront (List.mem_of_mem_drop (i := pi) (by rw [hp, h0]; simp))
      rw [getD_drop_cons hp]
      by_cases heq : uc = pc
      · subst heq
        rw [if_pos ⟨huc, huc, rfl⟩, comparePrefix_same,
          ih (drop_succ_of_cons hu) (fun h0 => hurl (List.mem_cons_of_mem uc h0))
            (drop_succ_of_cons hp) (lt_of_drop_cons hp), getLast?_take_succ hu,
          getLast?_take_succ hp]
      · rw [if_neg (fun h => heq h.2.2), if_neg hpc, comparePrefix_differ heq,
          beq_eq_false_iff_ne.mpr huc, Bool.and_false]
        split <;> rfl

end

theorem isUrlPrefixAt_eq {r : HttpRequest} (h : r.state = .finishOk → 0 ∈ r.urlBuffer)
    (front : Bytes) : r.isUrlPrefixAt front = some (r.isUrlPrefix front) := by
  unfold isUrlPrefixAt isUrlPrefix
  by_cases hstate : r.state = .finishOk
  · obtain ⟨back, hback⟩ := nul_split (h hstate)
    have hnul : 0 ∉ cString r.urlBuffer := no_nul_cString _
    rw [if_neg (by simp [hstate]), if_neg (by simp [hstate])]
    dsimp only
    generalize cString r.urlBuffer = url at hback hnul ⊢
    have hfront : 0 ∉ cString front := no_nul_cString _
    generalize cString front = front at hfront ⊢
    rw [slashesAt_eq (i := 0) hback, Nat.zero_add]
    have hsplit : r.urlBuffer =
        url.takeWhile (· == slash) ++ (url.dropWhile (· == slash) ++ 0 :: back) := by
      rw [← List.append_assoc, List.takeWhile_append_dropWhile]
      exact hback
    have htake : r.urlBuffer.take (url.takeWhile (· == slash)).length =
        url.takeWhile (· == slash) := by
      rw [hsplit, List.take_left]
    have hdrop : r.urlBuffer.drop (url.takeWhile (· == slash)).length =
        url.dropWhile (· == slash) ++ 0 :: back := by
      rw [hsplit, List.drop_left]
    have hurl : 0 ∉ url.dropWhile (· == slash) :=
      fun h0 => hnul ((List.dropWhile_suffix _).subset h0)
    dsimp only [Option.bind_eq_bind, Option.bind_some]
    rw [comparePrefixAt_eq hdrop hurl rfl (List.takeWhile_prefix _).length_le hfront, htake]
    have hfront' : front = front.takeWhile (· == slash) ++ front.dropWhile (· == slash) :=
      List.takeWhile_append_dropWhile.symm
    generalize front.takeWhile (· == slash) = slashes at hfront' ⊢
    generalize front.dropWhile (· == slash) = segments at hfront' ⊢
    rw [hfront', List.take_left, List.drop_left]
  · rw [if_pos hstate, if_pos hstate]

/-! ## The calls -/

/-- Whether 0 is returned. -/
def decodeUrlAt (r : HttpRequest) : Option (Bool × HttpRequest) :=
  if r.state ≠ .finishOk then some (false, r)
  else if 0 < r.urlLength then do
    let r := r.growUrlBuffer
    let (ok, urlBuffer) ← percentDecodeAt r.data r.urlStart r.urlLength r.urlBuffer 0 0
    some (ok, { r with urlBuffer := urlBuffer })
  else some (false, r)

def postParseAt (r : HttpRequest) : Option (ParseResult × HttpRequest) := do
  match ← r.decodeUrlAt with
  | (false, r) => some (.finishInvalid, { r with state := .invalid })
  | (true, r) =>
    if ← checkUrlAt r.urlBuffer 0 0 then some (.finishOk, r)
    else some (.finishInvalid, { r with state := .invalid })

/-- The loop cut after `fuel` rounds; the inner `none` has not returned yet. -/
def parseInternalAt : Nat → HttpRequest → Option (Option (ParseResult × HttpRequest))
  | 0, _ => some none
  | fuel + 1, r => do
    match ← r.iterationAt with
    | (r', some result) => some (some (result, r'))
    | (r', none) => parseInternalAt fuel r'

def parseFuelAt (fuel : Nat) (r : HttpRequest) (data : Bytes) :
    Option (Option (ParseResult × HttpRequest)) := do
  match ← parseInternalAt fuel { r with data := data } with
  | none => some none
  | some (.finishOk, r') => r'.postParseAt.map some
  | some (result, r') => some (some (result, r'))

theorem growUrlBuffer_room (r : HttpRequest) : r.urlLength < r.growUrlBuffer.urlBuffer.length := by
  unfold growUrlBuffer urlBufferSize
  split
  · rw [List.length_replicate]
    omega
  · omega

theorem decodeUrlAt_eq {r : HttpRequest} (hurl : r.urlStart + r.urlLength ≤ r.size) :
    r.decodeUrlAt = some r.decodeUrl := by
  have hroom := r.growUrlBuffer_room
  obtain ⟨grown, hgrow⟩ := r.growUrlBuffer_eq
  unfold decodeUrlAt decodeUrl
  rw [hgrow] at hroom ⊢
  split
  · rfl
  · split
    · dsimp only at hroom ⊢
      have hlength : (r.bytesAt r.urlStart r.urlLength).length = r.urlLength := bytesAt_length hurl
      have hsrc : r.data.drop (r.urlStart + 0) = r.bytesAt r.urlStart r.urlLength ++
          (r.data.drop r.urlStart).drop r.urlLength :=
        (List.take_append_drop _ _).symm
      rw [percentDecodeAt_eq hsrc (by omega) (by omega), writeFrom_zero]
      unfold bytesAt
      dsimp only
      cases percentDecode ((r.data.drop r.urlStart).take r.urlLength) with
      | mk ok stored => cases ok <;> rfl
    · rfl

theorem nul_mem_overwrite (memory stored : Bytes) : 0 ∈ overwrite memory (stored ++ [0]) := by
  unfold overwrite
  simp

/-- A decoded URL ends inside the buffer. -/
theorem nul_mem_decodeUrl {r r' : HttpRequest} (h : r.decodeUrl = (true, r')) :
    0 ∈ r'.urlBuffer := by
  unfold decodeUrl at h
  split at h
  · simp at h
  · split at h
    · dsimp only at h
      split at h
      · rw [← (Prod.mk.inj h).2]
        exact nul_mem_overwrite _ _
      · simp at h
    · simp at h

theorem postParseAt_eq {r : HttpRequest} (hurl : r.urlStart + r.urlLength ≤ r.size) :
    r.postParseAt = some r.postParse := by
  unfold postParseAt postParse
  rw [decodeUrlAt_eq hurl]
  dsimp only [Option.bind_eq_bind, Option.bind_some]
  cases hdecode : r.decodeUrl with
  | mk ok r' =>
    cases ok with
    | false => rfl
    | true =>
      obtain ⟨back, hback⟩ := nul_split (nul_mem_decodeUrl hdecode)
      dsimp only
      rw [checkUrlAt_eq (i := 0) hback (no_nul_cString _)]
      show (if r'.checkUrl then _ else _) = _
      split <;> rfl

theorem parseInternalAt_eq {fuel : Nat} {r : HttpRequest} (hr : InRange r) :
    parseInternalAt fuel r = some (parseInternal fuel r) := by
  induction fuel generalizing r with
  | zero => rfl
  | succ fuel ih =>
    unfold parseInternalAt parseInternal
    rw [iterationAt_eq hr]
    dsimp only [Option.bind_eq_bind, Option.bind_some]
    cases hiter : r.iteration with
    | mk r' answer =>
      cases answer with
      | some result => rfl
      | none => exact ih (hr.next hiter)

theorem InRange.returns {r r' : HttpRequest} {result : ParseResult} (hr : InRange r)
    (h : r.iteration = (r', some result)) : InRange r' := by
  obtain ⟨hcur, hkey, hurl⟩ := hr
  rcases iteration_returns h with ⟨rfl, _⟩ | ⟨_, _, _, rfl⟩ | ⟨_, _, _, rfl⟩ | ⟨_, _, _, rfl⟩
  · exact ⟨hcur, hkey, hurl⟩
  · exact ⟨hcur, hkey, hurl⟩
  · exact ⟨hcur, hkey, hurl⟩
  · exact ⟨hcur, hkey, hurl⟩

/-- A call inside the data makes no access outside a buffer. -/
theorem parseFuelAt_eq {r : HttpRequest} {data : Bytes} (hr : InRange { r with data := data })
    (fuel : Nat) : parseFuelAt fuel r data = some (parseFuel fuel r data) := by
  unfold parseFuelAt parseFuel
  rw [parseInternalAt_eq hr]
  dsimp only [Option.bind_eq_bind, Option.bind_some]
  cases hrun : parseInternal fuel { r with data := data } with
  | none => rfl
  | some x =>
    obtain ⟨result, r'⟩ := x
    cases result with
    | finishOk =>
      obtain ⟨last, hvisits, hlast⟩ := parseInternal_some hrun
      dsimp only
      rw [postParseAt_eq ((hr.visits hvisits).returns hlast).url]
      rfl
    | finishInvalid => rfl
    | needMoreData => rfl

end HttpRequest
end EpollHttp
