import EpollHttp.HttpRequest.Finished

/-
Which targets are accepted, and what is made of them.

The reference decoder works on the whole target.  `percentDecode` agrees with it on every target
whose escapes can be read, but it stores a C string, and `checkUrl` reads one: behind an escape
`%00` nothing is checked any more.
-/

namespace EpollHttp
namespace HttpRequest

open CString

/-! ## The reference decoder -/

def hexDigit (c : UInt8) : Option Nat :=
  if 48 ≤ c ∧ c ≤ 57 then some (c.toNat - 48)
  else if 65 ≤ c ∧ c ≤ 70 then some (c.toNat - 55)
  else if 97 ≤ c ∧ c ≤ 102 then some (c.toNat - 87)
  else none

def IsHexDigit (c : UInt8) : Prop := (hexDigit c).isSome = true

instance (c : UInt8) : Decidable (IsHexDigit c) := inferInstanceAs (Decidable (_ = true))

def escapedByte (h1 h2 : UInt8) : UInt8 :=
  UInt8.ofNat (16 * (hexDigit h1).getD 0 + (hexDigit h2).getD 0)

/-- Every percent sign with two bytes behind it stands for one byte. -/
def decoded : Bytes → Bytes
  | [] => []
  | c :: rest =>
    if c = percent then
      match rest with
      | h1 :: h2 :: tail => escapedByte h1 h2 :: decoded tail
      | short => c :: decoded short
    else c :: decoded rest

/-- `P` holds of what stands behind every percent sign. -/
def BehindPercent (P : Bytes → Prop) (target : Bytes) : Prop :=
  ∀ front rest, target = front ++ percent :: rest → P rest

/-- Every percent sign is followed by two hex digits. -/
def WellEscaped : Bytes → Prop :=
  BehindPercent (fun rest => ∃ h1 h2 tail, rest = h1 :: h2 :: tail ∧ IsHexDigit h1 ∧ IsHexDigit h2)

/-- Every percent sign with two bytes behind it is followed by two hex digits. -/
def EscapesRead : Bytes → Prop :=
  BehindPercent (fun rest => ∀ h1 h2 tail, rest = h1 :: h2 :: tail → IsHexDigit h1 ∧ IsHexDigit h2)

/-- A string over the symbols of a URL without two adjacent dots. -/
structure UrlString (s : Bytes) : Prop where
  symbols : ∀ c ∈ s, checkUrlSymbols c = true
  dots : ¬ [dot, dot] <:+: s

/-- The targets that should be accepted. -/
structure Acceptable (target : Bytes) : Prop where
  escapes : WellEscaped target
  url : UrlString (decoded target)
  ne : decoded target ≠ []

/-- `%00` -/
def nulEscape : Bytes := [percent, 48, 48]

/-- An escape `%00` behind nothing, or behind a target that should be accepted on its own, in
front of bytes whose escapes can be read. -/
def HidesNul (target : Bytes) : Prop :=
  ∃ front back, target = front ++ (nulEscape ++ back) ∧ (front = [] ∨ Acceptable front) ∧
    EscapesRead back

/-! ## Percent signs -/

theorem behindPercent_nil (P : Bytes → Prop) : BehindPercent P [] := by
  intro front rest h
  simp at h

theorem behindPercent_cons {P : Bytes → Prop} {c : UInt8} {target : Bytes} :
    BehindPercent P (c :: target) ↔ (c = percent → P target) ∧ BehindPercent P target := by
  constructor
  · intro h
    refine ⟨fun hc => h [] target (by rw [hc]; rfl), fun front rest heq => ?_⟩
    exact h (c :: front) rest (by rw [heq]; rfl)
  · rintro ⟨hhead, hrest⟩ front rest heq
    cases front with
    | nil =>
      obtain ⟨hc, htarget⟩ := List.cons.inj heq
      rw [← htarget]
      exact hhead hc
    | cons d front => exact hrest front rest (List.cons.inj heq).2

theorem behindPercent_plain {P : Bytes → Prop} {c : UInt8} {target : Bytes} (h : c ≠ percent) :
    BehindPercent P (c :: target) ↔ BehindPercent P target := by
  rw [behindPercent_cons]
  exact and_iff_right (fun hc => absurd hc h)

theorem behindPercent_short {P : Bytes → Prop} {target : Bytes} (h : P target) :
    BehindPercent P (percent :: target) ↔ BehindPercent P target := by
  rw [behindPercent_cons]
  exact and_iff_right (fun _ => h)

theorem IsHexDigit.ne_percent {c : UInt8} (h : IsHexDigit c) : c ≠ percent := by
  rintro rfl
  exact absurd h (by decide)

/-- A percent sign in front of two bytes: neither is a percent sign when both are hex digits. -/
theorem escapesRead_escape {h1 h2 : UInt8} {tail : Bytes} :
    EscapesRead (percent :: h1 :: h2 :: tail) ↔
      (IsHexDigit h1 ∧ IsHexDigit h2) ∧ EscapesRead tail := by
  unfold EscapesRead
  rw [behindPercent_cons]
  constructor
  · rintro ⟨hhead, hrest⟩
    have hhex := hhead rfl h1 h2 tail rfl
    rw [behindPercent_plain hhex.1.ne_percent, behindPercent_plain hhex.2.ne_percent] at hrest
    exact ⟨hhex, hrest⟩
  · rintro ⟨hhex, hrest⟩
    refine ⟨fun _ d1 d2 rest heq => ?_, ?_⟩
    · cases heq
      exact hhex
    · rw [behindPercent_plain hhex.1.ne_percent, behindPercent_plain hhex.2.ne_percent]
      exact hrest

theorem wellEscaped_escape {h1 h2 : UInt8} {tail : Bytes} :
    WellEscaped (percent :: h1 :: h2 :: tail) ↔
      (IsHexDigit h1 ∧ IsHexDigit h2) ∧ WellEscaped tail := by
  unfold WellEscaped
  rw [behindPercent_cons]
  constructor
  · rintro ⟨hhead, hrest⟩
    obtain ⟨d1, d2, rest, heq, hd1, hd2⟩ := hhead rfl
    cases heq
    rw [behindPercent_plain hd1.ne_percent, behindPercent_plain hd2.ne_percent] at hrest
    exact ⟨⟨hd1, hd2⟩, hrest⟩
  · rintro ⟨hhex, hrest⟩
    refine ⟨fun _ => ⟨h1, h2, tail, rfl, hhex.1, hhex.2⟩, ?_⟩
    rw [behindPercent_plain hhex.1.ne_percent, behindPercent_plain hhex.2.ne_percent]
    exact hrest

theorem WellEscaped.escapesRead {target : Bytes} (h : WellEscaped target) :
    EscapesRead target := by
  intro front rest heq h1 h2 tail hrest
  obtain ⟨d1, d2, tail', hrest', hd1, hd2⟩ := h front rest heq
  rw [hrest] at hrest'
  cases hrest'
  exact ⟨hd1, hd2⟩

/-! ## The decoder of the source -/

theorem hexDigit_lt {c : UInt8} {n : Nat} (h : hexDigit c = some n) : n < 16 := by
  unfold hexDigit at h
  simp only [UInt8.le_iff_toNat_le] at h
  split at h
  · rename_i hc
    have := hc.2
    rw [← Option.some.inj h]
    simp at this
    omega
  · split at h
    · rename_i hc
      have := hc.2
      rw [← Option.some.inj h]
      simp at this
      omega
    · split at h
      · rename_i hc
        have := hc.2
        rw [← Option.some.inj h]
        simp at this
        omega
      · cases h

/-- `c | 0x20` -/
theorem or_space {n : Nat} (h : n < 256) :
    n ||| 32 = if n / 32 % 2 = 0 then n + 32 else n := by
  have hhigh : ∀ q < 8, 32 * q ||| 32 = 32 * (if q % 2 = 0 then q + 1 else q) := by decide
  have hlow : ∀ q, 32 * q + n % 32 = 32 * q ||| n % 32 := fun q =>
    Nat.two_pow_add_eq_or_of_lt (i := 5) (Nat.mod_lt n (by decide)) q
  calc n ||| 32 = 32 * (n / 32) ||| n % 32 ||| 32 := by rw [← hlow, Nat.div_add_mod]
    _ = 32 * (n / 32) ||| 32 ||| n % 32 := by
      rw [Nat.or_assoc, Nat.or_comm (n % 32), Nat.or_assoc]
    _ = 32 * (if n / 32 % 2 = 0 then n / 32 + 1 else n / 32) + n % 32 := by
      rw [hhigh _ (by omega), hlow]
    _ = if n / 32 % 2 = 0 then n + 32 else n := by split <;> omega

theorem hex2int_eq (c : UInt8) :
    hex2int c = match hexDigit c with
      | some n => (n : Int)
      | none => -1 := by
  have hlt := c.toNat_lt
  have hor : (c ||| 0x20).toNat = if c.toNat / 32 % 2 = 0 then c.toNat + 32 else c.toNat :=
    (UInt8.toNat_or c 0x20).trans (or_space hlt)
  unfold hex2int hexDigit isDigit
  simp only [UInt8.le_iff_toNat_le, hor, Bool.and_eq_true, decide_eq_true_eq, UInt8.reduceToNat]
  generalize c.toNat = n at hlt
  by_cases hdigit : 48 ≤ n ∧ n ≤ 57
  · rw [if_pos hdigit, if_pos hdigit]
    show (n : Int) - 48 = ((n - 48 : Nat) : Int)
    omega
  rw [if_neg hdigit, if_neg hdigit]
  by_cases hupper : 65 ≤ n ∧ n ≤ 70
  · have hbit : n / 32 % 2 = 0 := by omega
    rw [if_pos hupper, if_pos hbit, if_pos (by omega)]
    show ((n + 32 : Nat) : Int) - 97 + 10 = ((n - 55 : Nat) : Int)
    omega
  rw [if_neg hupper]
  by_cases hlower : 97 ≤ n ∧ n ≤ 102
  · have hbit : ¬ n / 32 % 2 = 0 := by omega
    rw [if_pos hlower, if_neg hbit, if_pos hlower]
    show (n : Int) - 97 + 10 = ((n - 87 : Nat) : Int)
    omega
  · rw [if_neg hlower, if_neg]
    split <;> omega

theorem hex2int_neg_iff {c : UInt8} : hex2int c < 0 ↔ ¬ IsHexDigit c := by
  rw [hex2int_eq]
  unfold IsHexDigit
  cases hexDigit c with
  | none => simp
  | some n => simp

/-- Two hex digits as the decoder puts them together. -/
theorem hexByte_eq {h1 h2 : UInt8} (hh1 : IsHexDigit h1) (hh2 : IsHexDigit h2) :
    hexByte (hex2int h1) (hex2int h2) = escapedByte h1 h2 := by
  obtain ⟨m, hm⟩ := Option.isSome_iff_exists.mp hh1
  obtain ⟨n, hn⟩ := Option.isSome_iff_exists.mp hh2
  have hlt : n < 2 ^ 4 := hexDigit_lt hn
  unfold hexByte escapedByte
  rw [hex2int_eq, hex2int_eq, hm, hn]
  show UInt8.ofNat ((m : Int).toNat <<< 4 ||| (n : Int).toNat) = UInt8.ofNat (16 * m + n)
  rw [Int.toNat_natCast, Int.toNat_natCast, ← Nat.shiftLeft_add_eq_or_of_lt hlt,
    Nat.shiftLeft_eq, Nat.mul_comm]

theorem decoded_plain {c : UInt8} (h : c ≠ percent) (rest : Bytes) :
    decoded (c :: rest) = c :: decoded rest := by
  conv_lhs => unfold decoded
  rw [if_neg h]

theorem decoded_escape (h1 h2 : UInt8) (tail : Bytes) :
    decoded (percent :: h1 :: h2 :: tail) = escapedByte h1 h2 :: decoded tail := by
  conv_lhs => unfold decoded
  rw [if_pos rfl]

theorem percentDecode_plain {c : UInt8} (hnul : c ≠ 0) (h : c ≠ percent) (rest : Bytes) :
    percentDecode (c :: rest) = storeByte c (percentDecode rest) := by
  conv_lhs => unfold percentDecode
  rw [if_neg hnul, if_neg h]

theorem percentDecode_escape (h1 h2 : UInt8) (tail : Bytes) :
    percentDecode (percent :: h1 :: h2 :: tail) =
      if hex2int h1 < 0 then (false, [])
      else if hex2int h2 < 0 then (false, [])
      else storeByte (hexByte (hex2int h1) (hex2int h2)) (percentDecode tail) := by
  conv_lhs => unfold percentDecode
  rw [if_neg (by decide), if_pos rfl]

theorem percentDecode_short {rest : Bytes} (h : ∀ h1 h2 tail, rest = h1 :: h2 :: tail → False) :
    percentDecode (percent :: rest) = storeByte percent (percentDecode rest) := by
  match rest with
  | [] => rfl
  | [c] => rfl
  | h1 :: h2 :: tail => exact absurd rfl (h h1 h2 tail)

/-- The decoder fails where an escape cannot be read, and otherwise stores what the reference
decoder makes of the target; an escape that the end cuts short stands for itself in both. -/
theorem percentDecode_spec {target : Bytes} (hnul : 0 ∉ target) :
    ((percentDecode target).1 = true ↔ EscapesRead target) ∧
      (EscapesRead target → (percentDecode target).2 = decoded target) := by
  fun_induction decoded target with
  | case1 => exact ⟨iff_of_true rfl (behindPercent_nil _), fun _ => rfl⟩
  | case2 h1 h2 tail ih =>
    have htail : 0 ∉ tail := fun h => hnul (by simp [h])
    obtain ⟨hiff, heq⟩ := ih htail
    rw [percentDecode_escape, escapesRead_escape]
    by_cases hh1 : IsHexDigit h1
    · by_cases hh2 : IsHexDigit h2
      · have hread : (IsHexDigit h1 ∧ IsHexDigit h2) ∧ EscapesRead tail ↔ EscapesRead tail :=
          and_iff_right ⟨hh1, hh2⟩
        rw [if_neg (fun h => hex2int_neg_iff.mp h hh1), if_neg (fun h => hex2int_neg_iff.mp h hh2),
          hread, hexByte_eq hh1 hh2]
        exact ⟨hiff, fun h => congrArg _ (heq h)⟩
      · rw [if_neg (fun h => hex2int_neg_iff.mp h hh1), if_pos (hex2int_neg_iff.mpr hh2)]
        exact ⟨iff_of_false Bool.false_ne_true (fun h => hh2 h.1.2), fun h => absurd h.1.2 hh2⟩
    · rw [if_pos (hex2int_neg_iff.mpr hh1)]
      exact ⟨iff_of_false Bool.false_ne_true (fun h => hh1 h.1.1), fun h => absurd h.1.1 hh1⟩
  | case3 rest hshort ih =>
    have hrest : 0 ∉ rest := fun h => hnul (by simp [h])
    obtain ⟨hiff, heq⟩ := ih hrest
    rw [percentDecode_short hshort]
    unfold EscapesRead
    rw [behindPercent_short (fun h1 h2 tail h => absurd h (hshort h1 h2 tail))]
    exact ⟨hiff, fun h => congrArg _ (heq h)⟩
  | case4 c rest hc ih =>
    have hrest : 0 ∉ rest := fun h => hnul (by simp [h])
    have hc0 : c ≠ 0 := fun h => hnul (by simp [h])
    obtain ⟨hiff, heq⟩ := ih hrest
    rw [percentDecode_plain hc0 hc]
    unfold EscapesRead
    rw [behindPercent_plain hc]
    exact ⟨hiff, fun h => congrArg _ (heq h)⟩

/-! ## Targets put together -/

theorem decoded_eq_nil {target : Bytes} : decoded target = [] ↔ target = [] := by
  fun_cases decoded target <;> simp

theorem WellEscaped.append {front : Bytes} (h : WellEscaped front) (back : Bytes) :
    decoded (front ++ back) = decoded front ++ decoded back ∧
      (EscapesRead (front ++ back) ↔ EscapesRead back) := by
  fun_induction decoded front with
  | case1 => exact ⟨rfl, Iff.rfl⟩
  | case2 h1 h2 tail ih =>
    obtain ⟨hhex, htail⟩ := wellEscaped_escape.mp h
    obtain ⟨heq, hiff⟩ := ih htail
    show decoded (percent :: h1 :: h2 :: (tail ++ back)) = _ ∧
      (EscapesRead (percent :: h1 :: h2 :: (tail ++ back)) ↔ _)
    rw [decoded_escape, heq, escapesRead_escape, hiff]
    exact ⟨rfl, and_iff_right hhex⟩
  | case3 rest hshort ih =>
    obtain ⟨h1, h2, tail, heq, _⟩ := h [] rest rfl
    exact absurd heq (hshort h1 h2 tail)
  | case4 c rest hc ih =>
    obtain ⟨heq, hiff⟩ := ih ((behindPercent_plain hc).mp h)
    show decoded (c :: (rest ++ back)) = _ ∧ (EscapesRead (c :: (rest ++ back)) ↔ _)
    rw [decoded_plain hc, heq]
    exact ⟨rfl, (behindPercent_plain hc).trans hiff⟩

/-- A percent sign that stands for itself is left in the decoded target. -/
theorem EscapesRead.wellEscaped {target : Bytes} (h : EscapesRead target)
    (hpercent : percent ∉ decoded target) : WellEscaped target := by
  fun_induction decoded target with
  | case1 => exact behindPercent_nil _
  | case2 h1 h2 tail ih =>
    obtain ⟨hhex, htail⟩ := escapesRead_escape.mp h
    exact wellEscaped_escape.mpr ⟨hhex, ih htail (fun hm => hpercent (List.mem_cons_of_mem _ hm))⟩
  | case3 rest hshort ih => exact absurd List.mem_cons_self hpercent
  | case4 c rest hc ih =>
    exact (behindPercent_plain hc).mpr (ih ((behindPercent_plain hc).mp h)
      (fun hm => hpercent (List.mem_cons_of_mem _ hm)))

theorem hexDigit_eq_zero {c : UInt8} (h : hexDigit c = some 0) : c = 48 := by
  unfold hexDigit at h
  simp only [UInt8.le_iff_toNat_le, UInt8.reduceToNat] at h
  apply UInt8.toNat.inj
  show c.toNat = 48
  split at h
  · have hsub := Option.some.inj h
    omega
  · split at h
    · have hsub := Option.some.inj h
      omega
    · split at h
      · have hsub := Option.some.inj h
        omega
      · cases h

/-- The only escape of the byte 0. -/
theorem escapedByte_eq_zero {h1 h2 : UInt8} (hh1 : IsHexDigit h1) (hh2 : IsHexDigit h2)
    (h : escapedByte h1 h2 = 0) : h1 = 48 ∧ h2 = 48 := by
  obtain ⟨m, hm⟩ := Option.isSome_iff_exists.mp hh1
  obtain ⟨n, hn⟩ := Option.isSome_iff_exists.mp hh2
  have hm16 := hexDigit_lt hm
  have hn16 := hexDigit_lt hn
  unfold escapedByte at h
  rw [hm, hn] at h
  have hnat : (UInt8.ofNat (16 * m + n)).toNat = 16 * m + n := by
    rw [UInt8.toNat_ofNat']
    omega
  have hzero : 16 * m + n = 0 := by
    rw [← hnat, show UInt8.ofNat (16 * m + n) = 0 from h]
    rfl
  obtain rfl : m = 0 := by omega
  obtain rfl : n = 0 := by omega
  exact ⟨hexDigit_eq_zero hm, hexDigit_eq_zero hn⟩

/-- A target whose decoded bytes hold the byte 0, cut at the first escape of it. -/
theorem split_nulEscape {target : Bytes} (hnul : 0 ∉ target) (hread : EscapesRead target)
    (h : 0 ∈ decoded target) : ∃ front back, target = front ++ (nulEscape ++ back) ∧
      WellEscaped front ∧ 0 ∉ decoded front ∧ EscapesRead back := by
  fun_induction decoded target with
  | case1 => simp at h
  | case2 h1 h2 tail ih =>
    obtain ⟨hhex, htail⟩ := escapesRead_escape.mp hread
    by_cases hzero : escapedByte h1 h2 = 0
    · obtain ⟨rfl, rfl⟩ := escapedByte_eq_zero hhex.1 hhex.2 hzero
      exact ⟨[], tail, rfl, behindPercent_nil _, by simp [decoded], htail⟩
    · have hmem : 0 ∈ decoded tail := by
        rcases List.mem_cons.mp h with h | h
        · exact absurd h.symm hzero
        · exact h
      obtain ⟨front, back, rfl, hfront, hclean, hback⟩ :=
        ih (fun h0 => hnul (by simp [h0])) htail hmem
      refine ⟨percent :: h1 :: h2 :: front, back, rfl, wellEscaped_escape.mpr ⟨hhex, hfront⟩, ?_,
        hback⟩
      rw [decoded_escape, List.mem_cons, not_or]
      exact ⟨Ne.symm hzero, hclean⟩
  | case3 rest hshort ih =>
    have hmem : 0 ∈ decoded rest := by
      rcases List.mem_cons.mp h with h | h
      · exact absurd h (by decide)
      · exact h
    have hrest : EscapesRead rest :=
      (behindPercent_short (fun h1 h2 tail h => absurd h (hshort h1 h2 tail))).mp hread
    obtain ⟨front, back, heq, _⟩ := ih (fun h0 => hnul (by simp [h0])) hrest hmem
    match front with
    | [] => exact absurd heq (hshort _ _ _)
    | [c] => exact absurd heq (hshort _ _ _)
    | c :: d :: front => exact absurd heq (hshort _ _ _)
  | case4 c rest hc ih =>
    have hc0 : c ≠ 0 := fun h0 => hnul (by simp [h0])
    have hmem : 0 ∈ decoded rest := by
      rcases List.mem_cons.mp h with h | h
      · exact absurd h.symm hc0
      · exact h
    obtain ⟨front, back, rfl, hfront, hclean, hback⟩ :=
      ih (fun h0 => hnul (by simp [h0])) ((behindPercent_plain hc).mp hread) hmem
    refine ⟨c :: front, back, rfl, (behindPercent_plain hc).mpr hfront, ?_, hback⟩
    rw [decoded_plain hc, List.mem_cons, not_or]
    exact ⟨Ne.symm hc0, hclean⟩

/-! ## The verdict -/

theorem urlString_iff {s : Bytes} : checkUrlFrom 0 s = true ↔ UrlString s := by
  rw [checkUrlFrom_iff, List.infix_cons_iff, List.cons_prefix_cons]
  have hno : ¬ (dot = 0 ∧ [dot] <+: s) := fun h => absurd h.1 (by decide)
  constructor
  · exact fun h => ⟨h.1, fun hin => h.2 (Or.inr hin)⟩
  · exact fun h => ⟨h.symbols, fun hin => hin.elim hno h.dots⟩

theorem UrlString.no_nul {s : Bytes} (h : UrlString s) : 0 ∉ s :=
  fun h0 => absurd (h.symbols 0 h0) (by decide)

/-- What `postParse` asks of a target. -/
theorem urlAccepted_iff {target : Bytes} (hnul : 0 ∉ target) : urlAccepted target = true ↔
    target ≠ [] ∧ EscapesRead target ∧ UrlString (cString (decoded target)) := by
  obtain ⟨hiff, heq⟩ := percentDecode_spec hnul
  unfold urlAccepted
  rw [Bool.and_eq_true, Bool.and_eq_true, Bool.not_eq_true', List.isEmpty_eq_false_iff, hiff,
    urlString_iff, and_assoc]
  refine and_congr_right (fun _ => and_congr_right (fun hread => ?_))
  rw [heq hread]

/-- Without an escape of the byte 0 nothing is hidden. -/
theorem urlAccepted_iff_acceptable {target : Bytes} (hnul : 0 ∉ target)
    (hclean : 0 ∉ decoded target) : urlAccepted target = true ↔ Acceptable target := by
  rw [urlAccepted_iff hnul, cString_of_no_nul hclean]
  constructor
  · rintro ⟨hne, hread, hurl⟩
    refine ⟨hread.wellEscaped (fun hp => ?_), hurl, fun h => hne (decoded_eq_nil.mp h)⟩
    exact absurd (hurl.symbols percent hp) (by decide)
  · intro h
    exact ⟨fun hnil => h.ne (decoded_eq_nil.mpr hnil), h.escapes.escapesRead, h.url⟩

theorem decoded_nulEscape {front back : Bytes} (h : WellEscaped front) :
    decoded (front ++ (nulEscape ++ back)) = decoded front ++ 0 :: decoded back := by
  rw [(h.append _).1]
  show decoded front ++ decoded (percent :: 48 :: 48 :: back) = _
  rw [decoded_escape]
  rfl

theorem HidesNul.wellEscaped {front : Bytes} (h : front = [] ∨ Acceptable front) :
    WellEscaped front ∧ UrlString (decoded front) := by
  rcases h with rfl | h
  · exact ⟨behindPercent_nil _, fun _ hc => (nomatch hc), by decide⟩
  · exact ⟨h.escapes, h.url⟩

theorem HidesNul.nul {target : Bytes} (h : HidesNul target) : 0 ∈ decoded target := by
  obtain ⟨front, back, rfl, hfront, _⟩ := h
  rw [decoded_nulEscape (HidesNul.wellEscaped hfront).1]
  simp

/-- With an escape of the byte 0 the target is accepted when the front would be. -/
theorem urlAccepted_iff_hidesNul {target : Bytes} (hnul : 0 ∉ target)
    (hzero : 0 ∈ decoded target) : urlAccepted target = true ↔ HidesNul target := by
  have hfront : ∀ {front back : Bytes}, WellEscaped front → 0 ∉ decoded front →
      cString (decoded (front ++ (nulEscape ++ back))) = decoded front := by
    intro front back hwell hclean
    rw [decoded_nulEscape hwell, cString_terminated, cString_of_no_nul hclean]
  rw [urlAccepted_iff hnul]
  constructor
  · rintro ⟨_, hread, hurl⟩
    obtain ⟨front, back, rfl, hwell, hclean, hback⟩ := split_nulEscape hnul hread hzero
    rw [hfront hwell hclean] at hurl
    refine ⟨front, back, rfl, ?_, hback⟩
    by_cases hnil : front = []
    · exact Or.inl hnil
    · exact Or.inr ⟨hwell, hurl, fun h => hnil (decoded_eq_nil.mp h)⟩
  · rintro ⟨front, back, rfl, hcases, hback⟩
    obtain ⟨hwell, hurl⟩ := HidesNul.wellEscaped hcases
    refine ⟨by simp [nulEscape], ?_, ?_⟩
    · rw [(hwell.append _).2]
      exact escapesRead_escape.mpr ⟨by decide, hback⟩
    · rw [hfront hwell hurl.no_nul]
      exact hurl

/-- `target` stands in the data where the URL of a finished head was recorded. -/
structure RawTarget (r : HttpRequest) (front target back : Bytes) : Prop where
  state : r.state = .finishOk
  data : r.data = front ++ (target ++ back)
  urlStart : r.urlStart = front.length
  urlLength : r.urlLength = target.length

theorem RawTarget.urlBytes {r : HttpRequest} {front target back : Bytes}
    (h : RawTarget r front target back) :
    r.urlBytes = target ∧ r.urlStart + r.urlLength ≤ r.size := by
  constructor
  · unfold HttpRequest.urlBytes bytesAt
    rw [h.data, h.urlStart, h.urlLength, List.drop_left, List.take_left]
  · unfold HttpRequest.size
    rw [h.data, h.urlStart, h.urlLength, List.length_append, List.length_append]
    omega

/-- Acceptance and decoding are exact, unless an escape `%00` hides what stands behind it. -/
theorem postParse_exact_iff {r : HttpRequest} {front target back : Bytes}
    (h : RawTarget r front target back) (hsymbols : ∀ c ∈ target, readUrlSymbols c = true) :
    ((r.postParse.1 = .finishOk ↔ Acceptable target) ∧
        (r.postParse.1 = .finishOk → r.postParse.2.getUrl = some (decoded target))) ↔
      ¬ HidesNul target := by
  obtain ⟨hbytes, hrange⟩ := h.urlBytes
  have hnul : 0 ∉ target := fun h0 => absurd (hsymbols 0 h0) (by decide)
  have hverdict : r.postParse.1 = .finishOk ↔ urlAccepted target = true := by
    rw [postParse_result h.state hrange, hbytes]
    split
    · rename_i hacc
      exact iff_of_true rfl hacc
    · rename_i hrej
      exact iff_of_false (by decide) hrej
  rw [hverdict]
  by_cases hzero : 0 ∈ decoded target
  · rw [urlAccepted_iff_hidesNul hnul hzero]
    have hno : ¬ Acceptable target := fun hacc => hacc.url.no_nul hzero
    exact ⟨fun hall hhides => hno (hall.1.mp hhides),
      fun hhides => ⟨iff_of_false hhides hno, fun hh => absurd hh hhides⟩⟩
  · refine iff_of_true ⟨urlAccepted_iff_acceptable hnul hzero, fun hacc => ?_⟩
      (fun hhides => hzero hhides.nul)
    have hread := ((urlAccepted_iff hnul).mp hacc).2.1
    obtain ⟨urlBuffer, heq, hurl⟩ :=
      postParse_accepted h.state hrange (by rw [hbytes]; exact hacc)
    rw [heq]
    unfold getUrl
    rw [if_neg (by simp [h.state])]
    show some (cString urlBuffer) = _
    rw [hurl, hbytes, (percentDecode_spec hnul).2 hread, cString_of_no_nul hzero]

/-- A head with the target `/a%2e`, as `postParse` sees it. -/
def escapedTarget : HttpRequest where
  data := [71, 32, 47, 97, 37, 50, 101, 32]
  state := .finishOk
  urlStart := 2
  urlLength := 5

theorem postParse_exact_iff_escapedTarget :
    ((escapedTarget.postParse.1 = .finishOk ↔ Acceptable [47, 97, 37, 50, 101]) ∧
        (escapedTarget.postParse.1 = .finishOk →
          escapedTarget.postParse.2.getUrl = some (decoded [47, 97, 37, 50, 101]))) ↔
      ¬ HidesNul [47, 97, 37, 50, 101] :=
  have htarget : RawTarget escapedTarget [71, 32] [47, 97, 37, 50, 101] [32] :=
    ⟨rfl, rfl, rfl, rfl⟩
  postParse_exact_iff htarget (by decide +kernel)

/-- `GET /a%00%41 H` with a header: the target. -/
def nulTarget : Bytes := [47, 97, 37, 48, 48, 37, 52, 49]

/-- The target `/a%00%41` decodes to a string with the byte 0 and is accepted as `/a`. -/
theorem nulTarget_accepted :
    (∀ c ∈ nulTarget, readUrlSymbols c = true) ∧ ¬ Acceptable nulTarget ∧
      (parse {}
        ([71, 69, 84, 32] ++ nulTarget ++ [32, 72, 13, 10, 65, 58, 32, 98, 13, 10, 13, 10])).map
        (fun x => (x.1, x.2.getUrl)) = some (.finishOk, some [47, 97]) := by
  refine ⟨by decide +kernel, fun h => h.url.no_nul (by decide), by decide +kernel⟩

end HttpRequest
end EpollHttp
