import Mathlib.Tactic.Common
import Mathlib.Tactic.Ring
import Mathlib.Data.List.Basic
import Mathlib.Data.Nat.Digits.Defs
import EpollHttp.Lib.Scan

/-
The C library functions on byte strings that the program calls.

A C string is the list of its bytes without the terminator, and memory is the list
of its bytes; reading past the end of a list gives the terminator.  `atoi` is the
64-bit `strtol` of glibc, which saturates, narrowed to `int`.
-/

namespace EpollHttp

abbrev Bytes := List UInt8

namespace CString

def isLower (c : UInt8) : Bool := 97 ≤ c && c ≤ 122

def isUpper (c : UInt8) : Bool := 65 ≤ c && c ≤ 90

def isDigit (c : UInt8) : Bool := 48 ≤ c && c ≤ 57

/-- `isspace` of the C locale. -/
def isSpace (c : UInt8) : Bool := c == 32 || (9 ≤ c && c ≤ 13)

def toLower (c : UInt8) : UInt8 := if isUpper c then c + 32 else c

/-- The bytes in front of the first terminator. -/
def cString (memory : Bytes) : Bytes := memory.takeWhile (· != 0)

/-- Memory after `stored` was written over its first bytes. -/
def overwrite (memory stored : Bytes) : Bytes := stored ++ memory.drop stored.length

theorem cString_terminated (stored rest : Bytes) :
    cString (stored ++ 0 :: rest) = cString stored := by
  unfold cString
  induction stored with
  | nil => simp
  | cons c stored ih =>
    by_cases hc : c = 0
    · simp [hc]
    · simpa [hc] using ih

/-- The stored string ends with its terminator, so the bytes behind it stay out of
sight. -/
theorem cString_overwrite (memory stored : Bytes) :
    cString (overwrite memory (stored ++ [0])) = cString stored := by
  unfold overwrite
  rw [List.append_assoc, List.singleton_append, cString_terminated]

theorem cString_of_no_nul {s : Bytes} (h : 0 ∉ s) : cString s = s :=
  Scan.takeWhile_all (fun x hx => by simpa using fun e : x = 0 => h (e ▸ hx))

theorem no_nul_cString (memory : Bytes) : 0 ∉ cString memory := by
  intro h
  have hclass := Scan.token_class h
  simp at hclass

/-- `strncasecmp(s, t, n) == 0`. -/
def strncaseEq : Nat → Bytes → Bytes → Bool
  | 0, _, _ => true
  | n + 1, s, t =>
    if toLower (s.headD 0) != toLower (t.headD 0) then false
    else if s.headD 0 == 0 then true
    else strncaseEq n s.tail t.tail

def digitsFrom : Nat → Bytes → Nat
  | acc, [] => acc
  | acc, c :: rest =>
    if isDigit c then digitsFrom (acc * 10 + (c.toNat - 48)) rest else acc

def longMax : Int := 2 ^ 63 - 1

def longMin : Int := -2 ^ 63

/-- `strtol(s, NULL, 10)`. -/
def strtol (s : Bytes) : Int :=
  match s.dropWhile isSpace with
  | [] => 0
  | sign :: rest =>
    if sign = 45 then max longMin (-(digitsFrom 0 rest : Int))
    else if sign = 43 then min longMax (digitsFrom 0 rest)
    else min longMax (digitsFrom 0 (sign :: rest))

def intMax : Int := 2 ^ 31 - 1

/-- `atoi(s)`: the `long` is narrowed to `int`. -/
def atoi (s : Bytes) : Int := (strtol (cString s)).bmod (2 ^ 32)

/-! ## Comparing names -/

theorem toLower_eq_zero {c : UInt8} : toLower c = 0 ↔ c = 0 := by
  unfold toLower
  split
  · rename_i h
    have hb : 65 ≤ c.toNat ∧ c.toNat ≤ 90 := by
      unfold isUpper at h
      simpa [UInt8.le_iff_toNat_le] using h
    refine ⟨fun h0 => ?_, fun h0 => ?_⟩
    · have hn := congrArg UInt8.toNat h0
      rw [UInt8.toNat_add] at hn
      simp at hn
      omega
    · rw [h0] at hb
      simp at hb
  · exact Iff.rfl

/-- Compared over its own length, a name is equal when it is an abbreviation. -/
theorem strncaseEq_iff {s t : Bytes} (ht : 0 ∉ t) :
    strncaseEq t.length s t = true ↔ t.map toLower <+: s.map toLower := by
  induction t generalizing s with
  | nil => simp [strncaseEq]
  | cons c t ih =>
    have hc : c ≠ 0 := fun h => ht (by simp [h])
    have ht' : 0 ∉ t := fun h => ht (by simp [h])
    have hlow : toLower c ≠ 0 := fun h => hc (toLower_eq_zero.mp h)
    cases s with
    | nil =>
      have h0 : toLower 0 ≠ toLower c := fun h => hlow (h ▸ toLower_eq_zero.mpr rfl)
      show (if toLower 0 != toLower c then false else _) = true ↔ _
      simp [h0]
    | cons d s =>
      show (if toLower d != toLower c then false else
        if d == 0 then true else strncaseEq t.length s t) = true ↔ _
      rw [List.map_cons, List.map_cons, List.cons_prefix_cons, ← ih ht']
      by_cases hd : toLower d = toLower c
      · have hd0 : d ≠ 0 := fun h => hlow (hd ▸ toLower_eq_zero.mpr h)
        simp [hd, hd0]
      · simp [hd, Ne.symm hd]

/-! ## Decimal strings -/

def digitValue (c : UInt8) : Nat := c.toNat - 48

/-- The number that a string of decimal digits and nothing else denotes. -/
def plainDecimal (s : Bytes) : Option Nat :=
  if s ≠ [] ∧ s.all isDigit = true then some (Nat.ofDigits 10 (s.reverse.map digitValue))
  else none

theorem digitsFrom_digits {s : Bytes} (h : ∀ c ∈ s, isDigit c = true) (acc : Nat) :
    digitsFrom acc s = acc * 10 ^ s.length + Nat.ofDigits 10 (s.reverse.map digitValue) := by
  induction s generalizing acc with
  | nil => simp [digitsFrom]
  | cons c s ih =>
    have hc : isDigit c = true := h c (by simp)
    have hs := ih (fun d hd => h d (by simp [hd])) (acc * 10 + digitValue c)
    calc digitsFrom acc (c :: s)
        = digitsFrom (acc * 10 + digitValue c) s := by
          show (if isDigit c then _ else acc) = _
          rw [if_pos hc]
          rfl
      _ = (acc * 10 + digitValue c) * 10 ^ s.length +
            Nat.ofDigits 10 (s.reverse.map digitValue) := hs
      _ = acc * 10 ^ (s.length + 1) + (Nat.ofDigits 10 (s.reverse.map digitValue) +
            10 ^ s.length * digitValue c) := by ring
      _ = acc * 10 ^ (c :: s).length +
            Nat.ofDigits 10 ((c :: s).reverse.map digitValue) := by
          rw [List.reverse_cons, List.map_append, Nat.ofDigits_append]
          simp

theorem digit_plain {c : UInt8} (h : isDigit c = true) :
    c ≠ 0 ∧ isSpace c = false ∧ c ≠ 45 ∧ c ≠ 43 := by
  have hb : 48 ≤ c.toNat ∧ c.toNat ≤ 57 := by
    unfold isDigit at h
    simpa [UInt8.le_iff_toNat_le] using h
  refine ⟨?_, ?_, ?_, ?_⟩
  · rintro rfl
    simp at hb
  · have hne : c ≠ 32 := by
      rintro rfl
      simp at hb
    unfold isSpace
    simp [UInt8.le_iff_toNat_le, hne]
    omega
  · rintro rfl
    simp at hb
  · rintro rfl
    simp at hb

theorem intMax_eq : intMax = 2147483647 := rfl

theorem atoi_le (s : Bytes) : atoi s ≤ intMax := by
  have h := Int.bmod_lt (x := strtol (cString s)) (m := 2 ^ 32) (by decide)
  unfold atoi
  rw [intMax_eq]
  omega

/-- `atoi` reads a representable plain decimal as the number it denotes. -/
theorem atoi_plainDecimal {s : Bytes} {n : Nat} (h : plainDecimal s = some n)
    (hn : (n : Int) ≤ intMax) : atoi s = n := by
  unfold plainDecimal at h
  split at h
  · rename_i hs
    obtain ⟨hne, hall⟩ := hs
    have hdigits : ∀ c ∈ s, isDigit c = true := List.all_eq_true.mp hall
    obtain ⟨c, rest, rfl⟩ := List.exists_cons_of_ne_nil hne
    obtain ⟨_, hspace, hminus, hplus⟩ := digit_plain (hdigits c (by simp))
    have hstring : cString (c :: rest) = c :: rest :=
      cString_of_no_nul (fun h0 => (digit_plain (hdigits 0 h0)).1 rfl)
    have hvalue : digitsFrom 0 (c :: rest) = n := by
      rw [digitsFrom_digits hdigits, Nat.zero_mul, Nat.zero_add]
      exact Option.some.inj h
    have hlong : strtol (c :: rest) = n := by
      unfold strtol
      rw [List.dropWhile_cons_of_neg (by simp [hspace])]
      dsimp only
      rw [if_neg hminus, if_neg hplus, hvalue]
      rw [intMax_eq] at hn
      unfold longMax
      omega
    rw [intMax_eq] at hn
    unfold atoi
    rw [hstring, hlong]
    exact Int.bmod_eq_of_le (by omega) (by omega)
  · simp at h

end CString
end EpollHttp
