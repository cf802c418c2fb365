import EpollHttp.Lib.Scan
import EpollHttp.Lib.CString

/-
The symbol tables of the request parser and the URL decoder.

The three tables are the loops of `HttpRequest::initSymbolArrays`, read as
predicates on the byte they are indexed with.  `percentDecode` keeps the bytes it
stored even when it fails, because the source stores them before it returns -1.
-/

namespace EpollHttp

namespace HttpRequest

open CString

def cr : UInt8 := 13
def lf : UInt8 := 10
def space : UInt8 := 32
def percent : UInt8 := 37
def dash : UInt8 := 45
def dot : UInt8 := 46
def slash : UInt8 := 47
def colon : UInt8 := 58
def equals : UInt8 := 61
def question : UInt8 := 63
def underscore : UInt8 := 95

def isBreak (c : UInt8) : Bool := c == cr || c == lf

theorem isBreak_iff {c : UInt8} : isBreak c = true ↔ c = cr ∨ c = lf := by
  simp [isBreak]

def checkUrlSymbols (c : UInt8) : Bool :=
  isLower c || isUpper c || isDigit c ||
    c == slash || c == dot || c == underscore || c == dash || c == space

def readUrlSymbols (c : UInt8) : Bool :=
  isLower c || isUpper c || isDigit c ||
    c == slash || c == dot || c == underscore || c == equals || c == dash || c == percent

def readHeaderKeySymbols (c : UInt8) : Bool :=
  isUpper c || isLower c || c == dash

/-- The value of a hex digit, or -1. -/
def hex2int (c : UInt8) : Int :=
  if isDigit c then (c.toNat : Int) - 48
  else
    let c := c ||| 0x20
    if 97 ≤ c && c ≤ 102 then (c.toNat : Int) - 97 + 0xA else -1

/-- The byte `(v1 << 4) | v2`. -/
def hexByte (v1 v2 : Int) : UInt8 := UInt8.ofNat ((v1.toNat <<< 4) ||| v2.toNat)

def storeByte (c : UInt8) (r : Bool × Bytes) : Bool × Bytes := (r.1, c :: r.2)

/-- Whether 0 is returned, and the bytes stored from `dst[0]` on.  The escape
branch needs two more source bytes; an escape cut by the end is copied as is. -/
def percentDecode : Bytes → Bool × Bytes
  | [] => (true, [])
  | c :: rest =>
    if c = 0 then (true, [])
    else if c = percent then
      match rest with
      | h1 :: h2 :: tail =>
        if hex2int h1 < 0 then (false, [])
        else if hex2int h2 < 0 then (false, [])
        else storeByte (hexByte (hex2int h1) (hex2int h2)) (percentDecode tail)
      | short => storeByte c (percentDecode short)
    else storeByte c (percentDecode rest)

/-- The loop of `checkUrl` over the bytes of a C string; `prevChar` is the byte
in front. -/
def checkUrlFrom : UInt8 → Bytes → Bool
  | _, [] => true
  | prevChar, c :: rest =>
    if !checkUrlSymbols c then false
    else if c == dot && c == prevChar then false
    else checkUrlFrom c rest

theorem checkUrlFrom_iff {prevChar : UInt8} {url : Bytes} : checkUrlFrom prevChar url = true ↔
    (∀ c ∈ url, checkUrlSymbols c = true) ∧ ¬ [dot, dot] <:+: prevChar :: url := by
  induction url generalizing prevChar with
  | nil =>
    refine iff_of_true rfl ⟨fun _ hc => (nomatch hc), fun hin => ?_⟩
    have hlength := hin.length_le
    simp at hlength
  | cons c rest ih =>
    rw [List.infix_cons_iff, List.cons_prefix_cons, List.cons_prefix_cons, List.forall_mem_cons]
    unfold checkUrlFrom
    by_cases hc : checkUrlSymbols c = true
    · by_cases hdots : c = dot ∧ prevChar = dot
      · obtain ⟨rfl, rfl⟩ := hdots
        simp [hc]
      · have hno : ¬ (c = dot ∧ c = prevChar) := fun h => hdots ⟨h.1, h.2 ▸ h.1⟩
        have hno' : ¬ (dot = prevChar ∧ dot = c ∧ [] <+: rest) :=
          fun h => hdots ⟨h.2.1.symm, h.1.symm⟩
        simp only [hc, Bool.not_true, Bool.false_eq_true, if_false, Bool.and_eq_true, beq_iff_eq,
          if_neg hno, true_and, not_or, hno', not_false_eq_true]
        exact ih
    · simp [hc]

/-- `checkUrl` returned 0. -/
def checkUrlBuffer (urlBuffer : Bytes) : Bool := checkUrlFrom 0 (cString urlBuffer)

end HttpRequest
end EpollHttp
