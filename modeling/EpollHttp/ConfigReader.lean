import EpollHttp.Lib.CString
import Mathlib.Data.List.Lex
import Mathlib.Data.List.Sort

/-
`ConfigReader`: reading a configuration and writing it.

The index `i` of the reader only moves forward, so what is left of the string stands for it.  The
`while` loop takes a number of rounds that is bounded by the length of the string.
-/

namespace EpollHttp

/-- `std::map<std::string, std::string>`, whose entries are in the order of their keys. -/
structure ConfigMap where
  entries : List (Bytes × Bytes)
  sorted : entries.Pairwise (fun p q => p.1 < q.1)

namespace ConfigMap

@[ext] theorem ext {m m' : ConfigMap} (h : m.entries = m'.entries) : m = m' := by
  cases m
  cases m'
  cases h
  rfl

def empty : ConfigMap := { entries := [], sorted := List.Pairwise.nil }

/-- The map with one entry. -/
def single (key value : Bytes) : ConfigMap where
  entries := [(key, value)]
  sorted := List.pairwise_singleton _ _

/-- The entries when `key` was given `value`. -/
def insert (key value : Bytes) : List (Bytes × Bytes) → List (Bytes × Bytes)
  | [] => [(key, value)]
  | (k, v) :: rest =>
    if key < k then (key, value) :: (k, v) :: rest
    else if key = k then (key, value) :: rest
    else (k, v) :: insert key value rest

theorem mem_insert {key value : Bytes} {l : List (Bytes × Bytes)} {p : Bytes × Bytes}
    (h : p ∈ insert key value l) : p = (key, value) ∨ p ∈ l := by
  induction l with
  | nil => simpa [insert] using h
  | cons q rest ih =>
    obtain ⟨k, v⟩ := q
    unfold insert at h
    split at h
    · rcases List.mem_cons.mp h with heq | hmem
      · exact Or.inl heq
      · exact Or.inr hmem
    · split at h
      · rcases List.mem_cons.mp h with heq | hmem
        · exact Or.inl heq
        · exact Or.inr (List.mem_cons_of_mem _ hmem)
      · rcases List.mem_cons.mp h with heq | hmem
        · exact Or.inr (heq ▸ List.mem_cons_self)
        · rcases ih hmem with heq | hmem'
          · exact Or.inl heq
          · exact Or.inr (List.mem_cons_of_mem _ hmem')

theorem insert_sorted (key value : Bytes) {l : List (Bytes × Bytes)}
    (h : l.Pairwise (fun p q => p.1 < q.1)) :
    (insert key value l).Pairwise (fun p q => p.1 < q.1) := by
  induction l with
  | nil => exact List.pairwise_singleton _ _
  | cons q rest ih =>
    obtain ⟨k, v⟩ := q
    obtain ⟨hfirst, hrest⟩ := List.pairwise_cons.mp h
    unfold insert
    split
    · rename_i hlt
      refine List.pairwise_cons.mpr ⟨fun p hp => ?_, h⟩
      rcases List.mem_cons.mp hp with rfl | hmem
      · exact hlt
      · exact List.lt_trans hlt (hfirst p hmem)
    · split
      · rename_i heq
        rw [heq]
        exact List.pairwise_cons.mpr ⟨hfirst, hrest⟩
      · rename_i hnot hne
        refine List.pairwise_cons.mpr ⟨fun p hp => ?_, ih hrest⟩
        rcases mem_insert hp with rfl | hmem
        · -- Neither smaller nor equal.
          by_contra hge
          exact hne (Std.Trichotomous.trichotomous key k hnot hge)
        · exact hfirst p hmem

/-- `params[key] = value` -/
def assign (m : ConfigMap) (key value : Bytes) : ConfigMap where
  entries := insert key value m.entries
  sorted := insert_sorted key value m.sorted

/-- A key behind all others gets the last entry. -/
theorem insert_last {key value : Bytes} {l : List (Bytes × Bytes)} (h : ∀ p ∈ l, p.1 < key) :
    insert key value l = l ++ [(key, value)] := by
  induction l with
  | nil => rfl
  | cons q rest ih =>
    obtain ⟨k, v⟩ := q
    have hk : k < key := h (k, v) List.mem_cons_self
    have hnot : ¬ key < k := fun hlt => List.lt_irrefl k (List.lt_trans hk hlt)
    have hne : key ≠ k := fun heq => List.lt_irrefl k (heq ▸ hk)
    unfold insert
    rw [if_neg hnot, if_neg hne, ih (fun p hp => h p (List.mem_cons_of_mem _ hp))]
    rfl

/-! ## Looking up a key -/

/-- `params.find(key)`: the value, none for `end()`. -/
def find (m : ConfigMap) (key : Bytes) : Option Bytes :=
  (m.entries.find? (fun p => p.1 == key)).map (·.2)

theorem find?_insert_self (key value : Bytes) (l : List (Bytes × Bytes)) :
    (insert key value l).find? (fun p => p.1 == key) = some (key, value) := by
  have hnew : ((key, value).1 == key) = true := beq_self_eq_true key
  induction l with
  | nil => exact List.find?_cons_of_pos hnew
  | cons q rest ih =>
    obtain ⟨k, v⟩ := q
    unfold insert
    split
    · exact List.find?_cons_of_pos hnew
    · split
      · exact List.find?_cons_of_pos hnew
      · rename_i hne
        rw [List.find?_cons_of_neg (by simpa using fun h : k = key => hne h.symm)]
        exact ih

theorem find?_insert_other {key key' : Bytes} (h : key' ≠ key) (value : Bytes)
    (l : List (Bytes × Bytes)) : (insert key value l).find? (fun p => p.1 == key') =
      l.find? (fun p => p.1 == key') := by
  have hnew : (key == key') = false := by simpa using fun heq : key = key' => h heq.symm
  induction l with
  | nil => simp [insert, hnew]
  | cons q rest ih =>
    obtain ⟨k, v⟩ := q
    unfold insert
    split
    · rw [List.find?_cons, hnew]
    · split
      · rename_i heq
        rw [List.find?_cons, List.find?_cons, ← heq, hnew]
      · rw [List.find?_cons, List.find?_cons, ih]

@[simp] theorem find_assign_self (m : ConfigMap) (key value : Bytes) :
    (m.assign key value).find key = some value := by
  unfold find assign
  rw [find?_insert_self]
  rfl

theorem find_assign_other {key key' : Bytes} (h : key' ≠ key) (m : ConfigMap) (value : Bytes) :
    (m.assign key value).find key' = m.find key' := by
  unfold find assign
  rw [find?_insert_other h]

/-- Two entries of a sorted list have different keys. -/
theorem find?_of_mem {l : List (Bytes × Bytes)} (h : l.Pairwise (fun p q => p.1 < q.1))
    {p : Bytes × Bytes} (hp : p ∈ l) : l.find? (fun q => q.1 == p.1) = some p := by
  induction l with
  | nil => exact absurd hp List.not_mem_nil
  | cons q rest ih =>
    obtain ⟨hfirst, hrest⟩ := List.pairwise_cons.mp h
    rcases List.mem_cons.mp hp with rfl | hmem
    · exact List.find?_cons_of_pos (beq_self_eq_true p.1)
    · have hne : (q.1 == p.1) = false := by
        simpa using fun heq : q.1 = p.1 => List.lt_irrefl p.1 (heq ▸ hfirst p hmem)
      rw [List.find?_cons, hne]
      exact ih hrest hmem

theorem mem_entries_iff {m : ConfigMap} {p : Bytes × Bytes} :
    p ∈ m.entries ↔ m.find p.1 = some p.2 := by
  unfold find
  constructor
  · intro hp
    rw [find?_of_mem m.sorted hp]
    rfl
  · intro hfind
    obtain ⟨q, hq, hvalue⟩ := Option.map_eq_some_iff.mp hfind
    have hkey : q.1 = p.1 := by simpa using List.find?_some hq
    rw [← show q = p from Prod.ext hkey hvalue]
    exact List.mem_of_find?_eq_some hq

/-- Maps that answer alike are the same map. -/
theorem ext_find {m m' : ConfigMap} (h : ∀ key, m.find key = m'.find key) : m = m' := by
  have hirrefl : Std.Irrefl (fun p q : Bytes × Bytes => p.1 < q.1) :=
    ⟨fun p => List.lt_irrefl p.1⟩
  have hanti : Std.Antisymm (fun p q : Bytes × Bytes => p.1 < q.1) :=
    ⟨fun p q hpq hqp => absurd (List.lt_trans hpq hqp) (List.lt_irrefl p.1)⟩
  refine ext (m.sorted.eq_of_mem_iff m'.sorted (fun p => ?_))
  rw [mem_entries_iff, mem_entries_iff, h]

end ConfigMap

namespace ConfigReader

open CString (cString)

def isSpace (c : UInt8) : Bool := c == 32 || c == 9

def isBreak (c : UInt8) : Bool := c == 13 || c == 10

/-- The last digit is left out. -/
def isKey (c : UInt8) : Bool :=
  (97 ≤ c && c ≤ 122) || (65 ≤ c && c ≤ 90) || (48 ≤ c && c < 57) || c == 46

def commentSymbol : UInt8 := 35

def paramSeparatorSymbol : UInt8 := 61

/-- What one round of the loop ends with. -/
inductive Round
  | done (result : Bool) (params : ConfigMap)
  | next (rest : Bytes) (params : ConfigMap)

/-- The loop that moves `valueEnd` back; `text` begins at `valueStart`.  It looks at the symbol
behind the value first. -/
def removeTrailingSpaces (text : Bytes) : Nat → Nat
  | 0 => 0
  | n + 1 => if isSpace (text.getD (n + 1) 0) then removeTrailingSpaces text n else n + 1

/-- What follows the separator. -/
def readValue (key rest : Bytes) (params : ConfigMap) : Round :=
  let text := rest.dropWhile isSpace
  if text = [] then .done false params
  else
    let valueLength := removeTrailingSpaces text (text.takeWhile (!isBreak ·)).length
    if valueLength = 0 then .done false params
    else .next (text.dropWhile (!isBreak ·)) (params.assign key (text.take valueLength))

/-- `text` begins with the key. -/
def readKey (text : Bytes) (params : ConfigMap) : Round :=
  match text.dropWhile isKey with
  | [] => .done false params
  | c :: rest =>
    if ¬ isSpace c ∧ c ≠ paramSeparatorSymbol then .done false params
    else
      match (c :: rest).dropWhile isSpace with
      | [] => .done false params
      | c :: rest =>
        if c ≠ paramSeparatorSymbol then .done false params
        else readValue (text.takeWhile isKey) rest params

def round (rest : Bytes) (params : ConfigMap) : Round :=
  match rest.dropWhile (fun c => isSpace c || isBreak c) with
  | [] => .done true params
  | c :: rest =>
    if c = commentSymbol then .next ((c :: rest).dropWhile (!isBreak ·)) params
    else if isKey c then readKey (c :: rest) params
    else .done false params

/-- The loop, for a number of rounds. -/
def readRounds : Nat → Bytes → ConfigMap → Option (Bool × ConfigMap)
  | 0, _, _ => none
  | fuel + 1, rest, params =>
    match round rest params with
    | .done result params => some (result, params)
    | .next rest params => readRounds fuel rest params

/-- `memory` holds the string with its terminator. -/
def configReadString (memory : Bytes) (params : ConfigMap) : Option (Bool × ConfigMap) :=
  readRounds ((cString memory).length + 1) (cString memory) params

def line (p : Bytes × Bytes) : Bytes := p.1 ++ paramSeparatorSymbol :: (p.2 ++ [10])

def configToString (params : ConfigMap) : Bytes := params.entries.flatMap line

/-! ## Every string is read to an end -/

theorem readValue_shrinks {key rest rest' : Bytes} {params params' : ConfigMap}
    (h : readValue key rest params = .next rest' params') : rest'.length ≤ rest.length := by
  unfold readValue at h
  simp only at h
  split at h
  · cases h
  · split at h
    · cases h
    · cases h
      exact Nat.le_trans (Scan.dropWhile_length_le _ _) (Scan.dropWhile_length_le _ _)

theorem readKey_shrinks {text rest' : Bytes} {params params' : ConfigMap}
    (h : readKey text params = .next rest' params') : rest'.length < text.length := by
  unfold readKey at h
  split at h
  · cases h
  · rename_i c rest hdrop
    split at h
    · cases h
    · split at h
      · cases h
      · rename_i c' rest1 hspaces
        split at h
        · cases h
        · have hvalue := readValue_shrinks h
          have hlen := congrArg List.length hspaces
          have hle : ((c :: rest).dropWhile isSpace).length ≤ (c :: rest).length :=
            Scan.dropWhile_length_le _ _
          have hle' : (text.dropWhile isKey).length ≤ text.length := Scan.dropWhile_length_le _ _
          rw [hdrop] at hle'
          rw [List.length_cons] at hlen
          omega

theorem round_shrinks {rest rest' : Bytes} {params params' : ConfigMap}
    (h : round rest params = .next rest' params') : rest'.length < rest.length := by
  unfold round at h
  split at h
  · cases h
  · rename_i c tail hdrop
    have hle : (rest.dropWhile (fun c => isSpace c || isBreak c)).length ≤ rest.length :=
      Scan.dropWhile_length_le _ _
    rw [hdrop] at hle
    split at h
    · rename_i hc
      have hskip : (!isBreak c) = true := by
        rw [hc]
        decide
      rw [List.dropWhile_cons_of_pos (p := (!isBreak ·)) hskip] at h
      cases h
      have htail := Scan.dropWhile_length_le (!isBreak ·) tail
      rw [List.length_cons] at hle
      omega
    · split at h
      · exact Nat.lt_of_lt_of_le (readKey_shrinks h) hle
      · cases h

theorem readRounds_isSome {fuel : Nat} {rest : Bytes} (params : ConfigMap)
    (h : rest.length < fuel) : (readRounds fuel rest params).isSome := by
  induction fuel generalizing rest params with
  | zero => omega
  | succ fuel ih =>
    unfold readRounds
    cases hround : round rest params with
    | done result params' => rfl
    | next rest' params' =>
      have hlt := round_shrinks hround
      exact ih params' (by omega)

theorem configReadString_isSome (memory : Bytes) (params : ConfigMap) :
    (configReadString memory params).isSome :=
  readRounds_isSome params (Nat.lt_succ_self _)

/-! ## What is written is read back -/

/-- The symbols of a key: letters, decimal digits and the dot. -/
def KeySymbol (c : UInt8) : Prop :=
  CString.isLower c ∨ CString.isUpper c ∨ CString.isDigit c ∨ c = 46

/-- The entries that the round trip is about. -/
structure Plain (p : Bytes × Bytes) : Prop where
  key : p.1 ≠ []
  symbols : ∀ c ∈ p.1, KeySymbol c
  value : p.2 ≠ []
  noBreak : ∀ c ∈ p.2, c ≠ 13 ∧ c ≠ 10 ∧ c ≠ 0
  front : ∀ c ∈ p.2.head?, isSpace c = false
  back : ∀ c ∈ p.2.getLast?, isSpace c = false

theorem keySymbol_toNat {c : UInt8} (h : KeySymbol c) :
    (97 ≤ c.toNat ∧ c.toNat ≤ 122) ∨ (65 ≤ c.toNat ∧ c.toNat ≤ 90) ∨
      (48 ≤ c.toNat ∧ c.toNat ≤ 57) ∨ c.toNat = 46 := by
  unfold KeySymbol CString.isLower CString.isUpper CString.isDigit at h
  simp only [Bool.and_eq_true, decide_eq_true_eq, UInt8.le_iff_toNat_le] at h
  rcases h with h | h | h | h
  · exact Or.inl h
  · exact Or.inr (Or.inl h)
  · exact Or.inr (Or.inr (Or.inl h))
  · rw [h]
    decide

theorem isKey_iff {c : UInt8} (h : KeySymbol c) : isKey c = true ↔ c ≠ 57 := by
  have hnat := keySymbol_toNat h
  have hne : c ≠ 57 ↔ c.toNat ≠ 57 := by
    rw [Ne, Ne, ← UInt8.toNat_inj]
    rfl
  have h46 : c = 46 ↔ c.toNat = 46 := by
    rw [← UInt8.toNat_inj]
    rfl
  unfold isKey
  simp only [Bool.or_eq_true, Bool.and_eq_true, decide_eq_true_eq, beq_iff_eq,
    UInt8.le_iff_toNat_le, UInt8.lt_iff_toNat_lt, hne, h46]
  show ((((97 ≤ c.toNat ∧ c.toNat ≤ 122) ∨ (65 ≤ c.toNat ∧ c.toNat ≤ 90)) ∨
    (48 ≤ c.toNat ∧ c.toNat < 57)) ∨ c.toNat = 46) ↔ c.toNat ≠ 57
  omega

/-- A symbol of a key begins neither a comment nor a gap. -/
theorem keySymbol_starts {c : UInt8} (h : KeySymbol c) :
    (isSpace c || isBreak c) = false ∧ c ≠ commentSymbol ∧ c ≠ paramSeparatorSymbol := by
  have hnat := keySymbol_toNat h
  have hne : ∀ d : UInt8, c.toNat ≠ d.toNat → c ≠ d := fun d hd heq => hd (heq ▸ rfl)
  have h32 : c ≠ 32 := hne 32 (by show c.toNat ≠ 32; omega)
  have h9 : c ≠ 9 := hne 9 (by show c.toNat ≠ 9; omega)
  have h13 : c ≠ 13 := hne 13 (by show c.toNat ≠ 13; omega)
  have h10 : c ≠ 10 := hne 10 (by show c.toNat ≠ 10; omega)
  refine ⟨by simp [isSpace, isBreak, h32, h9, h13, h10], ?_, ?_⟩
  · exact hne 35 (by show c.toNat ≠ 35; omega)
  · exact hne 61 (by show c.toNat ≠ 61; omega)

section
variable {key value t : Bytes} {params : ConfigMap}

theorem isBreak_of_plain (h : ∀ c ∈ value, c ≠ 13 ∧ c ≠ 10 ∧ c ≠ 0) :
    ∀ c ∈ value, (!isBreak c) = true := by
  intro c hc
  obtain ⟨h13, h10, _⟩ := h c hc
  simp [isBreak, h13, h10]

/-- The symbol behind the value is the line break, so nothing is removed. -/
theorem removeTrailingSpaces_value (hvalue : value ≠ []) :
    removeTrailingSpaces (value ++ 10 :: t) value.length = value.length := by
  have hpos := List.length_pos_iff.mpr hvalue
  obtain ⟨n, hn⟩ := Nat.exists_eq_succ_of_ne_zero (Nat.ne_of_gt hpos)
  have hat : (value ++ 10 :: t).getD value.length 0 = 10 := by simp
  rw [hn] at hat ⊢
  unfold removeTrailingSpaces
  rw [hat, if_neg (by decide)]

theorem readValue_line (h : Plain (key, value)) :
    readValue key (value ++ 10 :: t) params = .next (10 :: t) (params.assign key value) := by
  obtain ⟨c, rest, hcons⟩ := List.exists_cons_of_ne_nil h.value
  have hc : isSpace c = false := h.front c (by rw [hcons]; rfl)
  have htext : (value ++ 10 :: t).dropWhile isSpace = value ++ 10 :: t := by
    have hvalue : value = c :: rest := hcons
    rw [hvalue, List.cons_append]
    exact List.dropWhile_cons_of_neg (by rw [hc]; decide)
  have hclass := isBreak_of_plain h.noBreak
  have htake := Scan.takeWhile_token (p := (!isBreak ·)) (t := t) (c := 10) hclass (by decide)
  have hdrop := Scan.dropWhile_token (p := (!isBreak ·)) (t := t) (c := 10) hclass (by decide)
  unfold readValue
  simp only [htext, htake, hdrop, removeTrailingSpaces_value h.value]
  rw [if_neg (by simp), if_neg (Nat.ne_of_gt (List.length_pos_iff.mpr h.value)), List.take_left]

theorem readKey_line (h : Plain (key, value)) (h9 : 57 ∉ key) :
    readKey (line (key, value) ++ t) params = .next (10 :: t) (params.assign key value) := by
  have hclass : ∀ c ∈ key, isKey c = true := fun c hc =>
    (isKey_iff (h.symbols c hc)).mpr (fun heq => h9 (heq ▸ hc))
  have hline : line (key, value) ++ t = key ++ paramSeparatorSymbol :: (value ++ 10 :: t) := by
    simp [line]
  have htake := Scan.takeWhile_token (t := value ++ 10 :: t) (c := paramSeparatorSymbol) hclass
    (by decide)
  have hdrop := Scan.dropWhile_token (t := value ++ 10 :: t) (c := paramSeparatorSymbol) hclass
    (by decide)
  have hspaces : (paramSeparatorSymbol :: (value ++ 10 :: t)).dropWhile isSpace =
      paramSeparatorSymbol :: (value ++ 10 :: t) := List.dropWhile_cons_of_neg (by decide)
  unfold readKey
  rw [hline, hdrop]
  simp only [htake, hspaces, ne_eq, not_true_eq_false, and_false, if_false]
  exact readValue_line h

/-- The key is cut in front of its first 9. -/
theorem readKey_nine (h : Plain (key, value)) (h9 : 57 ∈ key) :
    readKey (line (key, value) ++ t) params = .done false params := by
  obtain ⟨front, back, hkey, hfront⟩ := List.eq_append_cons_of_mem h9
  have hclass : ∀ c ∈ front, isKey c = true := fun c hc =>
    (isKey_iff (h.symbols c (by rw [hkey]; exact List.mem_append_left _ hc))).mpr
      (fun heq => hfront (heq ▸ hc))
  have hline : line (key, value) ++ t =
      front ++ 57 :: (back ++ paramSeparatorSymbol :: (value ++ 10 :: t)) := by
    simp [line, hkey]
  have hdrop := Scan.dropWhile_token (t := back ++ paramSeparatorSymbol :: (value ++ 10 :: t))
    (c := 57) hclass (by decide)
  unfold readKey
  rw [hline, hdrop]
  exact if_pos (by decide)

/-- One round reads one line, behind the line break of the one in front of it. -/
theorem round_line {gap : Bytes} (hgap : ∀ c ∈ gap, (isSpace c || isBreak c) = true)
    (h : Plain (key, value)) :
    round (gap ++ (line (key, value) ++ t)) params =
      if 57 ∈ key then .done false params else .next (10 :: t) (params.assign key value) := by
  obtain ⟨c, rest, hkey⟩ := List.exists_cons_of_ne_nil h.key
  have hsymbol : KeySymbol c := h.symbols c (by rw [hkey]; exact List.mem_cons_self)
  obtain ⟨hstart, hcomment, _⟩ := keySymbol_starts hsymbol
  have hline : line (key, value) ++ t =
      c :: (rest ++ paramSeparatorSymbol :: (value ++ 10 :: t)) := by
    have hkey' : key = c :: rest := hkey
    simp [line, hkey']
  have hdrop := Scan.dropWhile_token (t := rest ++ paramSeparatorSymbol :: (value ++ 10 :: t))
    hgap hstart
  have hreadKey : (if isKey c = true then readKey (line (key, value) ++ t) params
      else .done false params) =
      if 57 ∈ key then .done false params else .next (10 :: t) (params.assign key value) := by
    by_cases h9 : 57 ∈ key
    · rw [if_pos h9, readKey_nine h h9, ite_self]
    · have hc : isKey c = true := (isKey_iff hsymbol).mpr (fun heq => h9 (by
        rw [← heq, show key = c :: rest from hkey]
        exact List.mem_cons_self))
      rw [if_pos hc, if_neg h9, readKey_line h h9]
  unfold round
  rw [hline, hdrop]
  simp only [if_neg hcomment]
  rw [← hline]
  exact hreadKey

end

theorem sorted_front {l : List (Bytes × Bytes)} {p : Bytes × Bytes} {params : ConfigMap}
    (h : (params.entries ++ p :: l).Pairwise (fun p q => p.1 < q.1)) :
    (params.assign p.1 p.2).entries = params.entries ++ [p] := by
  have hlast : ∀ q ∈ params.entries, q.1 < p.1 := fun q hq =>
    (List.pairwise_append.mp h).2.2 q hq p List.mem_cons_self
  exact ConfigMap.insert_last hlast

/-- The lines are read one after the other up to the first key with a 9. -/
theorem readRounds_lines {l : List (Bytes × Bytes)} {fuel : Nat} {gap : Bytes} {params : ConfigMap}
    (hfuel : l.length < fuel) (hgap : ∀ c ∈ gap, (isSpace c || isBreak c) = true)
    (hplain : ∀ p ∈ l, Plain p)
    (hsorted : (params.entries ++ l).Pairwise (fun p q => p.1 < q.1)) :
    if ∃ p ∈ l, 57 ∈ p.1 then ∃ m, readRounds fuel (gap ++ l.flatMap line) params = some (false, m)
    else readRounds fuel (gap ++ l.flatMap line) params =
      some (true, { entries := params.entries ++ l, sorted := hsorted }) := by
  induction l generalizing fuel gap params with
  | nil =>
    obtain ⟨fuel, rfl⟩ := Nat.exists_eq_succ_of_ne_zero (Nat.ne_of_gt hfuel)
    have hdrop : gap.dropWhile (fun c => isSpace c || isBreak c) = [] :=
      Scan.dropWhile_nil_iff.mpr hgap
    have hround : round (gap ++ [].flatMap line) params = .done true params := by
      unfold round
      rw [List.flatMap_nil, List.append_nil, hdrop]
    rw [if_neg (by simp)]
    unfold readRounds
    rw [hround]
    simp
  | cons p l ih =>
    obtain ⟨fuel, rfl⟩ := Nat.exists_eq_succ_of_ne_zero (Nat.ne_of_gt (Nat.zero_lt_of_lt hfuel))
    have hround : round (gap ++ (line p ++ l.flatMap line)) params =
        if 57 ∈ p.1 then .done false params
        else .next (10 :: l.flatMap line) (params.assign p.1 p.2) :=
      round_line hgap (hplain p List.mem_cons_self)
    by_cases h9 : 57 ∈ p.1
    · rw [if_pos ⟨p, List.mem_cons_self, h9⟩]
      refine ⟨params, ?_⟩
      unfold readRounds
      rw [List.flatMap_cons, hround, if_pos h9]
    · have hfirst := sorted_front hsorted
      have hrest : ((params.assign p.1 p.2).entries ++ l).Pairwise (fun p q => p.1 < q.1) := by
        rw [hfirst, List.append_assoc]
        exact hsorted
      have hiff : (∃ q ∈ p :: l, 57 ∈ q.1) ↔ ∃ q ∈ l, 57 ∈ q.1 := by
        simp [h9]
      have hfuel' : l.length < fuel := by
        rw [List.length_cons] at hfuel
        omega
      have hbreak : ∀ c ∈ ([10] : Bytes), (isSpace c || isBreak c) = true := by
        decide +kernel
      have hnext := ih hfuel' hbreak (fun q hq => hplain q (List.mem_cons_of_mem _ hq)) hrest
      have hstep : readRounds (fuel + 1) (gap ++ (p :: l).flatMap line) params =
          readRounds fuel ([10] ++ l.flatMap line) (params.assign p.1 p.2) := by
        conv_lhs => unfold readRounds
        rw [List.flatMap_cons, hround, if_neg h9]
        rfl
      by_cases hex : ∃ q ∈ l, 57 ∈ q.1
      · rw [if_pos hex] at hnext
        rw [if_pos (hiff.mpr hex), hstep]
        exact hnext
      · rw [if_neg hex] at hnext
        rw [if_neg (fun h => hex (hiff.mp h)), hstep, hnext]
        simp only [hfirst, List.append_assoc, List.singleton_append]

/-- The text of plain entries has no NUL. -/
theorem line_noNul {p : Bytes × Bytes} (h : Plain p) : ∀ c ∈ line p, c ≠ 0 := by
  intro c hc
  rcases List.mem_append.mp hc with hkey | hrest
  · have hnat := keySymbol_toNat (h.symbols c hkey)
    intro heq
    rw [heq] at hnat
    exact absurd hnat (by decide)
  · rcases List.mem_cons.mp hrest with rfl | hvalue
    · decide
    · rcases List.mem_append.mp hvalue with hvalue | hend
      · exact (h.noBreak c hvalue).2.2
      · rw [List.mem_singleton.mp hend]
        decide

theorem configToString_noNul {m : ConfigMap} (h : ∀ p ∈ m.entries, Plain p) :
    ∀ c ∈ configToString m, c ≠ 0 := by
  intro c hc
  obtain ⟨p, hp, hline⟩ := List.mem_flatMap.mp hc
  exact line_noNul (h p hp) c hline

theorem length_le_configToString (l : List (Bytes × Bytes)) :
    l.length ≤ (l.flatMap line).length := by
  induction l with
  | nil => exact Nat.le_refl 0
  | cons p l ih =>
    rw [List.flatMap_cons, List.length_append, List.length_cons]
    have hpos : 0 < (line p).length := by
      unfold line
      rw [List.length_append, List.length_cons]
      omega
    omega

theorem configReadString_text {m : ConfigMap} (h : ∀ p ∈ m.entries, Plain p) :
    configReadString (configToString m ++ [0]) ConfigMap.empty =
      readRounds ((configToString m).length + 1) (configToString m) ConfigMap.empty := by
  have hno : 0 ∉ configToString m := fun hmem => configToString_noNul h 0 hmem rfl
  have hstring : cString (configToString m ++ [0]) = configToString m := by
    rw [CString.cString_terminated, CString.cString_of_no_nul hno]
  unfold configReadString
  rw [hstring]

/-- A written configuration is read back as it was exactly when no key has a 9. -/
theorem configReadString_configToString (m : ConfigMap) (h : ∀ p ∈ m.entries, Plain p) :
    configReadString (configToString m ++ [0]) ConfigMap.empty = some (true, m) ↔
      ∀ p ∈ m.entries, 57 ∉ p.1 := by
  have hsorted : (ConfigMap.empty.entries ++ m.entries).Pairwise (fun p q => p.1 < q.1) := m.sorted
  have hrun := readRounds_lines (Nat.lt_succ_of_le (length_le_configToString m.entries))
    (fun c hc => absurd hc List.not_mem_nil) h hsorted
  rw [configReadString_text h]
  split at hrun
  · rename_i hex
    obtain ⟨p, hp, h9⟩ := hex
    obtain ⟨m', hm'⟩ := hrun
    have hfail : readRounds ((configToString m).length + 1) (configToString m) ConfigMap.empty =
        some (false, m') := hm'
    rw [hfail]
    exact ⟨fun heq => absurd heq (by simp), fun hall => absurd h9 (hall p hp)⟩
  · rename_i hnone
    have hread : readRounds ((configToString m).length + 1) (configToString m) ConfigMap.empty =
        some (true, m) := hrun
    exact ⟨fun _ p hp h9 => hnone ⟨p, hp, h9⟩, fun _ => hread⟩

/-- `port.8=a =#b` and `x=1` -/
def twoLines : ConfigMap :=
  (ConfigMap.single [112, 111, 114, 116, 46, 56] [97, 32, 61, 35, 98]).assign [120] [49]

theorem configReadString_twoLines :
    configReadString (configToString twoLines ++ [0]) ConfigMap.empty = some (true, twoLines) := by
  have hentries : twoLines.entries =
      [([112, 111, 114, 116, 46, 56], [97, 32, 61, 35, 98]), ([120], [49])] := by decide +kernel
  refine (configReadString_configToString twoLines (fun p hp => ?_)).mpr (fun p hp => ?_)
  · rw [hentries] at hp
    rcases List.mem_pair.mp hp with rfl | rfl
    · exact ⟨by decide, by unfold KeySymbol; decide +kernel, by decide, by decide +kernel,
        by decide +kernel, by decide +kernel⟩
    · exact ⟨by decide, by unfold KeySymbol; decide +kernel, by decide, by decide +kernel,
        by decide +kernel, by decide +kernel⟩
  · rw [hentries] at hp
    rcases List.mem_pair.mp hp with rfl | rfl
    · decide
    · decide

/-- `port9=1` -/
theorem configReadString_nine :
    (∀ p ∈ (ConfigMap.single [112, 111, 114, 116, 57] [49]).entries, Plain p) ∧
      configReadString (configToString (ConfigMap.single [112, 111, 114, 116, 57] [49]) ++ [0])
          ConfigMap.empty ≠
        some (true, ConfigMap.single [112, 111, 114, 116, 57] [49]) := by
  refine ⟨fun p hp => ?_, fun heq => ?_⟩
  · rw [List.mem_singleton.mp hp]
    exact ⟨by decide, by unfold KeySymbol; decide +kernel, by decide, by decide +kernel,
      by decide +kernel, by decide +kernel⟩
  · have hresult : (configReadString
        (configToString (ConfigMap.single [112, 111, 114, 116, 57] [49]) ++ [0])
        ConfigMap.empty).map (·.1) = some false := by decide +kernel
    rw [heq] at hresult
    exact absurd hresult (by decide)

end ConfigReader
end EpollHttp
