import EpollHttp.ConfigReader

/-
Layouts of a configuration.

A document holds entries with white space around them, blank lines and comments, under any style
of line break.  Everything of it is skipped but the white space behind a value: the loop that
should remove it looks at the symbol behind the value first, which is a line break or the
terminator, and stops there.
-/

namespace EpollHttp
namespace ConfigReader

open CString (cString)

/-! ## Documents -/

inductive LineBreak
  | lf
  | cr
  | crlf

def LineBreak.bytes : LineBreak → Bytes
  | .lf => [10]
  | .cr => [13]
  | .crlf => [13, 10]

/-- A key and its value, with the white space around them. -/
structure Entry where
  key : Bytes
  value : Bytes
  before : Bytes := []
  preSeparator : Bytes := []
  postSeparator : Bytes := []
  behind : Bytes := []
  symbols : ∀ c ∈ key, isKey c = true
  value_ne : value ≠ []
  noBreak : ∀ c ∈ value, c ≠ 13 ∧ c ≠ 10 ∧ c ≠ 0
  front : ∀ c ∈ value.head?, isSpace c = false
  back : ∀ c ∈ value.getLast?, isSpace c = false
  blanks : ∀ c ∈ before ++ preSeparator ++ postSeparator ++ behind, isSpace c = true

/-- What a line holds in front of its break. -/
inductive Item
  | blank (spaces : Bytes) (h : ∀ c ∈ spaces, isSpace c = true)
  | comment (spaces text : Bytes) (h : ∀ c ∈ spaces, isSpace c = true)
      (htext : ∀ c ∈ text, c ≠ 13 ∧ c ≠ 10 ∧ c ≠ 0)
  | entry (e : Entry)

/-- From the separator on. -/
def Entry.tail (e : Entry) : Bytes :=
  paramSeparatorSymbol :: (e.postSeparator ++ (e.value ++ e.behind))

def Entry.bytes (e : Entry) : Bytes := e.before ++ (e.key ++ (e.preSeparator ++ e.tail))

def Item.bytes : Item → Bytes
  | .blank spaces _ => spaces
  | .comment spaces text _ _ => spaces ++ commentSymbol :: text
  | .entry e => e.bytes

def Item.entries : Item → List Entry
  | .entry e => [e]
  | _ => []

/-- The last line may end without a break; it may also be empty. -/
structure Document where
  lines : List (Item × LineBreak)
  last : Item

def Document.bytes (d : Document) : Bytes :=
  d.lines.flatMap (fun x => x.1.bytes ++ x.2.bytes) ++ d.last.bytes

def Document.entries (d : Document) : List Entry :=
  d.lines.flatMap (fun x => x.1.entries) ++ d.last.entries

/-- The entries without white space, comments and blank lines. -/
def Document.bare (d : Document) : Bytes := d.entries.flatMap (fun e => line (e.key, e.value))

/-- `params[key] = value` for the entries in turn. -/
def assignAll (value : Entry → Bytes) (params : ConfigMap) (entries : List Entry) : ConfigMap :=
  entries.foldl (fun m e => m.assign e.key (value e)) params

/-- What is stored for an entry. -/
def Entry.stored (e : Entry) : Bytes := e.value ++ e.behind

/-- The last entry of every key has no white space behind its value. -/
def EndsBare (entries : List Entry) : Prop :=
  ∀ front e back, entries = front ++ e :: back → (∀ e' ∈ back, e'.key ≠ e.key) → e.behind = []

/-! ## Reading to the end -/

theorem readRounds_mono {fuel fuel' : Nat} {rest : Bytes} {params : ConfigMap}
    {x : Bool × ConfigMap} (h : readRounds fuel rest params = some x) (hle : fuel ≤ fuel') :
    readRounds fuel' rest params = some x := by
  induction fuel generalizing rest params fuel' with
  | zero => simp [readRounds] at h
  | succ fuel ih =>
    obtain ⟨k, rfl⟩ : ∃ k, fuel' = k + 1 := ⟨fuel' - 1, by omega⟩
    unfold readRounds at h ⊢
    split at h
    · exact h
    · exact ih h (by omega)

/-- The loop with as many rounds as it needs. -/
def readAll (rest : Bytes) (params : ConfigMap) : Option (Bool × ConfigMap) :=
  readRounds (rest.length + 1) rest params

theorem readRounds_enough {fuel : Nat} {rest : Bytes} {params : ConfigMap}
    (h : rest.length < fuel) : readRounds fuel rest params = readAll rest params := by
  obtain ⟨x, hx⟩ := Option.isSome_iff_exists.mp
    (readRounds_isSome params (Nat.lt_succ_self rest.length))
  unfold readAll
  rw [hx, readRounds_mono hx h]

/-- A string without NUL is read to its end. -/
theorem configReadString_readAll {s : Bytes} (h : 0 ∉ s) (params : ConfigMap) :
    configReadString (s ++ [0]) params = readAll s params := by
  unfold configReadString
  rw [CString.cString_terminated, CString.cString_of_no_nul h]
  rfl

section
variable {rest rest' : Bytes} {params params' : ConfigMap}

theorem readAll_next (h : round rest params = .next rest' params') :
    readAll rest params = readAll rest' params' := by
  have hlt := round_shrinks h
  rw [← readRounds_enough hlt]
  unfold readAll
  conv_lhs => unfold readRounds
  rw [h]

theorem readAll_done {result : Bool} (h : round rest params = .done result params') :
    readAll rest params = some (result, params') := by
  unfold readAll readRounds
  rw [h]

/-- White space and line breaks in front of a line. -/
theorem readAll_gap {gap : Bytes} (h : ∀ c ∈ gap, (isSpace c || isBreak c) = true) (t : Bytes)
    (params : ConfigMap) : readAll (gap ++ t) params = readAll t params := by
  have hround : round (gap ++ t) params = round t params := by
    unfold round
    rw [List.dropWhile_append_of_pos h]
  cases hnext : round t params with
  | done result params' => rw [readAll_done hnext, readAll_done (hround.trans hnext)]
  | next rest' params' => rw [readAll_next hnext, readAll_next (hround.trans hnext)]

end

theorem gap_of_spaces {spaces : Bytes} (h : ∀ c ∈ spaces, isSpace c = true) :
    ∀ c ∈ spaces, (isSpace c || isBreak c) = true := by
  intro c hc
  rw [h c hc]
  rfl

theorem LineBreak.gap (b : LineBreak) : ∀ c ∈ b.bytes, (isSpace c || isBreak c) = true := by
  cases b <;> decide +kernel

/-! ## One line -/

/-- Nothing, or a line break. -/
def Ends (t : Bytes) : Prop := ∀ c ∈ t.head?, isBreak c = true

theorem LineBreak.ends (b : LineBreak) (t : Bytes) : Ends (b.bytes ++ t) := by
  intro c hc
  cases b
  all_goals
    obtain rfl : _ = c := Option.some.inj hc
    decide

theorem text_class {text : Bytes} (h : ∀ c ∈ text, c ≠ 13 ∧ c ≠ 10 ∧ c ≠ 0) :
    ∀ c ∈ text, (!isBreak c) = true := isBreak_of_plain h

theorem ends_stop {t : Bytes} (h : Ends t) : ∀ c ∈ t.head?, (!isBreak c) = false := by
  intro c hc
  rw [h c hc]
  rfl

theorem readAll_comment {text t : Bytes} {params : ConfigMap}
    (htext : ∀ c ∈ text, c ≠ 13 ∧ c ≠ 10 ∧ c ≠ 0) (ht : Ends t) :
    readAll (commentSymbol :: text ++ t) params = readAll t params := by
  have hclass : ∀ c ∈ commentSymbol :: text, (!isBreak c) = true := by
    intro c hc
    rcases List.mem_cons.mp hc with rfl | hc
    · decide
    · exact text_class htext c hc
  have hdrop : (commentSymbol :: text ++ t).dropWhile (!isBreak ·) = t :=
    Scan.dropWhile_ends hclass (ends_stop ht)
  refine readAll_next ?_
  unfold round
  rw [List.cons_append, List.dropWhile_cons_of_neg (by decide)]
  dsimp only
  rw [if_pos rfl, ← List.cons_append, hdrop]

theorem keySymbol_of_isKey {c : UInt8} (h : isKey c = true) : KeySymbol c := by
  unfold isKey at h
  simp only [Bool.or_eq_true, Bool.and_eq_true, decide_eq_true_eq, beq_iff_eq] at h
  unfold KeySymbol CString.isLower CString.isUpper CString.isDigit
  simp only [Bool.and_eq_true, decide_eq_true_eq]
  rcases h with ((h | h) | h) | h
  · exact Or.inl h
  · exact Or.inr (Or.inl h)
  · exact Or.inr (Or.inr (Or.inl ⟨h.1, UInt8.le_of_lt (UInt8.lt_of_lt_of_le h.2 (by decide))⟩))
  · exact Or.inr (Or.inr (Or.inr h))

/-- The symbol behind the value is a line break or the terminator, so nothing is removed. -/
theorem removeTrailingSpaces_ends {text t : Bytes} (ht : Ends t) :
    removeTrailingSpaces (text ++ t) text.length = text.length := by
  cases hlen : text.length with
  | zero => rfl
  | succ n =>
    have hbehind : isSpace ((text ++ t).getD (n + 1) 0) = false := by
      rw [← hlen, List.getD_eq_getElem?_getD, List.getElem?_append_right (Nat.le_refl _),
        Nat.sub_self]
      cases t with
      | nil => rfl
      | cons c t =>
        have hc : isBreak c = true := ht c rfl
        have hc' : c = 13 ∨ c = 10 := by simpa [isBreak] using hc
        rcases hc' with rfl | rfl <;> rfl
    unfold removeTrailingSpaces
    rw [if_neg (by rw [hbehind]; decide)]

section
variable {e : Entry} {t : Bytes} {params : ConfigMap}

theorem Entry.postSeparator_spaces (e : Entry) : ∀ c ∈ e.postSeparator, isSpace c = true :=
  fun c hc => e.blanks c (by simp [hc])

theorem Entry.preSeparator_spaces (e : Entry) : ∀ c ∈ e.preSeparator, isSpace c = true :=
  fun c hc => e.blanks c (by simp [hc])

theorem Entry.before_spaces (e : Entry) : ∀ c ∈ e.before, isSpace c = true :=
  fun c hc => e.blanks c (by simp [hc])

theorem Entry.behind_spaces (e : Entry) : ∀ c ∈ e.behind, isSpace c = true :=
  fun c hc => e.blanks c (by simp [hc])

theorem Entry.stored_class (e : Entry) : ∀ c ∈ e.stored, (!isBreak c) = true := by
  intro c hc
  rcases List.mem_append.mp hc with hc | hc
  · exact text_class e.noBreak c hc
  · have hspace : c = 32 ∨ c = 9 := by simpa [isSpace] using e.behind_spaces c hc
    rcases hspace with rfl | rfl <;> rfl

/-- The value begins behind the white space and goes up to the end of the line. -/
theorem readValue_entry (ht : Ends t) (key : Bytes) :
    readValue key (e.postSeparator ++ (e.stored ++ t)) params =
      .next t (params.assign key e.stored) := by
  obtain ⟨c, rest, hvalue⟩ := List.exists_cons_of_ne_nil e.value_ne
  have hc : isSpace c = false := e.front c (by rw [hvalue]; rfl)
  have hstored : e.stored = c :: (rest ++ e.behind) := by
    unfold Entry.stored
    rw [hvalue, List.cons_append]
  have htext : (e.postSeparator ++ (e.stored ++ t)).dropWhile isSpace = e.stored ++ t := by
    rw [List.dropWhile_append_of_pos e.postSeparator_spaces, hstored, List.cons_append,
      List.dropWhile_cons_of_neg (by rw [hc]; decide)]
  have htake : (e.stored ++ t).takeWhile (!isBreak ·) = e.stored :=
    Scan.takeWhile_ends e.stored_class (ends_stop ht)
  have hdrop : (e.stored ++ t).dropWhile (!isBreak ·) = t :=
    Scan.dropWhile_ends e.stored_class (ends_stop ht)
  unfold readValue
  simp only [htext, htake, hdrop, removeTrailingSpaces_ends ht]
  rw [if_neg (by simp [hstored]), if_neg (by simp [hstored]), List.take_left]

/-- The key is followed by white space or the separator. -/
theorem readKey_entry (ht : Ends t) :
    readKey (e.key ++ (e.preSeparator ++ (e.tail ++ t))) params =
      .next t (params.assign e.key e.stored) := by
  have htail : e.tail ++ t = paramSeparatorSymbol :: (e.postSeparator ++ (e.stored ++ t)) := by
    unfold Entry.tail Entry.stored
    simp
  have hnext : ∃ c rest, e.preSeparator ++ (e.tail ++ t) = c :: rest ∧
      (isSpace c = true ∨ c = paramSeparatorSymbol) := by
    cases hpre : e.preSeparator with
    | nil => exact ⟨_, _, htail, Or.inr rfl⟩
    | cons c rest =>
      exact ⟨c, _, rfl, Or.inl (e.preSeparator_spaces c (by rw [hpre]; exact List.mem_cons_self))⟩
  obtain ⟨c, rest, hcons, hc⟩ := hnext
  have hstop : isKey c = false := by
    rcases hc with hc | rfl
    · have hspace : c = 32 ∨ c = 9 := by simpa [isSpace] using hc
      rcases hspace with rfl | rfl <;> rfl
    · rfl
  have hspaces : (c :: rest).dropWhile isSpace =
      paramSeparatorSymbol :: (e.postSeparator ++ (e.stored ++ t)) := by
    rw [← hcons, List.dropWhile_append_of_pos e.preSeparator_spaces, htail]
    exact List.dropWhile_cons_of_neg (by decide)
  unfold readKey
  rw [hcons, Scan.dropWhile_token e.symbols hstop, Scan.takeWhile_token e.symbols hstop]
  dsimp only
  rw [hspaces, if_neg (by rintro ⟨h, h'⟩; rcases hc with hc | hc; exacts [h hc, h' hc])]
  dsimp only
  rw [if_neg (by simp), readValue_entry ht]

theorem readAll_entry (hkey : e.key ≠ []) (ht : Ends t) :
    readAll (e.bytes ++ t) params = readAll t (params.assign e.key e.stored) := by
  obtain ⟨c, rest, hcons⟩ := List.exists_cons_of_ne_nil hkey
  have hc : isKey c = true := e.symbols c (by rw [hcons]; exact List.mem_cons_self)
  obtain ⟨hstart, hcomment, _⟩ := keySymbol_starts (keySymbol_of_isKey hc)
  have hbytes : e.bytes ++ t = e.before ++ (e.key ++ (e.preSeparator ++ (e.tail ++ t))) := by
    unfold Entry.bytes
    simp
  rw [hbytes, readAll_gap (gap_of_spaces e.before_spaces)]
  refine readAll_next ?_
  have hread : readKey (e.key ++ (e.preSeparator ++ (e.tail ++ t))) params =
      .next t (params.assign e.key e.stored) := readKey_entry ht
  unfold round
  rw [hcons, List.cons_append] at hread ⊢
  rw [List.dropWhile_cons_of_neg (by rw [hstart]; decide)]
  dsimp only
  rw [if_neg hcomment, if_pos hc, hread, ← hcons]

/-- Without a key, the separator ends the reading. -/
theorem readAll_keyless (hkey : e.key = []) (t : Bytes) :
    readAll (e.bytes ++ t) params = some (false, params) := by
  have hbytes : e.bytes ++ t = (e.before ++ e.preSeparator) ++ (e.tail ++ t) := by
    unfold Entry.bytes
    simp [hkey]
  have hspaces : ∀ c ∈ e.before ++ e.preSeparator, isSpace c = true := by
    intro c hc
    rcases List.mem_append.mp hc with hc | hc
    · exact e.before_spaces c hc
    · exact e.preSeparator_spaces c hc
  rw [hbytes, readAll_gap (gap_of_spaces hspaces)]
  refine readAll_done ?_
  unfold round Entry.tail
  rw [List.cons_append, List.dropWhile_cons_of_neg (by decide)]
  dsimp only
  rw [if_neg (by decide), if_neg (by decide)]

end

theorem assignAll_append (value : Entry → Bytes) (params : ConfigMap) (l l' : List Entry) :
    assignAll value params (l ++ l') = assignAll value (assignAll value params l) l' :=
  List.foldl_append

theorem readAll_item {i : Item} {t : Bytes} {params : ConfigMap}
    (hkeys : ∀ e ∈ i.entries, e.key ≠ []) (ht : Ends t) :
    readAll (i.bytes ++ t) params = readAll t (assignAll Entry.stored params i.entries) := by
  cases i with
  | blank spaces h => exact readAll_gap (gap_of_spaces h) t params
  | comment spaces text h htext =>
    unfold Item.bytes
    rw [List.append_assoc, readAll_gap (gap_of_spaces h)]
    exact readAll_comment htext ht
  | entry e => exact readAll_entry (hkeys e List.mem_cons_self) ht

/-- An entry without a key among the entries of a line. -/
theorem readAll_item_keyless {i : Item} {params : ConfigMap} (h : ∃ e ∈ i.entries, e.key = [])
    (t : Bytes) : readAll (i.bytes ++ t) params = some (false, params) := by
  obtain ⟨e, he, hkey⟩ := h
  cases i with
  | blank spaces h => exact absurd he List.not_mem_nil
  | comment spaces text h htext => exact absurd he List.not_mem_nil
  | entry e' =>
    obtain rfl : e = e' := List.mem_singleton.mp he
    exact readAll_keyless hkey t

/-! ## Documents are read to their end -/

/-- The lines in turn, in front of what is left. -/
theorem readAll_lines {lines : List (Item × LineBreak)} {t : Bytes} {params : ConfigMap}
    (hkeys : ∀ e ∈ lines.flatMap (fun x => x.1.entries), e.key ≠ []) :
    readAll (lines.flatMap (fun x => x.1.bytes ++ x.2.bytes) ++ t) params =
      readAll t (assignAll Entry.stored params (lines.flatMap (fun x => x.1.entries))) := by
  induction lines generalizing params with
  | nil => rfl
  | cons x lines ih =>
    obtain ⟨i, b⟩ := x
    rw [List.flatMap_cons] at hkeys
    rw [List.flatMap_cons, List.flatMap_cons, assignAll_append, List.append_assoc,
      List.append_assoc, readAll_item (fun e he => hkeys e (List.mem_append_left _ he))
        (b.ends (lines.flatMap (fun x => x.1.bytes ++ x.2.bytes) ++ t)), readAll_gap b.gap]
    exact ih (fun e he => hkeys e (List.mem_append_right _ he))

theorem readAll_lines_keyless {lines : List (Item × LineBreak)} {t : Bytes} {params : ConfigMap}
    (h : ∃ e ∈ lines.flatMap (fun x => x.1.entries), e.key = []) :
    ∃ m, readAll (lines.flatMap (fun x => x.1.bytes ++ x.2.bytes) ++ t) params =
      some (false, m) := by
  induction lines generalizing params with
  | nil =>
    obtain ⟨e, he, _⟩ := h
    exact absurd he List.not_mem_nil
  | cons x lines ih =>
    obtain ⟨i, b⟩ := x
    rw [List.flatMap_cons, List.append_assoc, List.append_assoc]
    by_cases hi : ∃ e ∈ i.entries, e.key = []
    · exact ⟨params, readAll_item_keyless hi _⟩
    · have hkeys : ∀ e ∈ i.entries, e.key ≠ [] := fun e he hkey => hi ⟨e, he, hkey⟩
      have hrest : ∃ e ∈ lines.flatMap (fun x => x.1.entries), e.key = [] := by
        obtain ⟨e, he, hkey⟩ := h
        rw [List.flatMap_cons, List.mem_append] at he
        rcases he with he | he
        · exact absurd hkey (hkeys e he)
        · exact ⟨e, he, hkey⟩
      rw [readAll_item hkeys (b.ends _), readAll_gap b.gap]
      exact ih hrest

section
variable {d : Document} {params : ConfigMap}

/-- Every entry gets what stands between the separator's white space and the end of the line. -/
theorem readAll_document (hkeys : ∀ e ∈ d.entries, e.key ≠ []) :
    readAll d.bytes params = some (true, assignAll Entry.stored params d.entries) := by
  have hends : Ends [] := fun c hc => absurd hc (by simp)
  have hlast : ∀ params, readAll d.last.bytes params =
      some (true, assignAll Entry.stored params d.last.entries) := by
    intro params
    have hitem : readAll (d.last.bytes ++ []) params =
        readAll [] (assignAll Entry.stored params d.last.entries) :=
      readAll_item (fun e he => hkeys e (List.mem_append_right _ he)) hends
    rw [List.append_nil] at hitem
    rw [hitem]
    exact readAll_done rfl
  unfold Document.bytes Document.entries
  rw [readAll_lines (fun e he => hkeys e (List.mem_append_left _ he)), hlast, assignAll_append]

theorem readAll_document_keyless (h : ∃ e ∈ d.entries, e.key = []) :
    ∃ m, readAll d.bytes params = some (false, m) := by
  obtain ⟨e, he, hkey⟩ := h
  unfold Document.bytes
  by_cases hlines : ∃ e ∈ d.lines.flatMap (fun x => x.1.entries), e.key = []
  · exact readAll_lines_keyless hlines
  · have hlast : ∃ e ∈ d.last.entries, e.key = [] := by
      rcases List.mem_append.mp he with hmem | hmem
      · exact absurd ⟨e, hmem, hkey⟩ hlines
      · exact ⟨e, hmem, hkey⟩
    rw [readAll_lines (fun e he hkey => hlines ⟨e, he, hkey⟩), ← List.append_nil d.last.bytes]
    exact ⟨_, readAll_item_keyless hlast []⟩

end

/-! ## The text of a document -/

theorem nul_not_space {s : Bytes} (h : ∀ c ∈ s, isSpace c = true) : 0 ∉ s :=
  fun hmem => absurd (h 0 hmem) (by decide)

theorem Entry.noNul (e : Entry) : 0 ∉ e.bytes := by
  have hkey : 0 ∉ e.key := fun hmem => absurd (e.symbols 0 hmem) (by decide)
  have hvalue : 0 ∉ e.value := fun hmem => (e.noBreak 0 hmem).2.2 rfl
  unfold Entry.bytes Entry.tail
  simp only [List.mem_append, List.mem_cons, not_or]
  exact ⟨nul_not_space e.before_spaces, hkey, nul_not_space e.preSeparator_spaces, by decide,
    nul_not_space e.postSeparator_spaces, hvalue, nul_not_space e.behind_spaces⟩

theorem Item.noNul (i : Item) : 0 ∉ i.bytes := by
  cases i with
  | blank spaces h => exact nul_not_space h
  | comment spaces text h htext =>
    unfold Item.bytes
    simp only [List.mem_append, List.mem_cons, not_or]
    exact ⟨nul_not_space h, by decide, fun hmem => (htext 0 hmem).2.2 rfl⟩
  | entry e => exact e.noNul

theorem Document.noNul (d : Document) : 0 ∉ d.bytes := by
  unfold Document.bytes
  rw [List.mem_append, List.mem_flatMap]
  rintro (⟨x, _, hmem⟩ | hmem)
  · rcases List.mem_append.mp hmem with hmem | hmem
    · exact x.1.noNul hmem
    · exact absurd (x.2.gap 0 hmem) (by decide)
  · exact d.last.noNul hmem

theorem configReadString_document (d : Document) (params : ConfigMap) :
    configReadString (d.bytes ++ [0]) params = readAll d.bytes params :=
  configReadString_readAll d.noNul params

/-- The entry alone. -/
def Entry.strip (e : Entry) : Entry where
  key := e.key
  value := e.value
  symbols := e.symbols
  value_ne := e.value_ne
  noBreak := e.noBreak
  front := e.front
  back := e.back
  blanks := fun _ hc => absurd hc List.not_mem_nil

/-- Entries without white space, one line each. -/
def Document.strip (d : Document) : Document where
  lines := d.entries.map (fun e => (.entry e.strip, .lf))
  last := .blank [] (fun _ hc => absurd hc List.not_mem_nil)

theorem Document.strip_bytes (d : Document) : d.strip.bytes = d.bare := by
  unfold Document.bytes Document.strip Document.bare
  rw [List.flatMap_map]
  show _ ++ [] = _
  rw [List.append_nil]
  refine List.flatMap_congr (fun e _ => ?_)
  show ([] ++ (e.key ++ ([] ++ paramSeparatorSymbol :: ([] ++ (e.value ++ []))))) ++ [10] = _
  unfold line
  simp

theorem Document.strip_entries (d : Document) : d.strip.entries = d.entries.map Entry.strip := by
  show (d.entries.map (fun e => (Item.entry e.strip, LineBreak.lf))).flatMap
    (fun x => x.1.entries) ++ [] = _
  rw [List.append_nil, List.flatMap_map]
  show d.entries.flatMap (fun e => [e.strip]) = _
  exact List.map_eq_flatMap.symm

theorem assignAll_strip (params : ConfigMap) (entries : List Entry) :
    assignAll Entry.stored params (entries.map Entry.strip) =
      assignAll Entry.value params entries := by
  unfold assignAll
  rw [List.foldl_map]
  congr 1
  funext m e
  show m.assign e.key (e.value ++ []) = _
  rw [List.append_nil]

/-- The bare rendering gives every key its last value. -/
theorem configReadString_bare {d : Document} (hkeys : ∀ e ∈ d.entries, e.key ≠ [])
    (params : ConfigMap) : configReadString (d.bare ++ [0]) params =
      some (true, assignAll Entry.value params d.entries) := by
  have hstrip : ∀ e ∈ d.strip.entries, e.key ≠ [] := by
    rw [d.strip_entries]
    intro e he
    obtain ⟨e', he', rfl⟩ := List.mem_map.mp he
    exact hkeys e' he'
  rw [← d.strip_bytes, configReadString_document, readAll_document hstrip, d.strip_entries,
    assignAll_strip]

/-! ## The last entry of a key -/

/-- The value of a key is that of its last entry. -/
theorem find_assignAll (value : Entry → Bytes) (params : ConfigMap) (entries : List Entry)
    (key : Bytes) : (assignAll value params entries).find key =
      ((entries.reverse.find? (fun e => e.key == key)).map value).or (params.find key) := by
  induction entries generalizing params with
  | nil => rfl
  | cons e entries ih =>
    show (assignAll value (params.assign e.key (value e)) entries).find key = _
    rw [ih, List.reverse_cons, List.find?_append]
    cases entries.reverse.find? (fun e => e.key == key) with
    | some e' => rfl
    | none =>
      by_cases hkey : e.key = key
      · rw [List.find?_cons, beq_iff_eq.mpr hkey, ← hkey, ConfigMap.find_assign_self]
        rfl
      · rw [List.find?_cons, beq_eq_false_iff_ne.mpr hkey,
          ConfigMap.find_assign_other (Ne.symm hkey)]
        rfl

theorem find?_last {entries : List Entry} {e : Entry} :
    entries.reverse.find? (fun e' => e'.key == e.key) = some e ↔
      ∃ front back, entries = front ++ e :: back ∧ ∀ e' ∈ back, e'.key ≠ e.key := by
  rw [List.find?_eq_some_iff_append]
  constructor
  · rintro ⟨_, as, bs, hrev, has⟩
    refine ⟨bs.reverse, as.reverse, ?_, fun e' he' => ?_⟩
    · have heq := congrArg List.reverse hrev
      rw [List.reverse_reverse, List.reverse_append, List.reverse_cons, List.append_assoc] at heq
      exact heq
    · simpa using has e' (List.mem_reverse.mp he')
  · rintro ⟨front, back, rfl, hback⟩
    refine ⟨beq_self_eq_true _, back.reverse, front.reverse, ?_, fun e' he' => ?_⟩
    · simp
    · simpa using hback e' (List.mem_reverse.mp he')

/-- White space behind a value is stored with it, so it shows exactly in the last entries. -/
theorem assignAll_stored_iff (params : ConfigMap) (entries : List Entry) :
    assignAll Entry.stored params entries = assignAll Entry.value params entries ↔
      EndsBare entries := by
  constructor
  · intro h front e back heq hback
    have hlast := find?_last.mpr ⟨front, back, heq, hback⟩
    have hfind := congrArg (ConfigMap.find · e.key) h
    rw [find_assignAll, find_assignAll, hlast] at hfind
    have hvalue : e.value ++ e.behind = e.value := Option.some.inj hfind
    exact List.append_right_eq_self.mp hvalue
  · intro h
    refine ConfigMap.ext_find (fun key => ?_)
    rw [find_assignAll, find_assignAll]
    cases hlast : entries.reverse.find? (fun e => e.key == key) with
    | none => rfl
    | some e =>
      have hkey : e.key = key := by simpa using List.find?_some hlast
      rw [← hkey] at hlast
      obtain ⟨front, back, heq, hback⟩ := find?_last.mp hlast
      have hstored : e.stored = e.value := by
        unfold Entry.stored
        rw [h front e back heq hback, List.append_nil]
      rw [Option.map_some, Option.map_some, hstored]

/-- A layout is read, and read like the entries alone, exactly when every entry has a key and the
last entry of every key has no white space behind its value. -/
theorem layout_iff (d : Document) (params : ConfigMap) :
    (∃ m, configReadString (d.bytes ++ [0]) params = some (true, m) ∧
      configReadString (d.bare ++ [0]) params = some (true, m)) ↔
      (∀ e ∈ d.entries, e.key ≠ []) ∧ EndsBare d.entries := by
  rw [configReadString_document]
  by_cases hkeys : ∀ e ∈ d.entries, e.key ≠ []
  · rw [readAll_document hkeys, configReadString_bare hkeys, and_iff_right hkeys,
      ← assignAll_stored_iff params d.entries]
    constructor
    · rintro ⟨m, hm, hm'⟩
      rw [(Prod.mk.inj (Option.some.inj hm)).2, (Prod.mk.inj (Option.some.inj hm')).2]
    · intro heq
      exact ⟨_, rfl, by rw [heq]⟩
  · have hex : ∃ e ∈ d.entries, e.key = [] := by
      simpa using hkeys
    obtain ⟨m, hm⟩ : ∃ m, readAll d.bytes params = some (false, m) :=
      readAll_document_keyless hex
    constructor
    · rintro ⟨m', hm', _⟩
      rw [hm] at hm'
      simp at hm'
    · rintro ⟨h, _⟩
      exact absurd h hkeys

/-- `k=v` with a blank behind the value. -/
def blankBehind : Document where
  lines := [(.entry {
    key := [107]
    value := [118]
    behind := [32]
    symbols := by decide +kernel
    value_ne := by decide
    noBreak := by decide +kernel
    front := by decide +kernel
    back := by decide +kernel
    blanks := by decide +kernel }, .lf)]
  last := .blank [] (by decide +kernel)

theorem blankBehind_kept :
    ¬ ∃ m, configReadString (blankBehind.bytes ++ [0]) ConfigMap.empty = some (true, m) ∧
      configReadString (blankBehind.bare ++ [0]) ConfigMap.empty = some (true, m) := by
  rintro ⟨m, hm, hm'⟩
  have hvalues : ((configReadString (blankBehind.bytes ++ [0]) ConfigMap.empty).map
        (fun x => x.2.entries), (configReadString (blankBehind.bare ++ [0]) ConfigMap.empty).map
        (fun x => x.2.entries)) = (some [([107], [118, 32])], some [([107], [118])]) := by
    decide +kernel
  rw [hm, hm'] at hvalues
  obtain ⟨hkept, hbare⟩ := Prod.mk.inj hvalues
  rw [hkept] at hbare
  exact absurd hbare (by decide)

end ConfigReader
end EpollHttp
