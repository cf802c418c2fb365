import EpollHttp.ConfigLayout
import Mathlib.Data.List.GetD

/-
`configReadFile`: a file is read line by line, each line by a call of `configReadString` of its own.

No token and no error reaches over a line feed, because every inner loop of the reader stops there.
So one round on a text with more lines behind it is the round on the first line, with those lines
still to be read.
-/

namespace EpollHttp
namespace ConfigReader

open CString (cString)

/-! ## The file -/

def lineFeed : UInt8 := 10

/-- `std::getline`: the line and what is left of the file.  It fails when nothing is left. -/
def getline (text : Bytes) : Option (Bytes × Bytes) :=
  if text = [] then none
  else some (text.takeWhile (· != lineFeed), (text.dropWhile (· != lineFeed)).drop 1)

/-- The loop over the lines, for a number of lines. -/
def readLines : Nat → Bytes → ConfigMap → Option (Bool × ConfigMap)
  | 0, _, _ => none
  | fuel + 1, text, params =>
    match getline text with
    | none => some (true, params)
    | some (line, rest) =>
      match configReadString (line ++ [0]) params with
      | none => none
      | some (false, params) => some (false, params)
      | some (true, params) => readLines fuel rest params

/-- `file` is the text of the file, none when it cannot be opened. -/
def configReadFile (file : Option Bytes) (params : ConfigMap) : Option (Bool × ConfigMap) :=
  match file with
  | none => some (false, params)
  | some text => readLines (text.length + 1) text params

/-! ## The keys that are read -/

/-- Every key of the map is made of the symbols that the reader takes for those of a key. -/
def Keyed (m : ConfigMap) : Prop := ∀ key, m.find key ≠ none → ∀ c ∈ key, isKey c = true

/-- The map behind a round. -/
def Round.params : Round → ConfigMap
  | .done _ params => params
  | .next _ params => params

section
variable {params params' : ConfigMap} {key rest text : Bytes} {result : Bool}

theorem keyed_empty : Keyed ConfigMap.empty := fun _ hfind => absurd rfl hfind

theorem Keyed.assign (h : Keyed params) (hkey : ∀ c ∈ key, isKey c = true) (value : Bytes) :
    Keyed (params.assign key value) := by
  intro key' hfind
  by_cases heq : key' = key
  · rw [heq]
    exact hkey
  · rw [ConfigMap.find_assign_other heq] at hfind
    exact h key' hfind

theorem readValue_keyed (h : Keyed params) (hkey : ∀ c ∈ key, isKey c = true) :
    Keyed (readValue key rest params).params := by
  unfold readValue
  dsimp only
  split
  · exact h
  · split
    · exact h
    · exact h.assign hkey _

theorem readKey_keyed (h : Keyed params) : Keyed (readKey text params).params := by
  unfold readKey
  split
  · exact h
  · split
    · exact h
    · split
      · exact h
      · split
        · exact h
        · exact readValue_keyed h (fun c hc => Scan.token_class hc)

theorem round_keyed (h : Keyed params) : Keyed (round rest params).params := by
  unfold round
  split
  · exact h
  · split
    · exact h
    · split
      · exact readKey_keyed h
      · exact h

theorem readRounds_keyed {fuel : Nat} (h : Keyed params)
    (hread : readRounds fuel rest params = some (result, params')) : Keyed params' := by
  induction fuel generalizing rest params with
  | zero => cases hread
  | succ fuel ih =>
    have hround : Keyed (round rest params).params := round_keyed h
    unfold readRounds at hread
    split at hread
    · rename_i hdone
      rw [hdone] at hround
      rw [← (Prod.mk.inj (Option.some.inj hread)).2]
      exact hround
    · rename_i hnext
      rw [hnext] at hround
      exact ih hround hread

theorem readLines_keyed {fuel : Nat} (h : Keyed params)
    (hread : readLines fuel text params = some (result, params')) : Keyed params' := by
  induction fuel generalizing text params with
  | zero => cases hread
  | succ fuel ih =>
    unfold readLines at hread
    split at hread
    · rw [← (Prod.mk.inj (Option.some.inj hread)).2]
      exact h
    · split at hread
      · cases hread
      · rename_i hline
        rw [← (Prod.mk.inj (Option.some.inj hread)).2]
        exact readRounds_keyed h hline
      · rename_i hline
        exact ih (readRounds_keyed h hline) hread

theorem configReadFile_keyed {file : Option Bytes} (h : Keyed params)
    (hread : configReadFile file params = some (result, params')) : Keyed params' := by
  unfold configReadFile at hread
  split at hread
  · rw [← (Prod.mk.inj (Option.some.inj hread)).2]
    exact h
  · exact readLines_keyed h hread

end

/-! ## A round with more lines behind -/

/-- The round, with `t` behind what is left. -/
def Round.followedBy (t : Bytes) : Round → Round
  | .done result params => .done result params
  | .next rest params => .next (rest ++ t) params

section
variable {p : UInt8 → Bool} {t : Bytes}

theorem takeWhile_line (h : p lineFeed = false) (s : Bytes) :
    (s ++ lineFeed :: t).takeWhile p = s.takeWhile p := by
  cases hdrop : s.dropWhile p with
  | nil =>
    have hall := Scan.dropWhile_nil_iff.mp hdrop
    rw [Scan.takeWhile_token hall h, Scan.takeWhile_all hall]
  | cons c rest => exact Scan.takeWhile_extend hdrop

theorem dropWhile_line (h : p lineFeed = false) (s : Bytes) :
    (s ++ lineFeed :: t).dropWhile p = s.dropWhile p ++ lineFeed :: t := by
  cases hdrop : s.dropWhile p with
  | nil => exact Scan.dropWhile_token (Scan.dropWhile_nil_iff.mp hdrop) h
  | cons c rest => exact Scan.dropWhile_extend hdrop

/-- Behind the end of the text the loop saw the terminator, now it may see the line feed: neither
is a space. -/
theorem removeTrailingSpaces_line {text : Bytes} {n : Nat} (h : n ≤ text.length) :
    removeTrailingSpaces (text ++ lineFeed :: t) n = removeTrailingSpaces text n := by
  induction n with
  | zero => rfl
  | succ n ih =>
    have hspace : isSpace ((text ++ lineFeed :: t).getD (n + 1) 0) =
        isSpace (text.getD (n + 1) 0) := by
      rcases Nat.lt_or_eq_of_le h with hlt | heq
      · rw [List.getD_append _ _ _ _ hlt]
      · rw [List.getD_append_right _ _ _ _ (Nat.le_of_eq heq.symm), heq, Nat.sub_self,
          List.getD_eq_default _ _ (Nat.le_refl _)]
        rfl
    unfold removeTrailingSpaces
    rw [hspace, ih (by omega)]

theorem removeTrailingSpaces_le (text : Bytes) (n : Nat) : removeTrailingSpaces text n ≤ n := by
  induction n with
  | zero => exact Nat.le_refl 0
  | succ n ih =>
    unfold removeTrailingSpaces
    split
    · exact Nat.le_succ_of_le ih
    · exact Nat.le_refl _

theorem readValue_line_feed (key rest : Bytes) (params : ConfigMap) :
    readValue key (rest ++ lineFeed :: t) params =
      (readValue key rest params).followedBy (lineFeed :: t) := by
  have htext := dropWhile_line (p := isSpace) (t := t) (by decide) rest
  unfold readValue
  simp only [htext]
  generalize rest.dropWhile isSpace = text
  have htake := takeWhile_line (p := (!isBreak ·)) (t := t) (by decide) text
  have hdrop := dropWhile_line (p := (!isBreak ·)) (t := t) (by decide) text
  have hlen : (text.takeWhile (!isBreak ·)).length ≤ text.length :=
    (List.takeWhile_prefix _).length_le
  simp only [htake, hdrop, removeTrailingSpaces_line hlen]
  rw [if_neg (by simp)]
  by_cases hnil : text = []
  · -- Nothing in front of the line feed, which ends an empty value.
    rw [if_pos hnil, hnil]
    rfl
  · rw [if_neg hnil]
    by_cases hzero : removeTrailingSpaces text (text.takeWhile (!isBreak ·)).length = 0
    · rw [if_pos hzero, if_pos hzero]
      rfl
    · have hle : removeTrailingSpaces text (text.takeWhile (!isBreak ·)).length ≤ text.length :=
        Nat.le_trans (removeTrailingSpaces_le _ _) hlen
      rw [if_neg hzero, if_neg hzero, List.take_append_of_le_length hle]
      rfl

theorem readKey_line_feed (text : Bytes) (params : ConfigMap) :
    readKey (text ++ lineFeed :: t) params =
      (readKey text params).followedBy (lineFeed :: t) := by
  have hkey := takeWhile_line (p := isKey) (t := t) (by decide) text
  have hbehind := dropWhile_line (p := isKey) (t := t) (by decide) text
  unfold readKey
  rw [hkey, hbehind]
  cases text.dropWhile isKey with
  | nil => rfl
  | cons c rest =>
    have hspaces := dropWhile_line (p := isSpace) (t := t) (by decide) (c :: rest)
    rw [List.cons_append] at hspaces ⊢
    dsimp only
    rw [hspaces]
    by_cases hend : ¬ isSpace c ∧ c ≠ paramSeparatorSymbol
    · rw [if_pos hend, if_pos hend]
      rfl
    · rw [if_neg hend, if_neg hend]
      cases (c :: rest).dropWhile isSpace with
      | nil => rfl
      | cons c' rest' =>
        rw [List.cons_append]
        dsimp only
        by_cases hseparator : c' ≠ paramSeparatorSymbol
        · rw [if_pos hseparator, if_pos hseparator]
          rfl
        · rw [if_neg hseparator, if_neg hseparator]
          exact readValue_line_feed _ rest' params

/-- A round that finds a symbol on the first line does not look behind the line feed. -/
theorem round_line_feed {s : Bytes} (hs : s.dropWhile (fun c => isSpace c || isBreak c) ≠ [])
    (params : ConfigMap) :
    round (s ++ lineFeed :: t) params = (round s params).followedBy (lineFeed :: t) := by
  obtain ⟨c, rest, hdrop⟩ := List.exists_cons_of_ne_nil hs
  have hcomment := dropWhile_line (p := (!isBreak ·)) (t := t) (by decide) (c :: rest)
  unfold round
  rw [Scan.dropWhile_extend hdrop, hdrop]
  rw [List.cons_append] at hcomment
  dsimp only
  rw [hcomment]
  by_cases hc : c = commentSymbol
  · rw [if_pos hc, if_pos hc]
    rfl
  · rw [if_neg hc, if_neg hc]
    by_cases hkey : isKey c = true
    · rw [if_pos hkey, if_pos hkey]
      exact readKey_line_feed (c :: rest) params
    · rw [if_neg hkey, if_neg hkey]
      rfl

theorem readValue_fails {key rest : Bytes} {params params' : ConfigMap} {result : Bool}
    (h : readValue key rest params = .done result params') : result = false := by
  unfold readValue at h
  dsimp only at h
  split at h
  · cases h
    rfl
  · split at h
    · cases h
      rfl
    · cases h

theorem readKey_fails {text : Bytes} {params params' : ConfigMap} {result : Bool}
    (h : readKey text params = .done result params') : result = false := by
  unfold readKey at h
  split at h
  · cases h
    rfl
  · split at h
    · cases h
      rfl
    · split at h
      · cases h
        rfl
      · split at h
        · cases h
          rfl
        · exact readValue_fails h

/-- Only the end of the text ends the reading with success. -/
theorem round_fails {s : Bytes} {params params' : ConfigMap} {result : Bool}
    (hs : s.dropWhile (fun c => isSpace c || isBreak c) ≠ [])
    (h : round s params = .done result params') : result = false := by
  obtain ⟨c, rest, hdrop⟩ := List.exists_cons_of_ne_nil hs
  unfold round at h
  rw [hdrop] at h
  dsimp only at h
  split at h
  · cases h
  · split at h
    · exact readKey_fails h
    · cases h
      rfl

end

/-! ## Reading on behind a line feed -/

/-- What the reader does with the second text depends on the first one only through its result. -/
def thenRead (t : Bytes) (r : Bool × ConfigMap) : Option (Bool × ConfigMap) :=
  if r.1 = true then readAll t r.2 else some r

/-- The induction is on the length of what is left in front of the line feed: every round that
does not end the reading takes something from it. -/
theorem readAll_line_feed (s t : Bytes) (params : ConfigMap) :
    readAll (s ++ lineFeed :: t) params = (readAll s params).bind (thenRead t) := by
  induction hn : s.length using Nat.strong_induction_on generalizing s params with
  | _ n ih =>
    by_cases hgap : s.dropWhile (fun c => isSpace c || isBreak c) = []
    · -- The line feed is one more symbol of the gap.
      have hall : ∀ c ∈ s ++ [lineFeed], (isSpace c || isBreak c) = true := by
        intro c hc
        rcases List.mem_append.mp hc with hc | hc
        · exact Scan.dropWhile_nil_iff.mp hgap c hc
        · rw [List.mem_singleton.mp hc]
          decide
      have hround : round s params = .done true params := by
        unfold round
        rw [hgap]
      have hjoin : s ++ lineFeed :: t = (s ++ [lineFeed]) ++ t := by simp
      rw [hjoin, readAll_gap hall, readAll_done hround]
      rfl
    · have hround : round (s ++ lineFeed :: t) params =
          (round s params).followedBy (lineFeed :: t) := round_line_feed hgap params
      cases hfirst : round s params with
      | next rest params' =>
        rw [hfirst] at hround
        have hlt : rest.length < n := hn ▸ round_shrinks hfirst
        rw [readAll_next hround, readAll_next hfirst]
        exact ih rest.length hlt rest params' rfl
      | done result params' =>
        rw [hfirst] at hround
        have hfailed : result = false := round_fails hgap hfirst
        rw [readAll_done hround, readAll_done hfirst, hfailed]
        rfl

/-! ## A file is read like its text -/

theorem readAll_isSome (s : Bytes) (params : ConfigMap) :
    ∃ r, readAll s params = some r :=
  Option.isSome_iff_exists.mp (readRounds_isSome params (Nat.lt_succ_self _))

/-- The line that `getline` takes, and the text it is taken from. -/
theorem getline_spec {text line rest : Bytes} (h : getline text = some (line, rest)) :
    (text = line ∧ rest = []) ∨ text = line ++ lineFeed :: rest := by
  unfold getline at h
  split at h
  · cases h
  · obtain ⟨hline, hrest⟩ := Prod.mk.inj (Option.some.inj h)
    have hsplit : text.takeWhile (· != lineFeed) ++ text.dropWhile (· != lineFeed) = text :=
      List.takeWhile_append_dropWhile
    cases hdrop : text.dropWhile (· != lineFeed) with
    | nil =>
      rw [hdrop, List.append_nil, hline] at hsplit
      rw [hdrop] at hrest
      exact Or.inl ⟨hsplit.symm, hrest.symm⟩
    | cons c tail =>
      have hc : c = lineFeed := by simpa using Scan.stop_not hdrop
      rw [hdrop, hline, hc] at hsplit
      rw [hdrop] at hrest
      have htail : tail = rest := hrest
      exact Or.inr (htail ▸ hsplit.symm)

/-- Each line costs at least one symbol, so as many calls as the text has symbols are enough. -/
theorem readLines_text {fuel : Nat} {text : Bytes} (hfuel : text.length < fuel) (h : 0 ∉ text)
    (params : ConfigMap) : readLines fuel text params = readAll text params := by
  induction fuel generalizing text params with
  | zero => omega
  | succ fuel ih =>
    unfold readLines
    cases hget : getline text with
    | none =>
      have hnil : text = [] := by
        by_contra hne
        unfold getline at hget
        rw [if_neg hne] at hget
        exact Option.some_ne_none _ hget
      rw [hnil]
      exact (readAll_done rfl).symm
    | some taken =>
      obtain ⟨line, rest⟩ := taken
      dsimp only
      rcases getline_spec hget with ⟨hlast, hrest⟩ | hmore
      · -- The last line has no line feed.
        have hne : text ≠ [] := by
          intro hnil
          rw [hnil] at hget
          exact Option.some_ne_none _ hget.symm
        have hpos := List.length_pos_iff.mpr hne
        rw [← hlast, configReadString_readAll h, hrest]
        obtain ⟨⟨ok, params'⟩, hread⟩ := readAll_isSome text params
        rw [hread]
        cases ok with
        | false => rfl
        | true =>
          dsimp only
          rw [ih (by show 0 < fuel; omega) List.not_mem_nil]
          exact readAll_done rfl
      · have hlen := congrArg List.length hmore
        rw [List.length_append, List.length_cons] at hlen
        have hline : 0 ∉ line := fun hmem => h (hmore ▸ List.mem_append_left _ hmem)
        have hrest : 0 ∉ rest := fun hmem =>
          h (hmore ▸ List.mem_append_right _ (List.mem_cons_of_mem _ hmem))
        rw [hmore, readAll_line_feed, configReadString_readAll hline]
        obtain ⟨⟨ok, params'⟩, hread⟩ := readAll_isSome line params
        rw [hread]
        cases ok with
        | false => rfl
        | true => exact ih (by omega) hrest params'

/-- Reading on from the result of the first part is reading the whole, and so a file is read
like its text. -/
theorem configReadFile_whole :
    (∀ a b : Bytes, ∀ m : ConfigMap, 0 ∉ a → 0 ∉ b →
      ∃ ok m', configReadString (a ++ [0]) m = some (ok, m') ∧
        (ok = false → configReadString (a ++ lineFeed :: b ++ [0]) m = some (false, m')) ∧
        (ok = true → ∃ r, configReadString (b ++ [0]) m' = some r ∧
          configReadString (a ++ lineFeed :: b ++ [0]) m = some r)) ∧
      ∀ s : Bytes, ∀ m : ConfigMap, 0 ∉ s →
        ∃ r, configReadString (s ++ [0]) m = some r ∧ configReadFile (some s) m = some r := by
  constructor
  · intro a b m ha hb
    have hwhole : 0 ∉ a ++ lineFeed :: b := by
      rw [List.mem_append, List.mem_cons]
      rintro (hmem | heq | hmem)
      · exact ha hmem
      · exact absurd heq (by decide)
      · exact hb hmem
    obtain ⟨⟨ok, m'⟩, hread⟩ := readAll_isSome a m
    refine ⟨ok, m', by rw [configReadString_readAll ha, hread], ?_, ?_⟩
    · intro hok
      rw [configReadString_readAll hwhole, readAll_line_feed, hread, hok]
      rfl
    · intro hok
      obtain ⟨r, hr⟩ := readAll_isSome b m'
      refine ⟨r, by rw [configReadString_readAll hb, hr], ?_⟩
      rw [configReadString_readAll hwhole, readAll_line_feed, hread, hok]
      exact hr
  · intro s m hs
    obtain ⟨r, hr⟩ := readAll_isSome s m
    refine ⟨r, by rw [configReadString_readAll hs, hr], ?_⟩
    show readLines (s.length + 1) s m = some r
    rw [readLines_text (Nat.lt_succ_self _) hs, hr]

/-- A file that fails in its second line keeps the entry of the first. -/
theorem configReadFile_whole_failing :
    ∃ r, configReadString ([107, 61, 118, 13, 10, 107] ++ [0]) ConfigMap.empty = some r ∧
      configReadFile (some [107, 61, 118, 13, 10, 107]) ConfigMap.empty = some r :=
  configReadFile_whole.2 _ _ (by decide +kernel)

end ConfigReader
end EpollHttp
