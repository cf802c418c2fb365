import EpollHttp.HttpRequest.Parse
import Mathlib.Logic.Relation

/-
Rounds of the parser loop and how they behave when more data becomes visible.

`Next r r'` is a round that goes on, and `Visits r r'` any number of them.  A round
that does not ask for more data does the same on every extension of the visible
bytes, with one exception: the line-break run that closes the header is measured
as far as it is visible.
-/

namespace EpollHttp
namespace HttpRequest

open CString

/-! ## The scanning loop -/

section
variable {skip : UInt8 → Bool} {stop : UInt8 → Nat → ReadResult}

/-- A scan that found its stop symbol split what is visible into the token, the stop
symbol and the bytes behind it. -/
theorem scan_split {rest : Bytes} (h : scan skip stop rest ≠ .needMoreData) :
    ∃ token c tail, rest = token ++ c :: tail ∧ (∀ x ∈ token, skip x = true) ∧
      skip c = false ∧ scan skip stop rest = stop c token.length := by
  unfold scan at h ⊢
  cases hstop : rest.dropWhile skip with
  | nil => exact absurd (by rw [hstop]) h
  | cons c tail =>
    exact ⟨rest.takeWhile skip, c, tail, Scan.split hstop,
      fun _ hx => Scan.token_class hx, Scan.stop_not hstop, rfl⟩

theorem scan_token {token tail : Bytes} {c : UInt8} (htoken : ∀ x ∈ token, skip x = true)
    (hc : skip c = false) : scan skip stop (token ++ c :: tail) = stop c token.length := by
  unfold scan
  rw [Scan.dropWhile_token htoken hc, Scan.takeWhile_token htoken hc]

theorem scan_end {rest : Bytes} (h : ∀ x ∈ rest, skip x = true) :
    scan skip stop rest = .needMoreData := by
  unfold scan
  rw [Scan.dropWhile_nil_iff.mpr h]

/-- A scan that stopped does not look at the bytes behind the stop symbol. -/
theorem scan_extend {rest : Bytes} (e : Bytes) (h : scan skip stop rest ≠ .needMoreData) :
    scan skip stop (rest ++ e) = scan skip stop rest := by
  obtain ⟨token, c, tail, hrest, htoken, hc, hscan⟩ := scan_split h
  rw [hscan, hrest, List.append_assoc, List.cons_append]
  exact scan_token htoken hc

end

/-! ## What the readers answer

One lemma for each reader and each answer that moves the parser on. -/

section
variable {r : HttpRequest} {length : Nat}

theorem readMethod_ok (h : r.readMethod = .ok length) :
    ∃ token tail, r.rest = token ++ space :: tail ∧ (∀ x ∈ token, isUpper x = true) ∧
      token.length = length := by
  unfold readMethod at h
  obtain ⟨token, c, tail, hrest, htoken, _, hscan⟩ := scan_split (by rw [h]; simp)
  rw [h] at hscan
  split at hscan
  · rename_i hc
    subst hc
    exact ⟨token, tail, hrest, htoken, by simpa using hscan.symm⟩
  · simp at hscan

theorem readSpaces_ok (h : r.readSpaces = .ok length) :
    ∃ token c tail, r.rest = token ++ c :: tail ∧ (∀ x ∈ token, x = space) ∧
      c ≠ space ∧ isBreak c = false ∧ token.length = length := by
  unfold readSpaces at h
  obtain ⟨token, c, tail, hrest, htoken, hc, hscan⟩ := scan_split (by rw [h]; simp)
  rw [h] at hscan
  split at hscan
  · simp at hscan
  · rename_i hb
    exact ⟨token, c, tail, hrest, by simpa using htoken, by simpa using hc,
      by simpa using hb, by simpa using hscan.symm⟩

theorem readUrl_ok (h : r.readUrl = .ok length) :
    ∃ token tail, r.rest = token ++ space :: tail ∧ (∀ x ∈ token, readUrlSymbols x = true) ∧
      token.length = length := by
  unfold readUrl at h
  obtain ⟨token, c, tail, hrest, htoken, _, hscan⟩ := scan_split (by rw [h]; simp)
  rw [h] at hscan
  split at hscan
  · rename_i hc
    subst hc
    exact ⟨token, tail, hrest, htoken, by simpa using hscan.symm⟩
  · split at hscan <;> simp at hscan

theorem readUrl_question (h : r.readUrl = .question length) :
    ∃ token tail, r.rest = token ++ question :: tail ∧
      (∀ x ∈ token, readUrlSymbols x = true) ∧ token.length = length := by
  unfold readUrl at h
  obtain ⟨token, c, tail, hrest, htoken, _, hscan⟩ := scan_split (by rw [h]; simp)
  rw [h] at hscan
  split at hscan
  · simp at hscan
  · split at hscan
    · rename_i hc
      subst hc
      exact ⟨token, tail, hrest, htoken, by simpa using hscan.symm⟩
    · simp at hscan

theorem readUrlParameters_ok (h : r.readUrlParameters = .ok length) :
    ∃ token tail, r.rest = token ++ space :: tail ∧ (∀ x ∈ token, x ≠ space) ∧
      token.length = length := by
  unfold readUrlParameters at h
  obtain ⟨token, c, tail, hrest, htoken, hc, hscan⟩ := scan_split (by rw [h]; simp)
  rw [h] at hscan
  split at hscan
  · simp at hscan
  · have hspace : c = space := by simpa using hc
    subst hspace
    exact ⟨token, tail, hrest, by simpa using htoken, by simpa using hscan.symm⟩

theorem readUrlParameters_of_space (h : space ∈ r.rest) :
    ∃ length, r.readUrlParameters = .ok length := by
  have hne : r.rest.dropWhile (· != space) ≠ [] := fun hnil => by
    simpa using Scan.dropWhile_nil_iff.mp hnil space h
  obtain ⟨c, tail, hstop⟩ := List.exists_cons_of_ne_nil hne
  have hc : c = space := by simpa using Scan.stop_not hstop
  subst hc
  exact ⟨_, by unfold readUrlParameters scan; rw [hstop]; rfl⟩

theorem readToNextLine_ok (h : r.readToNextLine = .ok length) :
    ∃ line run c tail, r.rest = line ++ (run ++ c :: tail) ∧
      (∀ x ∈ line, isBreak x = false) ∧ (∀ x ∈ run, isBreak x = true) ∧ run ≠ [] ∧
      lineBreakCounter run ≤ 1 ∧ isBreak c = false ∧
      line.length + run.length = length := by
  unfold readToNextLine at h
  cases hline : r.rest.dropWhile (!isBreak ·) with
  | nil => rw [hline] at h; simp at h
  | cons b after =>
    have hb : isBreak b = true := by simpa using Scan.stop_not hline
    simp only [hline] at h
    split at h
    · simp at h
    · rename_i hlf
      obtain ⟨run, c, tail, hrun, hall, hc, hscan⟩ := scan_split (by rw [h]; simp)
      rw [h] at hscan
      rw [hrun, Scan.takeWhile_token hall hc] at hlf
      refine ⟨r.rest.takeWhile (!isBreak ·), run, c, tail, ?_, ?_, hall, ?_, by omega, hc,
        by simpa using hscan.symm⟩
      · rw [← hrun]
        exact Scan.split hline
      · intro x hx
        simpa using Scan.token_class hx
      · intro hnil
        rw [hnil] at hrun
        have hbc : b = c := (List.cons.inj hrun).1
        rw [hbc, hc] at hb
        exact Bool.noConfusion hb

theorem readHeaderKey_ok (h : r.readHeaderKey = .ok length) :
    ∃ token tail, r.rest = token ++ colon :: tail ∧
      (∀ x ∈ token, readHeaderKeySymbols x = true) ∧ token.length = length := by
  unfold readHeaderKey at h
  obtain ⟨token, c, tail, hrest, htoken, _, hscan⟩ := scan_split (by rw [h]; simp)
  rw [h] at hscan
  split at hscan
  · rename_i hc
    subst hc
    exact ⟨token, tail, hrest, htoken, by simpa using hscan.symm⟩
  · simp at hscan

theorem readHeaderSpace_ok (h : r.readHeaderSpace = .ok length) :
    ∃ token c tail, r.rest = token ++ c :: tail ∧ (∀ x ∈ token, isHeaderSpace x = true) ∧
      isHeaderSpace c = false ∧ isBreak c = false ∧ token.length = length := by
  unfold readHeaderSpace at h
  obtain ⟨token, c, tail, hrest, htoken, hc, hscan⟩ := scan_split (by rw [h]; simp)
  rw [h] at hscan
  split at hscan
  · simp at hscan
  · rename_i hb
    exact ⟨token, c, tail, hrest, htoken, hc, by simpa using hb, by simpa using hscan.symm⟩

theorem readHeaderValue_ok (h : r.readHeaderValue = .ok length) :
    ∃ token c tail, r.rest = token ++ c :: tail ∧ (∀ x ∈ token, isBreak x = false) ∧
      isBreak c = true ∧ token.length = length := by
  unfold readHeaderValue at h
  obtain ⟨token, c, tail, hrest, htoken, hc, hscan⟩ := scan_split (by rw [h]; simp)
  rw [h] at hscan
  exact ⟨token, c, tail, hrest, by simpa using htoken, by simpa using hc,
    by simpa using hscan.symm⟩

theorem readHeaderLineBreak_ok (h : r.readHeaderLineBreak = .ok length) :
    ∃ run c tail, r.rest = run ++ c :: tail ∧ (∀ x ∈ run, isBreak x = true) ∧
      lineBreakCounter run ≤ 1 ∧ isBreak c = false ∧ run.length = length := by
  unfold readHeaderLineBreak at h
  split at h
  · simp at h
  · rename_i hlf
    obtain ⟨run, c, tail, hrest, hall, hc, hscan⟩ := scan_split (by rw [h]; simp)
    rw [h] at hscan
    rw [hrest, Scan.takeWhile_token hall hc] at hlf
    exact ⟨run, c, tail, hrest, hall, by omega, hc, by simpa using hscan.symm⟩

theorem readHeaderLineBreak_endOfHeaders {length : Option Nat}
    (h : r.readHeaderLineBreak = .endOfHeaders length) :
    1 < lineBreakCounter (r.rest.takeWhile isBreak) ∧
      length = some (r.rest.takeWhile isBreak).length := by
  unfold readHeaderLineBreak at h
  split at h
  · rename_i hlf
    exact ⟨hlf, by simpa using h.symm⟩
  · by_cases hscan : scan isBreak (fun _ i => ReadResult.ok i) r.rest = .needMoreData
    · rw [hscan] at h
      simp at h
    · obtain ⟨run, c, tail, _, _, _, hans⟩ := scan_split hscan
      rw [hans] at h
      simp at h

end

/-! ## Extending the visible data -/

def extend (r : HttpRequest) (e : Bytes) : HttpRequest := { r with data := r.data ++ e }

@[simp] theorem extend_state (r : HttpRequest) (e : Bytes) : (r.extend e).state = r.state := rfl

@[simp] theorem extend_cur (r : HttpRequest) (e : Bytes) : (r.extend e).cur = r.cur := rfl

@[simp] theorem extend_contentLength (r : HttpRequest) (e : Bytes) :
    (r.extend e).contentLength = r.contentLength := rfl

@[simp] theorem extend_curKey (r : HttpRequest) (e : Bytes) :
    (r.extend e).curKey = r.curKey := rfl

theorem rest_extend {r : HttpRequest} (h : r.cur ≤ r.size) (e : Bytes) :
    (r.extend e).rest = r.rest ++ e :=
  List.drop_append_of_le_length h

/-- A range that was visible keeps its bytes. -/
theorem bytesAt_extend {r : HttpRequest} {start length : Nat} (h : start + length ≤ r.size)
    (e : Bytes) : (r.extend e).bytesAt start length = r.bytesAt start length := by
  have hdrop : (r.data ++ e).drop start = r.data.drop start ++ e :=
    List.drop_append_of_le_length (by unfold size at h; omega)
  have hle : length ≤ (r.data.drop start).length := by
    rw [List.length_drop]
    unfold size at h
    omega
  unfold bytesAt extend
  rw [hdrop, List.take_append_of_le_length hle]

section
variable {r : HttpRequest} (e : Bytes)

theorem readToNextLine_extend (hcur : r.cur ≤ r.size)
    (h : r.readToNextLine ≠ .needMoreData) :
    (r.extend e).readToNextLine = r.readToNextLine := by
  unfold readToNextLine at h ⊢
  rw [rest_extend hcur]
  cases hline : r.rest.dropWhile (!isBreak ·) with
  | nil => exact absurd (by rw [hline]) h
  | cons c line =>
    rw [Scan.dropWhile_extend hline, Scan.takeWhile_extend hline]
    simp only [hline] at h ⊢
    by_cases hrun : (c :: line).dropWhile isBreak = []
    · -- The run is still open: it can only have answered by its line feeds.
      have hall := Scan.dropWhile_nil_iff.mp hrun
      by_cases hlf : 1 < lineBreakCounter ((c :: line).takeWhile isBreak)
      · have hmore : 1 < lineBreakCounter ((c :: (line ++ e)).takeWhile isBreak) := by
          rw [Scan.takeWhile_all hall] at hlf
          rw [← List.cons_append, List.takeWhile_append_of_pos hall]
          unfold lineBreakCounter at hlf ⊢
          rw [List.count_append]
          omega
        rw [if_pos hlf, if_pos hmore]
      · rw [if_neg hlf] at h
        exact absurd (scan_end hall) h
    · obtain ⟨d, tail, hd⟩ := List.exists_cons_of_ne_nil hrun
      rw [← List.cons_append, Scan.takeWhile_extend hd]
      by_cases hlf : 1 < lineBreakCounter ((c :: line).takeWhile isBreak)
      · rw [if_pos hlf, if_pos hlf]
      · rw [if_neg hlf] at h ⊢
        rw [if_neg hlf]
        exact scan_extend e h

/-- The run at `cur` reaches the end of what is visible and goes on behind it. -/
def OpenRun (r : HttpRequest) (e : Bytes) : Prop :=
  (∀ c ∈ r.rest, isBreak c = true) ∧ ∃ c, e.head? = some c ∧ isBreak c = true

theorem takeWhile_break_extend (h : ¬ r.OpenRun e) :
    (r.rest ++ e).takeWhile isBreak = r.rest.takeWhile isBreak := by
  by_cases hall : ∀ c ∈ r.rest, isBreak c = true
  · rw [List.takeWhile_append_of_pos hall, Scan.takeWhile_all hall]
    cases e with
    | nil => simp
    | cons c e =>
      have hc : ¬ isBreak c = true := fun hc => h ⟨hall, c, rfl, hc⟩
      rw [List.takeWhile_cons_of_neg hc, List.append_nil]
  · have hne : r.rest.dropWhile isBreak ≠ [] := fun hnil => hall (Scan.dropWhile_nil_iff.mp hnil)
    obtain ⟨c, tail, hc⟩ := List.exists_cons_of_ne_nil hne
    exact Scan.takeWhile_extend hc

theorem readHeaderLineBreak_extend (hcur : r.cur ≤ r.size)
    (h : r.readHeaderLineBreak ≠ .needMoreData) (hopen : ¬ r.OpenRun e) :
    (r.extend e).readHeaderLineBreak = r.readHeaderLineBreak := by
  unfold readHeaderLineBreak at h ⊢
  rw [rest_extend hcur, takeWhile_break_extend e hopen]
  by_cases hlf : 1 < lineBreakCounter (r.rest.takeWhile isBreak)
  · rw [if_pos hlf, if_pos hlf]
  · rw [if_neg hlf] at h ⊢
    rw [if_neg hlf]
    exact scan_extend e h

/-- With an open run the extension still sees the end of the headers. -/
theorem readHeaderLineBreak_open (hcur : r.cur ≤ r.size)
    (hall : ∀ c ∈ r.rest, isBreak c = true) (hlf : 1 < lineBreakCounter r.rest) :
    (r.extend e).readHeaderLineBreak =
      .endOfHeaders (some (r.rest.length + (e.takeWhile isBreak).length)) := by
  have hmore : 1 < lineBreakCounter ((r.rest ++ e).takeWhile isBreak) := by
    rw [List.takeWhile_append_of_pos hall]
    unfold lineBreakCounter at hlf ⊢
    rw [List.count_append]
    omega
  unfold readHeaderLineBreak
  rw [rest_extend hcur, if_pos hmore, List.takeWhile_append_of_pos hall, List.length_append]

end

end HttpRequest
end EpollHttp
