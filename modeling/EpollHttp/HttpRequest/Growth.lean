import EpollHttp.HttpRequest.Shape

/-
Rounds on a growing buffer.

A round that does not ask for more data does the same when more data is visible.
The exceptions are the two places where the parser waits without saying so: inside
the URL parameters, where a round without a space changes nothing, and at the run
that closes the head, which is measured as far as it is visible.
-/

namespace EpollHttp
namespace HttpRequest

open CString

/-- The position and the ranges that are still read lie inside what is visible. -/
structure InRange (r : HttpRequest) : Prop where
  cur : r.cur ≤ r.size
  curKey : r.curKey.start + r.curKey.length ≤ r.size
  url : r.urlStart + r.urlLength ≤ r.size

theorem length_rest (r : HttpRequest) : r.rest.length = r.size - r.cur := List.length_drop

theorem InRange.extend {r : HttpRequest} (h : InRange r) (e : Bytes) : InRange (r.extend e) := by
  have hsize : (r.extend e).size = r.size + e.length := List.length_append
  exact ⟨by rw [hsize]; exact Nat.le_add_right_of_le h.cur,
    by rw [hsize]; exact Nat.le_add_right_of_le h.curKey,
    by rw [hsize]; exact Nat.le_add_right_of_le h.url⟩

/-- A token in front of `cur` fits into what is visible. -/
theorem cur_add_length_le {r : HttpRequest} {token back : Bytes} (hcur : r.cur ≤ r.size)
    (hrest : r.rest = token ++ back) : r.cur + token.length ≤ r.size := by
  have hlen := r.length_rest
  rw [hrest, List.length_append] at hlen
  omega

theorem InRange.next {r r' : HttpRequest} (hr : InRange r) (h : Next r r') : InRange r' := by
  obtain ⟨hcur, hkey, hurl⟩ := hr
  unfold Next iteration at h
  split at h
  · obtain ⟨token, tail, hrest, _, rfl⟩ := iterMethod_next h
    exact ⟨cur_add_length_le hcur hrest, hkey, hurl⟩
  · obtain ⟨token, c, tail, hrest, _, _, _, rfl⟩ := iterSpaceAfterMethod_next h
    exact ⟨cur_add_length_le hcur hrest, hkey, hurl⟩
  · obtain ⟨token, tail, _, ⟨hrest, rfl⟩ | ⟨hrest, rfl⟩⟩ := iterUrl_next h
    · exact ⟨cur_add_length_le hcur hrest, hkey, cur_add_length_le hcur hrest⟩
    · exact ⟨cur_add_length_le hcur hrest, hkey, cur_add_length_le hcur hrest⟩
  · obtain ⟨token, tail, hrest, _, rfl⟩ | ⟨_, rfl⟩ := iterUrlParameters_next h
    · exact ⟨cur_add_length_le hcur hrest, hkey, hurl⟩
    · exact ⟨hcur, hkey, hurl⟩
  · obtain ⟨line, run, c, tail, hrest, _, _, _, rfl⟩ := iterSpaceAfterUrl_next h
    rw [← List.append_assoc] at hrest
    exact ⟨cur_add_length_le hcur hrest, hkey, hurl⟩
  · obtain ⟨token, tail, hrest, _, rfl⟩ := iterHeaderKey_next h
    exact ⟨cur_add_length_le hcur hrest, cur_add_length_le hcur hrest, hurl⟩
  · obtain ⟨token, c, tail, hrest, _, _, _, rfl⟩ := iterHeaderSpace_next h
    exact ⟨cur_add_length_le hcur hrest, hkey, hurl⟩
  · obtain ⟨token, c, tail, hrest, _, _, _, rfl⟩ := iterHeaderValue_next h
    exact ⟨cur_add_length_le hcur hrest, hkey, hurl⟩
  · obtain ⟨run, c, tail, hrest, _, _, _, rfl⟩ | ⟨_, _, rfl⟩ := iterHeaderLineBreak_next h
    · exact ⟨cur_add_length_le hcur hrest, hkey, hurl⟩
    · have hrest : r.rest = r.rest.takeWhile isBreak ++ r.rest.dropWhile isBreak :=
        List.takeWhile_append_dropWhile.symm
      exact ⟨cur_add_length_le hcur hrest, hkey, hurl⟩
  · exact absurd (congrArg Prod.snd h) (iterContent_returns r)
  · simp at h
  · simp at h

theorem InRange.visits {r r' : HttpRequest} (hr : InRange r) (h : Visits r r') :
    InRange r' := by
  induction h with
  | refl => exact hr
  | tail _ hstep ih => exact ih.next hstep

theorem inRange_start (data urlBuffer : Bytes) : InRange (startState data urlBuffer) :=
  ⟨Nat.zero_le _, Nat.zero_le _, Nat.zero_le _⟩

theorem Next.data {r r' : HttpRequest} (h : Next r r') : r'.data = r.data := by
  unfold Next iteration at h
  split at h
  · obtain ⟨_, _, _, _, rfl⟩ := iterMethod_next h; rfl
  · obtain ⟨_, _, _, _, _, _, _, rfl⟩ := iterSpaceAfterMethod_next h; rfl
  · obtain ⟨_, _, _, ⟨_, rfl⟩ | ⟨_, rfl⟩⟩ := iterUrl_next h <;> rfl
  · obtain ⟨_, _, _, _, rfl⟩ | ⟨_, rfl⟩ := iterUrlParameters_next h <;> rfl
  · obtain ⟨_, _, _, _, _, _, _, _, rfl⟩ := iterSpaceAfterUrl_next h; rfl
  · obtain ⟨_, _, _, _, rfl⟩ := iterHeaderKey_next h; rfl
  · obtain ⟨_, _, _, _, _, _, _, rfl⟩ := iterHeaderSpace_next h; rfl
  · obtain ⟨_, _, _, _, _, _, _, rfl⟩ := iterHeaderValue_next h; rfl
  · obtain ⟨_, _, _, _, _, _, _, rfl⟩ | ⟨_, _, rfl⟩ := iterHeaderLineBreak_next h <;> rfl
  · exact absurd (congrArg Prod.snd h) (iterContent_returns r)
  · simp at h
  · simp at h

theorem Visits.data {r r' : HttpRequest} (h : Visits r r') : r'.data = r.data := by
  induction h with
  | refl => rfl
  | tail _ hstep ih => rw [hstep.data, ih]

/-! ## The same round on more data -/

section
variable {r : HttpRequest} (e : Bytes)

/-- What a round leaves behind and returns, on the longer buffer. -/
def growIteration (it : Iteration) : Iteration := (it.1.extend e, it.2)

theorem fieldBytes_extend {f : Field} (h : f.start + f.length ≤ r.size) :
    (r.extend e).fieldBytes f = r.fieldBytes f :=
  bytesAt_extend h e

theorem iterMethod_extend (hr : InRange r) (h : r.iterMethod.2 ≠ some .needMoreData) :
    (r.extend e).iterMethod = growIteration e r.iterMethod := by
  have hread : (r.extend e).readMethod = r.readMethod := by
    unfold readMethod
    rw [rest_extend hr.cur]
    exact scan_extend e (fun hn => h (by unfold iterMethod readMethod; rw [hn]))
  unfold iterMethod
  rw [hread]
  split <;> rfl

theorem iterSpaceAfterMethod_extend (hr : InRange r)
    (h : r.iterSpaceAfterMethod.2 ≠ some .needMoreData) :
    (r.extend e).iterSpaceAfterMethod = growIteration e r.iterSpaceAfterMethod := by
  have hread : (r.extend e).readSpaces = r.readSpaces := by
    unfold readSpaces
    rw [rest_extend hr.cur]
    exact scan_extend e (fun hn => h (by unfold iterSpaceAfterMethod readSpaces; rw [hn]))
  unfold iterSpaceAfterMethod
  rw [hread]
  split <;> rfl

theorem iterUrl_extend (hr : InRange r) (h : r.iterUrl.2 ≠ some .needMoreData) :
    (r.extend e).iterUrl = growIteration e r.iterUrl := by
  have hread : (r.extend e).readUrl = r.readUrl := by
    unfold readUrl
    rw [rest_extend hr.cur]
    exact scan_extend e (fun hn => h (by unfold iterUrl readUrl; rw [hn]))
  unfold iterUrl
  rw [hread]
  split <;> rfl

theorem iterUrlParameters_extend (hr : InRange r) (h : space ∈ r.rest) :
    (r.extend e).iterUrlParameters = growIteration e r.iterUrlParameters := by
  obtain ⟨length, hok⟩ := readUrlParameters_of_space h
  have hread : (r.extend e).readUrlParameters = r.readUrlParameters := by
    unfold readUrlParameters at hok ⊢
    rw [rest_extend hr.cur]
    exact scan_extend e (by rw [hok]; simp)
  unfold iterUrlParameters
  rw [hread]
  split <;> rfl

theorem iterSpaceAfterUrl_extend (hr : InRange r)
    (h : r.iterSpaceAfterUrl.2 ≠ some .needMoreData) :
    (r.extend e).iterSpaceAfterUrl = growIteration e r.iterSpaceAfterUrl := by
  have hread : (r.extend e).readToNextLine = r.readToNextLine :=
    readToNextLine_extend e hr.cur (fun hn => h (by unfold iterSpaceAfterUrl; rw [hn]))
  unfold iterSpaceAfterUrl
  rw [hread]
  split <;> rfl

theorem iterHeaderKey_extend (hr : InRange r) (h : r.iterHeaderKey.2 ≠ some .needMoreData) :
    (r.extend e).iterHeaderKey = growIteration e r.iterHeaderKey := by
  have hread : (r.extend e).readHeaderKey = r.readHeaderKey := by
    unfold readHeaderKey
    rw [rest_extend hr.cur]
    exact scan_extend e (fun hn => h (by unfold iterHeaderKey readHeaderKey; rw [hn]))
  unfold iterHeaderKey
  rw [hread]
  split <;> rfl

theorem iterHeaderSpace_extend (hr : InRange r)
    (h : r.iterHeaderSpace.2 ≠ some .needMoreData) :
    (r.extend e).iterHeaderSpace = growIteration e r.iterHeaderSpace := by
  have hread : (r.extend e).readHeaderSpace = r.readHeaderSpace := by
    unfold readHeaderSpace
    rw [rest_extend hr.cur]
    exact scan_extend e (fun hn => h (by unfold iterHeaderSpace readHeaderSpace; rw [hn]))
  unfold iterHeaderSpace
  rw [hread]
  split <;> rfl

theorem iterHeaderValue_extend (hr : InRange r)
    (h : r.iterHeaderValue.2 ≠ some .needMoreData) :
    (r.extend e).iterHeaderValue = growIteration e r.iterHeaderValue := by
  have hscan : r.readHeaderValue ≠ .needMoreData :=
    fun hn => h (by unfold iterHeaderValue; rw [hn])
  have hread : (r.extend e).readHeaderValue = r.readHeaderValue := by
    unfold readHeaderValue at hscan ⊢
    rw [rest_extend hr.cur]
    exact scan_extend e hscan
  unfold iterHeaderValue
  rw [hread]
  split
  · rename_i length hok
    obtain ⟨token, c, tail, hrest, _, _, rfl⟩ := readHeaderValue_ok hok
    have hvalue : (r.extend e).fieldBytes { start := r.cur, length := token.length } =
        r.fieldBytes { start := r.cur, length := token.length } :=
      fieldBytes_extend e (cur_add_length_le hr.cur hrest)
    have hkey : (r.extend e).fieldBytes r.curKey = r.fieldBytes r.curKey :=
      fieldBytes_extend e hr.curKey
    simp only [extend_curKey, extend_cur, hkey, hvalue]
    split
    · split <;> rfl
    · rfl
  · rfl
  · rfl

theorem iterHeaderLineBreak_extend (hr : InRange r) (hopen : ¬ r.OpenRun e)
    (h : r.iterHeaderLineBreak.2 ≠ some .needMoreData) :
    (r.extend e).iterHeaderLineBreak = growIteration e r.iterHeaderLineBreak := by
  have hread : (r.extend e).readHeaderLineBreak = r.readHeaderLineBreak :=
    readHeaderLineBreak_extend e hr.cur
      (fun hn => h (by unfold iterHeaderLineBreak; rw [hn])) hopen
  unfold iterHeaderLineBreak
  rw [hread, extend_contentLength]
  split
  · rfl
  · split <;> rfl
  · rfl
  · rfl

theorem iterContent_extend (h : r.iterContent.2 ≠ some .needMoreData) :
    (r.extend e).iterContent = growIteration e r.iterContent := by
  have hsize : (r.extend e).size = r.size + e.length := List.length_append
  unfold iterContent at h ⊢
  rw [hsize, extend_contentLength, extend_cur]
  split at h
  · rename_i hle
    rw [if_pos hle, if_pos (by push_cast; omega)]
    rfl
  · simp at h

/-- The places where a round may depend on bytes that are not visible yet. -/
structure Settles (r : HttpRequest) (e : Bytes) : Prop where
  params : r.state = .urlParameters → space ∈ r.rest
  closing : r.state = .headerLineBreak → ¬ r.OpenRun e

theorem iteration_extend (hr : InRange r) (hs : Settles r e)
    (h : r.iteration.2 ≠ some .needMoreData) :
    (r.extend e).iteration = growIteration e r.iteration := by
  unfold iteration at h ⊢
  rw [extend_state]
  cases hstate : r.state <;> simp only [hstate] at h ⊢
  case method => exact iterMethod_extend e hr h
  case spaceAfterMethod => exact iterSpaceAfterMethod_extend e hr h
  case url => exact iterUrl_extend e hr h
  case urlParameters => exact iterUrlParameters_extend e hr (hs.params hstate)
  case spaceAfterUrl => exact iterSpaceAfterUrl_extend e hr h
  case headerKey => exact iterHeaderKey_extend e hr h
  case headerSpace => exact iterHeaderSpace_extend e hr h
  case headerValue => exact iterHeaderValue_extend e hr h
  case headerLineBreak => exact iterHeaderLineBreak_extend e hr (hs.closing hstate) h
  case content => exact iterContent_extend e h
  all_goals rfl

end

/-- A round that goes on to a state in front of the body goes on the same way on a longer
buffer; waiting inside the URL parameters is no round there. -/
theorem Next.extend {r r' : HttpRequest} (hr : InRange r) (h : Next r r') (e : Bytes)
    (hopen : r'.state = .content → ¬ r.OpenRun e) : Visits (r.extend e) (r'.extend e) := by
  by_cases hstuck : r.state = .urlParameters ∧ space ∉ r.rest
  · have hiter : r.iterUrlParameters = (r', none) := by
      unfold Next iteration at h
      rwa [hstuck.1] at h
    rcases iterUrlParameters_next hiter with ⟨token, tail, hrest, _, _⟩ | ⟨_, rfl⟩
    · exact absurd (by rw [hrest]; simp) hstuck.2
    · exact Relation.ReflTransGen.refl
  · have hnext : (r.extend e).iteration = growIteration e r.iteration := by
      by_cases hrun : r.state = .headerLineBreak ∧ r.OpenRun e
      · -- An open run with one line feed at most would have asked for more data.
        exfalso
        have hiter : r.iterHeaderLineBreak = (r', none) := by
          unfold Next iteration at h
          rwa [hrun.1] at h
        rcases iterHeaderLineBreak_next hiter with
          ⟨run, c, tail, hrest, _, _, hc, _⟩ | ⟨_, _, rfl⟩
        · have hcb := hrun.2.1 c (by rw [hrest]; simp)
          rw [hc] at hcb
          exact Bool.noConfusion hcb
        · exact hopen rfl hrun.2
      · refine iteration_extend e hr ⟨?_, ?_⟩ (by rw [show r.iteration = (r', none) from h]; simp)
        · exact fun hp => by_contra fun hsp => hstuck ⟨hp, hsp⟩
        · exact fun hp ho => hrun ⟨hp, ho⟩
    refine Relation.ReflTransGen.single ?_
    unfold Next
    rw [hnext, show r.iteration = (r', none) from h]
    rfl

/-- The states in front of the body are visited on every longer buffer too. -/
theorem Visits.extend {r r' : HttpRequest} (hr : InRange r) (h : Visits r r') (e : Bytes)
    (hstate : r'.state ≠ .content) : Visits (r.extend e) (r'.extend e) := by
  induction h with
  | refl => exact Relation.ReflTransGen.refl
  | @tail b c hab hbc ih =>
    have hb : b.state ≠ .content := by
      intro hb
      unfold Next iteration at hbc
      rw [hb] at hbc
      exact absurd (congrArg Prod.snd hbc) (iterContent_returns b)
    exact (ih hb).trans (hbc.extend (hr.visits hab) e (fun hc => absurd hc hstate))

end HttpRequest
end EpollHttp
