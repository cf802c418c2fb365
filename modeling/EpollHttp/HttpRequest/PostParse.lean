import EpollHttp.HttpRequest.Growth

/-
What `postParse` does with the URL of a request whose head was read.

The verdict depends on the bytes of the URL alone, and an accepted URL is what the decoder
stored in front of its terminator, whatever the URL buffer held before.
-/

namespace EpollHttp
namespace HttpRequest

open CString

theorem growUrlBuffer_eq (r : HttpRequest) :
    ∃ urlBuffer, r.growUrlBuffer = { r with urlBuffer := urlBuffer } := by
  unfold growUrlBuffer
  split
  · exact ⟨_, rfl⟩
  · exact ⟨r.urlBuffer, rfl⟩

theorem decodeUrl_eq (r : HttpRequest) :
    ∃ urlBuffer, r.decodeUrl.2 = { r with urlBuffer := urlBuffer } := by
  obtain ⟨grown, hgrow⟩ := r.growUrlBuffer_eq
  unfold decodeUrl
  split
  · exact ⟨r.urlBuffer, rfl⟩
  · split
    · rw [hgrow]
      dsimp only
      split
      · exact ⟨_, rfl⟩
      · exact ⟨_, rfl⟩
    · exact ⟨r.urlBuffer, rfl⟩

/-- Decoding and checking the URL changes the URL buffer and the state. -/
theorem postParse_eq (r : HttpRequest) :
    ∃ urlBuffer state, r.postParse.2 = { r with urlBuffer := urlBuffer, state := state } ∧
      (state = r.state ∨ state = .invalid) := by
  obtain ⟨urlBuffer, hdecode⟩ := r.decodeUrl_eq
  unfold postParse
  split
  · rename_i decoded hd
    rw [hd] at hdecode
    exact ⟨urlBuffer, .invalid, by rw [show decoded = _ from hdecode], Or.inr rfl⟩
  · rename_i decoded hd
    rw [hd] at hdecode
    rw [show decoded = _ from hdecode]
    split
    · exact ⟨urlBuffer, r.state, rfl, Or.inl rfl⟩
    · exact ⟨urlBuffer, .invalid, rfl, Or.inr rfl⟩

/-! ## The verdict on the URL -/

/-- The bytes of the URL decode, and the decoded string passes the check. -/
def urlAccepted (url : Bytes) : Bool :=
  !url.isEmpty && (percentDecode url).1 && checkUrlFrom 0 (cString (percentDecode url).2)

def urlBytes (r : HttpRequest) : Bytes := r.bytesAt r.urlStart r.urlLength

theorem bytesAt_length {r : HttpRequest} {start length : Nat} (h : start + length ≤ r.size) :
    (r.bytesAt start length).length = length := by
  unfold size at h
  unfold bytesAt
  rw [List.length_take, List.length_drop]
  omega

theorem decodeUrl_stored {r : HttpRequest} {stored : Bytes} (hstate : r.state = .finishOk)
    (hlength : 0 < r.urlLength) (hdecode : percentDecode r.urlBytes = (true, stored)) :
    ∃ urlBuffer, r.decodeUrl = (true, { r with urlBuffer := urlBuffer }) ∧
      cString urlBuffer = cString stored := by
  obtain ⟨grown, hgrow⟩ := r.growUrlBuffer_eq
  refine ⟨overwrite grown (stored ++ [0]), ?_, cString_overwrite grown stored⟩
  unfold decodeUrl
  rw [if_neg (by simp [hstate]), if_pos hlength, hgrow]
  unfold urlBytes at hdecode
  unfold bytesAt at hdecode ⊢
  dsimp only
  rw [hdecode]

theorem decodeUrl_failed {r : HttpRequest}
    (hfail : r.urlLength = 0 ∨ (percentDecode r.urlBytes).1 = false) : r.decodeUrl.1 = false := by
  unfold decodeUrl
  split
  · rfl
  · split
    · rename_i hlength
      obtain ⟨grown, hgrow⟩ := r.growUrlBuffer_eq
      rcases hfail with hzero | hfalse
      · omega
      · rw [hgrow]
        unfold urlBytes bytesAt at hfalse
        unfold bytesAt
        dsimp only
        split
        · rename_i stored heq
          rw [heq] at hfalse
          simp at hfalse
        · rfl
    · rfl

theorem postParse_accepted {r : HttpRequest} (hstate : r.state = .finishOk)
    (hurl : r.urlStart + r.urlLength ≤ r.size) (h : urlAccepted r.urlBytes = true) :
    ∃ urlBuffer, r.postParse = (.finishOk, { r with urlBuffer := urlBuffer }) ∧
      cString urlBuffer = cString (percentDecode r.urlBytes).2 := by
  unfold urlAccepted at h
  simp only [Bool.and_eq_true, Bool.not_eq_true', List.isEmpty_eq_false_iff] at h
  obtain ⟨⟨hne, hdecode⟩, hcheck⟩ := h
  have hlength : 0 < r.urlLength := by
    have hlen : r.urlBytes.length = r.urlLength := bytesAt_length hurl
    rw [← hlen]
    exact List.length_pos_iff.mpr hne
  obtain ⟨urlBuffer, heq, hstored⟩ :=
    decodeUrl_stored hstate hlength (Prod.ext hdecode rfl : percentDecode r.urlBytes = (true, _))
  refine ⟨urlBuffer, ?_, hstored⟩
  unfold postParse checkUrl checkUrlBuffer
  rw [heq]
  dsimp only
  rw [hstored, if_pos hcheck]

theorem postParse_rejected {r : HttpRequest} (hstate : r.state = .finishOk)
    (hurl : r.urlStart + r.urlLength ≤ r.size) (h : urlAccepted r.urlBytes = false) :
    ∃ urlBuffer, r.postParse =
      (.finishInvalid, { r with urlBuffer := urlBuffer, state := .invalid }) := by
  obtain ⟨urlBuffer, hdecode⟩ := r.decodeUrl_eq
  by_cases hfail : r.urlLength = 0 ∨ (percentDecode r.urlBytes).1 = false
  · have hfalse := decodeUrl_failed hfail
    refine ⟨urlBuffer, ?_⟩
    unfold postParse
    rw [show r.decodeUrl = (false, { r with urlBuffer := urlBuffer }) from Prod.ext hfalse hdecode]
  · have hlength : 0 < r.urlLength := by omega
    have hdec : (percentDecode r.urlBytes).1 = true := by
      cases hb : (percentDecode r.urlBytes).1 with
      | true => rfl
      | false => exact absurd (Or.inr hb) hfail
    have hne : r.urlBytes ≠ [] := by
      rw [← List.length_pos_iff, show r.urlBytes.length = r.urlLength from bytesAt_length hurl]
      exact hlength
    have hcheck : checkUrlFrom 0 (cString (percentDecode r.urlBytes).2) = false := by
      unfold urlAccepted at h
      rw [hdec] at h
      simpa [hne] using h
    obtain ⟨buffer, heq, hstored⟩ :=
      decodeUrl_stored hstate hlength (Prod.ext hdec rfl : percentDecode r.urlBytes = (true, _))
    refine ⟨buffer, ?_⟩
    unfold postParse checkUrl checkUrlBuffer
    rw [heq]
    dsimp only
    rw [hstored, if_neg (by simp [hcheck])]

/-- `postParse` answers by the URL. -/
theorem postParse_result {r : HttpRequest} (hstate : r.state = .finishOk)
    (hurl : r.urlStart + r.urlLength ≤ r.size) :
    r.postParse.1 = if urlAccepted r.urlBytes then .finishOk else .finishInvalid := by
  cases h : urlAccepted r.urlBytes with
  | true =>
    obtain ⟨_, heq, _⟩ := postParse_accepted hstate hurl h
    rw [heq]
    rfl
  | false =>
    obtain ⟨_, heq⟩ := postParse_rejected hstate hurl h
    rw [heq]
    rfl

end HttpRequest
end EpollHttp
