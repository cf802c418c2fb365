import EpollHttp.HttpRequest.LineBounds
import EpollHttp.HttpRequest.Framing

/-
A request that was parsed to its end.

The last call saw all of the bytes.  They begin with a head, and what is reported of the request
is what that head says, however the bytes arrived.
-/

namespace EpollHttp
namespace HttpRequest

open CString

/-- The calls on growing prefixes of `b` ended with one that was given all of `b`. -/
structure Complete (b : Bytes) (r : HttpRequest) : Prop where
  session : Session b r
  data : r.data = b
  finished : r.state = .finishOk
  accepted : urlAccepted r.urlBytes = true
  url : r.getUrl = some (cString (percentDecode r.urlBytes).2)

/-- A complete request in the bytes it was read from. -/
structure Headed (b : Bytes) (r : HttpRequest) (h : Head) (back : Bytes) : Prop where
  bytes : b = h.bytes ++ back
  head : h.WellFormed
  closing : 1 < lineBreakCounter (back.takeWhile isBreak)
  headers : r.headerBytes = h.headerLines.map HeaderLine.pair
  accepted : urlAccepted h.requestLine.target.url = true
  url : r.getUrl = some (cString (percentDecode h.requestLine.target.url).2)

section
variable {b e : Bytes} {r r' : HttpRequest}

theorem Session.size_le (h : Session b r) : r.size ≤ b.length := by
  have hdata := congrArg List.length (session_inv h).data
  rw [List.length_take] at hdata
  unfold size
  omega

/-- More bytes came since. -/
theorem Session.append (h : Session b r) (e : Bytes) : Session (b ++ e) r := by
  induction h with
  | start r => exact .start r
  | @call r r' n result hr hgrow hn hparse ih =>
    have htake : (b ++ e).take n = b.take n := List.take_append_of_le_length hn
    refine .call ih hgrow (n := n) ?_ (htake ▸ hparse)
    rw [List.length_append]
    omega

/-- The round that finishes a request leaves a finished one behind. -/
theorem iteration_finishOk {last left : HttpRequest}
    (h : last.iteration = (left, some .finishOk)) (hr : InRange last) :
    left.state = .finishOk ∧ left.urlStart + left.urlLength ≤ left.size := by
  have hurl := hr.url
  rcases iteration_returns h with ⟨rfl, hok⟩ | ⟨_, hne, _⟩ | ⟨_, _, _, rfl⟩ | ⟨_, _, _, rfl⟩
  · exact ⟨hok rfl, hurl⟩
  · cases hne
  · exact ⟨rfl, hurl⟩
  · exact ⟨rfl, hurl⟩

theorem Session.complete (h : Session b r) (hparse : parse r b = some (.finishOk, r')) :
    Complete b r' := by
  have hall : Parses r (b.take b.length) .finishOk r' := by
    rw [List.take_length]
    exact ⟨_, hparse⟩
  have hsession : Session b r' := h.call h.size_le (Nat.le_refl _) hall
  rw [List.take_length] at hall
  obtain ⟨last, ⟨result, left⟩, hvisits, hlast, hfinish⟩ := parses_iff.mp hall
  obtain ⟨rfl, hpost⟩ := finish_finishOk hfinish
  obtain ⟨e, he⟩ := (session_inv h).grow h.size_le
  rw [List.take_length] at he
  rw [he] at hvisits
  have hrange : InRange last := ((session_inv h).inRange.extend e).visits hvisits
  obtain ⟨hstate, hurl⟩ := iteration_finishOk hlast hrange
  have hdata : left.data = b := by
    have hb : last.data = b := hvisits.data.trans (congrArg HttpRequest.data he).symm
    rcases iteration_returns hlast with ⟨rfl, _⟩ | ⟨_, hne, _⟩ | ⟨_, _, _, rfl⟩ | ⟨_, _, _, rfl⟩
    · exact hb
    · cases hne
    · exact hb
    · exact hb
  cases hurlAccepted : urlAccepted left.urlBytes with
  | true =>
    obtain ⟨urlBuffer, heq, hstored⟩ := postParse_accepted hstate hurl hurlAccepted
    obtain rfl : { left with urlBuffer := urlBuffer } = r' :=
      (Prod.mk.inj (heq.symm.trans hpost)).2
    refine ⟨hsession, hdata, hstate, hurlAccepted, ?_⟩
    unfold getUrl
    rw [if_neg (not_not.mpr hstate)]
    exact congrArg some hstored
  | false =>
    obtain ⟨urlBuffer, heq⟩ := postParse_rejected hstate hurl hurlAccepted
    have hne := (Prod.mk.inj (heq.symm.trans hpost)).1
    cases hne

theorem Complete.headed (h : Complete b r) : ∃ head back, Headed b r head back := by
  obtain ⟨head, back, hc⟩ := session_closes h.session h.finished
  have hurl := hc.urlBytes
  refine ⟨head, back, ⟨h.data ▸ hc.data, hc.head, hc.closing, hc.headerBytes, ?_, ?_⟩⟩
  · rw [← hurl]
    exact h.accepted
  · rw [← hurl]
    exact h.url

end

end HttpRequest
end EpollHttp
