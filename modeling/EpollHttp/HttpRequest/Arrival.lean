import EpollHttp.HttpRequest.ClosedHead

/-
Parsing a request whose bytes arrive in pieces.

A call on a prefix does what a fresh request does on that prefix, as long as the earlier
calls waited in front of the body.  A returning round in front of the body is the same on
every longer buffer, so only the position where the body begins can depend on the pieces: it
is the end of the closing run as far as the first piece that closes the head shows it.
-/

namespace EpollHttp
namespace HttpRequest

open CString

/-! ## Calls on the pieces -/

/-- `parse(b, n)` for the lengths in turn, up to the first answer that is not
`needMoreData`. -/
def feed : HttpRequest → Bytes → List Nat → Option (ParseResult × HttpRequest)
  | r, _, [] => some (.needMoreData, r)
  | r, b, n :: ns =>
    match parse r (b.take n) with
    | some (.needMoreData, r') => feed r' b ns
    | answer => answer

/-- The ranges of the head and the length of the body. -/
structure SameHead (r s : HttpRequest) : Prop where
  methodStart : r.methodStart = s.methodStart
  methodLength : r.methodLength = s.methodLength
  urlStart : r.urlStart = s.urlStart
  urlLength : r.urlLength = s.urlLength
  urlParametersStart : r.urlParametersStart = s.urlParametersStart
  urlParametersLength : r.urlParametersLength = s.urlParametersLength
  headers : r.headers = s.headers
  contentLength : r.contentLength = s.contentLength

/-- Everything a finished request reports. -/
structure SameRequest (r s : HttpRequest) : Prop extends SameHead r s where
  contentStart : r.contentStart = s.contentStart
  getUrl : r.getUrl = s.getUrl

structure SameOutcome (x y : ParseResult × HttpRequest) : Prop where
  verdict : x.1 = y.1
  request : x.1 = .finishOk → SameRequest x.2 y.2

/-- The pieces cut the run that closes the head behind its second line feed, and the body that
is looked for there is long enough. -/
def EarlyCut (b : Bytes) (ns : List Nat) : Prop :=
  ∃ (h : Head) (closing body : Bytes) (n : Nat), ClosedHead b h closing body ∧
    h.contentLength ≠ 0 ∧
    ns.find? (fun n => decide (1 < lineBreakCounter (closing.take (n - h.bytes.length)))) =
      some n ∧
    n < h.bytes.length + closing.length ∧ h.contentLength ≤ (b.length : Int) - n ∧
    (urlAccepted h.requestLine.target.url = true ∨ (body.length : Int) < h.contentLength)

/-! ## Waiting in front of the body -/

/-- The request waits in front of the body in a state that belongs to its data. -/
structure Waiting (b : Bytes) (r : HttpRequest) : Prop where
  data : r.data = b.take r.size
  visits : Visits (startState r.data []) r
  state : r.state ≠ .content
  returns : r.iteration = (r, some .needMoreData)

theorem waiting_fresh (b : Bytes) : Waiting b {} where
  data := by simp [size]
  visits := Relation.ReflTransGen.refl
  state := by decide
  returns := rfl

section
variable {b : Bytes} {r : HttpRequest} {n : Nat}

theorem Waiting.visits_grow (h : Waiting b r) (hgrow : r.size ≤ n) :
    Visits (startState (b.take n) []) { r with data := b.take n } := by
  have hfront : r.data = (b.take n).take r.size := by
    rw [List.take_take, Nat.min_eq_left hgrow]
    exact h.data
  have hext := h.visits.extend (inRange_start _ _) ((b.take n).drop r.size) h.state
  have hr : r.extend ((b.take n).drop r.size) = { r with data := b.take n } := by
    unfold extend
    conv_lhs => rw [hfront, List.take_append_drop]
  rwa [hr, show (startState r.data []).extend ((b.take n).drop r.size) =
    startState (r.data ++ (b.take n).drop r.size) [] from rfl,
    show r.data ++ (b.take n).drop r.size = b.take n by
      conv_lhs => rw [hfront, List.take_append_drop]] at hext

/-- A call of a waiting request does what a fresh request does on the same prefix. -/
theorem Waiting.parse_outcome (h : Waiting b r) (hgrow : r.size ≤ n)
    {y : ParseResult × HttpRequest} (hparse : parse r (b.take n) = some y) :
    ∃ last x, Visits (startState (b.take n) []) last ∧ last.iteration = (x.2, some x.1) ∧
      finish x = y := by
  obtain ⟨x, ⟨last, hv, hx⟩, hfin⟩ := HttpRequest.parse_outcome hparse
  exact ⟨last, x, (h.visits_grow hgrow).trans hv, hx, hfin⟩

/-- A request that is told to wait in front of the body goes on waiting. -/
theorem waiting_of_needMoreData {last r' : HttpRequest} (hn : n ≤ b.length)
    (hv : Visits (startState (b.take n) []) last) (hstate : last.state ≠ .content)
    (hx : last.iteration = (r', some .needMoreData)) : Waiting b r' ∧ r'.size = n ∧ r' = last := by
  have hsame : r' = last := by
    rcases iteration_returns hx with ⟨heq, _⟩ | ⟨_, h, _⟩ | ⟨h, _⟩ | ⟨h, _⟩
    · exact heq
    · simp at h
    · simp at h
    · simp at h
  have hdata : r'.data = b.take n := by rw [hsame]; exact hv.data
  have hsize : r'.size = n := by
    unfold size
    rw [hdata, List.length_take, Nat.min_eq_left hn]
  refine ⟨⟨by rw [hsize, hdata], ?_, by rw [hsame]; exact hstate, ?_⟩, hsize, hsame⟩
  · rw [hdata, hsame]
    exact hv
  · rw [hsame] at hx ⊢
    exact hx

end

/-! ## Waiting in the body -/

theorem feed_verdict {r r' : HttpRequest} {b : Bytes} {n : Nat} {result : ParseResult}
    (h : parse r (b.take n) = some (result, r')) (hne : result ≠ .needMoreData) (ns : List Nat) :
    feed r b (n :: ns) = some (result, r') := by
  unfold feed
  rw [h]
  cases result
  · rfl
  · rfl
  · exact absurd rfl hne

theorem feed_needMoreData {r r' : HttpRequest} {b : Bytes} {n : Nat}
    (h : parse r (b.take n) = some (.needMoreData, r')) (ns : List Nat) :
    feed r b (n :: ns) = feed r' b ns := by
  conv_lhs => unfold feed
  rw [h]

section
variable {r : HttpRequest} {b : Bytes} {n : Nat}

theorem iteration_content (hstate : r.state = .content) (hn : n ≤ b.length) :
    HttpRequest.iteration { r with data := b.take n } =
      if r.contentLength ≤ (n : Int) - r.cur then
        ({ r with data := b.take n, contentStart := r.cur, state := .finishOk }, some .finishOk)
      else ({ r with data := b.take n }, some .needMoreData) := by
  have hsize : HttpRequest.size { r with data := b.take n } = n := by
    unfold size
    rw [List.length_take, Nat.min_eq_left hn]
  unfold iteration iterContent
  rw [hsize, hstate]

/-- A request in the body finishes with the first prefix that is long enough. -/
theorem feed_content (hstate : r.state = .content) {ns : List Nat}
    (hns : ∀ k ∈ n :: ns, k ≤ b.length) (hlast : (n :: ns).getLast? = some b.length) :
    (r.contentLength ≤ (b.length : Int) - r.cur →
      ∃ k ∈ n :: ns, feed r b (n :: ns) = some (finish (.finishOk,
        { r with data := b.take k, contentStart := r.cur, state := .finishOk }))) ∧
    (¬ r.contentLength ≤ (b.length : Int) - r.cur →
      ∃ r', feed r b (n :: ns) = some (.needMoreData, r')) := by
  induction ns generalizing n r with
  | nil =>
    have hend : n = b.length := by simpa using hlast
    have hiter := iteration_content hstate (Nat.le_of_eq hend)
    constructor
    · intro hlong
      rw [if_pos (by omega)] at hiter
      exact ⟨n, by simp, feed_verdict (parse_returns hiter) (postParse_ne_needMoreData _) []⟩
    · intro hshort
      rw [if_neg (by omega)] at hiter
      exact ⟨_, feed_needMoreData (parse_returns hiter) []⟩
  | cons m ns ih =>
    have hn : n ≤ b.length := hns n (by simp)
    have hiter := iteration_content hstate hn
    by_cases hlong : r.contentLength ≤ (n : Int) - r.cur
    · rw [if_pos hlong] at hiter
      refine ⟨fun _ => ⟨n, by simp, ?_⟩, fun hshort => absurd (by omega) hshort⟩
      exact feed_verdict (parse_returns hiter) (postParse_ne_needMoreData _) (m :: ns)
    · rw [if_neg hlong] at hiter
      have hwait := feed_needMoreData (parse_returns hiter) (m :: ns)
      obtain ⟨hfinish, hmore⟩ := ih (r := { r with data := b.take n }) hstate
        (fun k hk => hns k (List.mem_cons_of_mem n hk)) (by simpa using hlast)
      refine ⟨fun h => ?_, fun h => ?_⟩
      · obtain ⟨k, hk, hfeed⟩ := hfinish h
        exact ⟨k, List.mem_cons_of_mem n hk, hwait.trans hfeed⟩
      · obtain ⟨r', hfeed⟩ := hmore h
        exact ⟨r', hwait.trans hfeed⟩

end

/-! ## Comparing two outcomes -/

theorem sameOutcome_of_verdict {x y : ParseResult × HttpRequest} (h : x.1 = y.1)
    (hne : x.1 ≠ .finishOk) : SameOutcome x y :=
  ⟨h, fun hok => absurd hok hne⟩

/-- Two finished heads with the same ranges and URL bytes report the same request, up to the
position of the body. -/
theorem sameOutcome_finish {p q : HttpRequest} (hp : p.state = .finishOk)
    (hq : q.state = .finishOk) (hpurl : p.urlStart + p.urlLength ≤ p.size)
    (hqurl : q.urlStart + q.urlLength ≤ q.size) (hhead : SameHead p q)
    (hbytes : p.urlBytes = q.urlBytes) :
    SameOutcome (finish (.finishOk, p)) (finish (.finishOk, q)) ↔
      (urlAccepted p.urlBytes = true → p.contentStart = q.contentStart) := by
  show SameOutcome p.postParse q.postParse ↔ _
  cases hurl : urlAccepted p.urlBytes with
  | true =>
    obtain ⟨pbuf, hpeq, hpstr⟩ := postParse_accepted hp hpurl hurl
    obtain ⟨qbuf, hqeq, hqstr⟩ := postParse_accepted hq hqurl (hbytes ▸ hurl)
    rw [hpeq, hqeq]
    constructor
    · intro h _
      exact (h.request rfl).contentStart
    · intro hstart
      refine ⟨rfl, fun _ => ⟨⟨hhead.1, hhead.2, hhead.3, hhead.4, hhead.5, hhead.6, hhead.7,
        hhead.8⟩, hstart rfl, ?_⟩⟩
      unfold getUrl
      dsimp only
      rw [hp, hq, hpstr, hqstr, hbytes]
  | false =>
    obtain ⟨pbuf, hpeq⟩ := postParse_rejected hp hpurl hurl
    obtain ⟨qbuf, hqeq⟩ := postParse_rejected hq hqurl (hbytes ▸ hurl)
    rw [hpeq, hqeq]
    exact ⟨fun _ h => absurd h (by decide), fun _ => sameOutcome_of_verdict rfl (by simp)⟩

/-- A verdict in front of the body is the verdict on every longer buffer. -/
theorem sameOutcome_extend {data e : Bytes} {last : HttpRequest} {z y : ParseResult × HttpRequest}
    (hv : Visits (startState data []) last) (hstate : last.state ≠ .content)
    (hz : last.iteration = (z.2, some z.1)) (hne : z.1 ≠ .needMoreData)
    (hy : parse {} (data ++ e) = some y) :
    SameOutcome (finish z) y ∧ ∃ s, Visits (startState (data ++ e) []) s ∧
      s.state ≠ .content ∧ s.iteration.2 = some z.1 := by
  have hrange : InRange last := (inRange_start data []).visits hv
  have hgrown : Visits (startState (data ++ e) []) (last.extend e) :=
    hv.extend (inRange_start data []) e hstate
  have hiter := iteration_returns_extend hrange hz hne e
  refine ⟨?_, last.extend e, hgrown, hstate, by rw [hiter]⟩
  obtain ⟨w, ⟨s, hs, hw⟩, hfin⟩ := parse_outcome hy
  have hww : (z.1, z.2.extend e) = w := (outcome_unique hgrown hiter hs hw).2
  have hyy : y = finish (z.1, z.2.extend e) := by rw [hww, hfin]
  rw [hyy]
  by_cases hok : z.1 = .finishOk
  · obtain ⟨result, r'⟩ := z
    dsimp only at hok hz ⊢
    subst hok
    have hfinish : r'.state = .finishOk ∧ r'.urlStart + r'.urlLength ≤ r'.size := by
      rcases iteration_returns hz with ⟨heq, hok⟩ | ⟨_, h, _⟩ | ⟨_, _, _, heq⟩ | ⟨_, _, _, heq⟩
      · rw [heq]
        exact ⟨hok rfl, hrange.url⟩
      · simp at h
      · rw [heq]
        exact ⟨rfl, hrange.url⟩
      · rw [heq]
        exact ⟨rfl, hrange.url⟩
    have hurl' : (r'.extend e).urlStart + (r'.extend e).urlLength ≤ (r'.extend e).size := by
      show r'.urlStart + r'.urlLength ≤ (r'.data ++ e).length
      have hle := hfinish.2
      unfold size at hle
      rw [List.length_append]
      omega
    exact (sameOutcome_finish hfinish.1 (show (r'.extend e).state = .finishOk from hfinish.1)
      hfinish.2 hurl'
      ⟨rfl, rfl, rfl, rfl, rfl, rfl, rfl, rfl⟩ (urlBytes_extend hfinish.2 e).symm).mpr
      (fun _ => rfl)
  · rw [finish_of_ne hok, finish_of_ne (x := (z.1, z.2.extend e)) hok]
    exact sameOutcome_of_verdict rfl hok

/-! ## The position of the body -/

/-- A piece that brings the parser into the body is the first one that closes the head. -/
theorem find_closing {b closing body more : Bytes} {h : Head} {n : Nat} (hn : n ≤ b.length)
    (hh : ClosedHead (b.take n) h closing body) (hmore : more ≠ [] → body = []) (ns : List Nat) :
    (n :: ns).find? (fun n =>
        decide (1 < lineBreakCounter ((closing ++ more).take (n - h.bytes.length)))) = some n ∧
      (n < h.bytes.length + (closing ++ more).length ↔ more ≠ []) ∧
      (more ≠ [] → n = h.bytes.length + closing.length) := by
  have hlen : n = h.bytes.length + closing.length + body.length := by
    have h1 := congrArg List.length hh.data_eq
    rw [List.length_take, Nat.min_eq_left hn] at h1
    simp only [List.length_append] at h1
    omega
  have htake : (closing ++ more).take (n - h.bytes.length) = closing := by
    by_cases hm : more = []
    · rw [hm, List.append_nil, List.take_of_length_le (by omega)]
    · rw [hmore hm, List.length_nil] at hlen
      rw [show n - h.bytes.length = closing.length by omega, List.take_left]
  refine ⟨?_, ?_, ?_⟩
  · rw [List.find?_cons_of_pos]
    rw [htake]
    exact decide_eq_true hh.closing.two
  · rw [List.length_append]
    constructor
    · intro hlt hm
      rw [hm, List.length_nil] at hlt
      omega
    · intro hm
      have hpos := List.length_pos_iff.mpr hm
      rw [hmore hm, List.length_nil] at hlen
      omega
  · intro hm
    rw [hmore hm, List.length_nil] at hlen
    exact hlen

/-- For the head that `b` closes, an early cut is one of its own closing run. -/
theorem earlyCut_iff {b closing body : Bytes} {h : Head} {ns : List Nat} {n : Nat}
    (hh : ClosedHead b h closing body)
    (hfind : ns.find? (fun n =>
      decide (1 < lineBreakCounter (closing.take (n - h.bytes.length)))) = some n) :
    EarlyCut b ns ↔ h.contentLength ≠ 0 ∧ n < h.bytes.length + closing.length ∧
      h.contentLength ≤ (b.length : Int) - n ∧
      (urlAccepted h.requestLine.target.url = true ∨ (body.length : Int) < h.contentLength) := by
  constructor
  · rintro ⟨h', closing', body', n', hh', hne, hfind', hlt, hle, hor⟩
    obtain ⟨hlen, rfl, rfl, hcl, hurl⟩ := closedHead_unique hh hh'
    rw [← hlen, hfind] at hfind'
    have hn : n = n' := Option.some.inj hfind'
    rw [← hn, ← hlen] at hlt
    rw [← hn, ← hcl] at hle
    rw [← hcl, ← hurl] at hor
    exact ⟨by rw [hcl]; exact hne, hlt, hle, hor⟩
  · rintro ⟨hne, hlt, hle, hor⟩
    exact ⟨h, closing, body, n, hh, hne, hfind, hlt, hle, hor⟩

/-- Where the body begins at the cut, the answers agree unless the cut is early. -/
theorem feed_atBody {b closing body : Bytes} {h : Head} {n : Nat} {ns : List Nat}
    {x y : ParseResult × HttpRequest} (hle : ∀ k ∈ n :: ns, n ≤ k ∧ k ≤ b.length)
    (hlast : (n :: ns).getLast? = some b.length) (hh : ClosedHead (b.take n) h closing body)
    (hne : h.contentLength ≠ 0) (hx : feed (atBody (b.take n) h closing) b (n :: ns) = some x)
    (hy : parse {} b = some y) : SameOutcome x y ↔ ¬ EarlyCut b (n :: ns) := by
  have hn : n ≤ b.length := (hle n (by simp)).2
  obtain ⟨more, rest, hgrown, hmore⟩ := hh.grow (b.drop n)
  rw [List.take_append_drop] at hgrown
  obtain ⟨hfind, hopen, hcut⟩ := find_closing hn hh hmore ns
  have hearly := earlyCut_iff hgrown hfind
  obtain ⟨hfinish, hwait⟩ := feed_content (r := atBody (b.take n) h closing) rfl
    (fun k hk => (hle k hk).2) hlast
  obtain ⟨hsingle, hsingleWait⟩ := parse_closedHead hgrown hne hy
  have hcond : (atBody (b.take n) h closing).contentLength ≤
      (b.length : Int) - (atBody (b.take n) h closing).cur ↔
        h.contentLength ≤ (b.length : Int) - (h.bytes.length + closing.length : Nat) := by
    rw [atBody_contentLength, atBody_cur]
  have hlen : b.length = h.bytes.length + (closing ++ more).length + rest.length := by
    rw [hgrown.data_eq]
    simp only [List.length_append]
    omega
  have hlength : (closing ++ more).length = closing.length + more.length := List.length_append
  by_cases hroom : h.contentLength ≤ (b.length : Int) - (h.bytes.length + closing.length : Nat)
  · obtain ⟨k, hk, hfeed⟩ := hfinish (hcond.mpr hroom)
    have hxeq : x = finish (.finishOk, atContent (b.take k) h (h.bytes.length + closing.length)) := by
      rw [hx] at hfeed
      rw [Option.some.inj hfeed]
      unfold atContent
      rw [afterHead_of_data (b.take n) (b.take k) h, ← atBody_cur (b.take n) h closing]
      rfl
    by_cases hbody : h.contentLength ≤ (rest.length : Int)
    · have hdata : ∃ back, b.take k = h.bytes ++ back := by
        refine ⟨(closing ++ more ++ rest).take (k - h.bytes.length), ?_⟩
        have hlt : h.bytes.length ≤ n := by
          have hlen' := congrArg List.length hh.data_eq
          rw [List.length_take, Nat.min_eq_left hn] at hlen'
          simp only [List.length_append] at hlen'
          omega
        have hkn := (hle k hk).1
        conv_lhs => rw [hgrown.data_eq]
        rw [List.take_append, List.take_of_length_le (by omega)]
      obtain ⟨back, hback⟩ := hdata
      rw [hxeq, hsingle hbody,
        sameOutcome_finish rfl rfl (atContent_inRange hback _) (atContent_inRange hgrown.data_eq _)
          (by
            unfold atContent
            rw [afterHead_of_data b (b.take k) h]
            exact ⟨rfl, rfl, rfl, rfl, rfl, rfl, rfl, rfl⟩)
          (by rw [atContent_urlBytes hback, atContent_urlBytes hgrown.data_eq]),
        atContent_urlBytes hback, hearly]
      show (_ → h.bytes.length + closing.length = h.bytes.length + (closing ++ more).length) ↔ _
      by_cases hm : more = []
      · have heq : h.bytes.length + closing.length = h.bytes.length + (closing ++ more).length := by
          rw [hm, List.append_nil]
        exact ⟨fun _ hbad => absurd hm (hopen.mp hbad.2.1), fun _ _ => heq⟩
      · have hpos := List.length_pos_iff.mpr hm
        have hnc := hcut hm
        constructor
        · rintro hsame ⟨_, _, _, hor | hor⟩
          · have := hsame hor
            omega
          · omega
        · intro hnot hacc
          exact absurd ⟨hne, hopen.mpr hm, by omega, Or.inl hacc⟩ hnot
    · -- Only the request in pieces finds enough bytes behind the cut.
      have hm : more ≠ [] := by
        rintro rfl
        rw [List.append_nil] at hlen
        omega
      have hnc := hcut hm
      constructor
      · intro hsame
        have hverdict := hsame.verdict
        rw [congrArg Prod.fst (hsingleWait hbody), hxeq] at hverdict
        exact absurd hverdict (postParse_ne_needMoreData _)
      · intro hnot
        exact absurd (hearly.mpr ⟨hne, hopen.mpr hm, by omega, Or.inr (by omega)⟩) hnot
  · obtain ⟨r', hfeed⟩ := hwait (fun h => hroom (hcond.mp h))
    rw [hx] at hfeed
    have hbody : ¬ h.contentLength ≤ (rest.length : Int) := by omega
    have hsame : SameOutcome x y := by
      refine sameOutcome_of_verdict ?_ ?_
      · rw [Option.some.inj hfeed, hsingleWait hbody]
      · rw [Option.some.inj hfeed]
        simp
    refine ⟨fun _ hbad => ?_, fun _ => hsame⟩
    obtain ⟨_, hlt, hle', _⟩ := hearly.mp hbad
    have hnc := hcut (hopen.mp hlt)
    omega

/-! ## Any pieces -/

theorem feed_congr {r s : HttpRequest} {b : Bytes} {n : Nat}
    (h : parse r (b.take n) = parse s (b.take n)) (ns : List Nat) :
    feed r b (n :: ns) = feed s b (n :: ns) := by
  unfold feed
  rw [h]

/-- A piece that does not bring the parser into the body does not close a head with one. -/
theorem earlyCut_cons {b : Bytes} {n : Nat} {ns : List Nat} {last : HttpRequest}
    {result : ParseResult} (hv : Visits (startState (b.take n) []) last)
    (hstate : last.state ≠ .content) (hreturns : last.iteration.2 = some result) :
    EarlyCut b (n :: ns) ↔ EarlyCut b ns := by
  have hnot : ∀ {h : Head} {closing body : Bytes}, ClosedHead b h closing body →
      h.contentLength ≠ 0 → ¬ 1 < lineBreakCounter (closing.take (n - h.bytes.length)) :=
    fun hh hne htwo => hstate ((hh.take htwo).stops hne hv hreturns)
  constructor
  · rintro ⟨h, closing, body, k, hh, hne, hfind, hrest⟩
    rw [List.find?_cons_of_neg (by simpa using hnot hh hne)] at hfind
    exact ⟨h, closing, body, k, hh, hne, hfind, hrest⟩
  · rintro ⟨h, closing, body, k, hh, hne, hfind, hrest⟩
    refine ⟨h, closing, body, k, hh, hne, ?_, hrest⟩
    rw [List.find?_cons_of_neg (by simpa using hnot hh hne)]
    exact hfind

/-- A request that does not go into the body when all bytes are there is not cut early. -/
theorem not_earlyCut {b : Bytes} {ns : List Nat} {s : HttpRequest} {result : ParseResult}
    (hv : Visits (startState b []) s) (hstate : s.state ≠ .content)
    (hreturns : s.iteration.2 = some result) : ¬ EarlyCut b ns := by
  rintro ⟨h, closing, body, _, hh, hne, _⟩
  exact hstate (hh.stops hne hv hreturns)

theorem feed_waiting {b : Bytes} {ns : List Nat} {r : HttpRequest}
    {x y : ParseResult × HttpRequest} (hw : Waiting b r)
    (hns : (r.size :: ns).Pairwise (· ≤ ·)) (hlast : (r.size :: ns).getLast? = some b.length)
    (hle : ∀ k ∈ ns, k ≤ b.length) (hx : feed r b ns = some x) (hy : parse {} b = some y) :
    SameOutcome x y ↔ ¬ EarlyCut b ns := by
  induction ns generalizing r with
  | nil =>
    have hsize : r.size = b.length := by simpa using hlast
    have hv : Visits (startState b []) r := by
      have hvisits := hw.visits
      rwa [hw.data, hsize, List.take_length] at hvisits
    obtain ⟨w, ⟨s, hs, hws⟩, hfin⟩ := parse_outcome hy
    have hwr := (outcome_unique (x := (.needMoreData, r)) hv hw.returns hs hws).2
    have hyverdict : y.1 = .needMoreData := by
      rw [← hfin, ← hwr]
      rfl
    have hxr : x = (.needMoreData, r) := (Option.some.inj hx).symm
    refine ⟨?_, fun _ => sameOutcome_of_verdict (by rw [hxr, hyverdict]) (by rw [hxr]; simp)⟩
    rintro _ ⟨_, _, _, _, _, _, hfind, _⟩
    simp at hfind
  | cons n ns ih =>
    have hgrow : r.size ≤ n := (List.pairwise_cons.mp hns).1 n (by simp)
    have hsorted := (List.pairwise_cons.mp hns).2
    have hn : n ≤ b.length := hle n (by simp)
    have hlast' : (n :: ns).getLast? = some b.length := by simpa using hlast
    cases hparse : parse r (b.take n) with
    | none =>
      unfold feed at hx
      rw [hparse] at hx
      simp at hx
    | some answer =>
      obtain ⟨last, z, hv, hz, hfin⟩ :=
        hw.parse_outcome hgrow hparse
      by_cases hstate : last.state = .content
      · obtain ⟨h, closing, body, hh, hne, hbody⟩ := atBody_of_content hv hstate
        have hdata : { last with data := b.take n } = last := by
          rw [show b.take n = last.data from hv.data.symm]
        have hsame : parse r (b.take n) = parse last (b.take n) := by
          rw [parse_returns (r := last) (by rw [hdata]; exact hz), hparse, hfin]
        rw [feed_congr hsame, hbody] at hx
        refine feed_atBody (fun k hk => ⟨?_, hle k hk⟩) hlast' hh hne hx hy
        rcases List.mem_cons.mp hk with rfl | hk
        · exact Nat.le_refl k
        · exact (List.pairwise_cons.mp hsorted).1 k hk
      · by_cases hmore : z.1 = .needMoreData
        · obtain ⟨hw', hsize, _⟩ :=
            waiting_of_needMoreData hn hv hstate (by rw [hmore] at hz; exact hz)
          have hanswer : answer = (.needMoreData, z.2) := by
            rw [← hfin, finish_of_ne (by rw [hmore]; decide), ← hmore]
          rw [feed_needMoreData (by rw [hparse, hanswer]) ns] at hx
          rw [earlyCut_cons hv hstate (by rw [hz])]
          exact ih hw' (by rw [hsize]; exact hsorted) (by rw [hsize]; exact hlast')
            (fun k hk => hle k (List.mem_cons_of_mem n hk)) hx
        · obtain ⟨hsame, s, hs, hsstate, hsreturns⟩ := sameOutcome_extend hv hstate hz hmore
            (show parse {} (b.take n ++ b.drop n) = some y by rw [List.take_append_drop]; exact hy)
          rw [List.take_append_drop] at hs
          have hverdict : answer.1 ≠ .needMoreData := by
            rw [show answer.1 = (finish z).1 by rw [hfin]]
            exact fun h => hmore ((finish_needMoreData z).mp h)
          have hxa : x = finish z := by
            rw [feed_verdict hparse hverdict ns] at hx
            rw [hfin]
            exact (Option.some.inj hx).symm
          rw [hxa]
          exact ⟨fun _ => not_earlyCut hs hsstate hsreturns, fun _ => hsame⟩

theorem feed_stands {b : Bytes} {ns : List Nat} {r : HttpRequest} {x : ParseResult × HttpRequest}
    (hr : SessionInv b r) (hns : (r.size :: ns).Pairwise (· ≤ ·)) (hle : ∀ k ∈ ns, k ≤ b.length)
    (hx : feed r b ns = some x) : Stands x := by
  induction ns generalizing r with
  | nil =>
    intro hne
    rw [show x = (.needMoreData, r) from (Option.some.inj hx).symm] at hne
    exact absurd rfl hne
  | cons n ns ih =>
    have hgrow : r.size ≤ n := (List.pairwise_cons.mp hns).1 n (by simp)
    cases hparse : parse r (b.take n) with
    | none =>
      unfold feed at hx
      rw [hparse] at hx
      simp at hx
    | some answer =>
      obtain ⟨result, r'⟩ := answer
      have hparses : Parses r (b.take n) result r' := ⟨_, hparse⟩
      by_cases hmore : result = .needMoreData
      · rw [hmore] at hparse
        rw [feed_needMoreData hparse] at hx
        have hsize : r'.size = n := by
          unfold size
          rw [hparses.data, List.length_take, Nat.min_eq_left (hle n (by simp))]
        exact ih (hr.call hgrow hparses) (by rw [hsize]; exact (List.pairwise_cons.mp hns).2)
          (fun k hk => hle k (List.mem_cons_of_mem n hk)) hx
      · rw [feed_verdict hparse hmore] at hx
        obtain ⟨z, ⟨last, hv, hz⟩, hfin⟩ := parse_outcome hparse
        have hzne : z.1 ≠ .needMoreData := fun h =>
          hmore (by rw [← (finish_needMoreData z).mpr h, hfin])
        have hsettled := settled_finish ((hr.begin hgrow).1.visits hv) hz hzne
        rw [hfin, Option.some.inj hx] at hsettled
        exact fun _ es => hsettled.verdicts es

theorem le_of_pairwise_last {ns : List Nat} {total : Nat} (hinc : ns.Pairwise (· < ·))
    (hlast : ns.getLast? = some total) : ∀ k ∈ ns, k ≤ total := by
  intro k hk
  obtain ⟨front, rfl⟩ := List.getLast?_eq_some_iff.mp hlast
  rcases List.mem_append.mp hk with hk | hk
  · exact Nat.le_of_lt ((List.pairwise_append.mp hinc).2.2 k hk total (by simp))
  · exact Nat.le_of_eq (List.mem_singleton.mp hk)

/-- A fresh request that is given `b` in pieces reports what it reports for all of `b` at
once, and its verdict stands, unless the pieces cut the closing run early. -/
theorem feed_agrees_iff {b : Bytes} {ns : List Nat} {x y : ParseResult × HttpRequest}
    (hinc : ns.Pairwise (· < ·)) (hlast : ns.getLast? = some b.length)
    (hx : feed {} b ns = some x) (hy : parse {} b = some y) :
    (SameOutcome x y ∧ Stands x) ↔ ¬ EarlyCut b ns := by
  have hle := le_of_pairwise_last hinc hlast
  have hsorted : (HttpRequest.size {} :: ns).Pairwise (· ≤ ·) :=
    List.pairwise_cons.mpr ⟨fun k _ => Nat.zero_le k, hinc.imp Nat.le_of_lt⟩
  have hne : ns ≠ [] := by
    rintro rfl
    simp at hlast
  have hlast' : (HttpRequest.size {} :: ns).getLast? = some b.length := by
    obtain ⟨n, ns, rfl⟩ := List.exists_cons_of_ne_nil hne
    simpa using hlast
  have hagree := feed_waiting (waiting_fresh b) hsorted hlast' hle hx hy
  have hstands := feed_stands (sessionInv_start b {}) hsorted hle hx
  exact ⟨fun h => hagree.mp h.1, fun h => ⟨hagree.mpr h, hstands⟩⟩

/-- `GET /a H`, `Content-Length:1`, the empty line, and a body of one line feed. -/
def breakBody : Bytes :=
  [71, 69, 84, 32, 47, 97, 32, 72, 13, 10, 67, 111, 110, 116, 101, 110, 116, 45, 76, 101,
   110, 103, 116, 104, 58, 49, 13, 10, 13, 10, 10]

theorem feed_agrees_iff_breakBody :
    ∃ x y, feed {} breakBody [30, 31] = some x ∧ parse {} breakBody = some y ∧
      ((SameOutcome x y ∧ Stands x) ↔ ¬ EarlyCut breakBody [30, 31]) := by
  have hfeed : (feed {} breakBody [30, 31]).isSome = true := by decide +kernel
  have hparse : (parse {} breakBody).isSome = true := by decide +kernel
  obtain ⟨x, hx⟩ := Option.isSome_iff_exists.mp hfeed
  obtain ⟨y, hy⟩ := Option.isSome_iff_exists.mp hparse
  exact ⟨x, y, hx, hy, feed_agrees_iff (by decide) (by decide) hx hy⟩

/-- The body is found when the piece ends with the head, and taken for a part of the closing run
when it is there at once. -/
theorem breakBody_disagrees :
    [30, 31].Pairwise (· < ·) ∧ [30, 31].getLast? = some breakBody.length ∧
      ∃ x y, feed {} breakBody [30, 31] = some x ∧ parse {} breakBody = some y ∧
        x.1 = .finishOk ∧ y.1 = .needMoreData ∧ ¬ SameOutcome x y := by
  refine ⟨by decide, by decide, ?_⟩
  have hfeed : (feed {} breakBody [30, 31]).map Prod.fst = some .finishOk := by decide +kernel
  have hparse : (parse {} breakBody).map Prod.fst = some .needMoreData := by decide +kernel
  obtain ⟨x, hx, hxv⟩ := Option.map_eq_some_iff.mp hfeed
  obtain ⟨y, hy, hyv⟩ := Option.map_eq_some_iff.mp hparse
  refine ⟨x, y, hx, hy, hxv, hyv, fun h => ?_⟩
  have hverdict := h.verdict
  rw [hxv, hyv] at hverdict
  exact absurd hverdict (by decide)

end HttpRequest
end EpollHttp
