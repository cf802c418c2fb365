import EpollHttp.HttpRequest.Termination
import EpollHttp.HttpRequest.PostParse

/-
Sequences of `parse` calls on growing prefixes of one byte string.

A session begins with a reset request.  As long as its state is in front of the space behind
the target, that state is one the parser also visits when it reads the visible bytes from
the start.  From that space on no round waits inside the URL parameters any more.
-/

namespace EpollHttp
namespace HttpRequest

open CString

/-- The states reached by `parse` calls on growing prefixes of `b`. -/
inductive Session (b : Bytes) : HttpRequest → Prop
  | start (r : HttpRequest) : Session b r.reset
  | call {r r' : HttpRequest} {n : Nat} {result : ParseResult} (hr : Session b r)
      (hgrow : r.size ≤ n) (hn : n ≤ b.length) (hparse : Parses r (b.take n) result r') :
      Session b r'

/-- A request line cut inside its URL parameters. -/
def CutInUrlParameters (data : Bytes) : Prop :=
  ∃ t : Target, data = t.method ++ (t.spaces ++ (t.url ++ question :: t.params)) ∧
    (∀ c ∈ t.method, isUpper c = true) ∧ t.spaces ≠ [] ∧ (∀ c ∈ t.spaces, c = space) ∧
    (∀ c ∈ t.url, readUrlSymbols c = true) ∧ space ∉ t.params

/-! ## Early and late states -/

/-- The states in front of the space behind the target. -/
def Early : State → Prop
  | .method | .spaceAfterMethod | .url | .urlParameters => True
  | _ => False

theorem Next.late {r r' : HttpRequest} (hr : ¬ Early r.state) (h : Next r r') :
    ¬ Early r'.state := by
  unfold Next iteration at h
  split at h <;> rename_i hstate
  · exact absurd (by rw [hstate]; trivial) hr
  · exact absurd (by rw [hstate]; trivial) hr
  · exact absurd (by rw [hstate]; trivial) hr
  · exact absurd (by rw [hstate]; trivial) hr
  · obtain ⟨_, _, _, _, _, _, _, _, rfl⟩ := iterSpaceAfterUrl_next h
    exact not_false
  · obtain ⟨_, _, _, _, rfl⟩ := iterHeaderKey_next h
    exact not_false
  · obtain ⟨_, _, _, _, _, _, _, rfl⟩ := iterHeaderSpace_next h
    exact not_false
  · obtain ⟨_, _, _, _, _, _, _, rfl⟩ := iterHeaderValue_next h
    exact not_false
  · obtain ⟨_, _, _, _, _, _, _, rfl⟩ | ⟨_, _, rfl⟩ := iterHeaderLineBreak_next h
    · exact not_false
    · exact not_false
  · exact absurd (congrArg Prod.snd h) (iterContent_returns r)
  · simp at h
  · simp at h

theorem Visits.late {r r' : HttpRequest} (hr : ¬ Early r.state) (h : Visits r r') :
    ¬ Early r'.state := by
  induction h with
  | refl => exact hr
  | tail _ hstep ih => exact hstep.late ih

theorem Stuck.early {r : HttpRequest} (h : Stuck r) : Early r.state := by
  rw [h.1]
  trivial

/-! ## Where the parser gets stuck -/

theorem cut_visits_stuck {data : Bytes} (urlBuffer : Bytes) (h : CutInUrlParameters data) :
    ∃ s, Visits (startState data urlBuffer) s ∧ Stuck s := by
  obtain ⟨t, hdata, hmethod, hne, hspaces, hurl, hparams⟩ := h
  refine ⟨_, visits_urlParameters hdata hmethod hne hspaces hurl, rfl, ?_⟩
  have hrest : ((afterSpaces data urlBuffer t).tookUrl t.url .urlParameters).rest =
      question :: t.params := rest_of_cur (rest_afterSpaces hdata) rfl rfl
  rw [hrest, List.mem_cons]
  rintro (h | h)
  · exact absurd h (by decide)
  · exact hparams h

theorem stuck_is_cut {data urlBuffer : Bytes} {s : HttpRequest}
    (hv : Visits (startState data urlBuffer) s) (hs : Stuck s) : CutInUrlParameters data := by
  obtain ⟨hstate, hspace⟩ := hs
  cases visits_shape hv
  case urlParameters t tail hdata hmethod hne hspaces hurl =>
    refine ⟨⟨t.method, t.spaces, t.url, tail⟩, hdata, hmethod, hne, hspaces, hurl, fun hmem => ?_⟩
    have hrest : ((afterSpaces data urlBuffer t).tookUrl t.url .urlParameters).rest =
        question :: tail := rest_of_cur (rest_afterSpaces hdata) rfl rfl
    rw [hrest] at hspace
    exact hspace (List.mem_cons_of_mem _ hmem)
  all_goals simp [startState, tookMethod, afterSpaces, tookSpaces, tookKey, tookSep,
    tookClosing] at hstate

/-- A visited state behind the target rules out that the bytes are cut inside the URL
parameters. -/
theorem late_not_cut {data urlBuffer : Bytes} {r : HttpRequest}
    (hv : Visits (startState data urlBuffer) r) (hr : ¬ Early r.state) :
    ¬ CutInUrlParameters data := by
  intro hcut
  obtain ⟨s, hs, hstuck⟩ := cut_visits_stuck urlBuffer hcut
  rcases visits_linear hs hv with h | h
  · exact hr (hstuck.visits_self h ▸ hstuck.early)
  · exact h.late hr hstuck.early

/-- Every late state leaves the space behind the target in the data. -/
theorem Shape.target {data urlBuffer : Bytes} {r : HttpRequest} (h : Shape data urlBuffer r)
    (hr : ¬ Early r.state) :
    ∃ (t : Target) (tail : Bytes), data = t.bytes ++ space :: tail ∧ t.WellFormed := by
  have hline : ∀ (l : RequestLine) (back : Bytes), data = l.bytes ++ back → l.WellFormed →
      ∃ (t : Target) (tail : Bytes), data = t.bytes ++ space :: tail ∧ t.WellFormed := by
    intro l back hdata hl
    cases htail : l.tail with
    | nil => exact absurd hl.tail_head (by simp [htail])
    | cons c tail =>
      have hc : c = space := by simpa [htail] using hl.tail_head
      exact ⟨l.target, tail ++ (l.lineBreak ++ back), by
        rw [hdata, RequestLine.bytes, htail, hc]; simp, hl.target⟩
  cases h with
  | method => exact absurd trivial hr
  | spaceAfterMethod _ _ _ _ => exact absurd trivial hr
  | url _ _ _ _ _ _ _ _ _ => exact absurd trivial hr
  | urlParameters _ _ _ _ _ _ _ => exact absurd trivial hr
  | spaceAfterUrl t tail hdata ht => exact ⟨t, tail, hdata, ht⟩
  | headerKey l lines c tail hdata hl _ _ => exact hline l _ hdata hl
  | headerSpace l lines key tail hdata hl _ _ => exact hline l _ hdata hl
  | headerValue l lines key sep c tail hdata hl _ _ _ _ _ _ => exact hline l _ hdata hl
  | headerLineBreak h c tail hdata hh _ =>
    exact hline h.requestLine _ (by rw [hdata, Head.bytes, List.append_assoc]) hh.requestLine
  | content h closing body hh _ =>
    exact hline h.requestLine _ (by rw [hh.data_eq, Head.bytes, List.append_assoc])
      hh.head.requestLine

theorem late_never_cut {data urlBuffer : Bytes} {r : HttpRequest}
    (hv : Visits (startState data urlBuffer) r) (hr : ¬ Early r.state) (e : Bytes) :
    ¬ CutInUrlParameters (data ++ e) := by
  obtain ⟨t, tail, hdata, ht⟩ := (visits_shape hv).target hr
  have htarget : Visits (startState (data ++ e) urlBuffer) (afterTarget (data ++ e) urlBuffer t) :=
    visits_afterTarget (show data ++ e = t.bytes ++ space :: (tail ++ e) by
      rw [hdata, List.append_assoc, List.cons_append]) ht
  refine late_not_cut htarget ?_
  rw [afterTarget_state]
  exact not_false

/-! ## What a call leaves behind -/

/-- A round that returns changes the headers, or the content start and the state. -/
theorem iteration_returns {r r' : HttpRequest} {result : ParseResult}
    (h : r.iteration = (r', some result)) :
    (r' = r ∧ (result = .finishOk → r.state = .finishOk)) ∨
    (r.state = .headerValue ∧ result = .finishInvalid ∧
      ∃ headers, r' = { r with headers := headers }) ∨
    (result = .finishOk ∧ r.state = .headerLineBreak ∧ r.contentLength = 0 ∧
      r' = { r with state := .finishOk }) ∨
    (result = .finishOk ∧ r.state = .content ∧ r.contentLength ≤ (r.size : Int) - r.cur ∧
      r' = { r with contentStart := r.cur, state := .finishOk }) := by
  have hsame : ∀ {x : ParseResult}, (r, some x) = (r', some result) → x ≠ .finishOk →
      r' = r ∧ (result = .finishOk → r.state = .finishOk) := by
    intro x heq hx
    rw [Prod.mk.injEq, Option.some.injEq] at heq
    exact ⟨heq.1.symm, fun hr => absurd (heq.2.trans hr) hx⟩
  unfold iteration at h
  split at h <;> rename_i hstate
  · unfold iterMethod at h
    split at h
    · simp at h
    · exact Or.inl (hsame h (by decide))
    · exact Or.inl (hsame h (by decide))
  · unfold iterSpaceAfterMethod at h
    split at h
    · simp at h
    · exact Or.inl (hsame h (by decide))
    · exact Or.inl (hsame h (by decide))
  · unfold iterUrl at h
    split at h
    · simp at h
    · simp at h
    · exact Or.inl (hsame h (by decide))
    · exact Or.inl (hsame h (by decide))
  · unfold iterUrlParameters at h
    split at h <;> simp at h
  · unfold iterSpaceAfterUrl at h
    split at h
    · simp at h
    · exact Or.inl (hsame h (by decide))
    · exact Or.inl (hsame h (by decide))
  · unfold iterHeaderKey at h
    split at h
    · simp at h
    · exact Or.inl (hsame h (by decide))
    · exact Or.inl (hsame h (by decide))
  · unfold iterHeaderSpace at h
    split at h
    · simp at h
    · exact Or.inl (hsame h (by decide))
    · exact Or.inl (hsame h (by decide))
  · unfold iterHeaderValue at h
    split at h
    · dsimp only at h
      split at h
      · split at h
        · rw [Prod.mk.injEq, Option.some.injEq] at h
          exact Or.inr (Or.inl ⟨hstate, h.2.symm, _, h.1.symm⟩)
        · simp at h
      · simp at h
    · exact Or.inl (hsame h (by decide))
    · exact Or.inl (hsame h (by decide))
  · unfold iterHeaderLineBreak at h
    split at h
    · simp at h
    · split at h
      · rename_i hzero
        rw [Prod.mk.injEq, Option.some.injEq] at h
        exact Or.inr (Or.inr (Or.inl ⟨h.2.symm, hstate, hzero, h.1.symm⟩))
      · simp at h
    · exact Or.inl (hsame h (by decide))
    · exact Or.inl (hsame h (by decide))
  · unfold iterContent at h
    split at h
    · rename_i hle
      rw [Prod.mk.injEq, Option.some.injEq] at h
      exact Or.inr (Or.inr (Or.inr ⟨h.2.symm, hstate, hle, h.1.symm⟩))
    · exact Or.inl (hsame h (by decide))
  · rw [Prod.mk.injEq] at h
    exact Or.inl ⟨h.1.symm, fun _ => hstate⟩
  · exact Or.inl (hsame h (by decide))

/-- What a call leaves behind differs from the last visited state in the fields that the last
round and `postParse` write, and not at all in front of the space behind the target. -/
theorem Parses.last {r r' : HttpRequest} {data : Bytes} {result : ParseResult}
    (h : Parses r data result r') :
    ∃ last, Visits { r with data := data } last ∧ (Early last.state → r' = last) ∧
      ∃ headers contentStart urlBuffer state,
        r' = { last with
                headers := headers, contentStart := contentStart, urlBuffer := urlBuffer,
                state := state } ∧
        (state = last.state ∨ state = .finishOk ∨ state = .invalid) := by
  obtain ⟨last, ⟨answer, left⟩, hvisits, hlast, hfinish⟩ := parses_iff.mp h
  refine ⟨last, hvisits, ?_⟩
  have hplain : answer ≠ .finishOk → r' = left := by
    intro hne
    cases answer
    · exact absurd rfl hne
    · exact (congrArg Prod.snd hfinish).symm
    · exact (congrArg Prod.snd hfinish).symm
  have hpost : answer = .finishOk → r' = left.postParse.2 := by
    rintro rfl
    exact (congrArg Prod.snd hfinish).symm
  rcases iteration_returns hlast with
    ⟨rfl, hok⟩ | ⟨hstate, rfl, headers, hleft⟩ | ⟨rfl, hstate, _, hleft⟩ | ⟨rfl, hstate, _, hleft⟩
  · by_cases hans : answer = .finishOk
    · obtain ⟨urlBuffer, state, heq, hstate⟩ := left.postParse_eq
      refine ⟨fun he => ?_, left.headers, left.contentStart, urlBuffer, state,
        by rw [hpost hans, heq], ?_⟩
      · rw [hok hans] at he
        exact absurd he not_false
      · rcases hstate with h | h
        · exact Or.inl h
        · exact Or.inr (Or.inr h)
    · exact ⟨fun _ => hplain hans, left.headers, left.contentStart, left.urlBuffer, left.state,
        hplain hans, Or.inl rfl⟩
  · refine ⟨fun he => ?_, headers, last.contentStart, last.urlBuffer, last.state, ?_, Or.inl rfl⟩
    · rw [hstate] at he
      exact absurd he not_false
    · rw [hplain (by decide), show left = _ from hleft]
  · obtain ⟨urlBuffer, state, heq, hst⟩ := left.postParse_eq
    refine ⟨fun he => ?_, last.headers, last.contentStart, urlBuffer, state, ?_, ?_⟩
    · rw [hstate] at he
      exact absurd he not_false
    · rw [hpost rfl, heq, show left = _ from hleft]
    · rw [show left = _ from hleft] at hst
      exact Or.inr hst
  · obtain ⟨urlBuffer, state, heq, hst⟩ := left.postParse_eq
    refine ⟨fun he => ?_, last.headers, last.cur, urlBuffer, state, ?_, ?_⟩
    · rw [hstate] at he
      exact absurd he not_false
    · rw [hpost rfl, heq, show left = _ from hleft]
    · rw [show left = _ from hleft] at hst
      exact Or.inr hst

/-! ## The invariant of a session -/

structure SessionInv (b : Bytes) (r : HttpRequest) : Prop where
  inRange : InRange r
  atBreak : AtBreak r
  data : r.data = b.take r.size
  early : Early r.state → ∃ urlBuffer, Visits (startState r.data urlBuffer) r
  late : ¬ Early r.state → ∀ e, ¬ CutInUrlParameters (r.data ++ e)

theorem sessionInv_start (b : Bytes) (r : HttpRequest) : SessionInv b r.reset where
  inRange := inRange_start [] r.urlBuffer
  atBreak := fun h => by simp [reset] at h
  data := by simp [reset, size]
  early := fun _ => ⟨r.urlBuffer, Relation.ReflTransGen.refl⟩
  late := fun h => absurd trivial h

/-- The request as the next call begins it sees its old data and more. -/
theorem SessionInv.grow {b : Bytes} {r : HttpRequest} {n : Nat} (h : SessionInv b r)
    (hgrow : r.size ≤ n) : ∃ e, { r with data := b.take n } = r.extend e := by
  refine ⟨(b.take n).drop r.size, ?_⟩
  have hfront : r.data = (b.take n).take r.size := by
    rw [List.take_take, Nat.min_eq_left hgrow]
    exact h.data
  unfold extend
  conv_rhs => rw [hfront, List.take_append_drop]

theorem SessionInv.visits_early {b : Bytes} {r : HttpRequest} (h : SessionInv b r)
    (he : Early r.state) (e : Bytes) :
    ∃ urlBuffer, Visits (startState (r.data ++ e) urlBuffer) (r.extend e) := by
  obtain ⟨urlBuffer, hv⟩ := h.early he
  have hstate : r.state ≠ .content := fun hc => by rw [hc] at he; exact he
  exact ⟨urlBuffer, hv.extend (inRange_start _ _) e hstate⟩

theorem SessionInv.call {b : Bytes} {r r' : HttpRequest} {n : Nat} {result : ParseResult}
    (h : SessionInv b r) (hgrow : r.size ≤ n) (hparse : Parses r (b.take n) result r') :
    SessionInv b r' := by
  obtain ⟨e, he⟩ := h.grow hgrow
  obtain ⟨last, hvisits, hsame, headers, contentStart, urlBuffer, state, hr', hstate⟩ :=
    hparse.last
  have hdata : last.data = b.take n := hvisits.data
  have hnext : b.take n = r.data ++ e := congrArg HttpRequest.data he
  rw [he] at hvisits
  have hrange : InRange last := (h.inRange.extend e).visits hvisits
  have hbreak : AtBreak last := by
    rcases Relation.ReflTransGen.cases_tail hvisits with heq | ⟨prev, _, hprev⟩
    · rw [heq]
      exact h.atBreak.extend h.inRange e
    · exact AtBreak.next hprev
  have hr'state : r'.state = state := by rw [hr']
  have hr'data : r'.data = b.take n := by rw [hr']; exact hdata
  refine ⟨?_, ?_, ?_, ?_, ?_⟩
  · rw [hr']
    exact ⟨hrange.cur, hrange.curKey, hrange.url⟩
  · intro hline
    rw [hr'state] at hline
    rcases hstate with hs | hs | hs
    · obtain ⟨c, tail, hc⟩ := hbreak (hs ▸ hline)
      exact ⟨c, tail, by rw [hr']; exact hc.1, hc.2⟩
    · rw [hs] at hline
      simp at hline
    · rw [hs] at hline
      simp at hline
  · rw [hr'data, size, hr'data, List.length_take, List.take_eq_take_iff]
    omega
  · intro hearly
    have hlast : Early last.state := by
      rw [hr'state] at hearly
      rcases hstate with hs | hs | hs
      · exact hs ▸ hearly
      · rw [hs] at hearly
        exact absurd hearly not_false
      · rw [hs] at hearly
        exact absurd hearly not_false
    have hr : Early r.state := by
      by_contra hlate
      exact Visits.late (show ¬ Early (r.extend e).state from hlate) hvisits hlast
    obtain ⟨ub, hstart⟩ := h.visits_early hr e
    rw [hsame hlast, hdata, hnext]
    exact ⟨ub, hstart.trans hvisits⟩
  · intro hlate e'
    rw [hr'data, hnext]
    by_cases hr : Early r.state
    · have hlast : ¬ Early last.state := fun hl => hlate (hsame hl ▸ hl)
      obtain ⟨ub, hstart⟩ := h.visits_early hr e
      exact late_never_cut (hstart.trans hvisits) hlast e'
    · rw [List.append_assoc]
      exact h.late hr (e ++ e')

theorem session_inv {b : Bytes} {r : HttpRequest} (h : Session b r) : SessionInv b r := by
  induction h with
  | start r => exact sessionInv_start b r
  | call _ hgrow _ hparse ih => exact ih.call hgrow hparse

/-- A further call visits a stuck state exactly when its data is cut inside the URL
parameters. -/
theorem SessionInv.stuck_iff {b : Bytes} {r : HttpRequest} {n : Nat} (h : SessionInv b r)
    (hgrow : r.size ≤ n) :
    (∃ s, Stuck s ∧ (Visits { r with data := b.take n } s ∨ Visits s { r with data := b.take n })) ↔
      CutInUrlParameters (b.take n) := by
  obtain ⟨e, he⟩ := h.grow hgrow
  have hnext : b.take n = r.data ++ e := congrArg HttpRequest.data he
  rw [he, hnext]
  by_cases hr : Early r.state
  · obtain ⟨ub, hstart⟩ := h.visits_early hr e
    constructor
    · rintro ⟨s, hs, hv | hv⟩
      · exact stuck_is_cut (hstart.trans hv) hs
      · exact stuck_is_cut hstart (hs.visits_self hv ▸ hs)
    · intro hcut
      obtain ⟨s, hvisit, hs⟩ := cut_visits_stuck ub hcut
      exact ⟨s, hs, visits_linear hstart hvisit⟩
  · constructor
    · rintro ⟨s, hs, hv | hv⟩
      · exact absurd hs.early (Visits.late (show ¬ Early (r.extend e).state from hr) hv)
      · have heq : r.extend e = s := hs.visits_self hv
        rw [← heq] at hs
        exact absurd hs.early hr
    · exact fun hcut => absurd hcut (h.late hr e)

/-! ## When a call returns -/

/-- The loop over `data` returns, every round that goes on is forward, and so no visited state
comes back with the same state, position and size. -/
structure LoopReturns (r : HttpRequest) (data : Bytes) : Prop where
  returns : ∃ result r', Parses r data result r'
  forward : ∀ s s', Visits { r with data := data } s → Next s s' → Forward s s'
  noReturn : ∀ s s', Visits { r with data := data } s → Relation.TransGen Next s s' →
    ¬ (s'.state = s.state ∧ s'.cur = s.cur ∧ s'.size = s.size)

theorem Forward.trans {a b c : HttpRequest} (h : Forward a b) (h' : Forward b c) :
    Forward a c := by
  unfold Forward at h h' ⊢
  omega

theorem Forward.ne {a b : HttpRequest} (h : Forward a b) :
    ¬ (b.state = a.state ∧ b.cur = a.cur) := by
  rintro ⟨hstate, hcur⟩
  unfold Forward at h
  rw [hstate, hcur] at h
  omega

theorem AtBreak.visits {r r' : HttpRequest} (hr : AtBreak r) (h : Visits r r') : AtBreak r' := by
  rcases Relation.ReflTransGen.cases_tail h with heq | ⟨prev, _, hprev⟩
  · rw [heq]
    exact hr
  · exact AtBreak.next hprev

theorem loopReturns_of_not_stuck {r : HttpRequest} {data : Bytes}
    (hr : InRange { r with data := data }) (hb : AtBreak { r with data := data })
    (hs : ∀ s, Visits { r with data := data } s → ¬ Stuck s) : LoopReturns r data := by
  have hforward : ∀ s s', Visits { r with data := data } s → Next s s' → Forward s s' :=
    fun s s' hv hn => hn.forward (hb.visits hv) (hs s hv)
  refine ⟨?_, hforward, ?_⟩
  · obtain ⟨⟨result, r'⟩, hx⟩ := parseInternal_returns hr hb hs (Nat.lt_succ_self _)
    exact ⟨(finish (result, r')).1, (finish (result, r')).2, _, by
      rw [parseFuel_eq, hx, Option.map_some]⟩
  · intro s s' hv hpath
    have hfwd : Forward s s' := by
      induction hpath with
      | single hn => exact hforward s _ hv hn
      | tail hpath hn ih =>
        exact ih.trans (hforward _ _ (hv.trans hpath.to_reflTransGen) hn)
    rintro ⟨hstate, hcur, _⟩
    exact hfwd.ne ⟨hstate, hcur⟩

theorem SessionInv.begin {b : Bytes} {r : HttpRequest} {n : Nat} (h : SessionInv b r)
    (hgrow : r.size ≤ n) :
    InRange { r with data := b.take n } ∧ AtBreak { r with data := b.take n } := by
  obtain ⟨e, he⟩ := h.grow hgrow
  rw [he]
  exact ⟨h.inRange.extend e, h.atBreak.extend h.inRange e⟩

theorem SessionInv.not_cut {b : Bytes} {r r' : HttpRequest} {n : Nat} {result : ParseResult}
    (h : SessionInv b r) (hgrow : r.size ≤ n) (hparse : Parses r (b.take n) result r') :
    ¬ CutInUrlParameters (b.take n) := by
  intro hcut
  obtain ⟨fuel, hfuel⟩ := hparse
  rw [parseFuel_eq, Option.map_eq_some_iff] at hfuel
  obtain ⟨x, hx, _⟩ := hfuel
  obtain ⟨s, hs, hv | hv⟩ := (h.stuck_iff hgrow).mpr hcut
  · rw [hs.never_returns hv fuel] at hx
    simp at hx
  · rw [hs.visits_self hv, hs.never_returns Relation.ReflTransGen.refl fuel] at hx
    simp at hx

theorem SessionInv.loopReturns_iff {b : Bytes} {r : HttpRequest} {n : Nat}
    (h : SessionInv b r) (hgrow : r.size ≤ n) :
    LoopReturns r (b.take n) ↔ ¬ CutInUrlParameters (b.take n) := by
  constructor
  · rintro ⟨⟨result, r', hparse⟩, _, _⟩
    exact h.not_cut hgrow hparse
  · intro hcut
    obtain ⟨hrange, hbreak⟩ := h.begin hgrow
    exact loopReturns_of_not_stuck hrange hbreak
      (fun s hv hs => hcut ((h.stuck_iff hgrow).mp ⟨s, hs, Or.inl hv⟩))

/-- The bound of `parse` is never reached by a loop that returns. -/
theorem SessionInv.parse_eq_some_iff {b : Bytes} {r r' : HttpRequest} {n : Nat}
    {result : ParseResult} (h : SessionInv b r) (hgrow : r.size ≤ n) :
    parse r (b.take n) = some (result, r') ↔ Parses r (b.take n) result r' := by
  refine ⟨fun hparse => ⟨_, hparse⟩, fun hparse => ?_⟩
  obtain ⟨hrange, hbreak⟩ := h.begin hgrow
  have hcut := h.not_cut hgrow hparse
  have hbound : HttpRequest.measure { r with data := b.take n } < roundBound (b.take n) := by
    show 12 * ((b.take n).length - r.cur) + (11 - r.state.rank) < 12 * ((b.take n).length + 1) + 1
    omega
  obtain ⟨x, hx⟩ := parseInternal_returns hrange hbreak
    (fun s hv hs => hcut ((h.stuck_iff hgrow).mp ⟨s, hs, Or.inl hv⟩)) hbound
  have hsome : parse r (b.take n) = some (finish x) := by
    unfold parse
    rw [parseFuel_eq, hx, Option.map_some]
  obtain ⟨hresult, hr'⟩ := parses_unique ⟨_, hsome⟩ hparse
  rw [hsome]
  exact congrArg some (Prod.ext hresult hr')

/-- In every session and for every further prefix the loop returns, going forward all the way,
unless that prefix is cut inside the URL parameters. -/
theorem session_loopReturns_iff {b : Bytes} {r : HttpRequest} {n : Nat} (h : Session b r)
    (hgrow : r.size ≤ n) :
    LoopReturns r (b.take n) ↔ ¬ CutInUrlParameters (b.take n) :=
  (session_inv h).loopReturns_iff hgrow

/-- `GET /?a` -/
def cutTarget : Bytes := [71, 69, 84, 32, 47, 63, 97]

theorem cutTarget_cut : CutInUrlParameters cutTarget :=
  ⟨⟨[71, 69, 84], [space], [slash], [97]⟩, by decide, by decide +kernel, by decide, by decide +kernel,
    by decide +kernel, by decide⟩

/-- After `GET /` the parser waits for more of the URL. -/
theorem session_cutTarget :
    Session cutTarget
      { data := cutTarget.take 5, cur := 4, state := .url, methodLength := 3 } :=
  Session.call (Session.start {}) (Nat.zero_le 5) (by decide)
    ⟨4, (rfl : _ = some (ParseResult.needMoreData, _))⟩

theorem session_loopReturns_iff_cutTarget :
    LoopReturns { data := cutTarget.take 5, cur := 4, state := .url, methodLength := 3 }
      (cutTarget.take 7) ↔ ¬ CutInUrlParameters (cutTarget.take 7) :=
  session_loopReturns_iff session_cutTarget (by decide)

/-- A fresh request that is given `GET /?a` does not return. -/
theorem fresh_not_loopReturns :
    Session cutTarget {} ∧ ¬ LoopReturns {} (cutTarget.take 7) := by
  refine ⟨Session.start {}, fun h => ?_⟩
  exact ((sessionInv_start cutTarget {}).loopReturns_iff (Nat.zero_le 7)).mp h cutTarget_cut

end HttpRequest
end EpollHttp
