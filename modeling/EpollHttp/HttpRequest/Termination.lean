import EpollHttp.HttpRequest.Growth
import EpollHttp.HttpRequest.Accept

/-
When the parser loop returns.

Every round but one either returns or moves `(cur, state)` forward, so the loop runs at
most twelve rounds for each position.  The one is the round inside the URL parameters
that sees no space: it changes nothing and goes on.  A call returns exactly when its data is
not a request line cut inside the URL parameters.
-/

namespace EpollHttp
namespace HttpRequest

open CString

/-! ## Running the loop -/

theorem parseInternal_mono {fuel fuel' : Nat} {r : HttpRequest} {x : ParseResult × HttpRequest}
    (h : parseInternal fuel r = some x) (hle : fuel ≤ fuel') :
    parseInternal fuel' r = some x := by
  induction fuel generalizing r fuel' with
  | zero => simp [parseInternal] at h
  | succ fuel ih =>
    obtain ⟨k, rfl⟩ : ∃ k, fuel' = k + 1 := ⟨fuel' - 1, by omega⟩
    unfold parseInternal at h ⊢
    split at h
    · exact h
    · exact ih h (by omega)

/-- The loop returns from the round of some visited state. -/
theorem parseInternal_some {fuel : Nat} {r r' : HttpRequest} {result : ParseResult}
    (h : parseInternal fuel r = some (result, r')) :
    ∃ last, Visits r last ∧ last.iteration = (r', some result) := by
  induction fuel generalizing r with
  | zero => simp [parseInternal] at h
  | succ fuel ih =>
    unfold parseInternal at h
    split at h
    · rename_i a b hiter
      have heq := Option.some.inj h
      rw [Prod.mk.injEq] at heq
      exact ⟨r, Relation.ReflTransGen.refl, by rw [hiter, heq.1, heq.2]⟩
    · rename_i a hiter
      obtain ⟨last, hvisits, hlast⟩ := ih h
      exact ⟨last, Relation.ReflTransGen.head hiter hvisits, hlast⟩

theorem parseInternal_of_visits {r last r' : HttpRequest} {result : ParseResult}
    (hvisits : Visits r last) (hlast : last.iteration = (r', some result)) :
    ∃ fuel, parseInternal fuel r = some (result, r') := by
  induction hvisits using Relation.ReflTransGen.head_induction_on with
  | refl => exact ⟨1, by simp [parseInternal, hlast]⟩
  | head hstep _ ih =>
    obtain ⟨fuel, hfuel⟩ := ih
    refine ⟨fuel + 1, ?_⟩
    unfold parseInternal
    rw [show HttpRequest.iteration _ = (_, none) from hstep]
    exact hfuel

/-- `parse(data, size)` returned `result` and left `r'` behind. -/
def Parses (r : HttpRequest) (data : Bytes) (result : ParseResult) (r' : HttpRequest) : Prop :=
  ∃ fuel, parseFuel fuel r data = some (result, r')

/-- What `parse` does with the answer of `parseInternal`. -/
def finish : ParseResult × HttpRequest → ParseResult × HttpRequest
  | (.finishOk, r) => r.postParse
  | x => x

theorem parseFuel_eq (fuel : Nat) (r : HttpRequest) (data : Bytes) :
    parseFuel fuel r data = (parseInternal fuel { r with data := data }).map finish := by
  unfold parseFuel
  cases parseInternal fuel { r with data := data } with
  | none => rfl
  | some x =>
    obtain ⟨result, r'⟩ := x
    cases result <;> rfl

theorem parses_iff {r r' : HttpRequest} {data : Bytes} {result : ParseResult} :
    Parses r data result r' ↔
      ∃ last x, Visits { r with data := data } last ∧ last.iteration = (x.2, some x.1) ∧
        finish x = (result, r') := by
  constructor
  · rintro ⟨fuel, h⟩
    rw [parseFuel_eq, Option.map_eq_some_iff] at h
    obtain ⟨⟨a, b⟩, hx, hfin⟩ := h
    obtain ⟨last, hvisits, hlast⟩ := parseInternal_some hx
    exact ⟨last, (a, b), hvisits, hlast, hfin⟩
  · rintro ⟨last, x, hvisits, hlast, hfin⟩
    obtain ⟨fuel, hfuel⟩ := parseInternal_of_visits hvisits hlast
    exact ⟨fuel, by rw [parseFuel_eq, hfuel, Option.map_some, hfin]⟩

theorem parses_unique {r a b : HttpRequest} {data : Bytes} {v w : ParseResult}
    (ha : Parses r data v a) (hb : Parses r data w b) : v = w ∧ a = b := by
  obtain ⟨fuel, hfuel⟩ := ha
  obtain ⟨fuel', hfuel'⟩ := hb
  rw [parseFuel_eq, Option.map_eq_some_iff] at hfuel hfuel'
  obtain ⟨x, hx, hxv⟩ := hfuel
  obtain ⟨y, hy, hyw⟩ := hfuel'
  have hxy : x = y := by
    have h1 := parseInternal_mono hx (Nat.le_max_left fuel fuel')
    have h2 := parseInternal_mono hy (Nat.le_max_right fuel fuel')
    rw [h1] at h2
    exact Option.some.inj h2
  rw [hxy, hyw] at hxv
  exact ⟨(Prod.mk.inj hxv).1.symm, (Prod.mk.inj hxv).2.symm⟩

/-! ## Forward rounds -/

/-- The order in which the states are declared. -/
def State.rank : State → Nat
  | .method => 0
  | .spaceAfterMethod => 1
  | .url => 2
  | .urlParameters => 3
  | .spaceAfterUrl => 4
  | .headerKey => 5
  | .headerSpace => 6
  | .headerValue => 7
  | .headerLineBreak => 8
  | .finishOk => 9
  | .content => 10
  | .invalid => 11

theorem State.rank_le (s : State) : s.rank ≤ 11 := by cases s <;> simp [State.rank]

/-- `(cur, state)` moved strictly forward. -/
def Forward (r r' : HttpRequest) : Prop :=
  r.cur < r'.cur ∨ (r.cur = r'.cur ∧ r.state.rank < r'.state.rank)

/-- In front of a line break the parser stands at a line-break symbol. -/
def AtBreak (r : HttpRequest) : Prop :=
  r.state = .headerLineBreak → ∃ c tail, r.rest = c :: tail ∧ isBreak c = true

/-- Inside the URL parameters with no space in sight. -/
def Stuck (r : HttpRequest) : Prop := r.state = .urlParameters ∧ space ∉ r.rest

theorem AtBreak.next {r r' : HttpRequest} (h : Next r r') : AtBreak r' := by
  intro hstate
  unfold Next iteration at h
  split at h
  · obtain ⟨_, _, _, _, rfl⟩ := iterMethod_next h
    simp [tookMethod] at hstate
  · obtain ⟨_, _, _, _, _, _, _, rfl⟩ := iterSpaceAfterMethod_next h
    simp [tookSpaces] at hstate
  · obtain ⟨_, _, _, ⟨_, rfl⟩ | ⟨_, rfl⟩⟩ := iterUrl_next h <;> simp [tookUrl] at hstate
  · rename_i hparams
    obtain ⟨_, _, _, _, rfl⟩ | ⟨_, rfl⟩ := iterUrlParameters_next h
    · simp [tookUrlParameters] at hstate
    · rw [hparams] at hstate
      simp at hstate
  · obtain ⟨_, _, _, _, _, _, _, _, rfl⟩ := iterSpaceAfterUrl_next h
    simp [tookLine] at hstate
  · obtain ⟨_, _, _, _, rfl⟩ := iterHeaderKey_next h
    simp [tookKey] at hstate
  · obtain ⟨_, _, _, _, _, _, _, rfl⟩ := iterHeaderSpace_next h
    simp [tookSep] at hstate
  · obtain ⟨token, c, tail, hrest, _, hc, _, rfl⟩ := iterHeaderValue_next h
    exact ⟨c, tail, rest_of_cur hrest rfl rfl, hc⟩
  · obtain ⟨_, _, _, _, _, _, _, rfl⟩ | ⟨_, _, rfl⟩ := iterHeaderLineBreak_next h
    · simp [tookLine] at hstate
    · simp [tookClosing] at hstate
  · exact absurd (congrArg Prod.snd h) (iterContent_returns r)
  · simp at h
  · simp at h

theorem AtBreak.extend {r : HttpRequest} (hr : InRange r) (h : AtBreak r) (e : Bytes) :
    AtBreak (r.extend e) := by
  intro hstate
  obtain ⟨c, tail, hrest, hc⟩ := h hstate
  exact ⟨c, tail ++ e, by rw [rest_extend hr.cur, hrest, List.cons_append], hc⟩

/-- A token that may be empty, and a later state. -/
theorem forward_of_rank {r r' : HttpRequest} (s s' : State) (n : Nat)
    (hcur : r'.cur = r.cur + n) (hs : r.state = s) (hs' : r'.state = s')
    (hrank : s.rank < s'.rank) : Forward r r' := by
  unfold Forward
  rw [hs, hs']
  omega

/-- Every round that goes on is forward, unless it is stuck. -/
theorem Next.forward {r r' : HttpRequest} (hr : AtBreak r) (hs : ¬ Stuck r) (h : Next r r') :
    Forward r r' := by
  unfold Next iteration at h
  split at h <;> rename_i hstate
  · obtain ⟨token, _, _, _, rfl⟩ := iterMethod_next h
    exact forward_of_rank .method .spaceAfterMethod token.length rfl hstate rfl (by decide)
  · obtain ⟨token, _, _, _, _, _, _, rfl⟩ := iterSpaceAfterMethod_next h
    exact forward_of_rank .spaceAfterMethod .url token.length rfl hstate rfl (by decide)
  · obtain ⟨token, _, _, ⟨_, rfl⟩ | ⟨_, rfl⟩⟩ := iterUrl_next h
    · exact forward_of_rank .url .spaceAfterUrl token.length rfl hstate rfl (by decide)
    · exact forward_of_rank .url .urlParameters token.length rfl hstate rfl (by decide)
  · obtain ⟨token, _, _, _, rfl⟩ | ⟨hspace, rfl⟩ := iterUrlParameters_next h
    · exact forward_of_rank .urlParameters .spaceAfterUrl token.length rfl hstate rfl (by decide)
    · exact absurd ⟨hstate, hspace⟩ hs
  · obtain ⟨line, run, _, _, _, _, _, _, rfl⟩ := iterSpaceAfterUrl_next h
    exact forward_of_rank .spaceAfterUrl .headerKey (line ++ run).length rfl hstate rfl (by decide)
  · obtain ⟨token, _, _, _, rfl⟩ := iterHeaderKey_next h
    exact forward_of_rank .headerKey .headerSpace token.length rfl hstate rfl (by decide)
  · obtain ⟨token, _, _, _, _, _, _, rfl⟩ := iterHeaderSpace_next h
    exact forward_of_rank .headerSpace .headerValue token.length rfl hstate rfl (by decide)
  · obtain ⟨token, _, _, _, _, _, _, rfl⟩ := iterHeaderValue_next h
    exact forward_of_rank .headerValue .headerLineBreak token.length rfl hstate rfl (by decide)
  · obtain ⟨c, tail, hc, hbreak⟩ := hr hstate
    obtain ⟨run, b, tail', hrest, _, _, hb, rfl⟩ | ⟨_, _, rfl⟩ := iterHeaderLineBreak_next h
    · -- The state goes back to the header key, so the run must not be empty.
      have hne : run ≠ [] := by
        intro hnil
        rw [hnil, hc] at hrest
        rw [(List.cons.inj hrest).1, hb] at hbreak
        exact Bool.noConfusion hbreak
      exact Or.inl (Nat.lt_add_of_pos_right (List.length_pos_iff.mpr hne))
    · exact forward_of_rank .headerLineBreak .content _ rfl hstate rfl (by decide)
  · exact absurd (congrArg Prod.snd h) (iterContent_returns r)
  · simp at h
  · simp at h

/-- Rounds left at most. -/
def measure (r : HttpRequest) : Nat := 12 * (r.size - r.cur) + (11 - r.state.rank)

theorem Forward.measure_lt {r r' : HttpRequest} (h : Forward r r') (hsize : r'.size = r.size)
    (hcur : r'.cur ≤ r'.size) : r'.measure < r.measure := by
  have hr := r.state.rank_le
  have hr' := r'.state.rank_le
  unfold measure
  rcases h with h | ⟨h, hrank⟩ <;> omega

/-- The loop returns when no visited state is stuck. -/
theorem parseInternal_returns {fuel : Nat} {r : HttpRequest} (hr : InRange r) (hb : AtBreak r)
    (hstuck : ∀ r', Visits r r' → ¬ Stuck r') (hfuel : r.measure < fuel) :
    ∃ x, parseInternal fuel r = some x := by
  induction fuel generalizing r with
  | zero => omega
  | succ fuel ih =>
    unfold parseInternal
    cases hiter : r.iteration with
    | mk r' answer =>
      cases answer with
      | some result => exact ⟨(result, r'), rfl⟩
      | none =>
        have hnext : Next r r' := hiter
        have hfwd := hnext.forward hb (hstuck r Relation.ReflTransGen.refl)
        have hsize : r'.size = r.size := congrArg List.length hnext.data
        have hlt := hfwd.measure_lt hsize (hr.next hnext).cur
        exact ih (hr.next hnext) (AtBreak.next hnext)
          (fun r'' h => hstuck r'' (Relation.ReflTransGen.head hnext h)) (by omega)

theorem Stuck.next_self {r : HttpRequest} (h : Stuck r) : Next r r := by
  unfold Next iteration
  rw [h.1]
  have hread : r.readUrlParameters = .needMoreData :=
    scan_end (fun x hx => by simpa using fun e : x = space => h.2 (e ▸ hx))
  unfold iterUrlParameters
  rw [hread]

theorem Stuck.visits_self {r r' : HttpRequest} (h : Stuck r) (hv : Visits r r') : r' = r := by
  induction hv with
  | refl => rfl
  | tail _ hstep ih =>
    rw [ih] at hstep
    exact next_unique hstep h.next_self

/-- A loop that visits a stuck state does not return. -/
theorem Stuck.never_returns {r s : HttpRequest} (hs : Stuck s) (hv : Visits r s) (fuel : Nat) :
    parseInternal fuel r = none := by
  cases hrun : parseInternal fuel r with
  | none => rfl
  | some x =>
    obtain ⟨last, hlast, hreturn⟩ := parseInternal_some hrun
    have hself := hs.next_self
    rcases visits_linear hv hlast with h | h
    · rw [hs.visits_self h] at hreturn
      rw [Next, hreturn] at hself
      simp at hself
    · rw [visits_returned (by rw [hreturn]) h] at hself
      rw [Next, hreturn] at hself
      simp at hself

end HttpRequest
end EpollHttp
