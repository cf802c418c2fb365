import Mathlib.Data.List.DropRight
import EpollHttp.HttpRequest.Lookup
import EpollHttp.HttpRequest.Termination

/-
The URL prefixes that route a request to a proxy.

`isUrlPrefix` goes over URL and prefix together from their first bytes that are not slashes, and
decides by what is left of both.  A prefix without its slashes in front and behind names whole
segments of the URL; the walk does not see where the segments of the prefix end.
-/

namespace EpollHttp
namespace HttpRequest

open CString

def dropSlashes (s : Bytes) : Bytes := s.dropWhile (· == slash)

/-- The prefix without its slashes in front and behind. -/
def segments (front : Bytes) : Bytes := (dropSlashes (cString front)).rdropWhile (· == slash)

/-- The slashes behind the segments of a prefix. -/
def closingSlashes (front : Bytes) : Nat :=
  ((dropSlashes (cString front)).rtakeWhile (· == slash)).length

/-- The URL is `p`, or goes on behind `p` with a further segment. -/
def SegmentPrefix (p url : Bytes) : Prop := url = p ∨ p ++ [slash] <+: url

/-- The prefix goes on with a further segment where the URL ends. -/
def UrlCutShort (p url : Bytes) : Prop := url ++ [slash] <+: p

/-- The URL goes on with a further segment behind `p` and fewer than `closing` slashes. -/
def FewerSlashes (p : Bytes) (closing : Nat) (url : Bytes) : Prop :=
  ∃ (j : Nat) (c : UInt8) (tail : Bytes), 0 < j ∧ j < closing ∧ c ≠ slash ∧
    url = p ++ (List.replicate j slash ++ c :: tail)

theorem comparePrefix_nil (a b : Option UInt8) (url : Bytes) :
    comparePrefix a b url [] = (url.head? == none || url.head? == some slash ||
      (b == some slash && a == some slash)) := by
  cases url <;> rfl

theorem comparePrefix_same (a b : Option UInt8) (c : UInt8) (url rest : Bytes) :
    comparePrefix a b (c :: url) (c :: rest) = comparePrefix (some c) (some c) url rest :=
  if_pos rfl

theorem comparePrefix_differ {uc pc : UInt8} (h : uc ≠ pc) (a b : Option UInt8)
    (url rest : Bytes) :
    comparePrefix a b (uc :: url) (pc :: rest) = (pc == slash && uc == 0) :=
  if_neg h

theorem comparePrefix_short (a b : Option UInt8) (pc : UInt8) (rest : Bytes) :
    comparePrefix a b [] (pc :: rest) = (pc == slash) := rfl

/-- Where the URL does not begin with `p`, the walk ends inside `p`, and the answer is true when
the URL ends there and `p` goes on with a slash. -/
theorem comparePrefix_apart {p url : Bytes} (hnul : 0 ∉ url) (h : ¬ p <+: url)
    (a b : Option UInt8) (closing : Bytes) :
    comparePrefix a b url (p ++ closing) = true ↔ UrlCutShort p url := by
  unfold UrlCutShort
  induction p generalizing url a b with
  | nil => exact absurd List.nil_prefix h
  | cons pc p ih =>
    rw [List.cons_append]
    cases url with
    | nil =>
      rw [comparePrefix_short, List.nil_append, List.cons_prefix_cons, beq_iff_eq]
      exact ⟨fun hc => ⟨hc.symm, List.nil_prefix⟩, fun hc => hc.1.symm⟩
    | cons uc url =>
      have hnul' : 0 ∉ url := fun h0 => hnul (List.mem_cons_of_mem uc h0)
      have huc : uc ≠ 0 := fun h0 => hnul (by rw [h0]; exact List.mem_cons_self)
      rw [List.cons_append, List.cons_prefix_cons]
      by_cases heq : uc = pc
      · subst heq
        have hp : ¬ p <+: url := fun hp => h (List.cons_prefix_cons.mpr ⟨rfl, hp⟩)
        rw [comparePrefix_same, ih hnul' hp]
        exact (and_iff_right rfl).symm
      · rw [comparePrefix_differ heq, Bool.and_eq_true, beq_iff_eq, beq_iff_eq]
        exact ⟨fun hc => absurd hc.2 huc, fun hc => absurd hc.1 heq⟩

/-- Where both go on with the same bytes, the walk goes past them. -/
theorem comparePrefix_common {p : Bytes} {c : UInt8} (hlast : p.getLast? = some c)
    (a b : Option UInt8) (url closing : Bytes) :
    comparePrefix a b (p ++ url) (p ++ closing) =
      comparePrefix (some c) (some c) url closing := by
  induction p generalizing a b with
  | nil => simp at hlast
  | cons d p ih =>
    rw [List.cons_append, List.cons_append, comparePrefix_same]
    cases p with
    | nil =>
      have hd : d = c := by simpa using hlast
      rw [hd, List.nil_append, List.nil_append]
    | cons e p => exact ih (by simpa using hlast) _ _

/-- Behind a slash that both went past, the closing slashes of the prefix are all there in the
URL, or the URL ends among them. -/
theorem comparePrefix_slashes {url : Bytes} (hnul : 0 ∉ url) (closing : Nat) :
    comparePrefix (some slash) (some slash) url (List.replicate closing slash) = true ↔
      ¬ ∃ (j : Nat) (c : UInt8) (tail : Bytes), j < closing ∧ c ≠ slash ∧
        url = List.replicate j slash ++ c :: tail := by
  induction closing generalizing url with
  | zero =>
    rw [List.replicate_zero, comparePrefix_nil]
    simp
  | succ closing ih =>
    rw [List.replicate_succ]
    cases url with
    | nil => simp [comparePrefix_short]
    | cons uc url =>
      have hnul' : 0 ∉ url := fun h0 => hnul (List.mem_cons_of_mem uc h0)
      have huc : uc ≠ 0 := fun h0 => hnul (by rw [h0]; exact List.mem_cons_self)
      by_cases heq : uc = slash
      · subst heq
        rw [comparePrefix_same, ih hnul', not_iff_not]
        constructor
        · rintro ⟨j, c, tail, hj, hc, rfl⟩
          exact ⟨j + 1, c, tail, Nat.succ_lt_succ hj, hc, rfl⟩
        · rintro ⟨j, c, tail, hj, hc, heq⟩
          cases j with
          | zero => exact absurd (List.cons.inj heq).1.symm hc
          | succ j => exact ⟨j, c, tail, Nat.lt_of_succ_lt_succ hj, hc, (List.cons.inj heq).2⟩
      · rw [comparePrefix_differ heq]
        refine ⟨fun h => ?_, fun h => absurd ⟨0, uc, url, Nat.succ_pos closing, heq, rfl⟩ h⟩
        rw [Bool.and_eq_true, beq_iff_eq, beq_iff_eq] at h
        exact absurd h.2 huc

/-- Behind the segments of the prefix, which do not end with a slash. -/
theorem comparePrefix_behind {c : UInt8} (hc : c ≠ slash) {url : Bytes} (hnul : 0 ∉ url)
    (closing : Nat) :
    comparePrefix (some c) (some c) url (List.replicate closing slash) = true ↔
      SegmentPrefix [] url ∧ ¬ FewerSlashes [] closing url := by
  unfold SegmentPrefix FewerSlashes
  cases closing with
  | zero =>
    rw [List.replicate_zero, comparePrefix_nil]
    cases url with
    | nil => simp
    | cons uc url =>
      rw [List.nil_append, List.cons_prefix_cons]
      simp [hc, eq_comm (a := slash) (b := uc)]
  | succ closing =>
    rw [List.replicate_succ]
    cases url with
    | nil => simp [comparePrefix_short]
    | cons uc url =>
      have hnul' : 0 ∉ url := fun h0 => hnul (List.mem_cons_of_mem uc h0)
      have huc : uc ≠ 0 := fun h0 => hnul (by rw [h0]; exact List.mem_cons_self)
      rw [List.nil_append, List.cons_prefix_cons]
      by_cases heq : uc = slash
      · subst heq
        rw [comparePrefix_same, comparePrefix_slashes hnul',
          and_iff_right (Or.inr ⟨rfl, List.nil_prefix⟩), not_iff_not]
        constructor
        · rintro ⟨j, d, tail, hj, hd, rfl⟩
          exact ⟨j + 1, d, tail, Nat.succ_pos j, Nat.succ_lt_succ hj, hd, rfl⟩
        · rintro ⟨j, d, tail, hpos, hj, hd, heq⟩
          obtain ⟨i, rfl⟩ := Nat.exists_eq_succ_of_ne_zero (Nat.ne_of_gt hpos)
          exact ⟨i, d, tail, Nat.lt_of_succ_lt_succ hj, hd, (List.cons.inj heq).2⟩
      · rw [comparePrefix_differ heq]
        simp [huc, Ne.symm heq]

theorem segmentPrefix_append (p w : Bytes) : SegmentPrefix p (p ++ w) ↔ SegmentPrefix [] w := by
  unfold SegmentPrefix
  rw [List.prefix_append_right_inj, List.nil_append, List.append_right_eq_self]

theorem fewerSlashes_append (p : Bytes) (closing : Nat) (w : Bytes) :
    FewerSlashes p closing (p ++ w) ↔ FewerSlashes [] closing w := by
  unfold FewerSlashes
  simp only [List.append_cancel_left_eq, List.nil_append]

theorem FewerSlashes.segmentPrefix {p url : Bytes} {closing : Nat}
    (h : FewerSlashes p closing url) : SegmentPrefix p url := by
  obtain ⟨j, c, tail, hpos, _, _, rfl⟩ := h
  obtain ⟨i, rfl⟩ := Nat.exists_eq_succ_of_ne_zero (Nat.ne_of_gt hpos)
  right
  rw [List.prefix_append_right_inj]
  exact List.cons_prefix_cons.mpr ⟨rfl, List.nil_prefix⟩

theorem SegmentPrefix.begins {p url : Bytes} (h : SegmentPrefix p url) : p <+: url := by
  rcases h with rfl | h
  · exact List.prefix_rfl
  · exact (List.prefix_append p [slash]).trans h

theorem UrlCutShort.not_prefix {p url : Bytes} (h : UrlCutShort p url) : ¬ p <+: url := by
  intro hp
  have hle := (h.trans hp).length_le
  rw [List.length_append, List.length_singleton] at hle
  omega

/-- A prefix is its segments and its closing slashes. -/
theorem dropSlashes_eq (front : Bytes) : dropSlashes (cString front) =
    segments front ++ List.replicate (closingSlashes front) slash := by
  have hsplit : segments front ++ (dropSlashes (cString front)).rtakeWhile (· == slash) =
      dropSlashes (cString front) := List.rdropWhile_append_rtakeWhile
  have hslashes : (dropSlashes (cString front)).rtakeWhile (· == slash) =
      List.replicate (closingSlashes front) slash :=
    List.eq_replicate_of_mem (fun c hc => by simpa using List.mem_rtakeWhile_imp hc)
  rw [← hslashes, hsplit]

/-- The answer is that of whole segments, except for prefixes that go on where the URL ends, and
for prefixes with more closing slashes than the URL has there. -/
theorem isUrlPrefix_iff {r : HttpRequest} {url front : Bytes} (hurl : r.getUrl = some url)
    (hne : segments front ≠ []) :
    (r.isUrlPrefix front = true ↔ SegmentPrefix (segments front) (dropSlashes url)) ↔
      ¬ UrlCutShort (segments front) (dropSlashes url) ∧
        ¬ FewerSlashes (segments front) (closingSlashes front) (dropSlashes url) := by
  unfold getUrl at hurl
  split at hurl
  · simp at hurl
  · rename_i hstate
    obtain rfl := Option.some.inj hurl
    have hnul : 0 ∉ dropSlashes (cString r.urlBuffer) := fun h =>
      no_nul_cString r.urlBuffer ((List.dropWhile_suffix _).subset h)
    have hanswer : ∃ a b, r.isUrlPrefix front =
        comparePrefix a b (dropSlashes (cString r.urlBuffer)) (dropSlashes (cString front)) := by
      unfold isUrlPrefix
      rw [if_neg hstate]
      exact ⟨_, _, rfl⟩
    obtain ⟨a, b, hanswer⟩ := hanswer
    rw [hanswer, dropSlashes_eq front]
    generalize dropSlashes (cString r.urlBuffer) = u at hnul ⊢
    by_cases hp : segments front <+: u
    · obtain ⟨w, rfl⟩ := hp
      have hcut : ¬ UrlCutShort (segments front) (segments front ++ w) :=
        fun h => h.not_prefix (List.prefix_append _ w)
      have hlast : (segments front).getLast? = some ((segments front).getLast hne) :=
        List.getLast?_eq_some_getLast hne
      have hc : (segments front).getLast hne ≠ slash := fun h =>
        List.rdropWhile_last_not (· == slash) (dropSlashes (cString front)) hne
          (beq_iff_eq.mpr h)
      have hnul' : 0 ∉ w := fun h => hnul (List.mem_append_right _ h)
      rw [comparePrefix_common hlast, comparePrefix_behind hc hnul', segmentPrefix_append,
        fewerSlashes_append, and_iff_right hcut]
      exact ⟨fun h hf => (h.mpr hf.segmentPrefix).2 hf, fun hf => and_iff_left hf⟩
    · have hseg : ¬ SegmentPrefix (segments front) u := fun h => hp h.begins
      have hfew : ¬ FewerSlashes (segments front) (closingSlashes front) u :=
        fun h => hp h.segmentPrefix.begins
      rw [comparePrefix_apart hnul hp, and_iff_left hfew]
      exact ⟨fun h hcut => hseg (h.mp hcut), fun hcut => iff_of_false hcut hseg⟩

/-- `GET /a HTTP/1.1`, `A: b` and a blank line. -/
def shortRequest : Bytes :=
  [71, 69, 84, 32, 47, 97, 32, 72, 84, 84, 80, 47, 49, 46, 49, 13, 10, 65, 58, 32, 98, 13, 10,
   13, 10]

/-- The URL `/a` with the prefix `/a/`. -/
theorem isUrlPrefix_iff_shortRequest :
    ∃ r, parse {} shortRequest = some (.finishOk, r) ∧ r.getUrl = some [47, 97] ∧
      ((r.isUrlPrefix [47, 97, 47] = true ↔
          SegmentPrefix (segments [47, 97, 47]) (dropSlashes [47, 97])) ↔
        ¬ UrlCutShort (segments [47, 97, 47]) (dropSlashes [47, 97]) ∧
          ¬ FewerSlashes (segments [47, 97, 47]) (closingSlashes [47, 97, 47])
            (dropSlashes [47, 97])) := by
  have hparse : (parse {} shortRequest).map (fun x => (x.1, x.2.getUrl)) =
      some (.finishOk, some [47, 97]) := by decide +kernel
  obtain ⟨⟨result, r⟩, hr, hx⟩ := Option.map_eq_some_iff.mp hparse
  obtain ⟨rfl, hurl⟩ := Prod.mk.inj hx
  exact ⟨r, hr, hurl, isUrlPrefix_iff hurl (by decide)⟩

/-- `/a/b` is taken for a prefix of the URL `/a`. -/
theorem shortRequest_misrouted :
    ∃ r, parse {} shortRequest = some (.finishOk, r) ∧ r.getUrl = some [47, 97] ∧
      segments [47, 97, 47, 98] = [97, 47, 98] ∧ r.isUrlPrefix [47, 97, 47, 98] = true ∧
      ¬ SegmentPrefix (segments [47, 97, 47, 98]) (dropSlashes [47, 97]) := by
  have hparse : (parse {} shortRequest).map
      (fun x => (x.1, x.2.getUrl, x.2.isUrlPrefix [47, 97, 47, 98])) =
      some (.finishOk, some [47, 97], true) := by decide +kernel
  obtain ⟨⟨result, r⟩, hr, hx⟩ := Option.map_eq_some_iff.mp hparse
  obtain ⟨rfl, hx⟩ := Prod.mk.inj hx
  obtain ⟨hurl, hanswer⟩ := Prod.mk.inj hx
  refine ⟨r, hr, hurl, by decide, hanswer, ?_⟩
  unfold SegmentPrefix
  decide

end HttpRequest
end EpollHttp
