import EpollHttp.HttpRequest.Verdict

/-
Where the recorded ranges lie in the data.

Every range is recorded at `cur` and `cur` goes past it at once, so the ranges follow each other
in the order in which the parser reads them.  A range that is not recorded yet is the default one.
-/

namespace EpollHttp
namespace HttpRequest

/-- The first position behind a range. -/
def Field.stop (f : Field) : Nat := f.start + f.length

def Field.Behind (f g : Field) : Prop := f.stop ≤ g.start

def methodField (r : HttpRequest) : Field := { start := r.methodStart, length := r.methodLength }

def urlField (r : HttpRequest) : Field := { start := r.urlStart, length := r.urlLength }

def urlParametersField (r : HttpRequest) : Field :=
  { start := r.urlParametersStart, length := r.urlParametersLength }

def headerFields (headers : List Header) : List Field :=
  headers.flatMap (fun head => [head.key, head.value])

/-- All the ranges of a request, in the order in which they are read. -/
def ranges (r : HttpRequest) : List Field :=
  [r.methodField, r.urlField, r.urlParametersField] ++ headerFields r.headers

/-- The ranges that were recorded. -/
def recorded (fields : List Field) : List Field := fields.filter (fun f => decide (f ≠ {}))

theorem recorded_append (a b : List Field) : recorded (a ++ b) = recorded a ++ recorded b :=
  List.filter_append a b

theorem mem_recorded {fields : List Field} {f : Field} (h : f ∈ recorded fields) : f ∈ fields :=
  List.mem_of_mem_filter h

/-- A range recorded behind all the others keeps them in order. -/
theorem recorded_snoc {fields : List Field} {f : Field} (h : (recorded fields).Pairwise Field.Behind)
    (hf : ∀ g ∈ fields, g.stop ≤ f.start) : (recorded (fields ++ [f])).Pairwise Field.Behind := by
  rw [recorded_append, List.pairwise_append]
  refine ⟨h, (List.pairwise_singleton _ f).filter _, fun g hg k hk => ?_⟩
  obtain rfl := List.mem_singleton.mp (mem_recorded hk)
  exact hf g (mem_recorded hg)

/-- What is not recorded yet in a state. -/
def Blank (r : HttpRequest) : Prop :=
  match r.state with
  | .method =>
    r.methodField = {} ∧ r.urlField = {} ∧ r.urlParametersField = {} ∧ r.headers = []
  | .spaceAfterMethod | .url => r.urlField = {} ∧ r.urlParametersField = {} ∧ r.headers = []
  | .urlParameters => r.urlParametersField = {} ∧ r.headers = []
  | .spaceAfterUrl => r.headers = []
  | _ => True

/-- The name of a header is read, its value is not. -/
def HoldsKey (r : HttpRequest) : Prop :=
  match r.state with
  | .headerSpace | .headerValue => True
  | _ => False

theorem holdsKey_headerSpace {r : HttpRequest} (h : r.state = .headerSpace) : HoldsKey r := by
  unfold HoldsKey
  rw [h]
  trivial

theorem holdsKey_headerValue {r : HttpRequest} (h : r.state = .headerValue) : HoldsKey r := by
  unfold HoldsKey
  rw [h]
  trivial

/-- The ranges lie in order in front of `cur`, and so does a name without its value. -/
structure Laid (r : HttpRequest) : Prop where
  ends : ∀ f ∈ r.ranges, f.stop ≤ r.cur
  order : (recorded r.ranges).Pairwise Field.Behind
  blank : Blank r
  key : HoldsKey r → (∀ f ∈ r.ranges, f.stop ≤ r.curKey.start) ∧ r.curKey.stop ≤ r.cur

theorem laid_start (data urlBuffer : Bytes) : Laid (startState data urlBuffer) where
  ends := fun f hf => by
    have hall : ∀ f ∈ ([{}, {}, {}] : List Field), f.stop ≤ 0 := by decide
    exact hall f hf
  order := List.Pairwise.nil
  blank := ⟨rfl, rfl, rfl, rfl⟩
  key := fun h => absurd h not_false

section
variable {r : HttpRequest}

/-- A step that records nothing. -/
theorem Laid.advance {r' : HttpRequest} (h : Laid r) (hranges : r'.ranges = r.ranges)
    (hcur : r.cur ≤ r'.cur) (hblank : Blank r') (hkey : ¬ HoldsKey r') : Laid r' := by
  refine ⟨fun f hf => ?_, ?_, hblank, fun hk => absurd hk hkey⟩
  · rw [hranges] at hf
    exact (h.ends f hf).trans hcur
  · rw [hranges]
    exact h.order

/-- A step that records the range it goes past; the ranges behind it are still blank. -/
theorem Laid.record {r' : HttpRequest} (front back : List Field) (n : Nat) (h : Laid r)
    (hranges : recorded r.ranges = recorded front) (hfront : ∀ f ∈ front, f.stop ≤ r.cur)
    (hranges' : r'.ranges = front ++ { start := r.cur, length := n } :: back)
    (hback : ∀ f ∈ back, f = {}) (hcur : r'.cur = r.cur + n) (hblank : Blank r')
    (hkey : ¬ HoldsKey r') : Laid r' := by
  have hempty : recorded back = [] := by
    unfold recorded
    rw [List.filter_eq_nil_iff]
    intro f hf
    simp [hback f hf]
  refine ⟨fun f hf => ?_, ?_, hblank, fun hk => absurd hk hkey⟩
  · rw [hranges', List.mem_append, List.mem_cons] at hf
    rcases hf with hf | rfl | hf
    · exact (hfront f hf).trans (by omega)
    · exact Nat.le_of_eq hcur.symm
    · rw [hback f hf]
      exact Nat.zero_le _
  · rw [hranges', List.append_cons, recorded_append, hempty, List.append_nil]
    refine recorded_snoc ?_ hfront
    rw [← hranges]
    exact h.order

theorem Laid.tookMethod (h : Laid r) (hstate : r.state = .method) (token : Bytes) :
    Laid (r.tookMethod token) := by
  have hblank := h.blank
  unfold Blank at hblank
  rw [hstate] at hblank
  obtain ⟨hmethod, hurl, hparams, hheaders⟩ := hblank
  refine h.record [] [r.urlField, r.urlParametersField] token.length ?_ (by simp) ?_ ?_ rfl
    ⟨hurl, hparams, hheaders⟩ not_false
  · unfold ranges
    rw [hmethod, hurl, hparams, hheaders]
    rfl
  · unfold ranges
    rw [show (r.tookMethod token).headers = [] from hheaders]
    rfl
  · simp [hurl, hparams]

theorem Laid.tookUrl (h : Laid r) (hstate : r.state = .url) (token : Bytes) {next : State}
    (hnext : next = .spaceAfterUrl ∨ next = .urlParameters) : Laid (r.tookUrl token next) := by
  have hblank := h.blank
  unfold Blank at hblank
  rw [hstate] at hblank
  obtain ⟨hurl, hparams, hheaders⟩ := hblank
  have hmethod : r.methodField.stop ≤ r.cur := h.ends _ List.mem_cons_self
  refine h.record [r.methodField] [r.urlParametersField] token.length ?_ (by simpa using hmethod)
    ?_ (by simp [hparams]) rfl ?_ ?_
  · unfold ranges
    rw [hurl, hparams, hheaders]
    show recorded ([r.methodField] ++ [({} : Field), ({} : Field)]) = _
    rw [recorded_append]
    exact List.append_nil _
  · unfold ranges
    rw [show (r.tookUrl token next).headers = [] from hheaders]
    rfl
  · rcases hnext with rfl | rfl
    · exact hheaders
    · exact ⟨hparams, hheaders⟩
  · rcases hnext with rfl | rfl <;> exact not_false

theorem Laid.tookUrlParameters (h : Laid r) (hstate : r.state = .urlParameters) (token : Bytes) :
    Laid (r.tookUrlParameters token) := by
  have hblank := h.blank
  unfold Blank at hblank
  rw [hstate] at hblank
  obtain ⟨hparams, hheaders⟩ := hblank
  have hmethod : r.methodField.stop ≤ r.cur := h.ends _ (by simp [ranges])
  have hurl : r.urlField.stop ≤ r.cur := h.ends _ (by simp [ranges])
  refine h.record [r.methodField, r.urlField] [] token.length ?_ (by simp [hmethod, hurl])
    ?_ (by simp) rfl hheaders not_false
  · unfold ranges
    rw [hparams, hheaders]
    show recorded ([r.methodField, r.urlField] ++ [({} : Field)]) = _
    rw [recorded_append]
    exact List.append_nil _
  · unfold ranges
    rw [show (r.tookUrlParameters token).headers = [] from hheaders]
    rfl

/-- The name is kept for the value behind it. -/
theorem Laid.tookKey (h : Laid r) (token : Bytes) : Laid (r.tookKey token) where
  ends := fun f hf => (h.ends f hf).trans (Nat.le_add_right r.cur token.length)
  order := h.order
  blank := trivial
  key := fun _ => ⟨h.ends, Nat.le_refl _⟩

theorem Laid.tookSep (h : Laid r) (hstate : r.state = .headerSpace) (token : Bytes) :
    Laid (r.tookSep token) where
  ends := fun f hf => (h.ends f hf).trans (Nat.le_add_right r.cur token.length)
  order := h.order
  blank := trivial
  key := fun _ =>
    ⟨(h.key (holdsKey_headerSpace hstate)).1,
      (h.key (holdsKey_headerSpace hstate)).2.trans (Nat.le_add_right _ _)⟩

/-- Recording a header: its name lies behind all the ranges, and its value at `cur`. -/
theorem Laid.pushed (h : Laid r) (hstate : r.state = .headerValue) (n : Nat) :
    (recorded (r.ranges ++ [r.curKey, { start := r.cur, length := n }])).Pairwise Field.Behind ∧
      ∀ f ∈ r.ranges ++ [r.curKey, { start := r.cur, length := n }], f.stop ≤ r.cur + n := by
  obtain ⟨hbehind, hkey⟩ := h.key (holdsKey_headerValue hstate)
  have hfront : ∀ f ∈ r.ranges ++ [r.curKey], f.stop ≤ r.cur := by
    intro f hf
    rcases List.mem_append.mp hf with hf | hf
    · exact h.ends f hf
    · rw [List.mem_singleton.mp hf]
      exact hkey
  refine ⟨?_, fun f hf => ?_⟩
  · rw [List.append_cons]
    exact recorded_snoc (recorded_snoc h.order hbehind) hfront
  · rw [List.append_cons, List.mem_append] at hf
    rcases hf with hf | hf
    · exact (hfront f hf).trans (Nat.le_add_right _ _)
    · rw [List.mem_singleton.mp hf]
      exact Nat.le_refl _

theorem ranges_push (headers : List Header) (head : Header) :
    headerFields (headers ++ [head]) = headerFields headers ++ [head.key, head.value] := by
  unfold headerFields
  rw [List.flatMap_append, List.flatMap_singleton]

theorem Laid.tookValue (h : Laid r) (hstate : r.state = .headerValue) (key token : Bytes) :
    Laid (r.tookValue key token) := by
  have hranges : (r.tookValue key token).ranges =
      r.ranges ++ [r.curKey, { start := r.cur, length := token.length }] := by
    show _ ++ headerFields (r.headers ++ [_]) = _
    rw [ranges_push, ← List.append_assoc]
    rfl
  obtain ⟨horder, hends⟩ := h.pushed hstate token.length
  refine ⟨?_, ?_, trivial, fun hk => absurd hk not_false⟩
  · rw [hranges]
    exact hends
  · rw [hranges]
    exact horder

/-- Every round keeps the ranges in order. -/
theorem Laid.next {r' : HttpRequest} (h : Laid r) (hnext : Next r r') : Laid r' := by
  have hblank := h.blank
  unfold Blank at hblank
  unfold Next iteration at hnext
  split at hnext <;> rename_i hstate <;> rw [hstate] at hblank
  · obtain ⟨token, _, _, _, rfl⟩ := iterMethod_next hnext
    exact h.tookMethod hstate token
  · obtain ⟨token, _, _, _, _, _, _, rfl⟩ := iterSpaceAfterMethod_next hnext
    exact h.advance rfl (Nat.le_add_right _ _) hblank not_false
  · obtain ⟨token, _, _, ⟨_, rfl⟩ | ⟨_, rfl⟩⟩ := iterUrl_next hnext
    · exact h.tookUrl hstate token (Or.inl rfl)
    · exact h.tookUrl hstate token (Or.inr rfl)
  · obtain ⟨token, _, _, _, rfl⟩ | ⟨_, rfl⟩ := iterUrlParameters_next hnext
    · exact h.tookUrlParameters hstate token
    · exact h
  · obtain ⟨line, run, _, _, _, _, _, _, rfl⟩ := iterSpaceAfterUrl_next hnext
    exact h.advance rfl (Nat.le_add_right _ _) trivial not_false
  · obtain ⟨token, _, _, _, rfl⟩ := iterHeaderKey_next hnext
    exact h.tookKey token
  · obtain ⟨token, _, _, _, _, _, _, rfl⟩ := iterHeaderSpace_next hnext
    exact h.tookSep hstate token
  · obtain ⟨token, _, _, _, _, _, _, rfl⟩ := iterHeaderValue_next hnext
    exact h.tookValue hstate _ token
  · obtain ⟨_, _, _, _, _, _, _, rfl⟩ | ⟨_, _, rfl⟩ := iterHeaderLineBreak_next hnext
    · exact h.advance rfl (Nat.le_add_right _ _) trivial
        not_false
    · exact h.advance rfl (Nat.le_add_right _ _) trivial
        not_false
  · exact absurd (congrArg Prod.snd hnext) (iterContent_returns r)
  · simp at hnext
  · simp at hnext

theorem Laid.visits {r' : HttpRequest} (h : Laid r) (hvisits : Visits r r') : Laid r' := by
  induction hvisits with
  | refl => exact h
  | tail _ hstep ih => exact ih.next hstep

end

end HttpRequest
end EpollHttp
