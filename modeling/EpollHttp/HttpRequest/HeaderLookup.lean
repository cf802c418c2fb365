import EpollHttp.HttpRequest.Finished
import EpollHttp.HttpRequest.Lookup

/-
Looking up a header by its name.

`getHeaderValue` compares the key with as many bytes as the recorded name has, so a name that is
an abbreviation of the key is taken for it.  The lookup is that by full name as long as no
abbreviation stands in front of the first header with the name.
-/

namespace EpollHttp

/-! ## Names -/

namespace CString

/-- `strncasecmp` looks at no more than `n` bytes. -/
theorem strncaseEq_take (n : Nat) (s t : Bytes) :
    strncaseEq n s (t.take n) = strncaseEq n s t := by
  induction n generalizing s t with
  | zero => rfl
  | succ n ih =>
    have hhead : (t.take (n + 1)).headD 0 = t.headD 0 := by cases t <;> rfl
    have htail : (t.take (n + 1)).tail = t.tail.take n := by cases t <;> simp
    unfold strncaseEq
    rw [hhead, htail, ih]

end CString

namespace HttpRequest

open CString

/-- Equal in any case. -/
def SameName (a b : Bytes) : Prop := a.map toLower = b.map toLower

/-- `key` begins with `name`, in any case. -/
def Abbreviates (name key : Bytes) : Prop := name.map toLower <+: key.map toLower

instance (a b : Bytes) : Decidable (SameName a b) := inferInstanceAs (Decidable (_ = _))

instance (name key : Bytes) : Decidable (Abbreviates name key) :=
  inferInstanceAs (Decidable (_ <+: _))

theorem SameName.abbreviates {name key : Bytes} (h : SameName name key) :
    Abbreviates name key := by
  unfold SameName at h
  unfold Abbreviates
  exact h ▸ List.prefix_rfl

/-! ## The two lookups -/

section
variable (r : HttpRequest) (key : Bytes)

/-- `getHeaderValue(key, &ptr, &size)`: the value returned, and the outputs as a range of `data`.
They were `out`. -/
def getHeaderValueInto (out : Field) : Int × Field :=
  if r.state ≠ .finishOk then (-1, out)
  else
    match r.headers.find? (fun head =>
      strncaseEq head.key.length key (r.data.drop head.key.start)) with
    | some head => (0, head.value)
    | none => (-1, out)

/-- The bytes between the outputs are what the lookup yields. -/
theorem getHeaderValue_eq (out : Field) : r.getHeaderValue key =
    if (r.getHeaderValueInto key out).1 = 0 then
      some (r.fieldBytes (r.getHeaderValueInto key out).2) else none := by
  unfold getHeaderValue getHeaderValueInto
  split
  · rfl
  · cases r.headers.find? (fun head =>
      strncaseEq head.key.length key (r.data.drop head.key.start)) <;> rfl

/-- The lookup by full name. -/
def namedValue (out : Field) : Int × Field :=
  match r.headers.find? (fun head => decide (SameName (r.fieldBytes head.key) key)) with
  | some head => (0, head.value)
  | none => (-1, out)

/-- A header whose name is a shorter abbreviation of the key stands in front of all headers with
the name. -/
def Shadowed : Prop :=
  ∃ front head back, r.headers = front ++ head :: back ∧
    (∀ other ∈ front, ¬ SameName (r.fieldBytes other.key) key) ∧
    Abbreviates (r.fieldBytes head.key) key ∧ ¬ SameName (r.fieldBytes head.key) key

end

/-! ## When they agree -/

section
variable {h : Head} {back : Bytes} {r : HttpRequest} {key : Bytes}

/-- For recorded names, which hold no terminator, the comparison is about abbreviations. -/
theorem Closes.compare_iff (hc : Closes h back r) {head : Header} (hhead : head ∈ r.headers) :
    strncaseEq head.key.length key (r.data.drop head.key.start) = true ↔
      Abbreviates (r.fieldBytes head.key) key := by
  obtain ⟨l, hl, hkey, _⟩ := hc.header hhead
  have hnul : 0 ∉ r.fieldBytes head.key := fun h0 => by
    rw [hkey] at h0
    exact absurd (hl.key 0 h0) (by decide)
  have hlength : (r.fieldBytes head.key).length = head.key.length :=
    bytesAt_length (hc.stop_le_size (header_ranges hhead).1)
  have hcompare := strncaseEq_iff (s := key) hnul
  rw [hlength] at hcompare
  rw [← strncaseEq_take]
  exact hcompare

/-- The lookup by abbreviation. -/
theorem Closes.getHeaderValueInto_eq (hc : Closes h back r) (hstate : r.state = .finishOk)
    (out : Field) : r.getHeaderValueInto key out =
      match r.headers.find? (fun head => decide (Abbreviates (r.fieldBytes head.key) key)) with
      | some head => (0, head.value)
      | none => (-1, out) := by
  have hfind : r.headers.find? (fun head =>
      strncaseEq head.key.length key (r.data.drop head.key.start)) =
      r.headers.find? (fun head => decide (Abbreviates (r.fieldBytes head.key) key)) := by
    rw [← List.head?_filter, ← List.head?_filter]
    refine congrArg List.head? (List.filter_congr (fun head hhead => ?_))
    rw [Bool.eq_iff_iff, decide_eq_true_iff]
    exact hc.compare_iff hhead
  unfold getHeaderValueInto
  rw [if_neg (by simp [hstate]), hfind]

/-- The lookup is that by full name exactly when no abbreviation stands in front. -/
theorem Closes.getHeaderValue_iff (hc : Closes h back r) (hstate : r.state = .finishOk) :
    (∀ out, r.getHeaderValueInto key out = r.namedValue key out) ↔ ¬ Shadowed r key := by
  simp only [hc.getHeaderValueInto_eq hstate]
  unfold namedValue
  cases hfirst : r.headers.find? (fun head =>
      decide (Abbreviates (r.fieldBytes head.key) key)) with
  | none =>
    rw [List.find?_eq_none] at hfirst
    have hnone : ∀ head ∈ r.headers, ¬ Abbreviates (r.fieldBytes head.key) key :=
      fun head hhead => by simpa using hfirst head hhead
    have hnamed : r.headers.find? (fun head =>
        decide (SameName (r.fieldBytes head.key) key)) = none := by
      rw [List.find?_eq_none]
      exact fun head hhead hn => hnone head hhead (of_decide_eq_true hn).abbreviates
    rw [hnamed]
    refine iff_of_true (fun _ => rfl) ?_
    rintro ⟨front, head, tail, heq, _, habbrev, _⟩
    exact hnone head (by rw [heq]; simp) habbrev
  | some a =>
    rw [List.find?_eq_some_iff_append] at hfirst
    obtain ⟨ha, front, tail, heq, hfront⟩ := hfirst
    have habbrev : Abbreviates (r.fieldBytes a.key) key := of_decide_eq_true ha
    have hnone : ∀ head ∈ front, ¬ Abbreviates (r.fieldBytes head.key) key :=
      fun head hhead => by simpa using hfront head hhead
    by_cases hnamed : SameName (r.fieldBytes a.key) key
    · -- The first abbreviation is the full name.
      have hsome : r.headers.find? (fun head =>
          decide (SameName (r.fieldBytes head.key) key)) = some a := by
        rw [List.find?_eq_some_iff_append]
        refine ⟨decide_eq_true hnamed, front, tail, heq, fun head hhead => ?_⟩
        have hno : ¬ SameName (r.fieldBytes head.key) key :=
          fun hn => hnone head hhead hn.abbreviates
        simpa using hno
      rw [hsome]
      refine iff_of_true (fun _ => rfl) ?_
      rintro ⟨front', head, tail', heq', hfront', habbrev', hshort⟩
      rw [heq] at heq'
      rcases List.append_eq_append_iff.mp heq' with ⟨mid, hmid, htail⟩ | ⟨mid, hmid, htail⟩
      · cases mid with
        | nil =>
          obtain rfl := (List.cons.inj htail).1
          exact hshort hnamed
        | cons x mid =>
          obtain rfl := (List.cons.inj htail).1
          exact hfront' _ (by rw [hmid]; simp) hnamed
      · cases mid with
        | nil =>
          obtain rfl := (List.cons.inj htail).1
          exact hshort hnamed
        | cons x mid =>
          obtain rfl := (List.cons.inj htail).1
          exact hnone _ (by rw [hmid]; simp) habbrev'
    · -- It is a shorter name, and the lookup by full name goes on behind it.
      refine iff_of_false (fun hall => ?_) (fun hno => hno ⟨front, a, tail, heq,
        fun head hhead hn => hnone head hhead hn.abbreviates, habbrev, hnamed⟩)
      cases hlater : r.headers.find? (fun head =>
          decide (SameName (r.fieldBytes head.key) key)) with
      | none =>
        rw [hlater] at hall
        exact absurd (congrArg Prod.fst (hall {})) (by simp)
      | some b =>
        rw [hlater] at hall
        have hvalue : a.value = b.value := congrArg Prod.snd (hall {})
        rw [List.find?_eq_some_iff_append] at hlater
        obtain ⟨hb, front', tail', heq', _⟩ := hlater
        have hbn : SameName (r.fieldBytes b.key) key := of_decide_eq_true hb
        have hmem : b ∈ front ++ a :: tail := by rw [← heq, heq']; simp
        rcases List.mem_append.mp hmem with hmem | hmem
        · exact hnone b hmem hbn.abbreviates
        · rcases List.mem_cons.mp hmem with rfl | hmem
          · exact hnamed hbn
          · obtain ⟨mid, back', rfl⟩ := List.append_of_mem hmem
            exact hc.value_ne heq hvalue

end

/-- After any calls that finished the request: the lookup gives the value of the first header with
the name, and nothing without one, exactly when no shorter abbreviation of the name stands in
front. -/
theorem getHeaderValueInto_iff {b : Bytes} {r : HttpRequest} {key : Bytes} (hr : Session b r)
    (hstate : r.state = .finishOk) :
    (∀ out, r.getHeaderValueInto key out = r.namedValue key out) ↔ ¬ Shadowed r key := by
  obtain ⟨h, back, hc⟩ := session_closes hr hstate
  exact hc.getHeaderValue_iff hstate

/-- `GET / H` with the headers `Host: x` and `If: y`. -/
def abbreviatedRequest : Bytes :=
  [71, 69, 84, 32, 47, 32, 72, 13, 10, 72, 111, 115, 116, 58, 32, 120, 13, 10, 73, 102, 58, 32,
   121, 13, 10, 13, 10]

/-- Looking up `Host`. -/
theorem getHeaderValueInto_iff_abbreviatedRequest :
    ∃ r, parse {} abbreviatedRequest = some (.finishOk, r) ∧
      ((∀ out, r.getHeaderValueInto [72, 111, 115, 116] out =
          r.namedValue [72, 111, 115, 116] out) ↔ ¬ Shadowed r [72, 111, 115, 116]) := by
  have hparse : (parse {} abbreviatedRequest).map (fun x => (x.1, x.2.state)) =
      some (.finishOk, .finishOk) := by decide +kernel
  obtain ⟨⟨result, r⟩, hr, hx⟩ := Option.map_eq_some_iff.mp hparse
  obtain ⟨rfl, hstate⟩ := Prod.mk.inj hx
  exact ⟨r, hr, getHeaderValueInto_iff (session_of_parse hr) hstate⟩

/-- There is no header `If-Modified-Since`, and the lookup yields the value of `If`. -/
theorem abbreviatedRequest_mistaken :
    ∃ r, parse {} abbreviatedRequest = some (.finishOk, r) ∧
      (∀ head ∈ r.headers, ¬ SameName (r.fieldBytes head.key) ifModifiedSinceName) ∧
      r.getHeaderValueInto ifModifiedSinceName {} = (0, { start := 22, length := 1 }) := by
  have hparse : (parse {} abbreviatedRequest).map (fun x => (x.1,
      decide (∀ head ∈ x.2.headers, ¬ SameName (x.2.fieldBytes head.key) ifModifiedSinceName),
      x.2.getHeaderValueInto ifModifiedSinceName {})) =
      some (.finishOk, true, 0, { start := 22, length := 1 }) := by decide +kernel
  obtain ⟨⟨result, r⟩, hr, hx⟩ := Option.map_eq_some_iff.mp hparse
  obtain ⟨rfl, hx⟩ := Prod.mk.inj hx
  obtain ⟨hnone, hvalue⟩ := Prod.mk.inj hx
  exact ⟨r, hr, of_decide_eq_true hnone, hvalue⟩

end HttpRequest
end EpollHttp
