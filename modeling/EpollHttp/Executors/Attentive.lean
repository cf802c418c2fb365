import EpollHttp.Executors.Dispatch
import EpollHttp.Executors.Watching

/-
An executor accepts what it is watched for, as long as the SSL library does not widen a mask.

`readFd0` and `writeFd0` of the SSL executors ask for both events when the library wants the other
direction, in states in which `process` accepts one of them only.
-/

namespace EpollHttp

open Program

/-! ## Stances that fit -/

namespace Stance

def OnlyClient (s : Stance) (mask : Nat) : Prop :=
  s.client = some (watched mask) ∧ s.upstream = none

def Sends (s : Stance) : Prop :=
  s.state = .sendHeaders ∨ s.state = .sendOnlyHeaders ∨ s.state = .sendFile

/-- The client is watched for `EPOLLOUT`, if at all. -/
def WritesClient (s : Stance) : Prop := s.client = none ∨ s.client = some (watched EPOLLOUT)

/-- The upstream server is watched for `EPOLLIN`, if at all. -/
def ReadsUpstream (s : Stance) : Prop := s.upstream = none ∨ s.upstream = some (watched EPOLLIN)

def Connects (s : Stance) : Prop :=
  (s.state = .waitConnect ∨ s.state = .forwardRequest) ∧ s.client = none ∧
    s.upstream = some (watched EPOLLOUT)

def Relays (s : Stance) : Prop :=
  (s.state = .forwardResponse ∧ s.WritesClient ∧ s.ReadsUpstream) ∨
    (s.state = .forwardResponseOnlyWrite ∧ s.WritesClient ∧ s.upstream = none)

/-- The masks ask for what the executor accepts. -/
def Fits (s : Stance) : Prop :=
  match s.exec with
  | some .request => s.state = .readRequest ∧ s.OnlyClient EPOLLIN
  | some .sslRequest =>
    (s.state = .sslHandshake ∧ s.upstream = none) ∨ (s.state = .readRequest ∧ s.OnlyClient EPOLLIN)
  | some .file => s.Sends ∧ s.OnlyClient EPOLLOUT
  | some .sslFile =>
    (s.Sends ∧ s.OnlyClient EPOLLOUT) ∨
      (s.state = .sendFile ∧ s.OnlyClient (EPOLLIN ||| EPOLLOUT))
  | some .proxySplice => s.Connects ∨ s.Relays
  | some .proxyReadWrite => s.Connects ∨ s.Relays
  | some .sslProxy => s.Connects ∨ s.Relays
  | _ => True

end Stance

/-- Some of the events that the mask asks for. -/
structure AskedFor (mask events : Nat) : Prop where
  some : events ≠ 0
  asked : events &&& (mask &&& (EPOLLIN ||| EPOLLOUT)) = events

instance (mask events : Nat) : Decidable (AskedFor mask events) :=
  decidable_of_iff (events ≠ 0 ∧ events &&& (mask &&& (EPOLLIN ||| EPOLLOUT)) = events)
    ⟨fun h => ⟨h.1, h.2⟩, fun h => ⟨h.some, h.asked⟩⟩

/-- The executor accepts every event that one of its descriptors is watched for. -/
def AcceptsAsked (w : World) (l r : Nat) : Prop :=
  ∀ e, (w.data l r).pExecutor = some e → e.Serves → ∀ place mask, w.mask l r place = some mask →
    ∀ events, AskedFor mask events → e.Accepts (w.data l r) (w.fdAt l r place) events

theorem AskedFor.le {mask events : Nat} (h : AskedFor mask events) :
    events ≤ mask &&& (EPOLLIN ||| EPOLLOUT) := by
  rw [← h.asked]
  exact Nat.and_le_right

theorem AskedFor.input {events : Nat} (h : AskedFor (watched EPOLLIN) events) :
    events = EPOLLIN := by
  have hle : events ≤ 1 := h.le
  have hne := h.some
  show events = 1
  omega

theorem AskedFor.output {events : Nat} (h : AskedFor (watched EPOLLOUT) events) :
    hasEvent events EPOLLOUT = true := by
  have hle : events ≤ 4 := h.le
  have hmem : ∀ n ≤ 4, AskedFor (watched EPOLLOUT) n → hasEvent n EPOLLOUT = true := by decide
  exact hmem events hle h

theorem AskedFor.both {events : Nat} (h : AskedFor (watched (EPOLLIN ||| EPOLLOUT)) events) :
    hasEvent events EPOLLIN = true ∨ hasEvent events EPOLLOUT = true := by
  have hle : events ≤ 5 := h.le
  have hmem : ∀ n ≤ 5, AskedFor (watched (EPOLLIN ||| EPOLLOUT)) n →
      hasEvent n EPOLLIN = true ∨ hasEvent n EPOLLOUT = true := by decide
  exact hmem events hle h

section
variable {w : World} {l r : Nat} {place : Place} {mask events : Nat}

/-- Of two descriptors of which the second is not watched, the first is meant. -/
theorem mask_client {m : Nat} (h : w.mask l r place = some mask)
    (hclient : w.mask l r .fd0 = some m) (hupstream : w.mask l r .fd1 = none) :
    w.fdAt l r place = (w.data l r).fd0 ∧ mask = m := by
  cases place with
  | fd0 => exact ⟨rfl, Option.some.inj (h.symm.trans hclient)⟩
  | fd1 =>
    rw [hupstream] at h
    cases h
  | pipeRead => cases h
  | pipeWrite => cases h

theorem file_accepts {s : Stance} (hs : w.stance l r = s) (hsends : s.Sends)
    (honly : s.OnlyClient EPOLLOUT) (hmask : w.mask l r place = some mask)
    (hasked : AskedFor mask events) :
    FileExecutor.Accepts (w.data l r) (w.fdAt l r place) events := by
  obtain ⟨hclient, hupstream⟩ := honly
  subst hs
  obtain ⟨hfd, rfl⟩ := mask_client hmask hclient hupstream
  exact ⟨hsends, hfd, hasked.output⟩

theorem proxy_accepts {s : Stance} (hs : w.stance l r = s) (hfits : s.Connects ∨ s.Relays)
    (hmask : w.mask l r place = some mask) (hasked : AskedFor mask events) :
    ProxyExecutor.Accepts (w.data l r) (w.fdAt l r place) events := by
  subst hs
  -- The client is watched for `EPOLLOUT` and the server for `EPOLLIN`.
  have hwrites : (w.stance l r).WritesClient → w.mask l r .fd0 = some mask →
      hasEvent events EPOLLOUT = true := by
    intro hclient hmask
    rcases hclient with hnone | hsome
    · have hnone' : w.mask l r .fd0 = none := hnone
      rw [hnone'] at hmask
      cases hmask
    · obtain rfl : mask = watched EPOLLOUT := Option.some.inj (hmask.symm.trans hsome)
      exact hasked.output
  rcases hfits with ⟨hstate, hclient, hupstream⟩ | ⟨hstate, hclient, hupstream⟩ |
    ⟨hstate, hclient, hupstream⟩
  · cases place with
    | fd0 =>
      have hnone : w.mask l r .fd0 = none := hclient
      rw [hnone] at hmask
      cases hmask
    | fd1 =>
      obtain rfl : mask = watched EPOLLOUT := Option.some.inj (hmask.symm.trans hupstream)
      exact Or.inl ⟨hstate, rfl, hasked.output⟩
    | pipeRead => cases hmask
    | pipeWrite => cases hmask
  · cases place with
    | fd0 => exact Or.inr (Or.inr ⟨Or.inl hstate, rfl, hwrites hclient hmask⟩)
    | fd1 =>
      rcases hupstream with hnone | hsome
      · have hnone' : w.mask l r .fd1 = none := hnone
        rw [hnone'] at hmask
        cases hmask
      · obtain rfl : mask = watched EPOLLIN := Option.some.inj (hmask.symm.trans hsome)
        rw [hasked.input]
        exact Or.inr (Or.inl ⟨hstate, rfl, by decide⟩)
    | pipeRead => cases hmask
    | pipeWrite => cases hmask
  · cases place with
    | fd0 => exact Or.inr (Or.inr ⟨Or.inr hstate, rfl, hwrites hclient hmask⟩)
    | fd1 =>
      have hnone : w.mask l r .fd1 = none := hupstream
      rw [hnone] at hmask
      cases hmask
    | pipeRead => cases hmask
    | pipeWrite => cases hmask

/-- An executor whose stance fits accepts what it is watched for. -/
theorem acceptsAsked_of_fits (h : (w.stance l r).Fits) : AcceptsAsked w l r := by
  intro e he hserves place mask hmask events hasked
  have hexec : (w.stance l r).exec = some e := he
  unfold Stance.Fits at h
  rw [hexec] at h
  cases e with
  | newFd => exact trivial
  | server => exact trivial
  | sslServer => exact trivial
  | request =>
    obtain ⟨hstate, hclient, hupstream⟩ := h
    obtain ⟨hfd, rfl⟩ := mask_client hmask hclient hupstream
    rw [hasked.input]
    exact ⟨hstate, hfd, by decide⟩
  | sslRequest =>
    rcases h with ⟨hstate, hupstream⟩ | ⟨hstate, hclient, hupstream⟩
    · cases hclient : w.mask l r .fd0 with
      | none =>
        have hnone : w.mask l r .fd1 = none := hupstream
        cases place with
        | fd0 => rw [hclient] at hmask; cases hmask
        | fd1 => rw [hnone] at hmask; cases hmask
        | pipeRead => cases hmask
        | pipeWrite => cases hmask
      | some m => exact Or.inl ⟨hstate, (mask_client hmask hclient hupstream).1⟩
    · obtain ⟨hfd, rfl⟩ := mask_client hmask hclient hupstream
      exact Or.inr ⟨hstate, hfd, hasked.input⟩
  | file => exact file_accepts rfl h.1 h.2 hmask hasked
  | sslFile =>
    rcases h with ⟨hsends, honly⟩ | ⟨hstate, hclient, hupstream⟩
    · exact Or.inr (file_accepts rfl hsends honly hmask hasked)
    · obtain ⟨hfd, rfl⟩ := mask_client hmask hclient hupstream
      exact Or.inl ⟨hstate, hfd, hasked.both⟩
  | proxySplice => exact proxy_accepts rfl h hmask hasked
  | proxyReadWrite => exact proxy_accepts rfl h hmask hasked
  | sslProxy => exact proxy_accepts rfl h hmask hasked

end

end EpollHttp
