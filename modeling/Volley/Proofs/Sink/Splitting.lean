import Volley.Proofs.Supervisor.Lifecycle
import Volley.Session

/-!
# Where a sink refuses to cut

A sink answers `TransportError.invalidSplit` to bytes that it cannot cut where it is asked to, and
to nothing else. Bytes that are to be cut inside are therefore never answered that way, by none of
the sinks there are: not by a stream, on which either part may fail, not by a supervisor, which may
not even get a session, and not by datagrams, which need not fit.

## Main definitions

* `Sink.CutsInside`: a sink of which that is true.
-/

namespace Volley

/-- A sink whose `sendSplit` never answers with an error that `isInvalidSplit` if the cut is
strictly inside the bytes. -/
class Sink.CutsInside (σ : Type) [Sink σ] : Prop where
  isInvalidSplit_of_sendSplit : ∀ {bytes : Bytes} {cut : Nat} {clock later : Clock} {sink next : σ}
    {e : TransportError}, 0 < cut ∧ cut < bytes.length →
      Sink.sendSplit bytes cut clock sink = (.error e, later, next) → e.isInvalidSplit = false

/-- If no error of a `send` is one that `isInvalidSplit`, neither is one of `sendInTwo`, where the
cut is strictly inside the bytes. -/
theorem isInvalidSplit_of_sendInTwo {σ : Type} {send : Bytes → Clock → σ → Reply × Clock × σ}
    (hsend : ∀ {bytes clock later sink next e}, send bytes clock sink = (.error e, later, next) →
      e.isInvalidSplit = false)
    {bytes : Bytes} {cut : Nat} {clock later : Clock} {sink next : σ} {e : TransportError}
    (hcut : 0 < cut ∧ cut < bytes.length)
    (h : sendInTwo send bytes cut clock sink = (.error e, later, next)) :
    e.isInvalidSplit = false := by
  rw [sendInTwo, splitAtCut, if_pos hcut] at h
  simp only at h
  split at h
  · exact hsend h
  · next hhead =>
    cases h
    exact hsend hhead

instance : Sink.CutsInside Recorder where
  isInvalidSplit_of_sendSplit := isInvalidSplit_of_sendInTwo Recorder.isInvalidSplit_of_send

instance {ω : Type} [Writer ω] : Sink.CutsInside (StreamSession ω) where
  isInvalidSplit_of_sendSplit := isInvalidSplit_of_sendInTwo StreamSession.isInvalidSplit_of_write

/-- An error of `DatagramSession.send` is about the size or the way to the target, never one that
`isInvalidSplit`. -/
theorem DatagramSession.isInvalidSplit_of_send {bytes : Bytes} {clock later : Clock}
    {session next : DatagramSession} {e : TransportError}
    (h : session.send bytes clock = (.error e, later, next)) : e.isInvalidSplit = false := by
  unfold send at h
  split at h
  · cases h
    rfl
  · split at h
    · cases h
      rfl
    · cases h

instance : Sink.CutsInside DatagramSession where
  isInvalidSplit_of_sendSplit :=
    isInvalidSplit_of_sendInTwo DatagramSession.isInvalidSplit_of_send

/-- A pair cuts on its stream. -/
instance {σ δ : Type} [Sink σ] [Sink δ] [Sink.CutsInside σ] : Sink.CutsInside (Mixed σ δ) where
  isInvalidSplit_of_sendSplit {bytes cut clock later pair next e} hcut h := by
    rcases hsplit : Sink.sendSplit bytes cut clock pair.stream with ⟨reply, after, stream⟩
    have hpair : Sink.sendSplit bytes cut clock pair = (reply, after, { pair with stream }) := by
      show Mixed.sendSplit bytes cut clock pair = _
      rw [Mixed.sendSplit, hsplit]
    rw [hpair] at h
    cases h
    exact Sink.CutsInside.isInvalidSplit_of_sendSplit hcut hsplit

namespace Supervisor

variable {σ : Type} [Sink σ]

/-- The only error of `ensureConnected` is `.closed`. -/
theorem eq_closed_of_ensureConnected {clock later : Clock} {supervisor next : Supervisor σ}
    {e : TransportError} (h : supervisor.ensureConnected clock = (.error e, later, next)) :
    e = .closed := by
  fun_induction ensureConnected clock supervisor with
  | case1 => cases h
  | case2 => cases h; rfl
  | case3 => cases h; rfl
  | case4 => cases h
  | case5 clock supervisor _ _ _ _ _ _ _ _ _ ih => exact ih h

/-- A supervisor answers what its session answers, or that it has none. -/
instance [Sink.CutsInside σ] : Sink.CutsInside (Supervisor σ) where
  isInvalidSplit_of_sendSplit {bytes cut clock later supervisor next e} hcut h := by
    have hsubmit :
        supervisor.submit TransportError.isInvalidSplit (Sink.sendSplit bytes cut) clock =
          (.error e, later, next) := h
    unfold submit at hsubmit
    split at hsubmit
    · next hensure =>
      cases hsubmit
      rw [eq_closed_of_ensureConnected hensure]
      rfl
    · split at hsubmit
      · cases hsubmit
        rfl
      · next moment _ _ _ session _ =>
        rcases hsplit : Sink.sendSplit bytes cut moment session with ⟨reply, after, left⟩
        rw [hsplit] at hsubmit
        cases reply with
        | ok => cases hsubmit
        | error cause =>
          have hcause := Sink.CutsInside.isInvalidSplit_of_sendSplit hcut hsplit
          -- Whatever becomes of the session, its answer is passed on.
          simp only at hsubmit
          split at hsubmit
          · cases hsubmit
            exact hcause
          · cases hsubmit
            exact hcause

end Supervisor

/-- If the wrapped sink `CutsInside`, no error that `lift` passes on is one that `isInvalidSplit`.
-/
theorem SessionOver.isInvalidSplit_of_lift {ω σ : Type} [Writer ω] [Sink σ] [Sink.CutsInside σ]
    {wrap : σ → SessionOver ω} {bytes : Bytes} {cut : Nat} {clock later : Clock} {sink : σ}
    {next : SessionOver ω} {e : TransportError} (hcut : 0 < cut ∧ cut < bytes.length)
    (h : lift wrap (Sink.sendSplit bytes cut clock sink) = (.error e, later, next)) :
    e.isInvalidSplit = false := by
  rcases hsplit : Sink.sendSplit bytes cut clock sink with ⟨reply, after, left⟩
  rw [hsplit] at h
  cases h
  exact Sink.CutsInside.isInvalidSplit_of_sendSplit hcut hsplit

instance {ω : Type} [Writer ω] : Sink.CutsInside (SessionOver ω) where
  isInvalidSplit_of_sendSplit {_ _ _ _ session _ _} hcut h := by
    cases session with
    | stream session => exact SessionOver.isInvalidSplit_of_lift hcut h
    | supervised supervisor => exact SessionOver.isInvalidSplit_of_lift hcut h
    | datagram session => exact SessionOver.isInvalidSplit_of_lift hcut h
    | mixed pair => exact SessionOver.isInvalidSplit_of_lift hcut h

end Volley
