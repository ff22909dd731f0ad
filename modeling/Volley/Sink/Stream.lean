import Volley.Sink.Basic

/-!
# Sessions on a byte stream

A session writes to the sending end of a stream, which takes as many bytes as it likes at a time and
may stall or fail. Every write, and every flush after it, has a time limit. An operation that runs
into its limit is tried once more at that moment; a limit of no time at all leaves no such chance.
The first failure closes the session for good, so a frame that broke off is never continued.
-/

namespace Volley

/-- What the sending end of a stream answers to the offer of some bytes. -/
inductive Taken where
  /-- It takes this many of them. -/
  | accepted (count : Nat)
  /-- It cannot take any now. -/
  | stalled
  | failed (cause : IoError)
  deriving DecidableEq, Repr

/-- What the sending end of a stream answers to a flush. -/
inductive Flushed where
  | done
  /-- It is not done yet. -/
  | stalled
  | failed (cause : IoError)
  deriving DecidableEq, Repr

/-- The sending end of a stream. -/
class Writer (ω : Type) where
  /-- Offers bytes. -/
  write : Bytes → ω → Taken × ω
  flush : ω → Flushed × ω
  /-- Ends the stream in order, after everything that was taken. -/
  shutdown : ω → ω
  /-- Lets go of the stream without ending it in order. -/
  release : ω → ω

variable {ω : Type} [Writer ω]

/-- How far a sequence of offers came. -/
inductive Written where
  /-- Everything was taken. -/
  | all
  /-- The stream stalled with these bytes left. -/
  | stalled (rest : Bytes)
  | failed (cause : IoError)
  deriving DecidableEq, Repr

/-- Offers bytes by `Writer.write` until all are taken, the stream stalls or it fails. A stream that
takes none of them at all has failed. -/
def writeAll (bytes : Bytes) (writer : ω) : Written × ω :=
  if bytes = [] then (.all, writer)
  else
    match Writer.write bytes writer with
    | (.accepted 0, writer) => (.failed .writeZero, writer)
    | (.accepted (count + 1), writer) => writeAll (bytes.drop (count + 1)) writer
    | (.stalled, writer) => (.stalled bytes, writer)
    | (.failed cause, writer) => (.failed cause, writer)
termination_by bytes.length
decreasing_by
  have : 0 < bytes.length := List.length_pos_iff.2 ‹_›
  simp only [List.length_drop]
  omega

/-- Writes bytes by `writeAll` within a time `limit`. -/
def writeWithin (limit : Nat) (bytes : Bytes) (clock : Clock) (writer : ω) : Reply × Clock × ω :=
  match writeAll bytes writer with
  | (.all, writer) => (.ok (), clock, writer)
  | (.failed cause, writer) => (.error (.io cause), clock, writer)
  | (.stalled rest, writer) =>
    if limit = 0 then (.error .timeout, clock, writer)
    else
    -- The limit has passed; what is left is offered once more before giving up.
    match writeAll rest writer with
    | (.all, writer) => (.ok (), clock.advance limit, writer)
    | (.failed cause, writer) => (.error (.io cause), clock.advance limit, writer)
    | (.stalled _, writer) => (.error .timeout, clock.advance limit, writer)

/-- Flushes by `Writer.flush` within a time `limit`. -/
def flushWithin (limit : Nat) (clock : Clock) (writer : ω) : Reply × Clock × ω :=
  match Writer.flush writer with
  | (.done, writer) => (.ok (), clock, writer)
  | (.failed cause, writer) => (.error (.io cause), clock, writer)
  | (.stalled, writer) =>
    if limit = 0 then (.error .timeout, clock, writer)
    else
    match Writer.flush writer with
    | (.done, writer) => (.ok (), clock.advance limit, writer)
    | (.failed cause, writer) => (.error (.io cause), clock.advance limit, writer)
    | (.stalled, writer) => (.error .timeout, clock.advance limit, writer)

/-- One session on a stream. -/
structure StreamSession (ω : Type) where
  writer : ω
  isOpen : Bool
  /-- The time limit of a write and of a flush, in milliseconds. -/
  limit : Nat
  deriving DecidableEq, Repr

namespace StreamSession

/-- A session on a stream that is open. -/
def new (writer : ω) (limit : Nat) : StreamSession ω :=
  ⟨writer, true, limit⟩

/-- Writes and flushes bytes, by `writeWithin` and `flushWithin`; they need not be whole frames. The
first failure closes the session and lets go of its writer. -/
def write (bytes : Bytes) (clock : Clock) (session : StreamSession ω) :
    Reply × Clock × StreamSession ω :=
  if !session.isOpen then (.error .closed, clock, session)
  else
    match writeWithin session.limit bytes clock session.writer with
    | (.error e, clock, writer) =>
      (.error e, clock, { session with writer := Writer.release writer, isOpen := false })
    | (.ok (), clock, writer) =>
      match flushWithin session.limit clock writer with
      | (.error e, clock, writer) =>
        (.error e, clock, { session with writer := Writer.release writer, isOpen := false })
      | (.ok (), clock, writer) => (.ok (), clock, { session with writer })

/-- Ends the stream in order by `Writer.shutdown`, if the session is open. -/
def close (session : StreamSession ω) : StreamSession ω :=
  if session.isOpen then
    { session with writer := Writer.release (Writer.shutdown session.writer), isOpen := false }
  else session

instance : Sink (StreamSession ω) where
  wire _ := .stream
  isOpen _ session := session.isOpen
  send := write
  sendSplit := sendInTwo write
  close := close

end StreamSession

end Volley
