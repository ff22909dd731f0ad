import Volley.Sink.Datagram
import Volley.Sink.Mixed
import Volley.Sink.Pipe
import Volley.Supervisor.Basic

/-!
# Sessions

The session of a worker is of one of four kinds, as its scenario asks for. Whatever its kind, and
whatever stands at the far end of its streams, it is a sink. If its streams are pipes, what has come
out at their far ends can be told afterwards.
-/

namespace Volley

/-- A session of one worker, on streams of the given kind. -/
inductive SessionOver (ω : Type) where
  | stream (session : StreamSession ω)
  | supervised (supervisor : Supervisor (StreamSession ω))
  | datagram (session : DatagramSession)
  | mixed (pair : Mixed (StreamSession ω) DatagramSession)

namespace SessionOver

variable {ω : Type} [Writer ω]

/-- The `Sink.wire` of what a session is made of. -/
def wire : SessionOver ω → Wire
  | stream session => Sink.wire session
  | supervised supervisor => Sink.wire supervisor
  | datagram session => Sink.wire session
  | mixed pair => Sink.wire pair

/-- The `Sink.isOpen` of what a session is made of: whether a later submission can still succeed. -/
def isOpen (clock : Clock) : SessionOver ω → Bool
  | stream session => Sink.isOpen clock session
  | supervised supervisor => Sink.isOpen clock supervisor
  | datagram session => Sink.isOpen clock session
  | mixed pair => Sink.isOpen clock pair

/-- The answer to a submission, with the sink that it leaves behind made a session by `wrap`. -/
def lift {σ : Type} (wrap : σ → SessionOver ω) (answer : Reply × Clock × σ) :
    Reply × Clock × SessionOver ω :=
  (answer.1, answer.2.1, wrap answer.2.2)

/-- Submits bytes as one write or one datagram, by `Sink.send` of what the session is made of. -/
def send (bytes : Bytes) (clock : Clock) : SessionOver ω → Reply × Clock × SessionOver ω
  | stream session => lift stream (Sink.send bytes clock session)
  | supervised supervisor => lift supervised (Sink.send bytes clock supervisor)
  | datagram session => lift datagram (Sink.send bytes clock session)
  | mixed pair => lift mixed (Sink.send bytes clock pair)

/-- Submits bytes in two parts, by `Sink.sendSplit` of what the session is made of. -/
def sendSplit (bytes : Bytes) (cut : Nat) (clock : Clock) :
    SessionOver ω → Reply × Clock × SessionOver ω
  | stream session => lift stream (Sink.sendSplit bytes cut clock session)
  | supervised supervisor => lift supervised (Sink.sendSplit bytes cut clock supervisor)
  | datagram session => lift datagram (Sink.sendSplit bytes cut clock session)
  | mixed pair => lift mixed (Sink.sendSplit bytes cut clock pair)

/-- Releases what a session holds, by `Sink.close` of what it is made of. -/
def close : SessionOver ω → SessionOver ω
  | stream session => stream (Sink.close session)
  | supervised supervisor => supervised (Sink.close supervisor)
  | datagram session => datagram (Sink.close session)
  | mixed pair => mixed (Sink.close pair)

instance : Sink (SessionOver ω) where
  wire := wire
  isOpen := isOpen
  send := send
  sendSplit := sendSplit
  close := close

end SessionOver

/-- A session of one worker on streams whose far end can be read. -/
abbrev Session := SessionOver Pipe

namespace Session

/-- The bytes that came out of each connection of a `Session`. -/
def streams : Session → List Bytes
  | .stream session => [session.writer.unread]
  | .supervised supervisor => supervisor.sessions.map (·.writer.unread)
  | .datagram _ => []
  | .mixed pair => [pair.stream.writer.unread]

/-- The datagrams that a `Session` has sent. -/
def datagrams : Session → List Bytes
  | .stream _ => []
  | .supervised _ => []
  | .datagram session => session.datagrams
  | .mixed pair => pair.datagram.datagrams

end Session

end Volley
