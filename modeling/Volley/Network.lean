import Volley.Pool.Worker
import Volley.Session

/-!
# The network

What a worker finds at the address of its target: a receiver that takes everything, one that takes a
connection and then reads nothing, nobody, or no answer at all. Datagrams go their way whoever
listens.
-/

namespace Volley

/-- What stands at an address for streams. -/
inductive Peer where
  /-- Reads every connection to its end. -/
  | receiving
  /-- Takes connections and never reads; this many bytes fit into the buffers of one. -/
  | stalled (room : Nat)
  /-- Refuses connections. -/
  | refusing
  /-- Does not answer. -/
  | silent
  deriving DecidableEq, Repr

/-- The streams and datagrams that workers send have this around them. -/
structure Network where
  /-- What stands at each address. -/
  peer : Address → Peer
  /-- What becomes of the datagrams of one session. -/
  route : Route := .clear

namespace Peer

/-- A new session on a connection with so much `room`, limited by the `ioTimeout` of its target. -/
def session (room : Option Nat) (target : Target) : StreamSession Pipe :=
  .new (.new room) target.ioTimeout.timerMillis

/-- The attempt to open a stream to `target`, if a certain `peer` stands there. -/
def attempt (peer : Peer) (target : Target) : Attempt (StreamSession Pipe) :=
  match peer with
  | receiving => ⟨0, .ok (session none target)⟩
  | stalled room => ⟨0, .ok (session (some room) target)⟩
  | refusing => ⟨0, .error (.connect target.stream .connectionRefused)⟩
  | silent => ⟨target.connectTimeout.timerMillis, .error (.connect target.stream .timedOut)⟩

/-- The attempts of a supervisor, as many as it can begin before a timer has run out that is set to
`horizon`. An attempt that fails takes some time, if only the least there is. -/
def connector (peer : Peer) (target : Target) (horizon : Nat) : Connector (StreamSession Pipe) :=
  let attempt := peer.attempt target
  match attempt.result with
  | .ok session => ⟨[], session⟩
  | .error cause =>
    let pause := Clock.timer target.backoff.timerMillis
    let delay := if attempt.delay + pause = 0 then 1 else Clock.timer attempt.delay
    let count := Clock.timer horizon / (delay + pause) + 2
    ⟨List.replicate count ⟨delay, .error cause⟩, session none target⟩

end Peer

namespace Network

/-- The attempt to open the session that a job asks for. Nothing is begun once a timer has run out
that is set to `horizon`. -/
def dial (network : Network) (horizon : Nat) (job : Job) : Attempt Session :=
  let peer := network.peer job.target.stream
  match job.spec.transport with
  | .stream => (peer.attempt job.target).map .stream
  | .supervised =>
    ⟨0, .ok (.supervised (.new (peer.connector job.target horizon)
      job.target.backoff.timerMillis true))⟩
  | .datagram => ⟨0, .ok (.datagram (.new network.route))⟩
  | .mixed =>
    (peer.attempt job.target).map fun session => .mixed (.new session (.new network.route))

end Network

end Volley
