import Volley.Frame.Basic
import Volley.Sink.Basic

/-!
# Sessions without a connection

Every submission is one datagram to a fixed target. Nobody confirms it, and a failure says nothing
about the next one, so such a session is always open.
-/

namespace Volley

/-- What becomes of the datagrams that a `DatagramSession` hands to the operating system. -/
structure Route where
  /-- The answers to the next datagrams; `none` means that one is taken. -/
  answers : List (Option IoError)
  /-- The answer to every datagram after them. -/
  otherwise : Option IoError
  deriving DecidableEq, Repr

namespace Route

/-- Every datagram is taken. -/
def clear : Route := ⟨[], none⟩

/-- No datagram has a way to its target. -/
def unreachable : Route := ⟨[], some .networkUnreachable⟩

/-- The answer to the next datagram, from `answers` or else `otherwise`. -/
def next (route : Route) : Option IoError × Route :=
  match route.answers with
  | [] => (route.otherwise, route)
  | answer :: answers => (answer, { route with answers })

end Route

/-- One session that sends datagrams. -/
structure DatagramSession where
  route : Route
  /-- The datagrams that were taken, the latest first. -/
  log : List Bytes
  deriving DecidableEq, Repr

namespace DatagramSession

/-- A session that has sent nothing. -/
def new (route : Route) : DatagramSession := ⟨route, []⟩

/-- The datagrams of `log`, in the order in which they were taken. -/
def datagrams (session : DatagramSession) : List Bytes :=
  session.log.reverse

/-- Sends one datagram, as the `next` answer of its `route` says. One above `Frame.maxDatagramSize`
is refused here. -/
def send (bytes : Bytes) (clock : Clock) (session : DatagramSession) :
    Reply × Clock × DatagramSession :=
  if bytes.length > Frame.maxDatagramSize then
    (.error (.datagramTooLarge bytes.length), clock, session)
  else
    match session.route.next with
    | (some cause, route) => (.error (.io cause), clock, { session with route })
    | (none, route) => (.ok (), clock, { route, log := bytes :: session.log })

instance : Sink DatagramSession where
  wire _ := .datagram
  isOpen _ _ := true
  send := send
  sendSplit := sendInTwo send
  close session := session

end DatagramSession

end Volley
