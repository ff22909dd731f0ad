import Volley.Sink.Stream

/-!
# A stream with a buffer between its ends

The sending end takes bytes as long as there is room for them; the receiving end makes room by
reading. Either end may go away: then no more bytes are taken, or the reader comes to the end of
the stream once it has read what was taken.
-/

namespace Volley

/-- A stream of which one side writes and the other reads. -/
structure Pipe where
  /-- How many more bytes the buffer takes; `none` if there is no bound. -/
  room : Option Nat
  /-- The pieces that have been taken and not read, the latest first. -/
  pieces : List Bytes
  /-- Whether the sending end is there. -/
  writing : Bool
  /-- Whether the receiving end is there. -/
  reading : Bool
  deriving DecidableEq, Repr

namespace Pipe

/-- An empty stream that holds at most `capacity` bytes that have not been read. -/
def new (capacity : Option Nat) : Pipe :=
  ⟨capacity, [], true, true⟩

/-- The bytes of `pieces` in order: taken and not read. -/
def unread (pipe : Pipe) : Bytes :=
  pipe.pieces.reverse.flatten

/-- Takes as many bytes as there is `room` for. -/
def write (bytes : Bytes) (pipe : Pipe) : Taken × Pipe :=
  if !pipe.reading then (.failed .brokenPipe, pipe)
  else
    match pipe.room with
    | none => (.accepted bytes.length, { pipe with pieces := bytes :: pipe.pieces })
    | some 0 => (.stalled, pipe)
    | some room =>
      let count := min room bytes.length
      (.accepted count,
        { pipe with room := some (room - count), pieces := bytes.take count :: pipe.pieces })

instance : Writer Pipe where
  write := write
  flush pipe := (.done, pipe)
  shutdown pipe := { pipe with writing := false }
  release pipe := { pipe with writing := false }

/-- What a reader finds. -/
inductive Found where
  | bytes (found : Bytes)
  /-- There is nothing to read yet. -/
  | nothing
  /-- Everything has been read, and no more will come. -/
  | ended
  /-- There is no reader any more. -/
  | gone
  deriving DecidableEq, Repr

/-- Reads at most `count` bytes. -/
def read (count : Nat) (pipe : Pipe) : Found × Pipe :=
  if !pipe.reading then (.gone, pipe)
  else
    match pipe.unread with
    | [] => (if pipe.writing then .nothing else .ended, pipe)
    | unread =>
      let found := unread.take count
      (.bytes found,
        { pipe with pieces := [unread.drop count], room := pipe.room.map (· + found.length) })

/-- Takes the receiving end away: `reading` is false. -/
def dropReader (pipe : Pipe) : Pipe :=
  { pipe with reading := false }

end Pipe

end Volley
