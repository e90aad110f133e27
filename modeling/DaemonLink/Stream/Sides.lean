import DaemonLink.SystemError

/-!
# The two sides of a byte stream

A reader of frames needs two things of a stream: it can wait for the stream to
have something, for so long, and it can receive some of what is there. A
`Receiver` is a pair of such functions over any state of the stream, so the
reader below is written once and runs over arrivals listed in advance, over
the sockets of a machine, or over a stream that records every request made of
it.

A request names the window of the buffer it is to fill. The bytes do not depend
on the window's place, only on its room; the place is there because how far a
buffer has grown when bytes are asked for is a fact about the reader worth
stating.

A writer offers bytes and is told how many of them were taken. That can be
fewer than it offered, and then it offers the rest again. A `Sender` is all it
needs.
-/

namespace DaemonLink

/-- The buffers a reader fills. -/
inductive Buffer
  /-- A buffer of a fixed size, such as the header's or a caller's own. -/
  | fixed
  /-- The buffer of the payload, which grows as the payload arrives. -/
  | payload
  deriving DecidableEq, Repr

/-- The part of a buffer that a request for bytes is to fill. -/
structure Window where
  /-- The buffer asked to be filled. -/
  buffer : Buffer
  /-- How large the buffer is at that moment. -/
  size : Nat
  /-- Where in the buffer the bytes go. -/
  start : Nat
  /-- How many bytes are asked for. -/
  room : Nat
  deriving DecidableEq, Repr

namespace Window

/-- A whole buffer of fixed size. -/
def whole (n : Nat) : Window where
  buffer := .fixed
  size := n
  start := 0
  room := n

/-- What is left of a window when its first bytes have been filled. -/
def advance (w : Window) (filled : Nat) : Window :=
  { w with start := w.start + filled, room := w.room - filled }

end Window

/-- What waiting for bytes ends with. -/
inductive Wait
  /-- There are bytes to receive, or an end of the stream to be told of. -/
  | ready
  /-- The time allowed has passed. -/
  | expired
  /-- The system refused to wait. -/
  | failed (e : SystemError)
  deriving DecidableEq, Repr

/-- A source of bytes with states in `σ`. To receive no bytes means that the
peer has closed the stream. -/
structure Receiver (σ : Type) where
  /-- Wait for at most so many milliseconds. -/
  wait : Int → σ → Wait × σ
  /-- Receive some bytes, at most as many as the window has room for. -/
  receive : Window → σ → Except SystemError Bytes × σ

/-- A sink of bytes with states in `σ`. -/
structure Sender (σ : Type) where
  /-- Offer bytes; the answer is how many from the front were taken. -/
  send : Bytes → σ → Except SystemError Nat × σ

end DaemonLink
