import DaemonLink.Bytes

/-!
# How an attempt at a frame ends

Reading or writing a frame ends in one of five ways. The names are what a
failed exchange reports as the kind of its failure, so they are part of what
scripts around the program match on.
-/

namespace DaemonLink

/-- The ways in which reading or writing a frame ends. -/
inductive FrameStatus
  /-- The frame was read or written whole. -/
  | ok
  /-- The peer has closed or reset the connection. -/
  | closed
  /-- Nothing came within the time allowed. -/
  | timeout
  /-- The length is above what is accepted or what a header can hold. -/
  | tooLarge
  /-- The system refused for any other reason. -/
  | ioError
  deriving DecidableEq, Repr

namespace FrameStatus

/-- The name under which the status is reported. -/
def name : FrameStatus → Bytes
  | ok => text "ok"
  | closed => text "connection-closed"
  | timeout => text "timeout"
  | tooLarge => text "frame-too-large"
  | ioError => text "io"

/-- The status with the given number. Numbers nobody assigned stand for an
unspecific refusal. -/
def ofCode : Int → FrameStatus
  | 0 => ok
  | 1 => closed
  | 2 => timeout
  | 3 => tooLarge
  | _ => ioError

end FrameStatus

end DaemonLink
