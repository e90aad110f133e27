import DaemonLink.Frame.Header
import DaemonLink.Frame.Status
import DaemonLink.Stream.Sides

/-!
# Writing frames

A frame is written as one packet: header and payload are offered together, and
what was not taken is offered again. What is on the wire is therefore at every
moment the front of one packet, and a peer that gets less than all of it can
tell.

A caller may name a length and give no bytes; the payload is then that many
zeros. Such a length may be more than a header can hold. It is refused before
anything is sent, and before the zeros are made.
-/

namespace DaemonLink

/-- What is to be sent as a payload. -/
inductive Payload
  /-- These bytes. -/
  | given (data : Bytes)
  /-- So many zeros. -/
  | blank (length : Nat)
  deriving DecidableEq, Repr

namespace Payload

/-- How many bytes the payload has. -/
def length : Payload → Nat
  | given data => data.length
  | blank n => n

/-- The bytes of the payload. -/
def bytes : Payload → Bytes
  | given data => data
  | blank n => List.replicate n 0

end Payload

/-- The largest length a header can hold. -/
def maxWireLength : Nat := 4294967295

/-- Why a frame could not be written. -/
inductive WriteFault
  /-- No header holds this length. -/
  | tooLong (length : Nat)
  /-- Sending failed. -/
  | sendFailed (e : SystemError)
  /-- Nothing more was taken after so many bytes. -/
  | stalled (sent : Nat)
  deriving DecidableEq, Repr

namespace WriteFault

/-- The status the fault is reported under. A broken pipe and a reset both mean
that the peer has gone. -/
def status : WriteFault → FrameStatus
  | tooLong _ => .tooLarge
  | sendFailed .brokenPipe => .closed
  | sendFailed .connectionReset => .closed
  | sendFailed _ => .ioError
  | stalled _ => .ioError

/-- The text that describes the fault. -/
def message : WriteFault → Bytes
  | tooLong n =>
      text "payload of " ++ decimal n ++ text " bytes does not fit a uint32 length"
  | sendFailed e => text "send() failed: " ++ e.message
  | stalled sent => text "send() wrote nothing after " ++ decimal sent ++ text " bytes"

end WriteFault

/-- The packet of a payload: its header, then its bytes. -/
def packet (p : Payload) : Bytes :=
  (Header.ofLength p.length.toUInt32).toBytes ++ p.bytes

/-- Offer bytes until all of them are taken; `sent` went before them. The
answer is the fault that ended it, if one did. -/
def sendAll {σ : Type} (sender : Sender σ) (sent : Nat) (rest : Bytes) (s : σ) :
    Option WriteFault × σ :=
  match rest with
  | [] => (none, s)
  | b :: more =>
      match sender.send (b :: more) s with
      | (.error e, s₁) => (some (.sendFailed e), s₁)
      | (.ok 0, s₁) => (some (.stalled sent), s₁)
      | (.ok (n + 1), s₁) => sendAll sender (sent + (n + 1)) (more.drop n) s₁
termination_by rest.length
decreasing_by
  simp only [List.length_drop, List.length_cons]
  omega

/-- Write one frame. -/
def writeFrame {σ : Type} (sender : Sender σ) (p : Payload) (s : σ) : Option WriteFault × σ :=
  if maxWireLength < p.length then (some (.tooLong p.length), s)
  else sendAll sender 0 (packet p) s

end DaemonLink
