import DaemonLink.Frame.Header
import DaemonLink.Frame.Status
import DaemonLink.Stream.Sides

/-!
# Reading frames

A frame is read in pieces of known size: the four bytes of the header, then
the payload in chunks. Each piece is filled by waiting and receiving until it
is complete or until a wait brings nothing. What that barren wait was decides
everything about the failure: its status and its text. The frame's result adds
only whether it happened in the header or in the payload.

The payload is not received into one buffer of the announced length. The
buffer grows by one chunk at a time, and only when the chunk before it has
arrived, so that a peer that announces four gigabytes and sends nothing costs
one chunk.

The recursion in `readInto` is on the room still to be filled: a receive that
brings bytes makes it smaller, and one that does not ends the loop.
-/

namespace DaemonLink

/-- A wait that brought no bytes. -/
inductive Barren
  /-- The peer has closed the stream after some of the bytes asked for. -/
  | closed (got wanted : Nat)
  /-- The connection was reset. -/
  | reset
  /-- Nothing came within so many milliseconds. -/
  | expired (timeout : Int)
  /-- Waiting itself failed. -/
  | waitFailed (e : SystemError)
  /-- Receiving failed. -/
  | receiveFailed (e : SystemError)
  deriving DecidableEq, Repr

namespace Barren

/-- The status it gives the read. -/
def status : Barren → FrameStatus
  | closed _ _ => .closed
  | reset => .closed
  | expired _ => .timeout
  | waitFailed _ => .ioError
  | receiveFailed _ => .ioError

/-- The text that describes it. -/
def message : Barren → Bytes
  | closed got wanted =>
      text "peer closed connection after " ++ decimal got ++ text " of " ++ decimal wanted ++
        text " bytes"
  | reset => text "connection reset by peer"
  | expired timeout => text "no data from peer within " ++ signed timeout ++ text " ms"
  | waitFailed e => text "poll() failed: " ++ e.message
  | receiveFailed e => text "recv() failed: " ++ e.message

end Barren

/-! ## Filling a window -/

/-- What came of filling a window. -/
structure Intake (σ : Type) where
  /-- The bytes received, in order. -/
  data : Bytes
  /-- The wait that brought nothing, if the window was not filled. -/
  stop : Option Barren
  /-- The stream afterwards. -/
  stream : σ

namespace Intake

/-- The status of the read. -/
def status {σ : Type} (i : Intake σ) : FrameStatus :=
  match i.stop with
  | none => .ok
  | some b => b.status

/-- The buffer after the read: what was received, and behind it what the
buffer held before. -/
def fill {σ : Type} (i : Intake σ) (buffer : Bytes) : Bytes :=
  i.data ++ buffer.drop i.data.length

/-- The error text after the read, if it was `before` when the read began:
only a failure writes to it. -/
def note {σ : Type} (i : Intake σ) (before : Bytes) : Bytes :=
  match i.stop with
  | none => before
  | some b => b.message

end Intake

/-- Wait for bytes. A timeout that is not positive means to wait for ever, and
that is left to the receiving. -/
def Receiver.await {σ : Type} (r : Receiver σ) (timeout : Int) (s : σ) : Wait × σ :=
  if timeout ≤ 0 then (.ready, s) else r.wait timeout s

/-- Fill the room of a window, `total` bytes of which were asked for at first. -/
def readInto {σ : Type} (r : Receiver σ) (timeout : Int) (total : Nat) (w : Window) (s : σ) :
    Intake σ :=
  if w.room = 0 then ⟨[], none, s⟩
  else
    match r.await timeout s with
    | (.expired, s₁) => ⟨[], some (.expired timeout), s₁⟩
    | (.failed e, s₁) => ⟨[], some (.waitFailed e), s₁⟩
    | (.ready, s₁) =>
        match r.receive w s₁ with
        | (.error .connectionReset, s₂) => ⟨[], some .reset, s₂⟩
        | (.error e, s₂) => ⟨[], some (.receiveFailed e), s₂⟩
        | (.ok [], s₂) => ⟨[], some (.closed (total - w.room) total), s₂⟩
        | (.ok (b :: more), s₂) =>
            let got := (b :: more).take w.room
            let rest := readInto r timeout total (w.advance got.length) s₂
            ⟨got ++ rest.data, rest.stop, rest.stream⟩
termination_by w.room
decreasing_by
  simp only [Window.advance, List.length_take, List.length_cons]
  omega

/-- Receive exactly `n` bytes into a buffer of that size. -/
def readExact {σ : Type} (r : Receiver σ) (timeout : Int) (n : Nat) (s : σ) : Intake σ :=
  readInto r timeout n (.whole n) s

/-! ## Frames -/

/-- By how much the payload's buffer grows at a time. -/
def chunkSize : Nat := 65536

/-- What a reader accepts. -/
structure FrameLimits where
  /-- How many milliseconds a wait for more bytes may last; no bound if it is
  not positive. -/
  timeout : Int := 0
  /-- The largest payload. -/
  max : UInt32 := 10485760
  deriving DecidableEq, Repr

/-- Why a frame could not be read. -/
inductive FrameFault
  | header (b : Barren)
  | tooLarge (length max : UInt32)
  | payload (b : Barren)
  deriving DecidableEq, Repr

namespace FrameFault

/-- The status the fault is reported under. -/
def status : FrameFault → FrameStatus
  | header b => b.status
  | tooLarge _ _ => .tooLarge
  | payload b => b.status

/-- The text that describes the fault. -/
def message : FrameFault → Bytes
  | header b => text "reading frame header: " ++ b.message
  | tooLarge length max =>
      text "frame length " ++ decimal length.toNat ++ text " exceeds limit " ++
        decimal max.toNat
  | payload b => text "reading frame payload: " ++ b.message

end FrameFault

/-- The result of reading a frame: its payload, or why there is none. -/
abbrev FrameResult := Except FrameFault Bytes

namespace FrameResult

/-- The status of the read. -/
def status : FrameResult → FrameStatus
  | .ok _ => .ok
  | .error fault => fault.status

/-- What the output buffer holds after the read, whatever it held before. -/
def payload : FrameResult → Bytes
  | .ok data => data
  | .error _ => []

/-- The error text after the read, whatever it was before. -/
def message : FrameResult → Bytes
  | .ok _ => []
  | .error fault => fault.message

end FrameResult

/-- Receive the rest of a payload of the given length, `got` bytes of which
have arrived, one chunk after another. -/
def readPayload {σ : Type} (r : Receiver σ) (timeout : Int) (length got : Nat) (s : σ) :
    Except Barren Bytes × σ :=
  if got < length then
    let chunk := min chunkSize (length - got)
    let intake := readInto r timeout chunk ⟨.payload, got + chunk, got, chunk⟩ s
    match intake.stop with
    | some b => (.error b, intake.stream)
    | none =>
        match readPayload r timeout length (got + chunk) intake.stream with
        | (.ok rest, s₁) => (.ok (intake.data ++ rest), s₁)
        | (.error b, s₁) => (.error b, s₁)
  else (.ok [], s)
termination_by length - got
decreasing_by
  simp only [chunkSize]
  omega

/-- Read one frame. A length above the limit is found out from the header
alone, and nothing after the header is then received. -/
def readFrame {σ : Type} (r : Receiver σ) (limits : FrameLimits) (s : σ) : FrameResult × σ :=
  let intake := readExact r limits.timeout Header.size s
  match intake.stop with
  | some b => (.error (.header b), intake.stream)
  | none =>
      let length := (Header.ofBytes intake.data).length
      if limits.max < length then (.error (.tooLarge length limits.max), intake.stream)
      else
        match readPayload r limits.timeout length.toNat 0 intake.stream with
        | (.ok data, s₁) => (.ok data, s₁)
        | (.error b, s₁) => (.error (.payload b), s₁)

end DaemonLink
