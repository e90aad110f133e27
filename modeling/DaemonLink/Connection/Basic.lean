import DaemonLink.Action
import DaemonLink.Connection.Options
import DaemonLink.Envelope
import DaemonLink.Log.Note

/-!
# Connections

A connection owns at most one descriptor. It is opened by connecting to a path
or by taking over a descriptor, and either closes what was open before. From
then on the connection is the only one that may close the descriptor: moving a
connection moves the descriptor with it and leaves nothing behind.

Failure is final. A reader that has failed in the middle of a frame no longer
knows where the next one starts, so a failed connection is closed at once and
does not read again. The state says that it has failed until it is opened
anew.

The order of the steps is that of the messages in the log: a failure is
reported before the descriptor is closed.
-/

namespace DaemonLink

/-- Where a connection is in its exchange. -/
inductive State
  | idle
  | awaitingFrame
  | logReceived
  | resolved
  | failed
  deriving DecidableEq, Repr

namespace State

/-- The name of the state. -/
def name : State → Bytes
  | idle => text "Idle"
  | awaitingFrame => text "AwaitingFrame"
  | logReceived => text "LogReceived"
  | resolved => text "Resolved"
  | failed => text "Failed"

end State

/-- A connection to the daemon. -/
structure Connection where
  /-- The descriptor it owns. -/
  descriptor : Option Nat
  options : ConnectionOptions
  sink : Sink
  state : State
  deriving DecidableEq, Repr

namespace Connection

/-- A connection that is not open. -/
def new (options : ConnectionOptions) : Connection where
  descriptor := none
  options := options
  sink := .logger
  state := .idle

/-- Whether the connection has a descriptor. -/
def isOpen (c : Connection) : Bool :=
  c.descriptor.isSome

/-- What is left of a connection that has been moved from: its limits and its
strictness, and nothing it could own or call. -/
def emptied (c : Connection) : Connection where
  descriptor := none
  options := { c.options with accepted := .empty }
  sink := .none
  state := .idle

/-! ## Notes -/

/-- The name under which connections appear in the log. -/
def tag : Bytes := text "IPC"

/-- The name under which the flow of envelopes appears in the log. -/
def flowTag : Bytes := text "FLOW"

/-- A place in this module. -/
def origin (line : Int) : Origin :=
  ⟨text "Connection.lean", line⟩

/-- A connection was made. -/
def connectedNote (path : Bytes) (fd : Nat) : Note :=
  .formatted .debug tag (origin 1)
    [.literal (text "connected to "), .string path, .literal (text " fd="), .number fd]

/-- A connection was refused. -/
def refusedNote (path : Bytes) (e : SystemError) : Note :=
  .formatted .warn tag (origin 2)
    [.literal (text "connect "), .string path, .literal (text " failed: "), .string e.message]

/-- A descriptor was closed. -/
def closedNote (fd : Nat) : Note :=
  .formatted .debug tag (origin 3) [.literal (text "closed fd="), .number fd]

/-- A request was given up. -/
def abortedNote (f : Failure) : Note :=
  .formatted .warn tag (origin 4)
    [.literal (text "request aborted: "), .string f.describe]

/-- A payload arrived that is no envelope. -/
def undecodableNote (payload : Bytes) : Note :=
  .formatted .trace flowTag (origin 5)
    [.literal (text "IN <undecodable size="), .number payload.length, .literal (text "> "),
      .string (preview payload 256)]

/-! ## Opening and closing -/

/-- Close the descriptor, if there is one. The state stays. -/
def close (c : Connection) : Action Connection :=
  match c.descriptor with
  | none => pure c
  | some fd => do
      Action.close fd
      Action.tell (closedNote fd)
      pure { c with descriptor := none }

/-- Take over a descriptor in place of the present one. -/
def adopt (c : Connection) (fd : Option Nat) : Action Connection := do
  let c ← c.close
  pure { c with descriptor := fd, state := .idle }

/-- Why a connection could not be made. -/
inductive ConnectFault
  /-- The path has no address. -/
  | badPath (path : Bytes)
  /-- No socket could be made. -/
  | noSocket (e : SystemError)
  /-- The system did not connect the socket. -/
  | refused (path : Bytes) (e : SystemError)
  deriving DecidableEq, Repr

/-- The text that describes the fault. -/
def ConnectFault.message : ConnectFault → Bytes
  | badPath path => text "invalid socket path '" ++ path ++ text "'"
  | noSocket e => text "socket(AF_UNIX) failed: " ++ e.message
  | refused path e => text "failed to connect " ++ path ++ text ": " ++ e.message

/-- The fault as a failure of the exchange. -/
def ConnectFault.failure (fault : ConnectFault) : Failure :=
  ⟨.frameIo, text "connect", fault.message⟩

/-- Connect to a path. A socket that could not be connected is closed again. -/
def connect (c : Connection) (path : Bytes) : Action (Outcome × Connection) := do
  let c ← c.close
  match Address.ofPath? path with
  | none => pure (.failed (ConnectFault.badPath path).failure, c)
  | some address =>
      match ← Action.openSocket with
      | .error e => pure (.failed (ConnectFault.noSocket e).failure, c)
      | .ok fd =>
          match ← Action.connect fd address with
          | .error e => do
              Action.close fd
              Action.tell (refusedNote path e)
              pure (.failed (ConnectFault.refused path e).failure, c)
          | .ok () => do
              Action.tell (connectedNote path fd)
              pure (.done, { c with descriptor := some fd, state := .idle })

/-! ## Exchanges -/

/-- Give up: the connection has failed, and is closed. -/
def fail (c : Connection) (f : Failure) : Action (Outcome × Connection) := do
  Action.tell (abortedNote f)
  let c ← { c with state := .failed }.close
  pure (.failed f, c)

/-- What is said of a request over a connection that is not open. -/
def notConnected : Failure :=
  ⟨.frameIo, text "not-connected", text "connection is not open"⟩

/-- What is said of a frame without a payload. -/
def emptyFrame : Failure :=
  ⟨.malformedEnvelope, text "decode", EnvelopeSource.absentMessage⟩

/-- A frame that could not be read, as a failure of the exchange. -/
def frameFailure (fault : FrameFault) : Failure :=
  ⟨.frameIo, fault.status.name, fault.message⟩

/-- Send a request of the given kind. -/
def execute (c : Connection) (kind : Bytes) : Action (Outcome × Connection) :=
  let c := { c with state := .idle }
  match c.descriptor with
  | none => c.fail notConnected
  | some _ => pure (.handedOver (.request kind), c)

/-- Wait for what the daemon answers. Any kind of request is answered in the
same way as far as the payload. -/
def awaitReply (c : Connection) : Action (Outcome × Connection) := do
  match ← Action.readFrame c.descriptor c.options.limits with
  | .error fault => c.fail (frameFailure fault)
  | .ok payload =>
      match EnvelopeSource.ofPayload payload with
      | .absent => do
          Action.tell (undecodableNote payload)
          c.fail emptyFrame
      | .document payload => pure (.handedOver (.reply payload), c)

end Connection

end DaemonLink
