import DaemonLink.Bytes

/-!
# Failures of an exchange

A failure has a category, a kind and a message. The category tells a caller on
which side the fault lies: the exchange itself broke down, or the daemon
answered and its answer was an error. The kind is the daemon's own word in the
second case and names the step that broke down in the first.

Categories are numbers, and a number nobody assigned is still a category: it is
shown like an unspecific error of the daemon, but it is none, and the process
that reports it exits with the code for what should not have happened. That is
why a category is kept as its number and not as one of seven names. The last two
of the seven are given to faults in the daemon's documents, which are read
elsewhere.

An exchange fails, or it succeeds with nothing to show, or it reaches a point
where a document has to be read or written. Documents are not this library's
work: it carries payloads and does not look into them. At such a point it hands
over, and says what there is to be done.
-/

namespace DaemonLink

/-- The category of a failure. -/
structure Category where
  code : Int
  deriving DecidableEq, Repr

namespace Category

/-- No failure. -/
def none : Category := ⟨0⟩

/-- The transport failed, ended early or took too long. -/
def frameIo : Category := ⟨1⟩

/-- What arrived is not an envelope. -/
def malformedEnvelope : Category := ⟨2⟩

/-- The daemon reports an error. -/
def protocol : Category := ⟨3⟩

/-- The daemon reports that it was asked for something invalid. -/
def validation : Category := ⟨4⟩

/-- The name a category is shown under. -/
def name (c : Category) : Bytes :=
  match c.code with
  | 0 => text "None"
  | 1 => text "FrameIo"
  | 2 => text "MalformedEnvelope"
  | 4 => text "Validation"
  | 5 => text "UnknownLogLevel"
  | 6 => text "UnexpectedKind"
  | _ => text "Protocol"

/-- The kind of a daemon's error that has a category of its own. -/
def invalidArgumentKind : Bytes := text "invalid-argument"

/-- The category of an error the daemon reports under the given kind. -/
def ofDaemonKind (kind : Bytes) : Category :=
  if kind = invalidArgumentKind then validation else protocol

end Category

/-- Why an exchange failed. -/
structure Failure where
  category : Category
  kind : Bytes
  message : Bytes
  deriving DecidableEq, Repr

namespace Failure

/-- Whether the daemon reported it. -/
def isDaemonError (f : Failure) : Bool :=
  f.category = .protocol || f.category = .validation

/-- Whether the exchange broke down before the daemon's answer was known. -/
def isTransportError (f : Failure) : Bool :=
  f.category = .frameIo || f.category = .malformedEnvelope

/-- Whether the daemon refused what it was asked for. -/
def isValidationError (f : Failure) : Bool :=
  f.category = .validation

/-- The failure as one line: its category, the kind in brackets and the
message after a colon, each of the two only if there is one. -/
def describe (f : Failure) : Bytes :=
  f.category.name ++
    (if f.kind.isEmpty then [] else text "(" ++ f.kind ++ text ")") ++
    if f.message.isEmpty then [] else text ": " ++ f.message

end Failure

/-- A document to be read or written by others. -/
inductive Handover
  /-- The envelope of a request of this kind is to be written and sent. -/
  | request (kind : Bytes)
  /-- A payload is to be read as an envelope. -/
  | reply (payload : Bytes)
  /-- A state to be applied is to be read. -/
  | desiredState (source : Bytes)
  /-- A configuration is to be read. -/
  | settings (path : Bytes)
  deriving DecidableEq, Repr

/-- What an operation of a connection comes to. -/
inductive Outcome
  | done
  | failed (f : Failure)
  | handedOver (h : Handover)
  deriving DecidableEq, Repr

end DaemonLink
