import DaemonLink.Failure

/-!
# Envelopes

Every payload is an envelope: a kind and some data. The kind alone decides
what an incoming envelope is. Two words are reserved, for errors and for lines
of the daemon's log; an envelope of any other kind is the result of a request.
A frame without a payload is no envelope at all.
-/

namespace DaemonLink

/-- What an incoming envelope is. -/
inductive EnvelopeType
  | error
  | log
  | result
  deriving DecidableEq, Repr

namespace EnvelopeType

/-- What an envelope of the given kind is. -/
def ofKind (kind : Bytes) : EnvelopeType :=
  if kind = text "error" then .error
  else if kind = text "log" then .log
  else .result

/-- The number the type is reported under. -/
def code : EnvelopeType → Int
  | error => 0
  | log => 1
  | result => 2

end EnvelopeType

/-- What reading a payload as an envelope starts from. -/
inductive EnvelopeSource
  /-- There is no payload. -/
  | absent
  /-- There are bytes to be read as a document. -/
  | document (payload : Bytes)
  deriving DecidableEq, Repr

namespace EnvelopeSource

/-- Look at a payload. -/
def ofPayload (payload : Bytes) : EnvelopeSource :=
  if payload.isEmpty then .absent else .document payload

/-- What is said of a payload that is not there. -/
def absentMessage : Bytes := text "empty payload is not an envelope"

end EnvelopeSource

end DaemonLink
