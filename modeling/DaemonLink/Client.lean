import DaemonLink.Command
import DaemonLink.Connection.Basic
import DaemonLink.Settings

/-!
# Clients

A client is a connection together with the commands that can be sent over it.
Two of them are also offered as a whole: connect, send, and be done.
-/

namespace DaemonLink

/-- A client of the daemon. -/
structure Client where
  connection : Connection
  deriving DecidableEq, Repr

namespace Client

/-- A client that is not connected. -/
def new (options : ConnectionOptions) : Client := ⟨.new options⟩

/-- Use the connection. -/
def through (f : Connection → Action (Outcome × Connection)) (c : Client) :
    Action (Outcome × Client) := do
  let (outcome, connection) ← f c.connection
  pure (outcome, ⟨connection⟩)

theorem through_apply (f : Connection → Action (Outcome × Connection)) (c : Client) (h : Host) :
    through f c h =
      let done := f c.connection h
      ⟨(done.value.1, ⟨done.value.2⟩), done.host, done.notes⟩ := by
  simp only [through, Action.bind_apply, Action.pure_apply, List.append_nil]

/-- Connect to the daemon. -/
def connect (c : Client) (path : Bytes) : Action (Outcome × Client) :=
  through (·.connect path) c

/-- Send a command. -/
def send (c : Client) (command : Command) : Action (Outcome × Client) :=
  through (·.execute command.envelopeKind) c

/-- Close the connection. -/
def close (c : Client) : Action Client := do
  let connection ← c.connection.close
  pure ⟨connection⟩

/-- Connect with a client of one's own, send a command, and close. -/
def once (path : Bytes) (command : Command) : Action Outcome := do
  let (outcome, c) ← (Client.new {}).connect path
  match outcome with
  | .done => do
      let (outcome, c) ← c.send command
      let _ ← c.close
      pure outcome
  | other => pure other

end Client

end DaemonLink
