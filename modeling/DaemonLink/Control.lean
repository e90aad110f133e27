import DaemonLink.Client
import DaemonLink.CommandLine.Arguments

/-!
# Control

One run of the program is one request over one connection. What it comes to is
an exit code, something on the output, and something on the error output. The
exit code says on which side the fault lies, so that scripts can tell a daemon
that cannot be reached from one that refuses.
-/

namespace DaemonLink

/-- The codes the program exits with. -/
inductive ExitCode
  | success
  /-- The arguments or the settings are wrong. -/
  | usage
  /-- The daemon was not reached, or its answer not understood. -/
  | transport
  /-- The daemon reports an error. -/
  | daemon
  /-- Anything that should not have happened. -/
  | internal
  deriving DecidableEq, Repr

namespace ExitCode

/-- The number of the code. -/
def code : ExitCode → Nat
  | success => 0
  | usage => 1
  | transport => 2
  | daemon => 3
  | internal => 4

/-- The code for a failure of the given category. -/
def ofCategory (c : Category) : ExitCode :=
  match c.code with
  | 0 => .success
  | 1 => .transport
  | 2 => .transport
  | 3 => .daemon
  | 4 => .daemon
  | _ => .internal

/-- The code for a failure. -/
def ofFailure (f : Failure) : ExitCode :=
  ofCategory f.category

end ExitCode

/-- What a run came to. -/
structure Finished where
  exit : ExitCode
  out : Bytes
  err : Bytes
  deriving DecidableEq, Repr

/-- A run, as far as it went. -/
inductive Verdict
  | finished (f : Finished)
  | handedOver (h : Handover)
  deriving DecidableEq, Repr

/-- The line that reports a failure. Errors of the daemon are reported in its
own words. -/
def reportLine (f : Failure) : Bytes :=
  if f.isDaemonError then
    (if f.isValidationError then text "invalid argument: " else text "daemon error: ") ++
      f.kind ++ text ": " ++ f.message ++ [newline]
  else text "error: " ++ f.describe ++ [newline]

/-- A run that ends with a failure. -/
def report (f : Failure) : Finished :=
  ⟨ExitCode.ofFailure f, [], reportLine f⟩

/-- The side of the program that carries out requests. -/
structure Control where
  socketPath : Bytes
  client : Client
  deriving DecidableEq, Repr

namespace Control

/-- Control over a daemon, not connected yet. -/
def new (socketPath : Bytes) (options : ConnectionOptions) : Control :=
  ⟨socketPath, .new options⟩

/-- The name under which requests appear in the log. -/
def tag : Bytes := text "CTL"

/-- A state is asked for. -/
def queryNote (kind : StateKind) : Note :=
  .formatted .debug tag ⟨text "Control.lean", 1⟩ [.literal (text "query "), .string kind.name]

/-- What a run comes to when an operation of the client does. -/
def verdict (outcome : Outcome) (otherwise : Finished) : Verdict :=
  match outcome with
  | .done => .finished otherwise
  | .failed f => .finished (report f)
  | .handedOver h => .handedOver h

/-- The run of a request nobody knows. -/
def ignored : Finished := ⟨.usage, [], []⟩

/-- Send a command over the connection there is. -/
def send (c : Control) (command : Command) : Action (Verdict × Control) := do
  let (outcome, client) ← c.client.send command
  pure (verdict outcome ⟨.success, [], []⟩, { c with client := client })

/-- Ask the daemon whether it is there. -/
def ping (c : Control) : Action (Verdict × Control) :=
  c.send .ping

/-- Ask the daemon for a state. -/
def showState (c : Control) (kind : StateKind) : Action (Verdict × Control) := do
  Action.tell (queryNote kind)
  c.send (.query { kind := kind })

/-- Connect, unless there is a connection. -/
def ensureConnected (c : Control) : Action (Outcome × Control) :=
  if c.client.connection.isOpen then pure (.done, c)
  else do
    let (outcome, client) ← c.client.connect c.socketPath
    pure (outcome, { c with client := client })

/-- Read the state to be applied. It is read before anything is connected. -/
def apply (c : Control) (source : Bytes) : Action (Verdict × Control) := do
  if source = text "-" then pure (.handedOver (.desiredState source), c)
  else if ← Action.canRead source then pure (.handedOver (.desiredState source), c)
  else
    pure (.finished ⟨.usage, [], text "failed to open " ++ source ++ [newline]⟩, c)

/-- Carry out a request. -/
def run (c : Control) (r : Request) : Action (Verdict × Control) :=
  match r.command with
  | .none => pure (.finished ⟨.usage, [], text "no command given" ++ [newline]⟩, c)
  | .apply => c.apply r.source
  | _ => do
      let (outcome, c) ← c.ensureConnected
      match outcome with
      | .done =>
          match r.command with
          | .ping => c.ping
          | .show => c.showState r.showKind
          | _ => pure (.finished ignored, c)
      | other => pure (verdict other ignored, c)

end Control

end DaemonLink
