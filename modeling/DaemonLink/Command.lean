import DaemonLink.Envelope

/-!
# Commands

What a client can ask of the daemon: to answer at all, to show a state of the
network, or to apply one. A command becomes an envelope whose kind is the
command's name.
-/

namespace DaemonLink

/-- The states of the network the daemon can be asked for. A number nobody
assigned asks for the running state. -/
structure StateKind where
  code : Int
  deriving DecidableEq, Repr

namespace StateKind

/-- The state in force. -/
def running : StateKind := ⟨0⟩

/-- The state kept for the next start. -/
def saved : StateKind := ⟨1⟩

/-- The state after the last commit. -/
def postLastCommit : StateKind := ⟨2⟩

/-- The daemon's name for the state. -/
def name (k : StateKind) : Bytes :=
  match k.code with
  | 1 => text "saved-network-state"
  | 2 => text "post-last-commit-network-state"
  | _ => text "running-network-state"

/-- The state with the given name. -/
def ofName? (s : Bytes) : Option StateKind :=
  [running, saved, postLastCommit].find? fun k => k.name = s

end StateKind

/-- The kinds of commands. -/
inductive CommandKind
  | ping
  | query
  | apply
  deriving DecidableEq, Repr

namespace CommandKind

/-- The name of the command, which is the kind of its envelope. -/
def name : CommandKind → Bytes
  | ping => text "ping"
  | query => text "query-network-state"
  | apply => text "apply-network-state"

/-- The number the kind is reported under. -/
def code : CommandKind → Int
  | ping => 0
  | query => 1
  | apply => 2

/-- The command with the given number. Numbers nobody assigned ask for no more
than an answer. -/
def ofCode : Int → CommandKind
  | 1 => query
  | 2 => apply
  | _ => ping

end CommandKind

/-- The version of the schema a request is written in unless another is asked
for. -/
def latestSchemaVersion : Int := 1

/-- What a query asks for. -/
structure QueryOptions where
  version : Int := latestSchemaVersion
  kind : StateKind := .running
  deriving DecidableEq, Repr

/-- How a state is to be applied. On the wire stands whether verifying is to be
left out; callers say whether it is wanted. -/
structure ApplyOptions where
  version : Int := latestSchemaVersion
  noVerify : Bool := false
  deriving DecidableEq, Repr

namespace ApplyOptions

/-- Options for applying with or without verification. -/
def withVerify (verify : Bool) (version : Int) : ApplyOptions :=
  ⟨version, !verify⟩

end ApplyOptions

/-- A request to the daemon. The state an application carries is a document
the command hands on unread. -/
inductive Command
  | ping
  | query (options : QueryOptions)
  | apply (options : ApplyOptions)
  deriving DecidableEq, Repr

namespace Command

/-- The kind of a command. -/
def kind : Command → CommandKind
  | ping => .ping
  | query _ => .query
  | apply _ => .apply

/-- The kind of the envelope a command is sent in. -/
def envelopeKind (c : Command) : Bytes :=
  c.kind.name

end Command

end DaemonLink
