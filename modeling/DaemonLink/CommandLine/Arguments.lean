import DaemonLink.Command

/-!
# What a command line asks for

A command line names one command and may set a few things for it. What it does
not set keeps the value it had, so a line read into the arguments of an earlier
one adds to them.
-/

namespace DaemonLink

/-- The commands of the command line. -/
inductive Subcommand
  | none
  | ping
  | show
  | apply
  /-- A number that stands for no command. -/
  | unknown
  deriving DecidableEq, Repr

namespace Subcommand

/-- The command with the given number. -/
def ofCode : Int → Subcommand
  | 0 => none
  | 1 => ping
  | 2 => .show
  | 3 => apply
  | _ => unknown

/-- The number a command is reported under. -/
def code : Subcommand → Int
  | none => 0
  | ping => 1
  | .show => 2
  | apply => 3
  | unknown => 4

end Subcommand

/-- A command with what it needs. -/
structure Request where
  command : Subcommand := .none
  /-- The state to be shown. -/
  showKind : StateKind := .running
  /-- Where the state to be applied is read from; a hyphen is the standard
  input. -/
  source : Bytes := []
  /-- Whether the daemon is to verify what it applies. -/
  verify : Bool := true
  deriving DecidableEq, Repr

/-- Everything a command line can set. -/
structure Arguments where
  configPath : Bytes := text "nipc_config.json"
  /-- Whether the path of the configuration was given. -/
  configGiven : Bool := false
  /-- The socket, if it is not empty. -/
  socketPath : Bytes := []
  /-- The timeout in milliseconds, if it is not negative. -/
  timeout : Int := -1
  /-- How many more times the log is to be more detailed than less. -/
  verbosity : Int := 0
  request : Request := {}
  deriving DecidableEq, Repr

end DaemonLink
