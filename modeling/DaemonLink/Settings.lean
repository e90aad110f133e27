import DaemonLink.Connection.Options
import DaemonLink.Failure
import DaemonLink.Host.Files
import DaemonLink.Log.Writer

/-!
# Settings

The settings of the program: where the daemon is, how its replies are read,
and how the log is kept. They start from values built in. A file can set them;
reading it is not this library's work, only finding out that it cannot be
opened is.
-/

namespace DaemonLink

/-- The path of the daemon's socket unless another is set. -/
def defaultSocketPath : Bytes := text "/var/run/nipart/sockets/daemon"

/-- The settings of the program. -/
structure Settings where
  socketPath : Bytes := defaultSocketPath
  limits : FrameLimits := {}
  strict : Bool := false
  /-- The word for the level of the log. -/
  level : Bytes := text "info"
  toConsole : Bool := true
  toFile : Bool := false
  logDirectory : Bytes := text "logs"
  logFileName : Bytes := text "nipc.log"
  maxFileSizeMb : Int := 10
  maxBackups : Int := 5
  deriving DecidableEq, Repr

namespace Settings

/-- What the settings say of connections. They name no further kinds. -/
def connectionOptions (s : Settings) : ConnectionOptions where
  limits := s.limits
  strict := s.strict

/-- What the settings say of the log. Its records are coloured. -/
def logOptions (s : Settings) : LogOptions where
  directory := s.logDirectory
  fileName := s.logFileName
  maxFileSizeMb := s.maxFileSizeMb
  maxBackups := s.maxBackups
  toFile := s.toFile
  toConsole := s.toConsole

/-- What comes of loading a file. -/
inductive Loading
  /-- It could not be opened, and this is reported. -/
  | unreadable (report : Bytes)
  /-- It was opened and is to be read. -/
  | handedOver (h : Handover)
  deriving DecidableEq, Repr

/-- Open the file at a path for the settings to be read from. -/
def load (path : Bytes) (h : Host) : Loading :=
  if h.canRead path then .handedOver (.settings path)
  else .unreadable (text "Failed to open config file: " ++ path ++ [newline])

/-- The level of the log at first: the one that is set, if the word is known. -/
def initialLevel (s : Settings) : Level :=
  (Level.ofName? s.level).getD .info

end Settings

end DaemonLink
