import DaemonLink.Log.Note

/-!
# The daemon's log

While it works on a request the daemon sends lines of its own log. Each names
its source and its level. The daemon's levels are a scale of their own, which
happens to have the same words as the log's; a level that is not on it counts
as ordinary information.
-/

namespace DaemonLink

/-- A level of the daemon's log. -/
structure DaemonLevel where
  code : Int
  deriving DecidableEq, Repr

namespace DaemonLevel

def trace : DaemonLevel := ⟨0⟩
def debug : DaemonLevel := ⟨1⟩
def info : DaemonLevel := ⟨2⟩
def warn : DaemonLevel := ⟨3⟩
def error : DaemonLevel := ⟨4⟩

/-- The daemon's word for the level. -/
def name (l : DaemonLevel) : Bytes :=
  match l.code with
  | 0 => text "trace"
  | 1 => text "debug"
  | 3 => text "warn"
  | 4 => text "error"
  | _ => text "info"

/-- The level the daemon means by a word. -/
def ofName? (s : Bytes) : Option DaemonLevel :=
  if s = text "trace" then some trace
  else if s = text "debug" then some debug
  else if s = text "info" then some info
  else if s = text "warn" then some warn
  else if s = text "error" then some error
  else none

/-- The level of the log that corresponds to a level of the daemon's. -/
def toLevel (l : DaemonLevel) : Level :=
  match l.code with
  | 0 => .trace
  | 1 => .debug
  | 3 => .warn
  | 4 => .error
  | _ => .info

end DaemonLevel

/-- A line of the daemon's log. -/
structure LogEntry where
  source : Bytes
  level : DaemonLevel
  message : Bytes
  deriving DecidableEq, Repr

namespace LogEntry

/-- The note that forwards the line to the log. -/
def note (e : LogEntry) : Note :=
  .line e.level.toLevel e.source e.message

end LogEntry

end DaemonLink
