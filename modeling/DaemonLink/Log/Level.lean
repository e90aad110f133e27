import DaemonLink.Bytes

/-!
# Levels of the log

Levels are ordered by their numbers: the smaller, the more detailed. A record
is kept if its level is not below the threshold, and that comparison is made
for every number, not only for the five that have names. A number without a
name is shown like the level of ordinary information.
-/

namespace DaemonLink

/-- The level of a record, and the threshold of a log. -/
structure Level where
  code : Int
  deriving DecidableEq, Repr

namespace Level

def trace : Level := ⟨0⟩
def debug : Level := ⟨1⟩
def info : Level := ⟨2⟩
def warn : Level := ⟨3⟩
def error : Level := ⟨4⟩

/-- The three letters a record shows. -/
def label (l : Level) : Bytes :=
  match l.code with
  | 0 => text "TRC"
  | 1 => text "DBG"
  | 3 => text "WRN"
  | 4 => text "ERR"
  | _ => text "INF"

/-- The start of a sequence that sets a terminal's colour. -/
def escape : UInt8 := 27

/-- The sequence that sets a terminal back to its own colour. -/
def resetColour : Bytes := escape :: text "[0m"

/-- The sequence that sets the colour of the level. -/
def colour (l : Level) : Bytes :=
  match l.code with
  | 0 => escape :: text "[36m"
  | 1 => escape :: text "[90m"
  | 3 => escape :: text "[33m"
  | 4 => escape :: text "[31m"
  | _ => resetColour

/-- The level a configuration names. -/
def ofName? (s : Bytes) : Option Level :=
  if s = text "trace" then some trace
  else if s = text "debug" then some debug
  else if s = text "info" then some info
  else if s = text "warn" then some warn
  else if s = text "error" then some error
  else none

/-- Whether a record of the level passes the threshold. -/
def passes (l threshold : Level) : Bool :=
  threshold.code ≤ l.code

/-- The nearest of the five named levels. -/
def clamp (l : Level) : Level :=
  if l.code < trace.code then trace
  else if error.code < l.code then error
  else l

end Level

end DaemonLink
