import DaemonLink.Action
import DaemonLink.Log.Logger

/-!
# The log beside an action

While the program does something, the worker of its log is at work too. The two
have no more in common than the log under its lock, and the machine: the worker
changes files, and while it has the log file open there is one descriptor fewer
for the program. Here an action is performed with the log at hand. What it tells
is logged when it is told, and before each thing it tells or asks for the worker
may have run as far as it likes.

How far that is nobody can tell, so it is part of what a run is given. A course
says for each turn what the worker does before it. A section in which there is
nothing to do does nothing, and so every course is one that can happen, and each
that can happen is a course.

The worker writes a record in two sections. In the first it shows the record,
rotates the files if need be, opens the log file and appends the record. In the
second it closes the file. A record that is appended when the file is opened,
and not when it is closed, is one that nobody has looked for in between.
-/

namespace DaemonLink

/-! ## What becomes of records -/

/-- What is done to a record, and what is printed on the way. A record is accepted
and written under options. -/
inductive LogEvent
  | started (o : LogOptions) (shown : List Output)
  | accepted (o : LogOptions) (r : Record) (shown : List Output)
  | refused (r : Record) (shown : List Output)
  | written (o : LogOptions) (r : Record) (shown : List Output)

namespace LogEvent

def shown : LogEvent → List Output
  | started _ shown => shown
  | accepted _ _ shown => shown
  | refused _ shown => shown
  | written _ _ shown => shown

def started? : LogEvent → Option LogOptions
  | started o _ => some o
  | _ => none

def accepted? : LogEvent → Option (LogOptions × Record)
  | accepted o r _ => some (o, r)
  | _ => none

def written? : LogEvent → Option (LogOptions × Record)
  | written o r _ => some (o, r)
  | _ => none

/-- The record that the log has taken up, be it to queue it or to print it at once. -/
def taken? : LogEvent → Option Record
  | accepted _ r _ => some r
  | refused r _ => some r
  | _ => none

end LogEvent

/-! ## The worker -/

/-- A log in use, and the machine on which it is used. -/
structure LiveLog where
  logger : Logger
  /-- Whether the worker has the log file open. -/
  fileOpen : Bool
  /-- The log's files are among those of the machine. -/
  machine : Host
  /-- How many turns there have been. -/
  turn : Nat
  history : List LogEvent

/-- A section of the worker. -/
inductive Section
  | take
  | write
  | close
  | leave
  deriving DecidableEq, Repr

/-- A course that things can take: what the worker does before each turn, and when
and by which thread a note is logged if it is told in that turn. -/
structure Course where
  before : Nat → List Section
  stamp : Nat → Stamp

namespace LiveLog

/-- A log nothing has been done to yet. -/
def new (logger : Logger) (machine : Host) : LiveLog := ⟨logger, false, machine, 0, []⟩

def writer (l : LiveLog) : Writer := l.logger.writer

def withWriter (l : LiveLog) (w : Writer) : LiveLog :=
  { l with logger := { l.logger with writer := w } }

/-- Whether a descriptor goes to the log file when a record is written. The file is
not opened if rotating the files has failed, and cannot be if no descriptor is left.
One that cannot be opened for other reasons has a descriptor as long as that takes
to find out. -/
def opens (l : LiveLog) : Bool :=
  l.writer.options.toFile && (rotateIfFull Host.shelf l.writer.options l.machine).1.isOk &&
    l.machine.canOpen

/-- Write the record that the worker holds, as far as the log file stays open. -/
def write (l : LiveLog) : LiveLog :=
  match l.writer.held with
  | none => l
  | some r =>
      let (w, shown, machine) := l.writer.writeHeld Host.shelf l.machine
      { l.withWriter w with
        fileOpen := l.opens
        machine := machine
        history := l.history ++ [.written l.writer.options r shown] }

/-- A section of the worker. It takes no record and does not leave before it has
closed the file, and where there is no worker nothing is done. -/
def work (l : LiveLog) (sec : Section) : LiveLog :=
  if l.writer.working then
    match sec with
    | .take => if l.fileOpen then l else l.withWriter l.writer.take
    | .write => if l.fileOpen then l else l.write
    | .close => { l with fileOpen := false }
    | .leave => if l.fileOpen then l else l.withWriter l.writer.leave
  else l

/-- Let the worker run as far as it does before the next turn. -/
def pass (course : Course) (l : LiveLog) : LiveLog :=
  let l := (course.before l.turn).foldl work l
  { l with turn := l.turn + 1 }

/-! ## The program -/

/-- Log a note. -/
def tell (l : LiveLog) (stamp : Stamp) (note : Note) : LiveLog :=
  let (logger, shown) := l.logger.log stamp note
  let events :=
    if note.level.passes l.logger.threshold then
      if l.writer.running then [LogEvent.accepted l.writer.options ⟨stamp, note⟩ shown]
      else [.refused ⟨stamp, note⟩ shown]
    else []
  { l with logger := logger, history := l.history ++ events }

/-- Ask the machine for something. -/
def ask (l : LiveLog) (c : Call) : c.Answer × LiveLog :=
  let others := if l.fileOpen then 1 else 0
  let (answer, h) := c.performBeside others l.machine
  (answer, { l with machine := h })

end LiveLog

/-- Perform an action beside the worker. -/
def Action.beside {α : Type} (course : Course) :
    Action α → LiveLog → α × LiveLog
  | ended value, l => (value, l)
  | noted note rest, l =>
      rest.beside course ((l.pass course).tell (course.stamp l.turn) note)
  | asked c rest, l =>
      let (answer, l) := (l.pass course).ask c
      (rest answer).beside course l

end DaemonLink
