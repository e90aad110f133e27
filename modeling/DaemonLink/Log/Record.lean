import DaemonLink.Log.Note

/-!
# Records

A record is a note with the moment and the thread it was made in. It is shown
in two forms that differ in nothing but colour: the coloured form has the same
bytes between the sequence that sets the colour and the one that resets it,
and the line ends after that.
-/

namespace DaemonLink

/-- When and by which thread a record was made, as shown. -/
structure Stamp where
  time : Bytes
  thread : Bytes
  deriving DecidableEq, Repr

/-- A line of the log. -/
structure Record where
  stamp : Stamp
  note : Note
  deriving DecidableEq, Repr

namespace Record

/-- A field in square brackets, with a blank behind it. -/
def bracketed (s : Bytes) : Bytes :=
  text "[" ++ s ++ text "] "

/-- The record as shown, without colour and without the end of the line. -/
def body (r : Record) : Bytes :=
  bracketed r.stamp.time ++ bracketed r.note.level.label ++
    bracketed (text "tid:" ++ r.stamp.thread) ++ bracketed r.note.tag ++
    (match r.note.origin with
      | none => []
      | some o => bracketed o.render) ++
    r.note.message

/-- The record as a plain line. -/
def render (r : Record) : Bytes :=
  r.body ++ [newline]

/-- The record as a line in the colour of its level. -/
def renderColoured (r : Record) : Bytes :=
  r.note.level.colour ++ r.body ++ Level.resetColour ++ [newline]

/-- The record as it is printed when nobody else writes it: as far as its first
NUL. -/
def fallback (r : Record) : Bytes :=
  untilNul r.render

end Record

end DaemonLink
