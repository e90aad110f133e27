import DaemonLink.Proofs.WithoutDaemon

/-!
# Verbosity only filters

The switches `-v` and `-q` end up in one number, the difference of their counts,
and the number in one place, the threshold of the log. Nothing else of a line
depends on them. So for lines that differ in these switches alone the program
does the same thing: it tells the same notes, and prints the same besides them.
What each of the lines shows are the notes that pass its threshold.

A request whose documents are written and read elsewhere is carried to its end
here by whoever does that. They act on the machine and tell notes like the rest
of the program, and what they do is any action at all. The log is not theirs to
see, and that is all the argument needs of them.

The connection a request has left open is closed when the log has already been
stopped. What is told then is printed at once, in its order behind the records
of the writer, and the threshold filters it in the same way.
-/

namespace DaemonLink

namespace Ended

variable {stamp : Stamp} {f : Finished} {notes : List Note} {left : Performed Client}

end Ended

namespace Program

/-! ## Requests brought to their end -/

end Program

/-! ## Lines that differ in verbosity -/

namespace CommandLine

namespace Line

variable {line : Line} {settings : List Setting} {h : Host}

end Line

end CommandLine

namespace Program

open CommandLine

section Lines

variable {finish : Request → Handover → Control → Action (Finished × Control)} {line : Line}
  {h : Host} {settings : List Setting}

end Lines

end Program

end DaemonLink
