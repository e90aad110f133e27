import DaemonLink.Host.Files

/-!
# Where log files are kept

The writer of the log needs a handful of operations on files, and it needs
nothing else of the machine. They are gathered in a `Shelf` over any state, so
that what is said of rotation can be said of files that never fail, of files
that fail at a chosen step, and of the machine's.

The first five can fail, and their failure is reported. Appending cannot: a
file that cannot be opened is skipped in silence.
-/

namespace DaemonLink

/-- The operations on files that a log needs. -/
structure Shelf (φ : Type) where
  makeDirectories : Bytes → φ → Except SystemError Unit × φ
  pathExists : Bytes → φ → Except SystemError Bool
  fileSize : Bytes → φ → Except SystemError Nat
  remove : Bytes → φ → Except SystemError Unit × φ
  rename : Bytes → Bytes → φ → Except SystemError Unit × φ
  append : Bytes → Bytes → φ → φ

/-- The files of the machine. -/
def Host.shelf : Shelf Host where
  makeDirectories path h := h.makeDirectories path
  pathExists path h := h.pathExists path
  fileSize path h := h.fileSize path
  remove path h := h.remove path
  rename source target h := h.rename source target
  append path data h := h.append path data

/-- An operation on files that failed. -/
inductive FileFault
  | status (path : Bytes) (e : SystemError)
  | size (path : Bytes) (e : SystemError)
  | remove (path : Bytes) (e : SystemError)
  | rename (source target : Bytes) (e : SystemError)
  deriving DecidableEq, Repr

namespace FileFault

/-- The report of a failed operation: what it was, why it failed, and on
which paths. -/
def message : FileFault → Bytes
  | status path e => report (text "status") e [path]
  | size path e => report (text "cannot get file size") e [path]
  | remove path e => report (text "cannot remove") e [path]
  | rename source target e => report (text "cannot rename") e [source, target]
where
  report (what : Bytes) (e : SystemError) (paths : List Bytes) : Bytes :=
    text "filesystem error: " ++ what ++ text ": " ++ e.message ++
      paths.flatMap fun p => text " [" ++ p ++ text "]"

end FileFault

end DaemonLink
