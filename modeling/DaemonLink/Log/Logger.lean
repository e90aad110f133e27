import DaemonLink.Log.Writer

/-!
# The logger

The logger is a threshold and a writer. A note below the threshold is dropped.
Any other becomes a record, which the writer accepts if it is running; if it is
not, the record is printed at once.

The threshold decides about a note alone, without regard to the writer, and
nothing else looks at it. So raising it only filters.
-/

namespace DaemonLink

/-- The state of the log. -/
structure Logger where
  threshold : Level
  writer : Writer
  deriving DecidableEq, Repr

namespace Logger

/-- The log before anything is set up. -/
def new : Logger where
  threshold := .info
  writer := .idle

/-- Log a note: the log afterwards, and what is printed. -/
def log (l : Logger) (stamp : Stamp) (note : Note) : Logger × List Output :=
  if note.level.passes l.threshold then
    let r : Record := ⟨stamp, note⟩
    match l.writer.push? r with
    | some w => ({ l with writer := w }, [])
    | none => (l, [.record r.fallback])
  else (l, [])

/-- Log notes one after another. -/
def logAll (l : Logger) (stamp : Stamp) : List Note → Logger × List Output
  | [] => (l, [])
  | note :: rest =>
      let (l₁, shown) := l.log stamp note
      let (l₂, more) := l₁.logAll stamp rest
      (l₂, shown ++ more)

/-- The report of a log directory that could not be made. -/
def directoryNotice (directory : Bytes) (e : SystemError) : Bytes :=
  text "nipc: failed to create log directory " ++ directory ++ text ": " ++ e.message ++
    [newline]

/-- Start the writer. The log directory is made if records go to a file; if it
cannot be made the writer starts all the same. -/
def start {φ : Type} (shelf : Shelf φ) (l : Logger) (o : LogOptions) (s : φ) :
    Logger × List Output × φ :=
  if l.writer.running then (l, [], s)
  else
    let started := { l with writer := l.writer.start o }
    if !o.toFile then (started, [], s)
    else
      match shelf.makeDirectories o.directory s with
      | (.ok (), s₁) => (started, [], s₁)
      | (.error e, s₁) => (started, [.notice (directoryNotice o.directory e)], s₁)

/-- Stop the writer. -/
def stop {φ : Type} (shelf : Shelf φ) (l : Logger) (s : φ) : Logger × List Output × φ :=
  let (w, shown, s₁) := l.writer.stop shelf s
  ({ l with writer := w }, shown, s₁)

end Logger

end DaemonLink
