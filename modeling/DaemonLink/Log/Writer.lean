import DaemonLink.Log.Record
import DaemonLink.Log.Rotation

/-!
# The writer of the log

Records are not written where they are made. They are put into a queue, and a
worker of its own takes them out one by one and writes them. The writer's
state is what the two share under a lock: whether it is running, the options of
the present session, the queue, and the record the worker has taken and not
yet written.

Each section that runs under the lock is a function here: `start`, `push?`,
`clear`, `take` and `leave`. Writing, `writeHeld`, happens outside it. A
section that finds nothing to do leaves the state as it is, so any order of
sections is a run. `stop` is the one order in which the controlling thread
waits: it clears the flag and returns when the worker has left, and the worker
leaves only when the queue is empty.

A record is written to the console, to the file, or both. If rotating the file
fails, the record is not appended to it; the failure is reported on the
console, and the writer goes on with the next record.
-/

namespace DaemonLink

/-- How a log is kept. -/
structure LogOptions where
  directory : Bytes := text "logs"
  fileName : Bytes := text "nipc.log"
  /-- The size, in mebibytes, from which on the file is rotated. -/
  maxFileSizeMb : Int := 10
  /-- How many older files are kept. -/
  maxBackups : Int := 5
  /-- Whether records go to the file. -/
  toFile : Bool := false
  /-- Whether records go to the console. -/
  toConsole : Bool := true
  /-- Whether records on the console are coloured. -/
  coloured : Bool := true
  deriving DecidableEq, Repr

namespace LogOptions

/-- The path of the log file. -/
def path (o : LogOptions) : Bytes :=
  FilePath.join o.directory o.fileName

/-- The size in bytes from which on the file is rotated, counted in words of 64
bits; never, if it is zero. -/
def threshold (o : LogOptions) : Nat :=
  (o.maxFileSizeMb * 1048576 % 18446744073709551616).toNat

end LogOptions

/-- Something printed on the error output. -/
inductive Output
  /-- A record. -/
  | record (bytes : Bytes)
  /-- Anything else. -/
  | notice (bytes : Bytes)
  deriving DecidableEq, Repr

namespace Output

/-- What is printed. -/
def bytes : Output → Bytes
  | record b => b
  | notice b => b

end Output

/-! ## Writing one record -/

/-- Rotate the log if it has reached the threshold. -/
def rotateIfFull {φ : Type} (shelf : Shelf φ) (o : LogOptions) (s : φ) :
    Except FileFault Unit × φ :=
  if o.threshold = 0 then (.ok (), s)
  else
    match shelf.pathExists o.path s with
    | .error e => (.error (.status o.path e), s)
    | .ok false => (.ok (), s)
    | .ok true =>
        match shelf.fileSize o.path s with
        | .error e => (.error (.size o.path e), s)
        | .ok size =>
            if o.threshold ≤ size then rotate shelf o.path o.maxBackups s else (.ok (), s)

/-- The report of a record that could not be written. -/
def writeErrorNotice (fault : FileFault) : Bytes :=
  text "nipc: log write error: " ++ untilNul fault.message ++ [newline]

/-- What a record shows on the console. -/
def consoleForm (o : LogOptions) (r : Record) : Bytes :=
  if o.coloured then r.renderColoured else r.render

/-- Write a record: what is printed, and the files afterwards. -/
def writeRecord {φ : Type} (shelf : Shelf φ) (o : LogOptions) (r : Record) (s : φ) :
    List Output × φ :=
  let shown := if o.toConsole then [Output.record (consoleForm o r)] else []
  if !o.toFile then (shown, s)
  else
    match rotateIfFull shelf o s with
    | (.ok (), s₁) => (shown, shelf.append o.path r.render s₁)
    | (.error fault, s₁) =>
        (shown ++ if o.toConsole then [.notice (writeErrorNotice fault)] else [], s₁)

/-! ## The state shared with the worker -/

/-- The state of the writer. -/
structure Writer where
  /-- Whether records are accepted. -/
  running : Bool
  /-- Whether there is a worker. -/
  working : Bool
  /-- The options of the present or the last session. -/
  options : LogOptions
  /-- The records accepted and not taken. -/
  queue : List Record
  /-- The record taken and not written. -/
  held : Option Record
  deriving DecidableEq, Repr

namespace Writer

/-- A writer that has not been started. -/
def idle : Writer where
  running := false
  working := false
  options := {}
  queue := []
  held := none

/-- Start a session. A running writer goes on as it is. -/
def start (w : Writer) (o : LogOptions) : Writer :=
  if w.running then w else { w with running := true, working := true, options := o }

/-- Accept a record, or refuse it if the writer is not running. -/
def push? (w : Writer) (r : Record) : Option Writer :=
  if w.running then some { w with queue := w.queue ++ [r] } else none

/-- Accept no more records. -/
def clear (w : Writer) : Writer :=
  { w with running := false }

/-- The worker takes the front record. -/
def take (w : Writer) : Writer :=
  match w.held, w.queue with
  | none, r :: rest => if w.working then { w with queue := rest, held := some r } else w
  | _, _ => w

/-- The worker writes the record it has taken. -/
def writeHeld {φ : Type} (shelf : Shelf φ) (w : Writer) (s : φ) : Writer × List Output × φ :=
  match w.held with
  | none => (w, [], s)
  | some r =>
      let (shown, s₁) := writeRecord shelf w.options r s
      ({ w with held := none }, shown, s₁)

/-- The worker leaves, if nothing is left to do and nothing more will come. -/
def leave (w : Writer) : Writer :=
  if !w.running && w.queue.isEmpty && w.held.isNone then { w with working := false } else w

/-! ### What is still to be written

Of all the sections only `push?` adds to what is pending, and only at its end;
only writing takes away from it, and only the record at its front. -/

/-- The records accepted and not written, in the order in which they will be. -/
def pending (w : Writer) : List Record :=
  w.held.toList ++ w.queue

theorem pending_push {w w' : Writer} {r : Record} (h : w.push? r = some w') :
    w'.pending = w.pending ++ [r] := by
  simp only [push?] at h
  split at h
  · cases h; simp [pending]
  · cases h

@[simp] theorem pending_take (w : Writer) : w.take.pending = w.pending := by
  unfold take pending
  split
  · split <;> simp_all
  · rfl

@[simp] theorem pending_clear (w : Writer) : w.clear.pending = w.pending := rfl

@[simp] theorem pending_start (w : Writer) (o : LogOptions) : (w.start o).pending = w.pending := by
  unfold start; split <;> rfl

@[simp] theorem pending_leave (w : Writer) : w.leave.pending = w.pending := by
  unfold leave; split <;> rfl

theorem pending_writeHeld {φ : Type} (shelf : Shelf φ) (w : Writer) (s : φ) :
    (w.writeHeld shelf s).1.pending = w.queue := by
  unfold writeHeld
  split
  · next h => simp [pending, h]
  · simp [pending]

/-! ### Sessions -/

/-- So many rounds of the worker: take a record, write it. -/
def rounds {φ : Type} (shelf : Shelf φ) : Nat → Writer → φ → Writer × List Output × φ
  | 0, w, s => (w, [], s)
  | n + 1, w, s =>
      let (w₁, shown, s₁) := w.take.writeHeld shelf s
      let (w₂, more, s₂) := rounds shelf n w₁ s₁
      (w₂, shown ++ more, s₂)

/-- End the session: everything accepted is written. -/
def stop {φ : Type} (shelf : Shelf φ) (w : Writer) (s : φ) : Writer × List Output × φ :=
  if !w.running then (w, [], s)
  else
    let (w₁, shown, s₁) := w.clear.writeHeld shelf s
    let (w₂, more, s₂) := w₁.rounds shelf w₁.queue.length s₁
    (w₂.leave, shown ++ more, s₂)

end Writer

end DaemonLink
