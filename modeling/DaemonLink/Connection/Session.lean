import DaemonLink.Connection.Basic
import DaemonLink.Log.Beside
import DaemonLink.Table

/-!
# Sessions

A session is a machine with any number of connections on it, each known by a
number. What can be done is listed as a type of steps: connections are made,
moved, opened, used and destroyed, and between any two such steps something
may happen around the program. A run is a list of steps.

A connection that is made under a number in use replaces the one that was
there, and what is replaced is closed like anything that is destroyed. A step
on a number nobody has does nothing.

What the program does in a step is an action, so a run can be had in two ways:
with the log left out, and beside the worker of a log.
-/

namespace DaemonLink

/-- A machine with connections. -/
structure Session where
  host : Host
  /-- The live connections, by number. -/
  connections : List (Nat × Connection)

/-- Something that is done in a session. -/
inductive Step
  | create (c : Nat) (options : ConnectionOptions)
  | destroy (c : Nat)
  /-- Make a connection out of another one. -/
  | moveNew (c source : Nat)
  /-- Let a connection take the place of another one. -/
  | moveAssign (c source : Nat)
  | adopt (c : Nat) (fd : Option Nat)
  | connect (c : Nat) (path : Bytes)
  | close (c : Nat)
  | execute (c : Nat) (kind : Bytes)
  | awaitReply (c : Nat)
  | fail (c : Nat) (f : Failure)
  | setOptions (c : Nat) (options : ConnectionOptions)
  | setSink (c : Nat) (sink : Sink)
  /-- Hand a line of the daemon's log to the connection's sink. -/
  | deliver (c : Nat) (entry : LogEntry)
  /-- Something happens around the program. -/
  | happen (what : Happening)
  deriving DecidableEq, Repr

/-- What a step answers. -/
inductive Answer
  | nothing
  | outcome (o : Outcome)
  | delivery (d : Sink.Delivery)
  deriving DecidableEq, Repr

namespace Session

/-- A session without connections. -/
def new (host : Host) : Session := ⟨host, []⟩

/-- The connection with a number. -/
def get? (s : Session) (c : Nat) : Option Connection :=
  s.connections.lookup c

/-- A list by number with one connection put in its place. -/
def putInto (c : Nat) (x : Connection) : List (Nat × Connection) → List (Nat × Connection)
  | [] => [(c, x)]
  | (n, y) :: rest =>
      if c < n then (c, x) :: (n, y) :: rest
      else if c = n then (c, x) :: rest
      else (n, y) :: putInto c x rest

/-- The session with a connection under a number. -/
def put (s : Session) (c : Nat) (x : Connection) : Session :=
  { s with connections := putInto c x s.connections }

/-- The session without the connection with a number. -/
def drop (s : Session) (c : Nat) : Session :=
  { s with connections := s.connections.filter fun x => x.1 != c }

theorem lookup_putInto (c n : Nat) (x : Connection) (table : List (Nat × Connection)) :
    (putInto c x table).lookup n = if n = c then some x else table.lookup n := by
  induction table with
  | nil =>
      simp only [putInto, List.lookup_cons, List.lookup_nil]
      grind
  | cons y rest ih =>
      obtain ⟨m, y⟩ := y
      simp only [putInto]
      split
      · simp only [List.lookup_cons]
        grind
      · split <;> simp only [List.lookup_cons, ih] <;> grind

@[simp] theorem get?_put (s : Session) (c n : Nat) (x : Connection) :
    (s.put c x).get? n = if n = c then some x else s.get? n :=
  lookup_putInto c n x s.connections

@[simp] theorem get?_drop (s : Session) (c n : Nat) :
    (s.drop c).get? n = if n = c then none else s.get? n :=
  lookup_filter_ne s.connections c n

/-! ## Steps -/

/-- What the program does in a step. It ends with the step's answer and the
connections afterwards. -/
abbrev Doing := Action (Answer × List (Nat × Connection))

/-- Do something with the connection that has a number. -/
def withConnection (s : Session) (c : Nat) (f : Connection → Doing) : Doing :=
  match s.get? c with
  | none => pure (.nothing, s.connections)
  | some x => f x

/-- Use a connection, and keep what it has become. -/
def use {α : Type} (s : Session) (c : Nat) (f : Connection → Action α) (answer : α → Answer)
    (kept : α → Connection) : Doing :=
  s.withConnection c fun x => do
    let v ← f x
    pure (answer v, (s.put c (kept v)).connections)

/-- Use a connection in a way that changes it and answers. -/
def operate (s : Session) (c : Nat) (f : Connection → Action (Outcome × Connection)) : Doing :=
  s.use c f (fun v => .outcome v.1) (fun v => v.2)

/-- Change a connection. -/
def adjust (s : Session) (c : Nat) (f : Connection → Action Connection) : Doing :=
  s.use c f (fun _ => .nothing) id

/-- Close what is to be destroyed, if there is such a connection. -/
def closeAt (c : Nat) (s : Session) : Action Unit :=
  match s.get? c with
  | none => pure ()
  | some x => do
      let _ ← x.close
      pure ()

/-- What the program does in a step. The machine is not looked at here, but only
asked. -/
def doing (s : Session) : Step → Doing
  | .create c options => do
      s.closeAt c
      pure (.nothing, (s.put c (.new options)).connections)
  | .destroy c => do
      s.closeAt c
      pure (.nothing, (s.drop c).connections)
  | .moveNew c source =>
      s.withConnection source fun x => do
        (s.put source x.emptied).closeAt c
        pure (.nothing, ((s.put source x.emptied).put c x).connections)
  | .moveAssign c source =>
      if c = source then pure (.nothing, s.connections)
      else
        s.withConnection c fun y =>
          s.withConnection source fun x => do
            let _ ← y.close
            pure (.nothing, ((s.put c x).put source x.emptied).connections)
  | .adopt c fd => s.adjust c (·.adopt fd)
  | .connect c path => s.operate c (·.connect path)
  | .close c => s.adjust c (·.close)
  | .execute c kind => s.operate c (·.execute kind)
  | .awaitReply c => s.operate c (·.awaitReply)
  | .fail c f => s.operate c (·.fail f)
  | .setOptions c options => s.adjust c fun x => pure { x with options := options }
  | .setSink c sink => s.adjust c fun x => pure { x with sink := sink }
  | .deliver c entry =>
      s.withConnection c fun x => do
        let d := x.sink.deliver entry
        if let .noted note := d then Action.tell note
        pure (.delivery d, s.connections)
  | .happen _ => pure (.nothing, s.connections)

/-- What a step did: its answer, the session afterwards, and the notes. -/
structure Progress where
  answer : Answer
  session : Session
  notes : List Note

/-- A step that did nothing to the machine. -/
def Progress.still (s : Session) (answer : Answer) : Progress := ⟨answer, s, []⟩

/-- Do what is to be done on the session's machine. -/
def perform (s : Session) (doing : Doing) : Progress :=
  let done := doing s.host
  ⟨done.value.1, ⟨done.host, done.value.2⟩, done.notes⟩

/-- One step. -/
def step (s : Session) (a : Step) : Progress :=
  match a with
  | .happen what => .still { s with host := s.host.after what } .nothing
  | a => s.perform (s.doing a)

/-- What a run did: the answers of its steps, the session afterwards, and the
notes in order. -/
structure Run where
  answers : List Answer
  session : Session
  notes : List Note

/-- A list of steps, one after another. -/
def run (s : Session) : List Step → Run
  | [] => ⟨[], s, []⟩
  | a :: rest =>
      let first := s.step a
      let later := first.session.run rest
      ⟨first.answer :: later.answers, later.session, first.notes ++ later.notes⟩

/-! ## Beside the worker of a log -/

/-- What a step did beside the worker: its answer, the connections afterwards, and
the log with its machine. -/
structure ProgressBeside where
  answer : Answer
  connections : List (Nat × Connection)
  log : LiveLog

/-- One step beside the worker. -/
def stepBeside (course : Course) (connections : List (Nat × Connection)) (log : LiveLog)
    (a : Step) : ProgressBeside :=
  match a with
  | .happen what =>
      let log := log.pass course
      ⟨.nothing, connections, { log with machine := log.machine.after what }⟩
  | a =>
      let ((answer, connections), log) :=
        ((⟨log.machine, connections⟩ : Session).doing a).beside course log
      ⟨answer, connections, log⟩

/-- What a run did beside the worker. -/
structure RunBeside where
  answers : List Answer
  connections : List (Nat × Connection)
  log : LiveLog

/-- A list of steps beside the worker, which goes on for a while behind the last. -/
def runBeside (course : Course) (connections : List (Nat × Connection)) (log : LiveLog) :
    List Step → RunBeside
  | [] => ⟨[], connections, log.pass course⟩
  | a :: rest =>
      let first := stepBeside course connections log a
      let later := runBeside course first.connections first.log rest
      ⟨first.answer :: later.answers, later.connections, later.log⟩

end Session

end DaemonLink
