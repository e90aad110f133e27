import DaemonLink.CommandLine.Parse
import DaemonLink.Control
import DaemonLink.Log.Logger

/-!
# The program

The program reads its command line, finds its settings, sets up the log, and
carries out one request. Each of the first two can end it. The settings are
read from a file if one was named, or if there is one at the usual place.

A request comes to its end, or to where a document has to be written or read.
Documents are written and read elsewhere, by a completion, and what the program
does is the same whoever that is. It may be nobody, and then the request is
handed over as it is.

When the request has ended the log is stopped. A connection it has left open is
closed after that, and what is told then is printed without the writer.

The level of the log is the one that is set, made more detailed by one for each
`-v` and less by one for each `-q`, and no further than the levels go.
-/

namespace DaemonLink

/-- What the program left behind. -/
structure Ended where
  exit : ExitCode
  out : Bytes
  /-- What was printed on the error output: what is no record in its order, and the
  records in theirs. How the two lie between one another is not meant. A worker prints
  records at any moment, before the line that reports the error as well as behind it,
  and between any two pieces of that line. -/
  err : List Output
  /-- The threshold of the log. -/
  level : Level
  host : Host

/-- What is done where a document has to be written or read, and how the request
goes on from there. -/
abbrev Completion := Request → Handover → Control → Action (Verdict × Control)

/-- Nobody goes on. -/
def Completion.nobody : Completion := fun _ handover c => pure (.handedOver handover, c)

namespace Program

/-- The name under which the program itself appears in the log. -/
def tag : Bytes := text "Main"

/-- The settings in force. -/
def settingsNote (s : Settings) : Note :=
  .formatted .debug tag ⟨text "Program.lean", 1⟩
    [.literal (text "socket="), .string s.socketPath, .literal (text " timeout_ms="),
      .number s.limits.timeout, .literal (text " strict="), .number (if s.strict then 1 else 0)]

/-- The end of a program that has not set up its log. -/
def refused (report : Bytes) (h : Host) : Ended :=
  ⟨.usage, [], [.notice report], .info, h⟩

/-- What is said of a command line that is refused. -/
def usageReport (e : UsageError) : Bytes :=
  text "nipc: " ++ e.message ++ [newline] ++ CommandLine.usage

/-- Whether there are settings to be loaded. -/
def wantsSettings (a : Arguments) (h : Host) : Bool :=
  a.configGiven ||
    match h.status a.configPath with
    | .ok _ => true
    | .error _ => false

/-- The settings with what the command line sets. -/
def override (s : Settings) (a : Arguments) : Settings :=
  { s with
    socketPath := if a.socketPath.isEmpty then s.socketPath else a.socketPath
    limits :=
      if a.timeout < 0 then s.limits else { s.limits with timeout := a.timeout } }

/-- The threshold of the log. -/
def threshold (s : Settings) (a : Arguments) : Level :=
  Level.clamp ⟨s.initialLevel.code - a.verbosity⟩

/-- What the program does once its settings are known: what it tells the log,
and what its request comes to. -/
def request (complete : Completion) (s : Settings) (r : Request) : Action (Verdict × Control) := do
  Action.tell (settingsNote s)
  let (verdict, c) ← (Control.new s.socketPath s.connectionOptions).run r
  match verdict with
  | .finished f => pure (.finished f, c)
  | .handedOver handover => complete r handover c

/-- The program with its settings. -/
def withSettings (complete : Completion) (s : Settings) (a : Arguments) (stamp : Stamp)
    (h : Host) : Except Handover Ended :=
  let s := override s a
  let (logger, started, h) := Logger.new.start Host.shelf s.logOptions h
  let logger := { logger with threshold := threshold s a }
  let done := request complete s a.request h
  let (logger, logged) := logger.logAll stamp done.notes
  match done.value with
  | (.handedOver handover, _) => .error handover
  | (.finished f, c) =>
      let (logger, written, h) := logger.stop Host.shelf done.host
      let left := c.client.close h
      let (logger, late) := logger.logAll stamp left.notes
      .ok ⟨f.exit, f.out, started ++ logged ++ [.notice f.err] ++ written ++ late,
        logger.threshold, left.host⟩

/-- The program, given its arguments without its name, with somebody to write and
read its documents. -/
def runWith (complete : Completion) (words : List Bytes) (stamp : Stamp) (h : Host) :
    Except Handover Ended :=
  match CommandLine.parse words {} with
  | (some e, _) => .ok (refused (usageReport e) h)
  | (none, a) =>
      if wantsSettings a h then
        match Settings.load a.configPath h with
        | .unreadable report => .ok (refused report h)
        | .handedOver handover => .error handover
      else withSettings complete {} a stamp h

/-- The program, given its arguments without its name. -/
def run (words : List Bytes) (stamp : Stamp) (h : Host) : Except Handover Ended :=
  runWith .nobody words stamp h

end Program

end DaemonLink
