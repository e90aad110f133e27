import DaemonLink.Program
import DaemonLink.Proofs.CommandLineGrammar
import DaemonLink.Proofs.FileWalks
import DaemonLink.Proofs.LogLevels
import DaemonLink.Proofs.SocketPaths

/-!
# A run that reaches nobody

A command line can be refused, settings that are there cannot be opened, the
state to be applied cannot be opened, or nobody listens at the socket. These are
checked in this order, and the first that applies ends the run: nothing behind
it has been tried. Which of them it is depends on the line and on the machine,
and from there on everything is determined, what is printed, the code, and what
has become of the machine.

Until its settings are known the program has no log, so the first two ends print
their report and nothing else. Behind that point a log is kept on the console.
It takes no part in the request and is written out when it is stopped, so what
the request tells and what it comes to can be worked out first, and the log is
one lemma about a session in which records only go to the console.
-/

namespace DaemonLink

namespace Output

/-- The record that is printed, if it is one. -/
def record? : Output → Option Bytes
  | record b => some b
  | notice _ => none

/-- What is printed, if it is no record. -/
def notice? : Output → Option Bytes
  | record _ => none
  | notice b => some b

variable {α : Type}

theorem records_of_map (f : α → Bytes) (l : List α) :
    (l.map fun x => record (f x)).filterMap record? = l.map f := by
  rw [List.filterMap_map, ← List.filterMap_eq_map]
  rfl

theorem notices_of_map (f : α → Bytes) (l : List α) :
    (l.map fun x => record (f x)).filterMap notice? = [] := by
  rw [List.filterMap_map]
  exact List.filterMap_eq_nil_iff.mpr fun _ _ => rfl

end Output

namespace Ended

/-- The records that were printed. -/
def records (ended : Ended) : List Bytes :=
  ended.err.filterMap Output.record?

/-- What was printed besides records. -/
def notices (ended : Ended) : List Bytes :=
  ended.err.filterMap Output.notice?

/-- The records that were printed are those of the notes that pass, coloured. -/
def Shows (ended : Ended) (stamp : Stamp) (notes : List Note) : Prop :=
  ended.err.filterMap Output.record? =
    (notes.filter (·.level.passes ended.level)).map fun note =>
      (⟨stamp, note⟩ : Record).renderColoured

/-- What is seen of a run with a log on the console. The records of what closing
the connection told are printed without the writer. -/
def seen (level : Level) (stamp : Stamp) (f : Finished) (notes : List Note)
    (left : Performed Client) : Ended :=
  ⟨f.exit, f.out,
    .notice f.err ::
      ((notes.filter (·.level.passes level)).map fun note =>
          .record (⟨stamp, note⟩ : Record).renderColoured) ++
        (left.notes.filter (·.level.passes level)).map fun note =>
          .record (⟨stamp, note⟩ : Record).fallback,
    level, left.host⟩

theorem records_seen (level : Level) (stamp : Stamp) (f : Finished) (notes : List Note)
    (left : Performed Client) : (seen level stamp f notes left).records =
      ((notes.filter (·.level.passes level)).map fun note =>
          (⟨stamp, note⟩ : Record).renderColoured) ++
        (left.notes.filter (·.level.passes level)).map fun note =>
          (⟨stamp, note⟩ : Record).fallback := by
  rw [records, seen]
  simp only [List.cons_append]
  rw [List.filterMap_cons_none rfl, List.filterMap_append, Output.records_of_map,
    Output.records_of_map]

theorem notices_seen (level : Level) (stamp : Stamp) (f : Finished) (notes : List Note)
    (left : Performed Client) : (seen level stamp f notes left).notices = [f.err] := by
  have hnotice : Output.notice? (.notice f.err) = some f.err := rfl
  rw [notices, seen]
  simp only [List.cons_append]
  rw [List.filterMap_cons_some hnotice, List.filterMap_append, Output.notices_of_map,
    Output.notices_of_map]
  rfl

end Ended

/-! ## A log on the console -/

section Console

variable {φ : Type} {o : LogOptions}

theorem writeRecord_console (hfile : o.toFile = false) (hconsole : o.toConsole = true)
    (shelf : Shelf φ) (r : Record) (files : φ) :
    writeRecord shelf o r files = ([.record (consoleForm o r)], files) := by
  rw [writeRecord, hfile, hconsole]
  rfl

/-- A writer in a session, with records it has yet to write. -/
def Writer.busy (running : Bool) (o : LogOptions) (records : List Record) : Writer where
  running := running
  working := true
  options := o
  queue := records
  held := none

theorem Writer.rounds_console (hfile : o.toFile = false) (hconsole : o.toConsole = true)
    (shelf : Shelf φ) (running : Bool) (records : List Record) (files : φ) :
    (busy running o records).rounds shelf records.length files =
      (busy running o [], records.map fun r => .record (consoleForm o r), files) := by
  induction records with
  | nil => rfl
  | cons r rest ih =>
      have hfirst : writeRecord shelf (busy running o (r :: rest)).options r files =
          ([.record (consoleForm o r)], files) := writeRecord_console hfile hconsole shelf r files
      have hlater : rounds shelf rest.length
          { busy running o (r :: rest) with queue := rest, held := none } files = _ := ih
      rw [List.length_cons, rounds_cons rfl rfl rfl, hfirst]
      simp only [hlater]
      rfl

theorem Logger.stop_console (hfile : o.toFile = false) (hconsole : o.toConsole = true)
    (shelf : Shelf φ) (threshold : Level) (records : List Record) (files : φ) :
    stop shelf ⟨threshold, .busy true o records⟩ files =
      (⟨threshold, (Writer.busy false o []).leave⟩,
        records.map fun r => .record (consoleForm o r), files) := by
  have hcleared : (Writer.busy true o records).clear.writeHeld shelf files =
      (.busy false o records, [], files) := rfl
  have hrounds : (Writer.busy false o records).rounds shelf
      (Writer.busy false o records).queue.length files = _ :=
    Writer.rounds_console hfile hconsole shelf false records files
  rw [stop_running rfl]
  simp only [hcleared, hrounds]
  rfl

/-- A log that is started, takes notes and is stopped, all on the console. It
prints nothing before it is stopped, and then every note that passes. The
machine may have changed meanwhile and is left as it is. -/
theorem Logger.console_session (hfile : o.toFile = false) (hconsole : o.toConsole = true)
    (shelf : Shelf φ) (threshold : Level) (stamp : Stamp) (notes : List Note)
    (before after : φ) :
    let started := Logger.new.start shelf o before
    let logged := logAll ⟨threshold, started.1.writer⟩ stamp notes
    let stopped := logged.1.stop shelf after
    started.2 = ([], before) ∧ logged.2 = [] ∧ stopped.1.threshold = threshold ∧
      stopped.1.writer.running = false ∧
      stopped.2 = ((notes.filter (·.level.passes threshold)).map fun note =>
        .record (consoleForm o ⟨stamp, note⟩), after) := by
  intro started logged stopped
  have hstarted : started = (⟨.info, .busy true o []⟩, [], before) := by
    simp only [started, start, hfile]
    rfl
  have hlogged : logged =
      (⟨threshold, .busy true o
        ((notes.filter (·.level.passes threshold)).map (⟨stamp, ·⟩))⟩, []) := by
    simp only [logged, hstarted]
    exact logAll_accept stamp notes _
  simp only [stopped, hstarted, hlogged, stop_console hfile hconsole, List.map_map]
  exact ⟨trivial, trivial, trivial, rfl, rfl⟩

theorem Logger.logAll_idle {l : Logger} (hidle : l.writer.running = false) (stamp : Stamp)
    (notes : List Note) :
    l.logAll stamp notes = (l, (notes.filter (·.level.passes l.threshold)).map fun note =>
      .record (⟨stamp, note⟩ : Record).fallback) := by
  rw [logAll_accept, accept, if_neg (by rw [hidle]; decide), List.map_map]
  rfl

end Console

/-! ## An attempt to connect that fails -/

namespace Connection

theorem connect_fault {x : Connection} {path : Bytes} {h : Host}
    (hfailed : (x.connect path h).value.1 ≠ .done) :
    ∃ fault : ConnectFault, (x.connect path h).value.1 = .failed fault.failure := by
  obtain ⟨f, hvalue, hrefusal, -⟩ := connect_of_failed hfailed
  rw [hvalue]
  cases hrefusal with
  | badPath hpath => exact ⟨.badPath path, rfl⟩
  | noSocket hpath hopen => exact ⟨.noSocket _, rfl⟩
  | notConnected hpath hopen hconnect => exact ⟨.refused path _, rfl⟩

theorem closed_of_connect_failed {x : Connection} {path : Bytes}
    {h : Host} {f : Failure} (hfailed : (x.connect path h).value.1 = .failed f) :
    (x.connect path h).value.2.descriptor = none := by
  obtain ⟨f', hvalue, -⟩ := connect_of_failed (by rw [hfailed]; nofun)
  rw [hvalue]

theorem isOpen_of_connect_failed {x : Connection} (hx : x.descriptor = none) {path : Bytes}
    {h : Host} (hfailed : (x.connect path h).value.1 ≠ .done) {fd : Nat}
    (hopen : (x.connect path h).host.isOpen fd = true) : h.isOpen fd = true := by
  obtain ⟨descriptor, options, sink, state⟩ := x
  subst hx
  exact isOpen_after_failed_connect hfailed hopen

theorem ConnectFault.message_ne_nil (fault : ConnectFault) : fault.message ≠ [] := by
  cases fault with
  | badPath path => exact List.append_ne_nil_of_right_ne_nil _ (by decide)
  | noSocket e => exact List.append_ne_nil_of_left_ne_nil (by decide) _
  | refused path e =>
      rw [message, List.append_assoc, List.append_assoc]
      exact List.append_ne_nil_of_left_ne_nil (by decide) _

theorem ConnectFault.describe_failure (fault : ConnectFault) :
    fault.failure.describe = text "FrameIo(connect): " ++ fault.message := by
  have hmessage : fault.message.isEmpty = false :=
    List.isEmpty_eq_false_iff.mpr fault.message_ne_nil
  rw [Failure.describe, failure]
  simp only [hmessage]
  rfl

theorem report_connectFault (fault : ConnectFault) :
    report fault.failure =
      ⟨.transport, [], text "error: FrameIo(connect): " ++ fault.message ++ [newline]⟩ := by
  rw [report, reportLine, ConnectFault.describe_failure]
  rfl

end Connection

/-! ## Lines and machines -/

namespace CommandLine.Line

/-- Where the state to be applied is to be read, if one is to be applied. -/
def source? (line : Line) : Option Bytes :=
  match line.order with
  | .apply _ operand _ => some operand.word
  | _ => none

/-- Where the daemon is looked for: at the socket given last, if that is not
empty. -/
def socketPath (line : Line) : Bytes :=
  ((line.settings.filterMap Setting.socket?).getLast?.filter fun path => path ≠ []).getD
    defaultSocketPath

/-- There are settings to be opened: a file was named, or there is one at the
usual place. -/
def FindsSettings (line : Line) (h : Host) : Prop :=
  (∃ path, .config path ∈ line.settings) ∨ h.pathExists (text "nipc_config.json") = .ok true

/-- The settings in force if none are read. -/
def settingsInForce (line : Line) : Settings :=
  Program.override {} line.arguments

/-- The attempt to connect that the line leads to. -/
def attempt (line : Line) (h : Host) : Performed (Outcome × Connection) :=
  (Connection.new line.settingsInForce.connectionOptions).connect line.socketPath h

/-- The machine has nothing of what a run of the line comes to ask for: settings
that can be opened, a state that can be read, somebody who listens. -/
structure Unserved (line : Line) (h : Host) : Prop where
  settings : line.FindsSettings h → h.canRead line.arguments.configPath = false
  state : ¬ line.FindsSettings h → ∀ source, line.source? = some source →
    source ≠ text "-" ∧ h.canRead source = false
  daemon : ¬ line.FindsSettings h → line.source? = none → (line.attempt h).value.1 ≠ .done

theorem settingsInForce_socketPath (line : Line) :
    line.settingsInForce.socketPath = line.socketPath := by
  suffices h : ∀ given : Option Bytes,
      (if (given.getD []).isEmpty then defaultSocketPath else given.getD []) =
        (given.filter fun path => path ≠ []).getD defaultSocketPath from h _
  intro given
  cases given with
  | none => rfl
  | some path => cases path <;> rfl

theorem config?_eq_nil_iff {line : Line} :
    line.settings.filterMap Setting.config? = [] ↔ ∀ path, .config path ∉ line.settings := by
  rw [List.filterMap_eq_nil_iff]
  constructor
  · intro hnone path hpath
    cases hnone _ hpath
  · intro hnone s hs
    cases s with
    | config path => exact absurd hs (hnone path)
    | verbose | quiet | socket | timeout => rfl

theorem pathExists_iff {h : Host} {path : Bytes} :
    h.pathExists path = .ok true ↔ ∃ node, h.status path = .ok node := by
  rw [Host.pathExists]
  cases h.status path with
  | ok node => exact ⟨fun _ => ⟨node, rfl⟩, fun _ => rfl⟩
  | error e =>
      simp only [reduceCtorEq, exists_false, iff_false]
      split <;> nofun

theorem wantsSettings_iff {line : Line} {h : Host} :
    Program.wantsSettings line.arguments h = true ↔ line.FindsSettings h := by
  rw [Program.wantsSettings, FindsSettings, Bool.or_eq_true, pathExists_iff]
  by_cases hgiven : ∃ path, .config path ∈ line.settings
  · have hsome : line.settings.filterMap Setting.config? ≠ [] :=
      fun hnone => not_exists.mpr (config?_eq_nil_iff.mp hnone) hgiven
    have hconfigGiven : line.arguments.configGiven = true := by
      rw [arguments, List.isEmpty_eq_false_iff.mpr hsome]
      rfl
    simp only [hgiven, hconfigGiven, true_or]
  · have hnone : line.settings.filterMap Setting.config? = [] :=
      config?_eq_nil_iff.mpr (not_exists.mp hgiven)
    have hconfigPath : line.arguments.configPath = text "nipc_config.json" := by
      rw [arguments, hnone]
      rfl
    have hconfigGiven : line.arguments.configGiven = false := by
      rw [arguments, hnone]
      rfl
    rw [hconfigPath, hconfigGiven]
    simp only [hgiven, Bool.false_eq_true, false_or]
    cases h.status (text "nipc_config.json") with
    | ok node => exact ⟨fun _ => ⟨node, rfl⟩, fun _ => rfl⟩
    | error e => simp

theorem wantsSettings_eq_false_iff {line : Line} {h : Host} :
    Program.wantsSettings line.arguments h = false ↔ ¬ line.FindsSettings h := by
  rw [← Bool.not_eq_true, wantsSettings_iff]

theorem source?_cases (line : Line) :
    (∃ source, line.source? = some source ∧ line.arguments.request.command = .apply ∧
      line.arguments.request.source = source) ∨
    (line.source? = none ∧ (line.arguments.request.command = .ping ∨
      line.arguments.request.command = .show)) := by
  obtain ⟨settings, order⟩ := line
  cases order with
  | ping => exact Or.inr ⟨rfl, Or.inl rfl⟩
  | «show» flags => exact Or.inr ⟨rfl, Or.inr rfl⟩
  | apply before operand after => exact Or.inl ⟨operand.word, rfl, rfl, rfl⟩

end CommandLine.Line

theorem Host.settings_absent :
    (Host.new .bare FileTree.root).status (text "nipc_config.json") = .error .noSuchEntry := by
  have hsteps : FilePath.steps (text "nipc_config.json") = [text "nipc_config.json"] := by decide
  rw [status, FileTree.resolve_eq (by decide) (by decide) (by decide), hsteps,
    FileTree.walk_missing rfl ⟨by decide, by decide, by decide⟩ rfl]

/-! ## The request and the run -/

namespace Control

theorem run_unread (c : Control) {r : Request} {h : Host} (happly : r.command = .apply)
    (hdash : r.source ≠ text "-") (hunread : h.canRead r.source = false) :
    c.run r h =
      ⟨(.finished ⟨.usage, [], text "failed to open " ++ r.source ++ [newline]⟩, c), h, []⟩ := by
  simp only [run, happly, apply, if_neg hdash, Action.bind_apply, Action.canRead_apply, hunread]
  rfl

theorem ensureConnected_new (path : Bytes) (o : ConnectionOptions) (h : Host) :
    (new path o).ensureConnected h =
      let attempt := (Connection.new o).connect path h
      ⟨(attempt.value.1, ⟨path, ⟨attempt.value.2⟩⟩), attempt.host, attempt.notes⟩ := by
  have hclosed : (new path o).client.connection.isOpen = false := rfl
  simp only [ensureConnected, hclosed, Bool.false_eq_true, if_false, Action.bind_apply,
    Client.connect, Client.through_apply, Action.pure_apply, List.append_nil]
  rfl

theorem run_unconnected {path : Bytes} {o : ConnectionOptions} {r : Request} {h : Host}
    (hcommand : r.command = .ping ∨ r.command = .show) {f : Failure}
    (hfailed : ((Connection.new o).connect path h).value.1 = .failed f) :
    let attempt := (Connection.new o).connect path h
    (new path o).run r h =
      ⟨(.finished (report f), ⟨path, ⟨attempt.value.2⟩⟩), attempt.host, attempt.notes⟩ := by
  rcases hcommand with hcommand | hcommand
  all_goals
    simp only [run, hcommand, Action.bind_apply, ensureConnected_new, hfailed, Action.pure_apply,
      verdict, List.append_nil]

end Control

theorem Client.close_closed {c : Client} (hclosed : c.connection.descriptor = none) (h : Host) :
    c.close h = ⟨c, h, []⟩ := by
  obtain ⟨descriptor, options, sink, state⟩ := c
  subst hclosed
  rfl

namespace Program

open CommandLine

section Request

variable {complete : Completion} {s : Settings} {a : Arguments} {r : Request} {h after : Host}
  {f : Finished} {handover : Handover} {c : Control} {notes : List Note}

/-- A request that ends by itself ends in the same way whoever might have gone on. -/
theorem request_finished (complete : Completion)
    (hrun : (Control.new s.socketPath s.connectionOptions).run r h =
      ⟨(.finished f, c), after, notes⟩) :
    request complete s r h = ⟨(.finished f, c), after, settingsNote s :: notes⟩ := by
  simp only [request, Action.bind_apply, Action.tell_apply, hrun, Action.pure_apply,
    List.append_nil, List.singleton_append]

/-- A run with the settings built in: its log is one on the console. -/
theorem withSettings_default
    (hrequest : request complete (override {} a) a.request h = ⟨(.finished f, c), after, notes⟩)
    (stamp : Stamp) :
    withSettings complete {} a stamp h =
      .ok (.seen (threshold (override {} a) a) stamp f notes (c.client.close after)) := by
  obtain ⟨hstarted, hlogged, hthreshold, hidle, hstopped⟩ :=
    Logger.console_session (o := (override {} a).logOptions) rfl rfl Host.shelf
      (threshold (override {} a) a) stamp notes h after
  rw [withSettings]
  simp only [hstarted, hrequest, hlogged, hstopped, Logger.logAll_idle hidle, hthreshold]
  rfl

/-- Where no connection is left open, what is shown is what the request told. -/
theorem withSettings_closed
    (hrequest : request complete (override {} a) a.request h = ⟨(.finished f, c), after, notes⟩)
    (hclosed : c.client.connection.descriptor = none) (stamp : Stamp) :
    ∃ ended, withSettings complete {} a stamp h = .ok ended ∧ ended.exit = f.exit ∧
      ended.out = f.out ∧ ended.notices = [f.err] ∧ ended.Shows stamp notes ∧
      ended.host = after := by
  have hrecords := Ended.records_seen (threshold (override {} a) a) stamp f notes
    (c.client.close after)
  rw [Client.close_closed hclosed, List.filter_nil, List.map_nil, List.append_nil] at hrecords
  rw [withSettings_default hrequest, Client.close_closed hclosed]
  exact ⟨_, rfl, rfl, rfl, Ended.notices_seen _ _ _ _ _, hrecords, rfl⟩

end Request

theorem run_refused {words : List Bytes} {e : UsageError} (h : (parse words {}).1 = some e)
    (stamp : Stamp) (host : Host) :
    run words stamp host = .ok (refused (usageReport e) host) := by
  rw [run, runWith]
  split
  · next e' a hparse =>
      rw [hparse] at h
      cases h
      rfl
  · next a hparse =>
      rw [hparse] at h
      cases h

theorem run_unreadable {line : Line} {h : Host} (hfinds : line.FindsSettings h)
    (hunread : h.canRead line.arguments.configPath = false) (stamp : Stamp) :
    run line.words stamp h = .ok (refused
      (text "Failed to open config file: " ++ line.arguments.configPath ++ [newline]) h) := by
  rw [run, runWith, parse_words]
  simp only [Line.wantsSettings_iff.mpr hfinds, Settings.load, hunread]
  rfl

theorem runWith_unset (complete : Completion) {line : Line} {h : Host}
    (hfinds : ¬ line.FindsSettings h) (stamp : Stamp) :
    runWith complete line.words stamp h = withSettings complete {} line.arguments stamp h := by
  rw [runWith, parse_words]
  simp only [Line.wantsSettings_eq_false_iff.mpr hfinds]
  rfl

/-- The state to be applied is looked for before the daemon. -/
theorem run_unread {line : Line} {h : Host} (hfinds : ¬ line.FindsSettings h) {source : Bytes}
    (hsource : line.source? = some source) (hdash : source ≠ text "-")
    (hunread : h.canRead source = false) (stamp : Stamp) :
    ∃ ended, run line.words stamp h = .ok ended ∧ ended.exit = .usage ∧ ended.out = [] ∧
      ended.notices = [text "failed to open " ++ source ++ [newline]] ∧
      ended.Shows stamp [settingsNote line.settingsInForce] ∧ ended.host = h := by
  rcases line.source?_cases with ⟨_, hsome, happly, rfl⟩ | ⟨hnone, -⟩
  · rw [hsource] at hsome
    cases hsome
    have hrequest := request_finished (s := line.settingsInForce) .nobody
      (Control.run_unread _ happly hdash hunread)
    rw [run, runWith_unset _ hfinds]
    exact withSettings_closed hrequest rfl stamp
  · rw [hsource] at hnone
    cases hnone

theorem run_unconnected {line : Line} {h : Host} (hfinds : ¬ line.FindsSettings h)
    (hsource : line.source? = none) {fault : Connection.ConnectFault}
    (hfailed : (line.attempt h).value.1 = .failed fault.failure) (stamp : Stamp) :
    ∃ ended, run line.words stamp h = .ok ended ∧ ended.exit = .transport ∧ ended.out = [] ∧
      ended.notices = [text "error: FrameIo(connect): " ++ fault.message ++ [newline]] ∧
      ended.Shows stamp (settingsNote line.settingsInForce :: (line.attempt h).notes) ∧
      ended.host = (line.attempt h).host := by
  rcases line.source?_cases with ⟨_, hsome, -⟩ | ⟨-, hcommand⟩
  · rw [hsource] at hsome
    cases hsome
  · rw [Line.attempt, ← Line.settingsInForce_socketPath] at hfailed ⊢
    have hrequest := request_finished (s := line.settingsInForce) .nobody
      (Control.run_unconnected hcommand hfailed)
    have hclosed := Connection.closed_of_connect_failed hfailed
    rw [Connection.report_connectFault] at hrequest
    rw [run, runWith_unset _ hfinds]
    exact withSettings_closed hrequest hclosed stamp

/-- On a machine that has nothing of what the run comes to ask for, the run ends
by itself, with nothing on the output, in one of four ways. A line that is
refused is reported with the usage, and settings that cannot be opened are
reported with their path. Both reports are all that is printed, and the machine
is as it was. A state that cannot be opened is reported with its path before
anything is connected. Otherwise there has been one attempt to connect, at the
socket given last if that is not empty and at the usual one if it is. Why the
attempt failed is reported, the machine is as the attempt left it, and it has
left no descriptor open. In the last two ways the log shows the settings in
force and what the attempt told it. -/
theorem run_unserved (words : List Bytes) (stamp : Stamp) (h : Host)
    (hunserved : ∀ line : Line, words = line.words → line.Unserved h) :
    ∃ ended, run words stamp h = .ok ended ∧ ended.out = [] ∧
      ((∃ e, (parse words {}).1 = some e ∧ ended.exit.code = 1 ∧
          ended.err = [.notice (text "nipc: " ++ e.message ++ [newline] ++ usage)] ∧
          ended.host = h) ∨
        ∃ line : Line, words = line.words ∧
          ((line.FindsSettings h ∧ ended.exit.code = 1 ∧
              ended.err = [.notice (text "Failed to open config file: " ++
                line.arguments.configPath ++ [newline])] ∧
              ended.host = h) ∨
            (¬ line.FindsSettings h ∧ ∃ source, line.source? = some source ∧
              ended.exit.code = 1 ∧
              ended.notices = [text "failed to open " ++ source ++ [newline]] ∧
              ended.Shows stamp [settingsNote line.settingsInForce] ∧ ended.host = h) ∨
            (¬ line.FindsSettings h ∧ line.source? = none ∧ ∃ f,
              (line.attempt h).value.1 = .failed f ∧ ended.exit.code = 2 ∧
              ended.notices = [text "error: FrameIo(connect): " ++ f.message ++ [newline]] ∧
              ended.Shows stamp (settingsNote line.settingsInForce :: (line.attempt h).notes) ∧
              ended.host = (line.attempt h).host ∧
              ∀ fd, ended.host.isOpen fd = true → h.isOpen fd = true))) := by
  cases hparse : (parse words {}).1 with
  | some e =>
      have hrun := run_refused hparse stamp h
      exact ⟨_, hrun, rfl, Or.inl ⟨e, rfl, rfl, rfl, rfl⟩⟩
  | none =>
      obtain ⟨line, rfl⟩ := line_of_parse (Prod.ext hparse rfl)
      have hline := hunserved line rfl
      by_cases hfinds : line.FindsSettings h
      · have hrun := run_unreadable hfinds (hline.settings hfinds) stamp
        exact ⟨_, hrun, rfl, Or.inr ⟨line, rfl, Or.inl ⟨hfinds, rfl, rfl, rfl⟩⟩⟩
      cases hsource : line.source? with
      | some source =>
          obtain ⟨hdash, hunread⟩ := hline.state hfinds source hsource
          obtain ⟨ended, hrun, hexit, hout, hnotices, hshows, hhost⟩ :=
            run_unread hfinds hsource hdash hunread stamp
          have hcode : ended.exit.code = 1 := by
            rw [hexit]
            rfl
          refine ⟨ended, hrun, hout, Or.inr ⟨line, rfl, Or.inr (Or.inl ?_)⟩⟩
          exact ⟨hfinds, source, hsource, hcode, hnotices, hshows, hhost⟩
      | none =>
          have hattempt := hline.daemon hfinds hsource
          obtain ⟨fault, hfault⟩ := Connection.connect_fault hattempt
          obtain ⟨ended, hrun, hexit, hout, hnotices, hshows, hhost⟩ :=
            run_unconnected hfinds hsource hfault stamp
          have hopen : ∀ fd, ended.host.isOpen fd = true → h.isOpen fd = true := by
            rw [hhost]
            exact fun fd => Connection.isOpen_of_connect_failed rfl hattempt
          have hcode : ended.exit.code = 2 := by
            rw [hexit]
            rfl
          refine ⟨ended, hrun, hout, Or.inr ⟨line, rfl, Or.inr (Or.inr ?_)⟩⟩
          exact ⟨hfinds, hsource, fault.failure, hfault, hcode, hnotices, hshows, hhost, hopen⟩

/-- Nobody listens under an abstract name. -/
theorem run_unserved_nobody_listens :
    let words := [text "-s", text "@nobody", text "-v", text "ping"]
    let stamp : Stamp := ⟨text "08:00", text "1"⟩
    let h := Host.new .bare FileTree.root
    (∀ line : Line, words = line.words → line.Unserved h) ∧
      ∃ ended, run words stamp h = .ok ended ∧ ended.out = [] ∧ ended.exit.code = 2 ∧
        ended.notices =
          [text "error: FrameIo(connect): failed to connect @nobody: Connection refused\n"] := by
  intro words stamp h
  have harguments (line : Line) (hwords : words = line.words) : line.arguments =
      { socketPath := text "@nobody", verbosity := 1, request := { command := .ping } } := by
    have hparse := parse_words line
    have hdecided : parse words {} = (none,
        { socketPath := text "@nobody", verbosity := 1, request := { command := .ping } }) := by
      decide
    rw [← hwords, hdecided, Prod.mk.injEq] at hparse
    exact hparse.2.symm
  have hattempt (line : Line) (hwords : words = line.words) : (line.attempt h).value.1 =
      .failed (Connection.ConnectFault.refused (text "@nobody") .connectionRefused).failure := by
    rw [Line.attempt, ← Line.settingsInForce_socketPath, Line.settingsInForce,
      harguments line hwords]
    rfl
  have hsource (line : Line) (hwords : words = line.words) : line.source? = none := by
    rcases line.source?_cases with ⟨_, -, happly, -⟩ | ⟨hnone, -⟩
    · rw [harguments line hwords] at happly
      cases happly
    · exact hnone
  have hfinds (line : Line) (hwords : words = line.words) : ¬ line.FindsSettings h := by
    rw [← Line.wantsSettings_iff, harguments line hwords, wantsSettings, Host.settings_absent]
    exact Bool.false_ne_true
  have hunserved (line : Line) (hwords : words = line.words) : line.Unserved h := by
    refine ⟨fun hfound => absurd hfound (hfinds line hwords), ?_, ?_⟩
    · rw [hsource line hwords]
      intro _ _ hsome
      cases hsome
    · rw [hattempt line hwords]
      intro _ _ hdone
      cases hdone
  refine ⟨hunserved, ?_⟩
  obtain ⟨ended, hrun, hout, ⟨e, hrefused, -⟩ | ⟨line, hwords, hends⟩⟩ :=
    run_unserved words stamp h hunserved
  · have hparse : (parse words {}).1 = none := by decide
    rw [hparse] at hrefused
    cases hrefused
  · refine ⟨ended, hrun, hout, ?_⟩
    rcases hends with ⟨hfound, -⟩ | ⟨-, source, hsome, -⟩ | ⟨-, -, f, hfailed, hexit, hnotices, -⟩
    · exact absurd hfound (hfinds line hwords)
    · rw [hsource line hwords] at hsome
      cases hsome
    · rw [hattempt line hwords] at hfailed
      cases hfailed
      exact ⟨hexit, hnotices⟩

end Program

end DaemonLink
