import Mathlib
import DaemonLink.Connection.Session
import DaemonLink.Proofs.LogLevels
import DaemonLink.Proofs.LogTurns
import DaemonLink.Proofs.LogUnseen

/-!
# A level only filters

Two runs in the same steps and on the same machine, with the log set to two levels and
its worker as quick or slow as it likes in each, differ in nothing but the log. What a
note can do to a run it does through the worker, who writes it. The worker changes the
files of the log, and it has a descriptor while it has one of them open. So the run is
that of a program without a log as long as neither is noticed: no path that is asked
about is another matter once the worker has changed files, and a descriptor is not asked
for when there is just one left. Where no log file is kept there is nothing to be noticed.

What carries the induction is that the machine of the log is the machine without one but
for the files, and that these are among those the worker can have made. The notes are the
same then, and since a note passes a threshold only if it passes every lower one, what the
log takes up at a high threshold is what is left there of what it takes up at a low one.
Whether a record is queued or printed depends on the writer and not on its level, and what
is queued is written in order.

Neither condition can be left out, and to be taken up is not to reach the file. That
is shown on three machines behind the theorem.
-/

namespace DaemonLink

/-! ## The last descriptor -/

/-- There is one descriptor left and no more. -/
def Host.OnLast (h : Host) : Prop :=
  h.hasRoomFor 1 = true ∧ h.hasRoomFor 2 = false

instance (h : Host) : Decidable h.OnLast :=
  inferInstanceAs (Decidable (_ ∧ _))

theorem Host.hasRoomFor_of_le {h : Host} {few many : Nat} (hle : few ≤ many)
    (hmany : h.hasRoomFor many = true) : h.hasRoomFor few = true := by
  rw [hasRoomFor] at hmany ⊢
  split at hmany
  · rfl
  · simp only [decide_eq_true_eq] at hmany ⊢
    omega

/-- Where it is not the last one, there is room for one if and only if there is room for
two. -/
theorem Host.hasRoomFor_two {h : Host} (hlast : ¬ h.OnLast) :
    h.hasRoomFor 2 = h.hasRoomFor 1 := by
  cases hone : h.hasRoomFor 1 with
  | true =>
      rw [OnLast, not_and, Bool.not_eq_false] at hlast
      exact hlast hone
  | false =>
      rw [← Bool.not_eq_true] at hone ⊢
      exact fun htwo => hone (hasRoomFor_of_le (by decide) htwo)

/-- What is asked for takes a descriptor. -/
def Call.Opens : Call → Prop
  | openSocket | canRead _ => True
  | _ => False

instance : (c : Call) → Decidable c.Opens
  | .openSocket | .canRead _ => .isTrue trivial
  | .close _ | .connect _ _ | .readFrame _ _ => .isFalse not_false

theorem Call.performBeside_of_room {c : Call} {h : Host} {others : Nat}
    (hroom : c.Opens → h.hasRoomFor (others + 1) = h.canOpen) :
    c.performBeside others h = c.perform h := by
  cases c with
  | openSocket =>
      simp only [performBeside, perform, hroom trivial, Host.openSocket]
      split <;> rfl
  | canRead path =>
      simp only [performBeside, perform, hroom trivial, Host.canRead]
      cases h.canOpen <;> rfl
  | close | connect | readFrame => rfl

/-- An action that opens nothing when there is one descriptor left. -/
def Action.Spares {α : Type} : Action α → Host → Prop
  | ended _, _ => True
  | noted _ rest, h => rest.Spares h
  | asked c rest, h =>
      (c.Opens → ¬ h.OnLast) ∧ (rest (c.perform h).1).Spares (c.perform h).2

instance Action.decidableSpares {α : Type} : (a : Action α) → (h : Host) → Decidable (a.Spares h)
  | ended _, _ => .isTrue trivial
  | noted _ rest, h => rest.decidableSpares h
  | asked c rest, h =>
      have := (rest (c.perform h).1).decidableSpares (c.perform h).2
      inferInstanceAs (Decidable (_ ∧ _))

/-- A run in which no step opens anything when there is one descriptor left. -/
def Session.Spares (s : Session) : List Step → Prop
  | [] => True
  | a :: rest => (s.doing a).Spares s.host ∧ (s.step a).session.Spares rest

instance Session.decidableSpares : (s : Session) → (steps : List Step) → Decidable (s.Spares steps)
  | _, [] => .isTrue trivial
  | s, a :: rest =>
      have := (s.step a).session.decidableSpares rest
      inferInstanceAs (Decidable (_ ∧ _))

/-! ## The machine of the log -/

namespace LiveLog

variable {l l' : LiveLog} {notes : List Note}

/-- The log is on this machine but for the files, and these can be there. If a log file is
kept, it is kept under these options. -/
structure Resembles (l : LiveLog) (o : LogOptions) (T : FileTree → Prop) (h : Host) : Prop where
  machine : ∃ t, l.machine = h.withFiles t ∧ o.Makes h.directory T t
  options : l.KeepsFile → l.writer.options = o

variable {o : LogOptions} {T : FileTree → Prop} {h : Host}

theorem Resembles.of_turns (hl : l.Resembles o T h) (hturns : Turns l notes l')
    (hmachine : ∃ t, l'.machine = h.withFiles t ∧ o.Makes h.directory T t) :
    l'.Resembles o T h where
  machine := hmachine
  options hkeeps := by rw [hturns.options, hl.options (hturns.keepsFile hkeeps)]

theorem Resembles.still (hl : l.Resembles o T h) (hturns : Turns l notes l')
    (hmachine : l'.machine = l.machine) : l'.Resembles o T h :=
  hl.of_turns hturns (by rw [hmachine]; exact hl.machine)

/-- The worker changes files only where a log file is kept, and only those of the log. -/
theorem resembles_write (hl : l.Resembles o T h) (hworks : l.writer.working = true) :
    l.write.Resembles o T h := by
  have hturns := turns_write hworks
  cases hheld : l.writer.held with
  | none => exact hl.still hturns (by rw [write, hheld])
  | some r =>
      have hmachine : l.write.machine =
          (writeRecord Host.shelf l.writer.options r l.machine).2 := by
        rw [write_held hheld]
      cases hfile : l.writer.options.toFile with
      | false =>
          rw [writeRecord_unfiled Host.shelf hfile] at hmachine
          exact hl.still hturns hmachine
      | true =>
          obtain ⟨t, ht, hmade⟩ := hl.machine
          have hmade' : o.Makes (h.withFiles t).directory T (h.withFiles t).files := hmade
          obtain ⟨t', hwritten, hmade''⟩ := hmade'.writeRecord r
          rw [hl.options (Or.inr ⟨hworks, hfile⟩), ht, hwritten] at hmachine
          exact hl.of_turns hturns ⟨t', hmachine, hmade''⟩

theorem resembles_work (hl : l.Resembles o T h) (sec : Section) :
    (l.work sec).Resembles o T h := by
  cases hworks : l.writer.working with
  | false => rwa [work_idle hworks]
  | true =>
      cases sec with
      | write =>
          simp only [work, hworks, if_true]
          split
          · exact hl
          · exact resembles_write hl hworks
      | close =>
          refine hl.still (turns_work l .close) ?_
          simp only [work, hworks, if_true]
      | take =>
          refine hl.still (turns_work l .take) ?_
          simp only [work, hworks, if_true]
          split <;> rfl
      | leave =>
          refine hl.still (turns_work l .leave) ?_
          simp only [work, hworks, if_true]
          split <;> rfl

theorem resembles_pass (hl : l.Resembles o T h) (course : Course) :
    (l.pass course).Resembles o T h := by
  suffices hsections : ∀ (secs : List Section) (l : LiveLog), l.Resembles o T h →
      (secs.foldl work l).Resembles o T h by
    exact (hsections _ l hl).still (Turns.none rfl id rfl) rfl
  intro secs
  induction secs with
  | nil => exact fun l hl => hl
  | cons sec rest ih => exact fun l hl => ih _ (resembles_work hl sec)

/-- A call is answered as on this machine if no path that it asks about is another matter
there, and if it does not take the last descriptor while a log file is kept. -/
theorem ask_resembles (hl : l.Resembles o T h) {c : Call}
    (hspared : l.KeepsFile → c.Opens → ¬ h.OnLast)
    (hunseen : ∀ path ∈ c.paths, ∀ t, o.Makes h.directory T t →
      (h.withFiles t).outline path = h.outline path) :
    ∃ asked, l.ask c = ((c.perform h).1, asked) ∧ Turns l [] asked ∧
      asked.Resembles o T (c.perform h).2 := by
  obtain ⟨t, hmachine, hmade⟩ := hl.machine
  have hcall : c.perform (h.withFiles t) = ((c.perform h).1, (c.perform h).2.withFiles t) :=
    Host.perform_call_withFiles fun path hpath => hunseen path hpath t hmade
  have hroom : c.performBeside (if l.fileOpen then 1 else 0) (h.withFiles t) =
      c.perform (h.withFiles t) := by
    refine Call.performBeside_of_room fun hopens => ?_
    split
    · next hopen => exact Host.hasRoomFor_two (h := h) (hspared (Or.inl hopen) hopens)
    · rfl
  have hturns : Turns l [] { l with machine := (c.perform h).2.withFiles t } := .none rfl id rfl
  refine ⟨_, ?_, hturns, ⟨t, rfl, ?_⟩, ?_⟩
  · rw [ask, hmachine, hroom, hcall]
  · rwa [Host.perform_call_directory]
  · exact fun hkeeps => hl.options (hturns.keepsFile hkeeps)

end LiveLog

/-! ## Actions and runs -/

variable {o : LogOptions} {T : FileTree → Prop} {l : LiveLog}

/-- An action beside the worker comes to what it comes to without a log. -/
theorem Action.beside_follows {α : Type} (course : Course) (action : Action α) :
    ∀ (h : Host) (l : LiveLog), l.Resembles o T h → (l.KeepsFile → action.Spares h) →
      (∀ path ∈ action.paths h, ∀ t, o.Makes h.directory T t →
        (h.withFiles t).outline path = h.outline path) →
      let done := action h
      let ended := action.beside course l
      ended.1 = done.value ∧ LiveLog.Turns l done.notes ended.2 ∧
        ended.2.Resembles o T done.host := by
  induction action with
  | ended value => exact fun h l hl _ _ => ⟨rfl, .none rfl id rfl, hl⟩
  | noted note rest ih =>
      intro h l hl hspares hunseen
      have hpass := l.turns_pass course
      have htell := (l.pass course).turns_tell (course.stamp l.turn) note
      have hturns := hpass.trans htell
      have htold : ((l.pass course).tell (course.stamp l.turn) note).Resembles o T h :=
        (LiveLog.resembles_pass hl course).still htell rfl
      obtain ⟨hvalue, hlater, hended⟩ :=
        ih h _ htold (fun hkeeps => hspares (hturns.keepsFile hkeeps)) hunseen
      exact ⟨hvalue, hturns.trans hlater, hended⟩
  | asked c rest ih =>
      intro h l hl hspares hunseen
      have hpass := l.turns_pass course
      obtain ⟨asked, hask, hturn, hasked⟩ :=
        LiveLog.ask_resembles (LiveLog.resembles_pass hl course) (c := c)
          (fun hkeeps => (hspares (hpass.keepsFile hkeeps)).1)
          (fun path hpath => hunseen path (List.mem_append_left _ hpath))
      have hturns := hpass.trans hturn
      have hdirectory := Host.perform_call_directory c h
      obtain ⟨hvalue, hlater, hended⟩ := ih (c.perform h).1 (c.perform h).2 asked hasked
        (fun hkeeps => (hspares (hturns.keepsFile hkeeps)).2) fun path hpath t hmade => by
          rw [hdirectory] at hmade
          have hhere : ((c.perform h).2.withFiles t).directory = (h.withFiles t).directory :=
            hdirectory
          rw [Host.outline_congr hhere rfl,
            Host.outline_congr hdirectory (Host.perform_call_files c h)]
          exact hunseen path (List.mem_append_right _ hpath) t hmade
      rw [beside, hask]
      exact ⟨hvalue, hturns.trans hlater, hended⟩

namespace Session

/-- What the program does in a step depends on nothing but the connections. -/
theorem doing_eq (s : Session) (h : Host) (a : Step) :
    (⟨h, s.connections⟩ : Session).doing a = s.doing a := by
  cases a <;> rfl

theorem stepBeside_happen (course : Course) (connections : List (Nat × Connection)) (l : LiveLog)
    (what : Happening) :
    stepBeside course connections l (.happen what) = ⟨.nothing, connections,
      { l.pass course with machine := (l.pass course).machine.after what }⟩ := rfl

theorem stepBeside_program {a : Step} (hprogram : ∀ what, a ≠ .happen what) (course : Course)
    (s : Session) (l : LiveLog) :
    stepBeside course s.connections l a = ⟨((s.doing a).beside course l).1.1,
      ((s.doing a).beside course l).1.2, ((s.doing a).beside course l).2⟩ := by
  rw [← s.doing_eq l.machine]
  cases a <;> first | rfl | exact absurd rfl (hprogram _)

/-- A step beside the worker comes to what it comes to without a log. -/
theorem stepBeside_follows (course : Course) (a : Step) {s : Session}
    (hl : l.Resembles o T s.host) (hspares : l.KeepsFile → (s.doing a).Spares s.host)
    (hunseen : ∀ path ∈ (s.doing a).paths s.host, ∀ t, o.Makes s.host.directory T t →
      (s.host.withFiles t).outline path = s.host.outline path) :
    let done := s.step a
    let ended := stepBeside course s.connections l a
    ended.answer = done.answer ∧ ended.connections = done.session.connections ∧
      LiveLog.Turns l done.notes ended.log ∧
      ended.log.Resembles o (a.trees (o.Makes s.host.directory T) s.host) done.session.host := by
  obtain ⟨what, rfl⟩ | hprogram := a.happen_or_program
  · have hpass := l.turns_pass course
    have hpassed := LiveLog.resembles_pass hl course
    obtain ⟨t, hmachine, hmade⟩ := hpassed.machine
    rw [stepBeside_happen, step_happen]
    refine ⟨rfl, rfl, hpass.trans (.none rfl id rfl), ⟨_, ?_, .found ⟨t, hmade, rfl⟩⟩,
      hpassed.options⟩
    rw [← Host.after_withFiles, ← hmachine]
  · obtain ⟨hvalue, hturns, hended⟩ :=
      (s.doing a).beside_follows course s.host l hl hspares hunseen
    obtain ⟨t, hmachine, hmade⟩ := hended.machine
    rw [Action.directory_eq] at hmade
    rw [step_program s hprogram, trees_program hprogram, stepBeside_program hprogram, hvalue]
    exact ⟨rfl, rfl, hturns, ⟨t, hmachine, .found hmade⟩, hended.options⟩

/-- So does a run. -/
theorem runBeside_follows (course : Course) (steps : List Step) :
    ∀ (s : Session) (T : FileTree → Prop) (l : LiveLog), l.Resembles o T s.host →
      (l.KeepsFile → s.Spares steps) → s.Unseen o T steps →
      let done := s.run steps
      let ended := runBeside course s.connections l steps
      ended.answers = done.answers ∧ ended.connections = done.session.connections ∧
        LiveLog.Turns l done.notes ended.log ∧
        ∃ t, ended.log.machine = done.session.host.withFiles t ∧ s.trees o T steps t := by
  induction steps with
  | nil =>
      intro s T l hl _ _
      exact ⟨rfl, rfl, l.turns_pass course, (LiveLog.resembles_pass hl course).machine⟩
  | cons a rest ih =>
      intro s T l hl hspares hunseen
      obtain ⟨hanswer, hconnections, hturns, hlog⟩ :=
        stepBeside_follows course a hl (fun hkeeps => (hspares hkeeps).1) hunseen.1
      obtain ⟨hanswers, hended, hlater, hmachine⟩ := ih (s.step a).session _ _ hlog
        (fun hkeeps => (hspares (hturns.keepsFile hkeeps)).2) hunseen.2
      rw [← hconnections] at hanswers hended hlater hmachine
      refine ⟨?_, hended, hturns.trans hlater, hmachine⟩
      rw [runBeside, run, hanswer, hanswers]

/-- The run beside the worker has come to the same as the run without a log, the files of
the machine apart. Where a log file is kept, these are such as the worker can have made,
and where none is kept they are the same, too. -/
structure ComesTo (s : Session) (steps : List Step) (l : LiveLog) (ended : RunBeside) : Prop where
  answers : ended.answers = (s.run steps).answers
  connections : ended.connections = (s.run steps).session.connections
  machine : ended.log.machine = (s.run steps).session.host.withFiles ended.log.machine.files
  made : l.KeepsFile → s.trees l.writer.options (· = s.host.files) steps ended.log.machine.files
  still : ¬ l.KeepsFile → ended.log.machine = (s.run steps).session.host

theorem runBeside_comesTo (course : Course) (connections : List (Nat × Connection)) (l : LiveLog)
    (steps : List Step)
    (hspares : l.KeepsFile → (⟨l.machine, connections⟩ : Session).Spares steps)
    (hunseen : l.KeepsFile → (⟨l.machine, connections⟩ : Session).Unseen l.writer.options
      (· = l.machine.files) steps) :
    let s : Session := ⟨l.machine, connections⟩
    let ended := runBeside course connections l steps
    s.ComesTo steps l ended ∧ LiveLog.Turns l (s.run steps).notes ended.log := by
  intro s ended
  by_cases hkeeps : l.KeepsFile
  · have hl : l.Resembles l.writer.options (· = s.host.files) s.host :=
      ⟨⟨l.machine.files, rfl, .found rfl⟩, fun _ => rfl⟩
    obtain ⟨hanswers, hconnections, hturns, t, hmachine, hmade⟩ :=
      runBeside_follows course steps s _ l hl hspares (hunseen hkeeps)
    have hfiles : ended.log.machine.files = t := by
      rw [hmachine]
      rfl
    refine ⟨⟨hanswers, hconnections, ?_, fun _ => ?_, fun hnone => absurd hkeeps hnone⟩, hturns⟩
    · rw [hfiles, hmachine]
    · rwa [hfiles]
  · -- the same with options under which no file is kept
    let o : LogOptions := { l.writer.options with toFile := false }
    have hl : l.Resembles o (· = s.host.files) s.host :=
      ⟨⟨l.machine.files, rfl, .found rfl⟩, fun hkept => absurd hkept hkeeps⟩
    obtain ⟨halone, htrees⟩ := alone_of_unfiled (o := o) rfl steps s _ fun _ => id
    obtain ⟨hanswers, hconnections, hturns, t, hmachine, hmade⟩ :=
      runBeside_follows course steps s _ l hl hspares halone
    rw [htrees t hmade] at hmachine
    refine ⟨⟨hanswers, hconnections, ?_, fun hkept => absurd hkept hkeeps, fun _ => hmachine⟩,
      hturns⟩
    rw [hmachine]
    rfl

/-- Two runs in the same steps and on the same machine, the log at two levels, and its
worker taking any course in each. Where a log file is kept, let the run ask about no path
that the worker can make another matter, and open nothing when there is one descriptor
left. Then both runs give the answers of a run without a log and leave the connections and
the machine as that does, the files of the log apart. The log takes up a record of each
note of the run without a log that passes the level, in order; and what it takes up at the
higher level is what it takes up at the lower one and passes the higher. Each of these
records is queued if the writer is running and printed at once if it is not, and what is
queued is written in order. -/
theorem level_only_filters (l : LiveLog) (connections : List (Nat × Connection))
    (steps : List Step) (course course' : Course) {low high : Level} (hle : low.code ≤ high.code)
    (hspares : l.KeepsFile → (⟨l.machine, connections⟩ : Session).Spares steps)
    (hunseen : l.KeepsFile → (⟨l.machine, connections⟩ : Session).Unseen l.writer.options
      (· = l.machine.files) steps) :
    let s : Session := ⟨l.machine, connections⟩
    let atLow := runBeside course connections (l.atLevel low) steps
    let atHigh := runBeside course' connections (l.atLevel high) steps
    s.ComesTo steps l atLow ∧ s.ComesTo steps l atHigh ∧
    ∃ events events' : List LogEvent,
      LiveLog.Account (l.atLevel low) (s.run steps).notes atLow.log events ∧
      LiveLog.Account (l.atLevel high) (s.run steps).notes atHigh.log events' ∧
      (events'.filterMap LogEvent.taken?).map Record.note =
        ((events.filterMap LogEvent.taken?).map Record.note).filter (·.level.passes high) := by
  intro s atLow atHigh
  obtain ⟨hlow, hturns⟩ :=
    runBeside_comesTo course connections (l.atLevel low) steps hspares hunseen
  obtain ⟨hhigh, hturns'⟩ :=
    runBeside_comesTo course' connections (l.atLevel high) steps hspares hunseen
  obtain ⟨events, haccount⟩ := hturns.account
  obtain ⟨events', haccount'⟩ := hturns'.account
  refine ⟨?_, ?_, events, events', haccount, haccount', ?_⟩
  · exact ⟨hlow.answers, hlow.connections, hlow.machine, hlow.made, hlow.still⟩
  · exact ⟨hhigh.answers, hhigh.connections, hhigh.machine, hhigh.made, hhigh.still⟩
  · rw [haccount'.taken, haccount.taken]
    exact (Level.filter_passes hle (s.run steps).notes).symm

/-- A log is kept in the root directory, and no more than two descriptors can be open at a
time. A request is refused, a line of the daemon's log is forwarded, a descriptor is
closed, and there is no socket at the path of the next connection. -/
theorem level_only_filters_warnings :
    let o : LogOptions := { directory := text "/", toFile := true, maxFileSizeMb := 0 }
    let machine : Host := { Host.new .bare FileTree.root with limit := some 5 }
    let l : LiveLog := .new ⟨.info, ⟨true, true, o, [], none⟩⟩ machine
    let s : Session := ⟨machine, []⟩
    let steps : List Step := [.create 0 {}, .execute 0 (text "ping"),
      .deliver 0 ⟨text "daemon", .info, text "started"⟩, .happen .channelAppears,
      .adopt 0 (some 3), .close 0, .connect 0 (text "/daemon.sock")]
    let busy : Course := ⟨fun _ => [.close, .take, .write], fun n => ⟨text "08:00", decimal n⟩⟩
    let slow : Course := ⟨fun n => if n = 5 then [.take, .write] else [], fun _ => ⟨[], []⟩⟩
    let atLow := runBeside busy [] (l.atLevel .debug) steps
    let atHigh := runBeside slow [] (l.atLevel .warn) steps
    Level.debug.code ≤ Level.warn.code ∧ l.KeepsFile ∧ s.Spares steps ∧
      s.paths steps = [text "/daemon.sock"] ∧ s.Unseen o (· = machine.files) steps ∧
      s.ComesTo steps l atLow ∧ s.ComesTo steps l atHigh ∧
      ∃ records kept : List Record,
        records = atLow.log.history.filterMap LogEvent.taken? ∧
        kept = atHigh.log.history.filterMap LogEvent.taken? ∧
        records.map (·.note.level) = [.warn, .info, .debug, .warn] ∧
        kept.map (·.note.level) = [.warn, .warn] ∧
        kept.map Record.note = (records.map Record.note).filter (·.level.passes .warn) := by
  intro o machine l s steps busy slow atLow atHigh
  have hle : Level.debug.code ≤ Level.warn.code := by decide
  have hkeeps : l.KeepsFile := Or.inr ⟨rfl, rfl⟩
  have hspares : s.Spares steps := of_decide_eq_true (by cbv)
  have hpaths : s.paths steps = [text "/daemon.sock"] := by cbv
  have hnamed : o.Named (text "/") (text "nipc.log") :=
    Host.named_root rfl (by decide) ⟨by decide, by decide, by decide⟩ (by decide) (by decide)
      (by decide) (by decide) (by decide)
  have hlog : machine.KeepsLog o (text "/") (text "nipc.log") FileTree.root := by
    have hhouses : (Host.new .bare FileTree.root).HousesLog o (text "/") (text "nipc.log")
        FileTree.root :=
      Host.housesLog_root rfl (by decide) rfl (fun _ => by simp) (fun _ => by simp)
    exact hhouses.files
  have hpasses : machine.PassesBy FileTree.root (o.Numbers (text "nipc.log")) (text "/daemon.sock")
      [] (text "daemon.sock") FileTree.maxLinks FileTree.root := by
    refine ⟨by decide, by decide, by decide, by decide, .here, ⟨_, _, rfl⟩,
      ⟨by decide, by decide, by decide⟩, ?_, fun id hid => by cases hid⟩
    rintro - ⟨i, hi, hslot⟩
    have hhead : (slot (text "nipc.log") i).head? = some 110 := by cases i <;> rfl
    rw [← hslot] at hhead
    exact absurd hhead (by decide)
  have hunseen : s.Unseen o (· = machine.files) steps := by
    refine unseen_of_passesBy (s := s) hnamed hlog ?_ ?_
    · intro what hwhat h
      have happens : what = .channelAppears := by simpa [steps] using hwhat
      rw [happens]
      rfl
    · intro path hpath
      rw [hpaths, List.mem_singleton] at hpath
      rw [hpath]
      exact ⟨_, _, _, _, hpasses⟩
  obtain ⟨hlow, hhigh, events, events', haccount, haccount', hfilter⟩ :=
    level_only_filters l [] steps busy slow hle (fun _ => hspares) fun _ => hunseen
  have hhistory := haccount.history
  have hhistory' := haccount'.history
  rw [show (l.atLevel .debug).history = [] from rfl, List.nil_append] at hhistory
  rw [show (l.atLevel .warn).history = [] from rfl, List.nil_append] at hhistory'
  refine ⟨hle, hkeeps, hspares, hpaths, hunseen, hlow, hhigh, _, _, rfl, rfl, by cbv,
    by cbv, ?_⟩
  rw [hhistory, hhistory', hfilter]

/-! ## Where a level shows -/

/-- A machine with a log in its root directory, and in place of the file behind it a
directory that is not empty, so that no rotation succeeds. -/
def blocked (data : ByteArray) : Host :=
  .new ⟨#[.directory 0 [(text "nipc.log", 1), (text "nipc.log.1", 2)], .file data,
    .directory 0 [(text "x", 3)], .device]⟩ FileTree.root

theorem blocked_resolve (data : ByteArray) (follow : Bool) :
    (blocked data).files.resolve (blocked data).directory follow (text "/nipc.log") =
      .ok (.found 1 (some ⟨FileTree.root, text "nipc.log"⟩)) :=
  FileTree.resolve_root (text "nipc.log") ⟨by decide, by decide, by decide⟩
    ⟨by decide, by decide⟩ (by decide) rfl (fun _ => by nofun) _ _

theorem blocked_status (data : ByteArray) :
    (blocked data).status (text "/nipc.log") = .ok (.file data) := by
  rw [Host.status, blocked_resolve]
  rfl

theorem blocked_append (data : ByteArray) (bytes : Bytes) :
    (blocked data).append (text "/nipc.log") bytes = blocked (data ++ ⟨bytes.toArray⟩) := by
  rw [Host.append, blocked_resolve]
  rfl

theorem blocked_remove (data : ByteArray) :
    (blocked data).remove (generation (text "/nipc.log") 1) = (.error .notEmpty, blocked data) := by
  have htext : generation (text "/nipc.log") 1 = slash :: text "nipc.log.1" := by
    show slot (text "/nipc.log") (0 + 1) = _
    rw [slot_digit (by decide)]
    decide
  have hresolve : (blocked data).files.resolve (blocked data).directory false
      (slash :: text "nipc.log.1") = .ok (.found 2 (some ⟨FileTree.root, text "nipc.log.1"⟩)) :=
    FileTree.resolve_root (text "nipc.log.1") ⟨by decide, by decide, by decide⟩
      ⟨by decide, by decide⟩ (by decide) rfl (fun _ => by nofun) _ _
  rw [htext, Host.remove, hresolve]
  rfl

/-- A record is appended to the log while that has room, and lost when it is full. -/
theorem blocked_writeRecord {o : LogOptions} (hfile : o.toFile = true)
    (hpath : o.path = text "/nipc.log") (hbackups : o.maxBackups = 1) (hthreshold : o.threshold ≠ 0)
    (data : ByteArray) (r : Record) :
    (writeRecord Host.shelf o r (blocked data)).2 =
      blocked (if o.threshold ≤ data.size then data else data ++ ⟨r.render.toArray⟩) := by
  have hexists : Host.shelf.pathExists o.path (blocked data) = .ok true := by
    show (blocked data).pathExists o.path = _
    rw [hpath, Host.pathExists, blocked_status]
  have hsize : Host.shelf.fileSize o.path (blocked data) = .ok data.size := by
    show (blocked data).fileSize o.path = _
    rw [hpath, Host.fileSize, blocked_status]
  rw [writeRecord, hfile, rotateIfFull]
  simp only [hthreshold, hexists, hsize]
  by_cases hfull : o.threshold ≤ data.size
  · have hremove : Host.shelf.remove (generation o.path 1) (blocked data) =
        (.error .notEmpty, blocked data) := by
      rw [hpath]
      exact blocked_remove data
    have hrotate : rotate Host.shelf o.path o.maxBackups (blocked data) =
        (.error (.remove (generation o.path 1) .notEmpty), blocked data) := by
      rw [hbackups, rotate, if_neg (by decide)]
      simp only [Int.toNat_one, hremove]
    simp only [hfull, hrotate, if_true]
    rfl
  · have happend : Host.shelf.append o.path r.render (blocked data) =
        blocked (data ++ ⟨r.render.toArray⟩) := by
      rw [hpath]
      exact blocked_append data r.render
    simp only [hfull, happend, if_false]
    rfl

/-- A debug record and an error record, each written when the next turn comes. -/
theorem machine_of_rounds (o : LogOptions) (h : Host) (early late : Bytes) :
    let round : Course := ⟨fun _ => [.close, .take, .write], fun _ => ⟨[], []⟩⟩
    let first : LogEntry := ⟨text "daemon", .debug, early⟩
    let second : LogEntry := ⟨text "daemon", .error, late⟩
    let steps : List Step := [.create 0 {}, .deliver 0 first, .deliver 0 second]
    (runBeside round [] (.new ⟨.debug, Writer.idle.start o⟩ h) steps).log.machine =
      (writeRecord Host.shelf o ⟨⟨[], []⟩, second.note⟩
        (writeRecord Host.shelf o ⟨⟨[], []⟩, first.note⟩ h).2).2 ∧
    (runBeside round [] (.new ⟨.error, Writer.idle.start o⟩ h) steps).log.machine =
      (writeRecord Host.shelf o ⟨⟨[], []⟩, second.note⟩ h).2 :=
  ⟨by cbv, by cbv⟩

/-- The log is one byte short of the size at which it is rotated. Of two records only
the first is written. -/
theorem record_lost {full : Bytes} (hlength : full.length = 1048575) (early late : Bytes) :
    let o : LogOptions :=
      { directory := text "/", maxFileSizeMb := 1, maxBackups := 1, toFile := true,
        toConsole := false }
    let round : Course := ⟨fun _ => [.close, .take, .write], fun _ => ⟨[], []⟩⟩
    let first : LogEntry := ⟨text "daemon", .debug, early⟩
    let second : LogEntry := ⟨text "daemon", .error, late⟩
    let ran (level : Level) :=
      runBeside round [] (.new ⟨level, Writer.idle.start o⟩ (blocked ⟨full.toArray⟩))
        [.create 0 {}, .deliver 0 first, .deliver 0 second]
    (ran .debug).log.machine.contents? o.path =
      some (full ++ (Record.mk ⟨[], []⟩ first.note).render) ∧
    (ran .error).log.machine.contents? o.path =
      some (full ++ (Record.mk ⟨[], []⟩ second.note).render) := by
  intro o round first second ran
  have hthreshold : o.threshold = 1048576 := by decide
  have hpath : o.path = text "/nipc.log" := by decide
  have hwrite := blocked_writeRecord (o := o) rfl hpath rfl (by rw [hthreshold]; decide)
  have hsize : (ByteArray.mk full.toArray).size = 1048575 := by
    rw [ByteArray.size, List.size_toArray, hlength]
  have hroom : ¬ o.threshold ≤ (ByteArray.mk full.toArray).size := by
    rw [hthreshold, hsize]
    decide
  have hfull (r : Record) (hr : r.render ≠ []) :
      o.threshold ≤ (ByteArray.mk full.toArray ++ ⟨r.render.toArray⟩ : ByteArray).size := by
    have hpos := List.length_pos_iff.mpr hr
    rw [hthreshold, ByteArray.size_append, hsize, ByteArray.size, List.size_toArray]
    omega
  have hcontents (r : Record) :
      (blocked (ByteArray.mk full.toArray ++ ⟨r.render.toArray⟩)).contents? (text "/nipc.log") =
        some (full ++ r.render) := by
    rw [Host.contents?, blocked_status]
    simp only [ByteArray.data_append, Array.toList_append]
  obtain ⟨hdebug, herror⟩ := machine_of_rounds o (blocked ⟨full.toArray⟩) early late
  rw [hwrite, hwrite, if_neg hroom, if_pos (hfull _ fun h => by cases h)] at hdebug
  rw [hwrite, if_neg hroom] at herror
  have hlow : (ran .debug).log.machine = _ := hdebug
  have hhigh : (ran .error).log.machine = _ := herror
  rw [hlow, hhigh, hpath, hcontents, hcontents]
  exact ⟨rfl, rfl⟩

/-- Three machines on which a level is noticed. The first has room for one descriptor
more than the program starts with. A socket is closed there, its debug record is
written at once, and the log file has the place that another socket was to have. On
the second the program connects to the log file. On the third the log is one byte
short of the size at which it is rotated, and it cannot be rotated. The debug record
is still written, and the error record, which is if there is no debug record, is not. -/
theorem level_noticed :
    let o : LogOptions :=
      { directory := text "/", maxFileSizeMb := 0, toFile := true, toConsole := false }
    let round : Course := ⟨fun _ => [.close, .take, .write], fun _ => ⟨[], []⟩⟩
    let debug : LogEntry := ⟨text "daemon", .debug, text "started"⟩
    let error : LogEntry := ⟨text "daemon", .error, text "failed"⟩
    let bare := Host.new .bare FileTree.root
    let scarce (level : Level) :=
      runBeside round [] (.new ⟨level, Writer.idle.start o⟩ { bare with limit := some 4 })
        [.happen .channelAppears, .create 0 {}, .adopt 0 (some 3), .connect 0 (text "@x")]
    let lone (level : Level) :=
      runBeside round [] (.new ⟨level, Writer.idle.start o⟩ bare)
        [.create 0 {}, .deliver 0 debug, .deliver 0 debug, .connect 0 (text "/nipc.log")]
    let rotated := { o with maxFileSizeMb := 1, maxBackups := 1 }
    let full : Bytes := List.replicate 1048575 120
    let stuck (level : Level) :=
      runBeside round [] (.new ⟨level, Writer.idle.start rotated⟩ (blocked ⟨full.toArray⟩))
        [.create 0 {}, .deliver 0 debug, .deliver 0 error]
    let failed (message : Bytes) : Option Answer :=
      some (.outcome (.failed ⟨.frameIo, text "connect", message⟩))
    ((scarce .debug).answers.getLast? =
        failed (text "socket(AF_UNIX) failed: Too many open files") ∧
      (scarce .error).answers.getLast? =
        failed (text "failed to connect @x: Connection refused")) ∧
    ((lone .debug).answers.getLast? =
        failed (text "failed to connect /nipc.log: Connection refused") ∧
      (lone .error).answers.getLast? =
        failed (text "failed to connect /nipc.log: No such file or directory")) ∧
    (stuck .debug).log.machine.contents? o.path =
      some (full ++ (Record.mk ⟨[], []⟩ debug.note).render) ∧
    (stuck .error).log.machine.contents? o.path =
      some (full ++ (Record.mk ⟨[], []⟩ error.note).render) :=
  ⟨⟨by cbv, by cbv⟩, ⟨by cbv, by cbv⟩,
    record_lost List.length_replicate (text "started") (text "failed")⟩

end Session

end DaemonLink
