import DaemonLink.Log.Beside
import DaemonLink.Proofs.LogThreads

/-!
# What a turn does to the log

Between two things that the program does the worker may take, write and close, and in
one of them the program may tell a note. What has become of records meanwhile is given
as an account, and accounts of turns that follow one another make one account. No turn
changes the threshold, whether the writer runs, or its options, so what an account says
of them at the beginning holds to the end.
-/

namespace DaemonLink

open SharedLog (accepted written)

theorem Writer.take_keeps (w : Writer) :
    w.take.running = w.running ∧ w.take.working = w.working ∧ w.take.options = w.options := by
  rw [take]
  split
  · split <;> exact ⟨rfl, rfl, rfl⟩
  · exact ⟨rfl, rfl, rfl⟩

theorem Writer.leave_keeps (w : Writer) :
    w.leave.running = w.running ∧ (w.leave.working = true → w.working = true) ∧
      w.leave.options = w.options := by
  rw [leave]
  split
  · refine ⟨rfl, fun hworks => ?_, rfl⟩
    cases hworks
  · exact ⟨rfl, id, rfl⟩

namespace LiveLog

/-- A descriptor has gone to the log file, or could go there. -/
def KeepsFile (l : LiveLog) : Prop :=
  l.fileOpen = true ∨ l.writer.working = true ∧ l.writer.options.toFile = true

/-- The log set to a level. -/
def atLevel (level : Level) (l : LiveLog) : LiveLog :=
  { l with logger := { l.logger with threshold := level } }

/-- What has become of records between two moments in which notes were told. The log
has taken up a record of each note that passes. It has queued them all if the writer
was running, and otherwise it has printed them. What was written comes first, then
what is to be written, and both are what was to be written before and then what was
queued, in order. -/
structure Account (before : LiveLog) (notes : List Note) (after : LiveLog)
    (events : List LogEvent) : Prop where
  history : after.history = before.history ++ events
  taken : (events.filterMap LogEvent.taken?).map Record.note =
    notes.filter (·.level.passes before.logger.threshold)
  queued : before.writer.running = true →
    events.filterMap LogEvent.taken? = (accepted events).map Prod.snd
  printed : before.writer.running = false → accepted events = []
  order : written events ++ after.writer.pending.map (before.writer.options, ·) =
    before.writer.pending.map (before.writer.options, ·) ++ accepted events
  shown : ∀ event ∈ events, event.Printed Host.shelf

/-- What turns do to a log, with the notes that are told in them. -/
structure Turns (before : LiveLog) (notes : List Note) (after : LiveLog) :
    Prop where
  threshold : after.logger.threshold = before.logger.threshold
  running : after.writer.running = before.writer.running
  options : after.writer.options = before.writer.options
  keepsFile : after.KeepsFile → before.KeepsFile
  account : ∃ events, Account before notes after events

variable {l l' l'' : LiveLog} {notes notes' : List Note}

theorem Account.nothing (hhistory : l'.history = l.history)
    (hpending : l'.writer.pending = l.writer.pending) : Account l [] l' [] where
  history := by rw [hhistory, List.append_nil]
  taken := rfl
  queued _ := rfl
  printed _ := rfl
  order := by
    rw [hpending]
    exact (List.append_nil _).symm
  shown event hevent := by cases hevent

theorem Turns.none (hlogger : l'.logger = l.logger) (hfile : l'.fileOpen = true → l.fileOpen = true)
    (hhistory : l'.history = l.history) : Turns l [] l' where
  threshold := by rw [hlogger]
  running := by rw [writer, writer, hlogger]
  options := by rw [writer, writer, hlogger]
  keepsFile := by
    rw [KeepsFile, KeepsFile, writer, writer, hlogger]
    exact Or.imp_left hfile
  account := ⟨[], .nothing hhistory (by rw [writer, writer, hlogger])⟩

theorem Account.append {events events' : List LogEvent} (h : Account l notes l' events)
    (h' : Account l' notes' l'' events')
    (hthreshold : l'.logger.threshold = l.logger.threshold)
    (hrunning : l'.writer.running = l.writer.running)
    (hoptions : l'.writer.options = l.writer.options) :
    Account l (notes ++ notes') l'' (events ++ events') where
  history := by rw [h'.history, h.history, List.append_assoc]
  taken := by
    rw [List.filterMap_append, List.map_append, h.taken, h'.taken, hthreshold, List.filter_append]
  queued hrun := by
    have hlater : l'.writer.running = true := by rw [hrunning, hrun]
    rw [List.filterMap_append, h.queued hrun, h'.queued hlater, accepted, accepted, accepted,
      List.filterMap_append, List.map_append]
  printed hrun := by
    have hlater : l'.writer.running = false := by rw [hrunning, hrun]
    have hfirst := h.printed hrun
    have hsecond := h'.printed hlater
    rw [accepted] at hfirst hsecond ⊢
    rw [List.filterMap_append, hfirst, hsecond]
    rfl
  order := by
    have hfirst := h.order
    have hsecond := h'.order
    simp only [hoptions, written, accepted] at hfirst hsecond ⊢
    rw [List.filterMap_append, List.filterMap_append, List.append_assoc, hsecond,
      ← List.append_assoc, hfirst, List.append_assoc]
  shown event hevent := by
    rcases List.mem_append.mp hevent with hevent | hevent
    · exact h.shown event hevent
    · exact h'.shown event hevent

theorem Turns.trans (h : Turns l notes l') (h' : Turns l' notes' l'') :
    Turns l (notes ++ notes') l'' where
  threshold := by rw [h'.threshold, h.threshold]
  running := by rw [h'.running, h.running]
  options := by rw [h'.options, h.options]
  keepsFile hkeeps := h.keepsFile (h'.keepsFile hkeeps)
  account := by
    obtain ⟨events, haccount⟩ := h.account
    obtain ⟨events', haccount'⟩ := h'.account
    exact ⟨_, haccount.append haccount' h.threshold h.running h.options⟩

/-! ## The worker -/

/-- The worker moves records, and can leave, but does not write. -/
theorem Turns.withWriter {w : Writer} (hrunning : w.running = l.writer.running)
    (hoptions : w.options = l.writer.options)
    (hworking : w.working = true → l.writer.working = true)
    (hpending : w.pending = l.writer.pending) : Turns l [] (l.withWriter w) where
  threshold := rfl
  running := hrunning
  options := hoptions
  keepsFile hkeeps := by
    rcases hkeeps with hopen | ⟨hworks, hfile⟩
    · exact Or.inl hopen
    · have hfile' : w.options.toFile = true := hfile
      rw [hoptions] at hfile'
      exact Or.inr ⟨hworking hworks, hfile'⟩
  account := ⟨[], .nothing rfl hpending⟩

theorem turns_take (l : LiveLog) : Turns l [] (l.withWriter l.writer.take) := by
  obtain ⟨hrunning, hworking, hoptions⟩ := l.writer.take_keeps
  refine .withWriter hrunning hoptions (fun hworks => ?_) l.writer.pending_take
  rwa [hworking] at hworks

theorem turns_leave (l : LiveLog) : Turns l [] (l.withWriter l.writer.leave) := by
  obtain ⟨hrunning, hworking, hoptions⟩ := l.writer.leave_keeps
  exact .withWriter hrunning hoptions hworking l.writer.pending_leave

theorem write_held {r : Record} (hheld : l.writer.held = some r) :
    l.write =
      let out := writeRecord Host.shelf l.writer.options r l.machine
      { l.withWriter { l.writer with held := none } with
        fileOpen := l.opens
        machine := out.2
        history := l.history ++ [.written l.writer.options r out.1] } := by
  rw [write, hheld]
  simp only [Writer.writeHeld_some hheld]

theorem account_write {r : Record} (hheld : l.writer.held = some r) :
    Account l [] l.write
      [.written l.writer.options r (writeRecord Host.shelf l.writer.options r l.machine).1] where
  history := by rw [write_held hheld]
  taken := rfl
  queued _ := rfl
  printed _ := rfl
  order := by
    have hpending : l.writer.pending = r :: l.writer.queue := by
      rw [Writer.pending, hheld]
      rfl
    rw [hpending, write_held hheld]
    exact (List.append_nil _).symm
  shown event hevent := by
    rw [List.mem_singleton.mp hevent]
    exact ⟨_, rfl⟩

theorem turns_write (hworks : l.writer.working = true) : Turns l [] l.write := by
  cases hheld : l.writer.held with
  | none =>
      rw [write, hheld]
      exact .none rfl id rfl
  | some r =>
      have haccount := account_write hheld
      rw [write_held hheld] at haccount ⊢
      refine ⟨rfl, rfl, rfl, ?_, _, haccount⟩
      rintro (hopen | hkeeps)
      · have hfile : l.writer.options.toFile = true := by
          rw [opens, Bool.and_assoc, Bool.and_eq_true] at hopen
          exact hopen.1
        exact Or.inr ⟨hworks, hfile⟩
      · exact Or.inr hkeeps

theorem work_idle (hidle : l.writer.working = false) (sec : Section) :
    l.work sec = l := by
  simp only [work, hidle, Bool.false_eq_true, if_false]

theorem turns_work (l : LiveLog) (sec : Section) :
    Turns l [] (l.work sec) := by
  cases hworks : l.writer.working with
  | false =>
      rw [work_idle hworks]
      exact Turns.none rfl id rfl
  | true =>
      cases sec with
      | take =>
          simp only [work, hworks, if_true]
          split
          · exact Turns.none rfl id rfl
          · exact turns_take l
      | write =>
          simp only [work, hworks, if_true]
          split
          · exact Turns.none rfl id rfl
          · exact turns_write hworks
      | close =>
          simp only [work, hworks, if_true]
          exact Turns.none rfl nofun rfl
      | leave =>
          simp only [work, hworks, if_true]
          split
          · exact Turns.none rfl id rfl
          · exact turns_leave l

theorem turns_pass (course : Course) (l : LiveLog) :
    Turns l [] (l.pass course) := by
  suffices hsections : ∀ (secs : List Section) (l : LiveLog),
      Turns l [] (secs.foldl work l) by
    exact (hsections _ l).trans (Turns.none rfl id rfl)
  intro secs
  induction secs with
  | nil => exact fun l => Turns.none rfl id rfl
  | cons sec rest ih => exact fun l => (turns_work l sec).trans (ih _)

/-! ## The program -/

theorem tell_low {note : Note} (hlow : note.level.passes l.logger.threshold = false)
    (stamp : Stamp) : l.tell stamp note = l := by
  simp only [tell, Logger.log_low hlow, hlow, Bool.false_eq_true, if_false, List.append_nil]

theorem tell_accepted {stamp : Stamp} {note : Note} {w : Writer}
    (hpasses : note.level.passes l.logger.threshold = true)
    (hpush : l.writer.push? ⟨stamp, note⟩ = some w) :
    l.tell stamp note = { l.withWriter w with
      history := l.history ++ [.accepted l.writer.options ⟨stamp, note⟩ []] } := by
  obtain ⟨hrunning, -⟩ := Writer.eq_of_push? hpush
  simp only [tell, Logger.log_accepted hpasses hpush, hpasses, hrunning, if_true]
  rfl

theorem tell_refused {stamp : Stamp} {note : Note}
    (hpasses : note.level.passes l.logger.threshold = true)
    (hstopped : l.writer.running = false) :
    l.tell stamp note = { l with history :=
      l.history ++ [.refused ⟨stamp, note⟩ [.record (⟨stamp, note⟩ : Record).fallback]] } := by
  have hpush : l.logger.writer.push? ⟨stamp, note⟩ = none :=
    if_neg (by rw [← writer, hstopped]; decide)
  simp only [tell, Logger.log_refused hpasses hpush, hpasses, hstopped, Bool.false_eq_true,
    if_true, if_false]

theorem account_low {note : Note} (hlow : note.level.passes l.logger.threshold = false) :
    Account l [note] l [] where
  history := by rw [List.append_nil]
  taken := by
    rw [List.filter_cons_of_neg (by rw [hlow]; decide)]
    rfl
  queued _ := rfl
  printed _ := rfl
  order := (List.append_nil _).symm
  shown event hevent := by cases hevent

theorem account_accepted {stamp : Stamp} {note : Note} {w : Writer}
    (hpasses : note.level.passes l.logger.threshold = true)
    (hpush : l.writer.push? ⟨stamp, note⟩ = some w) :
    Account l [note] (l.tell stamp note) [.accepted l.writer.options ⟨stamp, note⟩ []] where
  history := by rw [tell_accepted hpasses hpush]
  taken := by
    simp only [List.filter_cons, hpasses, if_true, List.filter_nil]
    rfl
  queued _ := rfl
  printed hstopped := by
    rw [(Writer.eq_of_push? hpush).1] at hstopped
    cases hstopped
  order := by
    rw [tell_accepted hpasses hpush]
    show w.pending.map _ = _
    rw [Writer.pending_push hpush, List.map_append]
    rfl
  shown event hevent := by
    rw [List.mem_singleton.mp hevent]
    rfl

theorem account_refused {stamp : Stamp} {note : Note}
    (hpasses : note.level.passes l.logger.threshold = true)
    (hstopped : l.writer.running = false) :
    Account l [note] (l.tell stamp note)
      [.refused ⟨stamp, note⟩ [.record (⟨stamp, note⟩ : Record).fallback]] where
  history := by rw [tell_refused hpasses hstopped]
  taken := by
    simp only [List.filter_cons, hpasses, if_true, List.filter_nil]
    rfl
  queued hrunning := by
    rw [hstopped] at hrunning
    cases hrunning
  printed _ := rfl
  order := by
    rw [tell_refused hpasses hstopped]
    exact (List.append_nil _).symm
  shown event hevent := by
    rw [List.mem_singleton.mp hevent]
    rfl

theorem turns_tell (l : LiveLog) (stamp : Stamp) (note : Note) :
    Turns l [note] (l.tell stamp note) := by
  cases hpasses : note.level.passes l.logger.threshold with
  | false =>
      rw [tell_low hpasses]
      exact ⟨rfl, rfl, rfl, id, _, account_low hpasses⟩
  | true =>
      cases hrunning : l.writer.running with
      | true =>
          obtain ⟨w, hpush⟩ : ∃ w, l.writer.push? ⟨stamp, note⟩ = some w := ⟨_, if_pos hrunning⟩
          have haccount := account_accepted hpasses hpush
          obtain ⟨-, rfl⟩ := Writer.eq_of_push? hpush
          rw [tell_accepted hpasses hpush] at haccount ⊢
          exact ⟨rfl, rfl, rfl, id, _, haccount⟩
      | false =>
          have haccount : Account l [note] (l.tell stamp note) _ :=
            account_refused hpasses hrunning
          rw [tell_refused hpasses hrunning] at haccount ⊢
          exact ⟨rfl, rfl, rfl, id, _, haccount⟩

end LiveLog

end DaemonLink
