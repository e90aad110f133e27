import DaemonLink.Log.Beside

/-!
# The log under several threads

Any number of threads log, one thread starts and stops the writer, and a worker
writes. They share the writer's state under a lock, so what can be seen between
two of their steps is what one section under the lock leaves behind, or the
worker's writing of one record, which is done without it. A run is a list of
such steps in any order in which each may be taken. Only two of them have to
wait: the thread that stops the writer waits for the worker to leave, and the
worker leaves only if records are accepted no more and none are left.

What holds in every order is that nothing is between the places of a record. It
goes from the back of the queue to its front, from there into the hands of the
worker, and from there to where it is written, and nobody passes another one.
So what has been written, what is held and what is queued are one list that
grows at its back. The options are changed only by a start, and no start falls
between the acceptance and the writing of a record: while the writer runs a
start does nothing, and when it does not, the thread that could start it waits
for the last record to be written.
-/

namespace DaemonLink

variable {φ : Type}

/-- A log that several threads use. -/
structure SharedLog (φ : Type) where
  logger : Logger
  /-- Whether the thread that stops the writer waits for the worker to leave. -/
  stopping : Bool
  files : φ

/-- What is printed on account of a record, and that a start prints none. -/
def LogEvent.Printed (shelf : Shelf φ) : LogEvent → Prop
  | started o shown => (∀ b, .record b ∉ shown) ∧ (o.toFile = false → shown = [])
  | accepted _ _ shown => shown = []
  | refused r shown => shown = [.record r.fallback]
  | written o r shown => ∃ files, shown = (writeRecord shelf o r files).1

namespace SharedLog

/-- A log that nobody has used. -/
def new (files : φ) : SharedLog φ := ⟨.new, false, files⟩

def writer (s : SharedLog φ) : Writer := s.logger.writer

def withWriter (s : SharedLog φ) (w : Writer) : SharedLog φ :=
  { s with logger := { s.logger with writer := w } }

@[simp] theorem writer_withWriter (s : SharedLog φ) (w : Writer) :
    (s.withWriter w).writer = w := rfl

def start (shelf : Shelf φ) (s : SharedLog φ) (o : LogOptions) : SharedLog φ :=
  ⟨(s.logger.start shelf o s.files).1, s.stopping, (s.logger.start shelf o s.files).2.2⟩

/-- What a call that stops the writer does before it waits. -/
def beginStop (s : SharedLog φ) : SharedLog φ :=
  if s.writer.running then { s.withWriter s.writer.clear with stopping := true } else s

def write (shelf : Shelf φ) (s : SharedLog φ) : SharedLog φ :=
  { s.withWriter (s.writer.writeHeld shelf s.files).1 with
    files := (s.writer.writeHeld shelf s.files).2.2 }

/-! ## Steps and runs -/

/-- One step of one of the threads. -/
inductive Step (shelf : Shelf φ) : SharedLog φ → List LogEvent → SharedLog φ → Prop
  | start {s} (o) (hfree : s.stopping = false) (hrunning : s.writer.running = false) :
      Step shelf s [.started o (s.logger.start shelf o s.files).2.1] (s.start shelf o)
  | startAgain {s} (o) (hfree : s.stopping = false) (hrunning : s.writer.running = true) :
      Step shelf s [] (s.start shelf o)
  | stop {s} (hfree : s.stopping = false) : Step shelf s [] s.beginStop
  | join {s} (hwaits : s.stopping = true) (hleft : s.writer.working = false) :
      Step shelf s [] { s with stopping := false }
  | setThreshold {s} (l : Level) :
      Step shelf s [] { s with logger := { s.logger with threshold := l } }
  | drop {s} (stamp note) (hlow : note.level.passes s.logger.threshold = false) :
      Step shelf s [] { s with logger := (s.logger.log stamp note).1 }
  | accept {s w} (stamp note) (hpasses : note.level.passes s.logger.threshold = true)
      (hpush : s.writer.push? ⟨stamp, note⟩ = some w) :
      Step shelf s [.accepted s.writer.options ⟨stamp, note⟩ (s.logger.log stamp note).2]
        { s with logger := (s.logger.log stamp note).1 }
  | refuse {s} (stamp note) (hpasses : note.level.passes s.logger.threshold = true)
      (hpush : s.writer.push? ⟨stamp, note⟩ = none) :
      Step shelf s [.refused ⟨stamp, note⟩ (s.logger.log stamp note).2]
        { s with logger := (s.logger.log stamp note).1 }
  | take {s} (hworks : s.writer.working = true) (hfree : s.writer.held = none)
      (hqueue : s.writer.queue ≠ []) : Step shelf s [] (s.withWriter s.writer.take)
  | write {s r} (hheld : s.writer.held = some r) :
      Step shelf s [.written s.writer.options r (s.writer.writeHeld shelf s.files).2.1]
        (s.write shelf)
  | leave {s} (hworks : s.writer.working = true) (hcleared : s.writer.running = false)
      (hfree : s.writer.held = none) (hqueue : s.writer.queue = []) :
      Step shelf s [] (s.withWriter s.writer.leave)

/-- Steps one after another, and what they did. -/
inductive Run (shelf : Shelf φ) (s : SharedLog φ) : List LogEvent → SharedLog φ → Prop
  | none : Run shelf s [] s
  | step {history t events u} :
      Run shelf s history t → Step shelf t events u → Run shelf s (history ++ events) u

/-- The options of the session that began last. -/
def session (history : List LogEvent) : Option LogOptions :=
  (history.filterMap LogEvent.started?).getLast?

/-- The records that have been accepted, in order, each with the options of the
session. -/
def accepted (history : List LogEvent) : List (LogOptions × Record) :=
  history.filterMap LogEvent.accepted?

/-- The records that have been written, in order, each with the options they
were written under. -/
def written (history : List LogEvent) : List (LogOptions × Record) :=
  history.filterMap LogEvent.written?

/-- The records on their way, in order, with the options they will be written
under. -/
def pending (s : SharedLog φ) : List (LogOptions × Record) :=
  s.writer.pending.map (s.writer.options, ·)

end SharedLog

/-! ## What the calls do -/

namespace Logger

variable {l : Logger} {stamp : Stamp} {note : Note}

theorem log_low (h : note.level.passes l.threshold = false) : l.log stamp note = (l, []) := by
  rw [log, h]
  rfl

theorem log_accepted {w : Writer} (h : note.level.passes l.threshold = true)
    (hpush : l.writer.push? ⟨stamp, note⟩ = some w) :
    l.log stamp note = ({ l with writer := w }, []) := by
  rw [log, h, if_pos rfl]
  simp only [hpush]

theorem log_refused (h : note.level.passes l.threshold = true)
    (hpush : l.writer.push? ⟨stamp, note⟩ = none) :
    l.log stamp note = (l, [.record (⟨stamp, note⟩ : Record).fallback]) := by
  rw [log, h, if_pos rfl]
  simp only [hpush]

theorem start_running (h : l.writer.running = true) (shelf : Shelf φ) (o : LogOptions)
    (files : φ) : l.start shelf o files = (l, [], files) := by
  rw [start, if_pos h]

theorem start_stopped (h : l.writer.running = false) (shelf : Shelf φ) (o : LogOptions)
    (files : φ) :
    (l.start shelf o files).1 = { l with writer := l.writer.start o } := by
  rw [start, if_neg (by rw [h]; decide)]
  simp only
  split
  · rfl
  · split <;> rfl

theorem start_shown (l : Logger) (shelf : Shelf φ) (o : LogOptions) (files : φ) (b : Bytes) :
    .record b ∉ (l.start shelf o files).2.1 := by
  rw [start]
  split
  · nofun
  · simp only
    split
    · nofun
    · split
      · nofun
      · simp

theorem start_unfiled {o : LogOptions} (h : o.toFile = false) (l : Logger) (shelf : Shelf φ)
    (files : φ) : (l.start shelf o files).2.1 = [] := by
  rw [start, h]
  split <;> rfl

theorem stop_stopped (h : l.writer.running = false) (shelf : Shelf φ) (files : φ) :
    l.stop shelf files = (l, [], files) := by
  rw [stop, Writer.stop, h]
  rfl

theorem stop_running (h : l.writer.running = true) (shelf : Shelf φ) (files : φ) :
    l.stop shelf files =
      let first := l.writer.clear.writeHeld shelf files
      let rest := first.1.rounds shelf first.1.queue.length first.2.2
      ({ l with writer := rest.1.leave }, first.2.1 ++ rest.2.1, rest.2.2) := by
  rw [stop, Writer.stop, h]
  rfl

end Logger

theorem writeRecord_silent (shelf : Shelf φ) {o : LogOptions} (h : o.toConsole = false)
    (r : Record) (files : φ) : (writeRecord shelf o r files).1 = [] := by
  rw [writeRecord, h]
  simp only [Bool.false_eq_true, if_false]
  split
  · rfl
  · split <;> rfl

theorem writeRecord_unfiled (shelf : Shelf φ) {o : LogOptions} (h : o.toFile = false)
    (r : Record) (files : φ) : (writeRecord shelf o r files).2 = files := by
  rw [writeRecord, h]
  rfl

namespace Writer

variable {w : Writer}

theorem eq_of_push? {r : Record} {w' : Writer} (h : w.push? r = some w') :
    w.running = true ∧ w' = { w with queue := w.queue ++ [r] } := by
  rw [push?] at h
  split at h
  · next hrunning => cases h; exact ⟨hrunning, rfl⟩
  · cases h

theorem take_cons (hworks : w.working = true) (hfree : w.held = none) {r : Record}
    {rest : List Record} (hqueue : w.queue = r :: rest) :
    w.take = { w with queue := rest, held := some r } := by
  rw [take, hfree, hqueue]
  simp only [hworks, if_true]

theorem writeHeld_some {r : Record} (hheld : w.held = some r) (shelf : Shelf φ) (files : φ) :
    w.writeHeld shelf files =
      ({ w with held := none }, writeRecord shelf w.options r files) := by
  rw [writeHeld, hheld]

theorem writeHeld_free (w : Writer) (shelf : Shelf φ) (files : φ) :
    (w.writeHeld shelf files).1 = { w with held := none } := by
  cases hheld : w.held with
  | none =>
      rw [writeHeld]
      simp only [hheld]
      rw [← hheld]
  | some r => rw [writeHeld_some hheld]

theorem rounds_cons (hworks : w.working = true) (hfree : w.held = none) {r : Record}
    {rest : List Record} (hqueue : w.queue = r :: rest) (n : Nat) (shelf : Shelf φ) (files : φ) :
    w.rounds shelf (n + 1) files =
      let out := writeRecord shelf w.options r files
      let more := rounds shelf n { w with queue := rest, held := none } out.2
      (more.1, out.1 ++ more.2.1, more.2.2) := by
  rw [rounds, take_cons hworks hfree hqueue, writeHeld_some rfl]

theorem leave_idle (hcleared : w.running = false) (hfree : w.held = none)
    (hqueue : w.queue = []) : w.leave = { w with working := false } := by
  rw [leave, hcleared, hfree, hqueue]
  rfl

end Writer

namespace SharedLog

variable {shelf : Shelf φ} {s t : SharedLog φ} {events history : List LogEvent}

/-! ## What a step can do

Of the calls only this is kept: what becomes of the writer, whether a stop is
under way, and what is printed on account of which record. -/

inductive Effect (shelf : Shelf φ) (w : Writer) : Bool → List LogEvent → Writer → Bool → Prop
  | nothing {stopping} : Effect shelf w stopping [] w stopping
  | started {o shown} (hidle : w.running = false)
      (hshown : (LogEvent.started o shown).Printed shelf) :
      Effect shelf w false [.started o shown]
        { w with running := true, working := true, options := o } false
  | cleared (hrunning : w.running = true) :
      Effect shelf w false [] { w with running := false } true
  | joined (hleft : w.working = false) : Effect shelf w true [] w false
  | accepted {stopping r} (hrunning : w.running = true) :
      Effect shelf w stopping [.accepted w.options r []] { w with queue := w.queue ++ [r] } stopping
  | refused {stopping r} : Effect shelf w stopping [.refused r [.record r.fallback]] w stopping
  | taken {stopping r rest} (hworks : w.working = true) (hfree : w.held = none)
      (hqueue : w.queue = r :: rest) :
      Effect shelf w stopping [] { w with queue := rest, held := some r } stopping
  | written {stopping r files} (hheld : w.held = some r) :
      Effect shelf w stopping [.written w.options r (writeRecord shelf w.options r files).1]
        { w with held := none } stopping
  | left {stopping} (hcleared : w.running = false) (hfree : w.held = none) (hqueue : w.queue = []) :
      Effect shelf w stopping [] { w with working := false } stopping

theorem start_running (h : s.writer.running = true) (shelf : Shelf φ) (o : LogOptions) :
    s.start shelf o = s := by
  rw [start, Logger.start_running h]

theorem writer_start (h : s.writer.running = false) (shelf : Shelf φ) (o : LogOptions) :
    (s.start shelf o).writer =
      { s.writer with running := true, working := true, options := o } := by
  have hwriter : s.writer.start o =
      { s.writer with running := true, working := true, options := o } := by
    rw [Writer.start, h]
    rfl
  rw [← hwriter, writer, start, Logger.start_stopped h]
  rfl

theorem beginStop_stopped (h : s.writer.running = false) : s.beginStop = s := by
  rw [beginStop, h]
  rfl

theorem beginStop_running (h : s.writer.running = true) :
    s.beginStop = { s.withWriter { s.writer with running := false } with stopping := true } := by
  rw [beginStop, if_pos h]
  rfl

theorem write_held {r : Record} (hheld : s.writer.held = some r) (shelf : Shelf φ) :
    s.write shelf =
      { s.withWriter { s.writer with held := none } with
        files := (writeRecord shelf s.writer.options r s.files).2 } := by
  rw [write, Writer.writeHeld_some hheld]

theorem effect_step (h : Step shelf s events t) :
    Effect shelf s.writer s.stopping events t.writer t.stopping := by
  cases h with
  | start o hfree hrunning =>
      rw [writer_start hrunning, start, hfree]
      exact .started hrunning
        ⟨s.logger.start_shown shelf o s.files, fun h => s.logger.start_unfiled h shelf s.files⟩
  | startAgain o hfree hrunning =>
      rw [start_running hrunning]
      exact .nothing
  | stop hfree =>
      cases hrunning : s.writer.running with
      | true =>
          rw [beginStop_running hrunning, hfree]
          exact .cleared hrunning
      | false =>
          rw [beginStop_stopped hrunning]
          exact .nothing
  | join hwaits hleft =>
      rw [hwaits]
      exact .joined hleft
  | setThreshold l => exact .nothing
  | drop stamp note hlow =>
      rw [Logger.log_low hlow]
      exact .nothing
  | accept stamp note hpasses hpush =>
      obtain ⟨hrunning, rfl⟩ := Writer.eq_of_push? hpush
      rw [Logger.log_accepted hpasses hpush]
      exact .accepted hrunning
  | refuse stamp note hpasses hpush =>
      rw [Logger.log_refused hpasses hpush]
      exact .refused
  | take hworks hfree hqueue =>
      obtain ⟨r, rest, hqueue⟩ := List.exists_cons_of_ne_nil hqueue
      rw [Writer.take_cons hworks hfree hqueue]
      exact .taken hworks hfree hqueue
  | write hheld =>
      rw [write_held hheld, Writer.writeHeld_some hheld]
      exact .written hheld
  | leave hworks hcleared hfree hqueue =>
      rw [Writer.leave_idle hcleared hfree hqueue]
      exact .left hcleared hfree hqueue

/-! ## Every order of steps -/

/-- Whoever could see the writer at rest sees it with nothing left to write. -/
structure Coherent (w : Writer) (stopping : Bool) : Prop where
  works : w.running = true → w.working = true
  done : w.working = false → w.queue = [] ∧ w.held = none
  cleared : stopping = true → w.running = false
  left : w.running = false → stopping = false → w.working = false

variable {w w' : Writer} {stopping stopping' : Bool}

theorem Coherent.at_rest (hw : Coherent w stopping) (hidle : w.running = false)
    (hfree : stopping = false) : w.queue = [] ∧ w.held = none :=
  hw.done (hw.left hidle hfree)

theorem effect_coherent (h : Effect shelf w stopping events w' stopping')
    (hw : Coherent w stopping) : Coherent w' stopping' := by
  have hbusy : ∀ {P : Prop}, w.working = true → w.working = false → P := by
    intro P hworks hleft
    rw [hworks] at hleft
    cases hleft
  cases h with
  | nothing | refused => exact hw
  | started hidle hshown => exact ⟨fun _ => rfl, nofun, nofun, nofun⟩
  | cleared hrunning => exact ⟨nofun, hw.done, fun _ => rfl, nofun⟩
  | joined hleft => exact ⟨hw.works, hw.done, nofun, fun _ _ => hleft⟩
  | accepted hrunning => exact ⟨hw.works, hbusy (hw.works hrunning), hw.cleared, hw.left⟩
  | taken hworks hfree hqueue => exact ⟨hw.works, hbusy hworks, hw.cleared, hw.left⟩
  | written hheld => exact ⟨hw.works, fun hleft => ⟨(hw.done hleft).1, rfl⟩, hw.cleared, hw.left⟩
  | left hcleared hfree hqueue =>
      refine ⟨fun hrunning => ?_, fun _ => ⟨hqueue, hfree⟩, hw.cleared, fun _ _ => rfl⟩
      rw [show w.running = true from hrunning] at hcleared
      cases hcleared

/-- What is written was at the front of what was on its way, and what is
accepted is at the back afterwards. -/
theorem effect_in_order (h : Effect shelf w stopping events w' stopping')
    (hw : Coherent w stopping) :
    written events ++ w'.pending.map (w'.options, ·) =
      w.pending.map (w.options, ·) ++ accepted events := by
  cases h with
  | nothing | joined | refused => exact (List.append_nil _).symm
  | @started o shown hidle hshown =>
      -- The options change here, and there is nothing left to be written under them.
      obtain ⟨hqueue, hheld⟩ := hw.at_rest hidle rfl
      have hnone : w.pending = [] := by rw [Writer.pending, hqueue, hheld]; rfl
      have hstart := w.pending_start o
      rw [Writer.start, hidle] at hstart
      have hstarted : ({ w with running := true, working := true, options := o } : Writer).pending =
          w.pending := hstart
      rw [hstarted, hnone]
      rfl
  | cleared hrunning =>
      have hcleared : ({ w with running := false } : Writer).pending = w.pending := w.pending_clear
      rw [hcleared]
      exact (List.append_nil _).symm
  | @accepted _ r hrunning =>
      have hpush : w.push? r = some { w with queue := w.queue ++ [r] } := if_pos hrunning
      rw [Writer.pending_push hpush, List.map_append]
      rfl
  | taken hworks hfree hqueue =>
      have htaken := w.pending_take
      rw [Writer.take_cons hworks hfree hqueue] at htaken
      rw [htaken]
      exact (List.append_nil _).symm
  | @written _ r files hheld =>
      have hfront : w.pending = r :: w.queue := by rw [Writer.pending, hheld]; rfl
      have hrest := w.pending_writeHeld shelf files
      rw [Writer.writeHeld_some hheld] at hrest
      rw [hrest, hfront]
      exact (List.append_nil _).symm
  | left hcleared hfree hqueue =>
      have hleft := w.pending_leave
      rw [Writer.leave_idle hcleared hfree hqueue] at hleft
      rw [hleft]
      exact (List.append_nil _).symm

/-- As long as records are accepted, the options are those of the last start. -/
theorem effect_session {before : List LogEvent} (h : Effect shelf w stopping events w' stopping')
    (hw : w.running = true → session before = some w.options) (hrunning : w'.running = true) :
    session (before ++ events) = some w'.options := by
  rw [session, List.filterMap_append]
  cases h with
  | started => exact List.getLast?_concat
  | cleared => cases hrunning
  | nothing | joined | accepted | refused | taken | written | left =>
      show (before.filterMap LogEvent.started? ++ []).getLast? = some w.options
      rw [List.append_nil]
      exact hw hrunning

theorem effect_printed (h : Effect shelf w stopping events w' stopping') :
    ∀ event ∈ events, event.Printed shelf := by
  intro event hevent
  cases h with
  | nothing | cleared | joined | taken | left => cases hevent
  | started hidle hshown =>
      rw [List.mem_singleton.mp hevent]
      exact hshown
  | accepted | refused =>
      rw [List.mem_singleton.mp hevent]
      rfl
  | written =>
      rw [List.mem_singleton.mp hevent]
      exact ⟨_, rfl⟩

theorem effect_accepts {o : LogOptions} {r : Record} {shown : List Output}
    (h : Effect shelf w stopping events w' stopping') (hevent : .accepted o r shown ∈ events) :
    events = [.accepted o r shown] ∧ w.running = true ∧ w.options = o := by
  cases h with
  | nothing | cleared | joined | taken | left => cases hevent
  | accepted hrunning =>
      cases List.mem_singleton.mp hevent
      exact ⟨rfl, hrunning, rfl⟩
  | started | refused | written => cases List.mem_singleton.mp hevent

theorem coherent_new (files : φ) : Coherent (new files).writer (new files).stopping :=
  ⟨nofun, fun _ => ⟨rfl, rfl⟩, nofun, fun _ _ => rfl⟩

theorem coherent_run (hs : Coherent s.writer s.stopping) (h : Run shelf s history t) :
    Coherent t.writer t.stopping := by
  induction h with
  | none => exact hs
  | step _ hstep ih => exact effect_coherent (effect_step hstep) ih

theorem pending_run (hs : Coherent s.writer s.stopping) (h : Run shelf s history t) :
    written history ++ t.pending = s.pending ++ accepted history := by
  induction h with
  | none => exact (List.append_nil _).symm
  | @step history t events u hrun hstep ih =>
      have hnext := effect_in_order (effect_step hstep) (coherent_run hs hrun)
      simp only [written, accepted, pending] at ih hnext ⊢
      rw [List.filterMap_append, List.filterMap_append, List.append_assoc, hnext,
        ← List.append_assoc, ih, List.append_assoc]

theorem printed_run (h : Run shelf s history t) : ∀ event ∈ history, event.Printed shelf := by
  induction h with
  | none => exact fun _ hevent => absurd hevent List.not_mem_nil
  | step _ hstep ih =>
      intro event hevent
      rcases List.mem_append.mp hevent with hevent | hevent
      · exact ih event hevent
      · exact effect_printed (effect_step hstep) event hevent

theorem session_run {files : φ} (h : Run shelf (new files) history s) :
    s.writer.running = true → session history = some s.writer.options := by
  induction h with
  | none => nofun
  | step _ hstep ih => exact effect_session (effect_step hstep) ih

/-- A record is accepted under the options of the last start before it. -/
theorem session_of_accepted {files : φ} (h : Run shelf (new files) history s) :
    ∀ {before after o r shown}, history = before ++ .accepted o r shown :: after →
      session before = some o := by
  induction h with
  | none =>
      intro before after o r shown hsplit
      exact absurd hsplit.symm (List.append_ne_nil_of_right_ne_nil _ (List.cons_ne_nil _ _))
  | @step history t events u hrun hstep ih =>
      intro before after o r shown hsplit
      have heffect := effect_step hstep
      -- The step that accepts does nothing else, so what is before it is what was done before.
      rcases List.append_eq_append_iff.mp hsplit with ⟨done, rfl, hevents⟩ | ⟨rest, rfl, hrest⟩
      · have hmem : .accepted o r shown ∈ events := by
          rw [hevents]
          exact List.mem_append_cons_self
        obtain ⟨halone, hrunning, rfl⟩ := effect_accepts heffect hmem
        obtain rfl : done = [] := by
          rw [halone] at hevents
          have hlength := congrArg List.length hevents
          rw [List.length_singleton, List.length_append, List.length_cons] at hlength
          exact List.eq_nil_of_length_eq_zero (by omega)
        rw [List.append_nil]
        exact session_run hrun hrunning
      · cases rest with
        | nil =>
            have hmem : .accepted o r shown ∈ events := by
              rw [← List.nil_append events, ← hrest]
              exact List.mem_cons_self
            obtain ⟨-, hrunning, rfl⟩ := effect_accepts heffect hmem
            rw [List.append_nil] at hrun
            exact session_run hrun hrunning
        | cons event rest =>
            obtain rfl := (List.cons.inj hrest).1
            exact ih rfl

/-! ## A stop that nobody else disturbs -/

theorem Run.trans {u : SharedLog φ} {later : List LogEvent} (h : Run shelf s history t)
    (hlater : Run shelf t later u) : Run shelf s (history ++ later) u := by
  induction hlater with
  | none => rwa [List.append_nil]
  | step _ hstep ih =>
      rw [← List.append_assoc]
      exact ih.step hstep

theorem write_run {r : Record} (hheld : s.writer.held = some r) (shelf : Shelf φ) :
    let out := writeRecord shelf s.writer.options r s.files
    Run shelf s [.written s.writer.options r out.1]
      { s.withWriter { s.writer with held := none } with files := out.2 } := by
  have hrun : Run shelf s _ _ := Run.none.step (.write hheld)
  rw [Writer.writeHeld_some hheld, write_held hheld] at hrun
  exact hrun

theorem held_run (s : SharedLog φ) (shelf : Shelf φ) :
    let out := s.writer.writeHeld shelf s.files
    ∃ history, Run shelf s history { s.withWriter out.1 with files := out.2.2 } ∧
      history.flatMap LogEvent.shown = out.2.1 := by
  cases hheld : s.writer.held with
  | none =>
      rw [Writer.writeHeld, hheld]
      exact ⟨[], .none, rfl⟩
  | some r => exact ⟨_, Run.none.step (.write hheld), List.append_nil _⟩

theorem round_run (hworks : s.writer.working = true) (hfree : s.writer.held = none) {r : Record}
    {rest : List Record} (hqueue : s.writer.queue = r :: rest) (shelf : Shelf φ) :
    let out := writeRecord shelf s.writer.options r s.files
    Run shelf s [.written s.writer.options r out.1]
      { s.withWriter { s.writer with queue := rest, held := none } with files := out.2 } := by
  have htake : Run shelf s [] (s.withWriter { s.writer with queue := rest, held := some r }) := by
    rw [← Writer.take_cons hworks hfree hqueue]
    exact Run.none.step (.take hworks hfree (by rw [hqueue]; nofun))
  exact htake.trans (write_run rfl shelf)

theorem rounds_run (shelf : Shelf φ) : ∀ (queue : List Record) (s : SharedLog φ),
    s.writer.queue = queue → s.writer.held = none → s.writer.working = true →
    let after := s.writer.rounds shelf queue.length s.files
    after.1 = { s.writer with queue := [], held := none } ∧
    ∃ history, Run shelf s history { s.withWriter after.1 with files := after.2.2 } ∧
      written history = queue.map (s.writer.options, ·) ∧
      history.flatMap LogEvent.shown = after.2.1 := by
  intro queue
  induction queue with
  | nil =>
      intro s hqueue hfree hworks
      refine ⟨?_, [], .none, rfl, rfl⟩
      show s.writer = _
      rw [← hqueue, ← hfree]
  | cons r rest ih =>
      intro s hqueue hfree hworks
      have hround := round_run hworks hfree hqueue shelf
      obtain ⟨hlast, history, hrun, hwritten, hshown⟩ := ih
        { s.withWriter { s.writer with queue := rest, held := none } with
          files := (writeRecord shelf s.writer.options r s.files).2 } rfl rfl hworks
      rw [List.length_cons, Writer.rounds_cons hworks hfree hqueue]
      refine ⟨hlast, _, hround.trans hrun, ?_, ?_⟩
      · show (s.writer.options, r) :: written history = _
        rw [hwritten]
        rfl
      · show (writeRecord shelf s.writer.options r s.files).1 ++ history.flatMap LogEvent.shown = _
        rw [hshown]
        rfl

theorem finish_run (hcleared : s.writer.running = false) (hworks : s.writer.working = true)
    (hwaits : s.stopping = true) (hfree : s.writer.held = none) (shelf : Shelf φ) :
    let after := s.writer.rounds shelf s.writer.queue.length s.files
    ∃ history, Run shelf s history ⟨{ s.logger with writer := after.1.leave }, false, after.2.2⟩ ∧
      history.flatMap LogEvent.shown = after.2.1 := by
  intro after
  obtain ⟨hlast, history, hrun, -, hshown⟩ := rounds_run shelf _ s rfl hfree hworks
  have hworking : after.1.working = true := by
    rw [hlast]
    exact hworks
  have hidle : after.1.running = false := by
    rw [hlast]
    exact hcleared
  have hnone : after.1.held = none := by rw [hlast]
  have hempty : after.1.queue = [] := by rw [hlast]
  have hleave := hrun.step (.leave hworking hidle hnone hempty)
  have hleft : after.1.leave.working = false := by rw [Writer.leave_idle hidle hnone hempty]
  have hjoin := hleave.step (.join hwaits hleft)
  rw [List.append_nil, List.append_nil] at hjoin
  exact ⟨history, hjoin, hshown⟩

/-- A stop that nobody else disturbs is a run: it returns, and prints what is
printed on the way. -/
theorem stop_run (hs : Coherent s.writer s.stopping) (hfree : s.stopping = false)
    (shelf : Shelf φ) :
    let after := s.logger.stop shelf s.files
    ∃ history, Run shelf s history ⟨after.1, false, after.2.2⟩ ∧
      history.flatMap LogEvent.shown = after.2.1 := by
  cases hrunning : s.writer.running with
  | false =>
      rw [Logger.stop_stopped hrunning, ← hfree]
      exact ⟨[], .none, rfl⟩
  | true =>
      have hbegin : Run shelf s [] s.beginStop := Run.none.step (.stop hfree)
      rw [beginStop_running hrunning] at hbegin
      obtain ⟨first, hfirst, hfirstShown⟩ := held_run
        { s.withWriter s.writer.clear with stopping := true } shelf
      have hwriter : (s.writer.clear.writeHeld shelf s.files).1 =
          { s.writer.clear with held := none } := Writer.writeHeld_free _ shelf s.files
      have hcleared : (s.writer.clear.writeHeld shelf s.files).1.running = false := by
        rw [hwriter]
        rfl
      have hworks : (s.writer.clear.writeHeld shelf s.files).1.working = true := by
        rw [hwriter]
        exact hs.works hrunning
      have hheld : (s.writer.clear.writeHeld shelf s.files).1.held = none := by rw [hwriter]
      obtain ⟨rest, hrest, hrestShown⟩ := finish_run
        (s := { s.withWriter (s.writer.clear.writeHeld shelf s.files).1 with
          stopping := true, files := (s.writer.clear.writeHeld shelf s.files).2.2 })
        hcleared hworks rfl hheld shelf
      rw [Logger.stop_running hrunning]
      refine ⟨first ++ rest, (hbegin.trans hfirst).trans hrest, ?_⟩
      rw [List.flatMap_append, hfirstShown, hrestShown]
      rfl

/-! ## After every run -/

/-- After every run, in whatever order the threads took their steps: what has
been written, then what the worker holds, then what is queued, are the records
that were accepted, in that order and with the options of the session that
accepted them. When no stop is under way and the writer does not run, all of
them have been written. A start of a running writer and a stop of one that does
not run do nothing. A record that is refused leaves the log as it is and is
printed once, as it is; one that is accepted is not. A session that shows
nothing on the console prints no record, and one that keeps no file either
prints nothing at all and leaves the files alone. -/
theorem records_written_in_order {files : φ} (h : Run shelf (new files) history s) :
    let w := s.writer
    written history ++ (w.held.toList ++ w.queue).map (w.options, ·) = accepted history ∧
    (∀ before o r shown after, history = before ++ .accepted o r shown :: after →
      session before = some o) ∧
    (s.stopping = false → w.running = false →
      written history = accepted history ∧ w.held = none ∧ w.queue = []) ∧
    (w.running = true → ∀ o, s.start shelf o = s ∧ (s.logger.start shelf o s.files).2.1 = []) ∧
    (w.running = false → s.beginStop = s ∧ s.logger.stop shelf s.files = (s.logger, [], s.files)) ∧
    (∀ stamp note, note.level.passes s.logger.threshold = true → w.push? ⟨stamp, note⟩ = none →
      s.logger.log stamp note = (s.logger, [.record (⟨stamp, note⟩ : Record).fallback])) ∧
    (∀ r shown, .refused r shown ∈ history → shown = [.record r.fallback]) ∧
    (∀ o r shown, .accepted o r shown ∈ history → shown = []) ∧
    (∀ o r shown, .written o r shown ∈ history → o.toConsole = false → shown = []) ∧
    (∀ o shown, .started o shown ∈ history →
      (∀ b, .record b ∉ shown) ∧ (o.toFile = false → shown = [])) ∧
    ∀ r, w.held = some r → w.options.toFile = false → (s.write shelf).files = s.files := by
  have hcoherent := coherent_run (coherent_new files) h
  have horder := pending_run (coherent_new files) h
  have hprinted := printed_run h
  have hnothing : (new files).pending = [] := rfl
  rw [hnothing, List.nil_append] at horder
  refine ⟨horder, ?_, ?_, ?_, ?_, ?_, ?_, ?_, ?_, ?_, ?_⟩
  · exact fun before o r shown after hsplit => session_of_accepted h hsplit
  · intro hfree hrunning
    obtain ⟨hqueue, hheld⟩ := hcoherent.at_rest hrunning hfree
    refine ⟨?_, hheld, hqueue⟩
    rw [← horder, pending, Writer.pending, hqueue, hheld]
    exact (List.append_nil _).symm
  · intro hrunning o
    exact ⟨start_running hrunning shelf o, by rw [Logger.start_running hrunning]⟩
  · intro hrunning
    exact ⟨beginStop_stopped hrunning, Logger.stop_stopped hrunning shelf s.files⟩
  · exact fun stamp note hpasses hpush => Logger.log_refused hpasses hpush
  · exact fun r shown hevent => hprinted _ hevent
  · exact fun o r shown hevent => hprinted _ hevent
  · intro o r shown hevent hsilent
    obtain ⟨files, hshown⟩ := hprinted _ hevent
    rw [hshown, writeRecord_silent shelf hsilent]
  · exact fun o shown hevent => hprinted _ hevent
  · intro r hheld hunfiled
    rw [write_held hheld]
    exact writeRecord_unfiled shelf hunfiled r s.files

/-- A stop that begins while the worker holds the first of two records, and a
third record that comes after it. -/
theorem records_written_in_order_stopped_midway :
    let record : UInt8 → Record := fun n => ⟨⟨[], []⟩, ⟨.info, [], none, [n]⟩⟩
    let host := Host.new .bare FileTree.root
    ∃ history s, Run Host.shelf (new host) history s ∧
      accepted history = [({}, record 1), ({}, record 2)] ∧
      history.flatMap LogEvent.shown = [.record (record 3).fallback,
        .record (consoleForm {} (record 1)), .record (consoleForm {} (record 2))] ∧
      s.stopping = false ∧ s.writer.running = false ∧ written history = accepted history := by
  intro record host
  let state (w : Writer) (stopping : Bool) : SharedLog Host := ⟨⟨.info, w⟩, stopping, host⟩
  have hnone : Run Host.shelf (new host) [] (state .idle false) := .none
  have haccepted : Run Host.shelf (new host) _
      (state ⟨true, true, {}, [record 1, record 2], none⟩ false) := hnone
    |>.step (.start {} rfl rfl)
    |>.step (.accept (record 1).stamp (record 1).note rfl rfl)
    |>.step (.accept (record 2).stamp (record 2).note rfl rfl)
  have hstopped : Run Host.shelf (new host) _
      (state ⟨false, true, {}, [record 2], some (record 1)⟩ true) := haccepted
    |>.step (.take rfl rfl (List.cons_ne_nil _ _))
    |>.step (.stop rfl)
    |>.step (.refuse (record 3).stamp (record 3).note rfl rfl)
  have hwritten : Run Host.shelf (new host) _
      (state ⟨false, true, {}, [], none⟩ true) := hstopped
    |>.step (.write rfl)
    |>.step (.take rfl rfl (List.cons_ne_nil _ _))
    |>.step (.write rfl)
  have hleft : Run Host.shelf (new host) _ (state ⟨false, false, {}, [], none⟩ false) := hwritten
    |>.step (.leave rfl rfl rfl rfl)
    |>.step (.join rfl rfl)
  exact ⟨_, _, hleft, rfl, rfl, rfl, rfl, ((records_written_in_order hleft).2.2.1 rfl rfl).1⟩

end SharedLog

end DaemonLink
