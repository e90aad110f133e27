import DaemonLink.Proofs.LogDirectory
import DaemonLink.Proofs.LogThreads

/-!
# The files of a log are an unbroken tail of it

Read from the oldest file to the log itself, the files are one text, and a
record is written at its end. When the log is full the record begins a file of
its own, and if that is one file too many the oldest goes. So imagine that no
file ever goes: then the files are laid out one after another, each record
whole in one of them, and what is really there is the end of this layout, as
many files as are kept.

Whether the log is full is a matter of its own size alone. So the layout can be
worked out from the files at the beginning and the records, without the shelf,
and a run of any number of sessions follows it record by record. The invariant
is how many files have gone.
-/

namespace DaemonLink

variable {φ : Type}

/-! ## The layout -/

/-- The files of a log, the oldest first, and apart from them the one that is
written to. -/
structure LogFiles where
  older : List Bytes
  current : Bytes

namespace LogFiles

def all (f : LogFiles) : List Bytes :=
  f.older ++ [f.current]

/-- A record is written to the last file, or begins a new one if that is full. -/
def lay (o : LogOptions) (f : LogFiles) (r : Record) : LogFiles :=
  if o.IsFull f.current.length then ⟨f.all, r.render⟩ else ⟨f.older, f.current ++ r.render⟩

def layAll (o : LogOptions) (f : LogFiles) (records : List Record) : LogFiles :=
  records.foldl (lay o) f

theorem lay_full {o : LogOptions} {f : LogFiles} (h : o.IsFull f.current.length) (r : Record) :
    f.lay o r = ⟨f.all, r.render⟩ := if_pos h

theorem lay_room {o : LogOptions} {f : LogFiles} (h : ¬ o.IsFull f.current.length) (r : Record) :
    f.lay o r = ⟨f.older, f.current ++ r.render⟩ := if_neg h

/-- The records are cut somewhere, and each part is whole in one file. -/
theorem layAll_all (o : LogOptions) (records : List Record) :
    ∀ f : LogFiles, ∃ (first : List Record) (more : List (List Record)),
      records = first ++ more.flatten ∧
      (f.layAll o records).all =
        f.older ++ (f.current ++ first.flatMap Record.render) ::
          more.map (·.flatMap Record.render) := by
  induction records with
  | nil => exact fun f => ⟨[], [], rfl, by rw [List.flatMap_nil, List.append_nil]; rfl⟩
  | cons r rest ih =>
      intro f
      obtain ⟨first, more, hrest, hall⟩ := ih (f.lay o r)
      by_cases hfull : o.IsFull f.current.length
      · refine ⟨[], (r :: first) :: more, by rw [hrest]; rfl, ?_⟩
        rw [lay_full hfull] at hall
        rw [layAll, List.foldl_cons, lay_full hfull, ← layAll, hall, all, List.append_assoc,
          List.flatMap_nil, List.append_nil]
        rfl
      · refine ⟨r :: first, more, by rw [hrest]; rfl, ?_⟩
        rw [lay_room hfull] at hall
        rw [layAll, List.foldl_cons, lay_room hfull, ← layAll, hall, List.flatMap_cons,
          List.append_assoc]

theorem lay_flatten (o : LogOptions) (f : LogFiles) (r : Record) :
    (f.lay o r).all.flatten = f.all.flatten ++ r.render := by
  by_cases hfull : o.IsFull f.current.length
  · rw [lay_full hfull, all, List.flatten_append, List.flatten_singleton]
  · rw [lay_room hfull]
    simp only [all, List.flatten_append, List.flatten_singleton, List.append_assoc]

/-- Nothing is written between the records, and nothing twice. -/
theorem layAll_flatten (o : LogOptions) (records : List Record) :
    ∀ f : LogFiles, (f.layAll o records).all.flatten =
      f.all.flatten ++ records.flatMap Record.render := by
  induction records with
  | nil => exact fun f => (List.append_nil _).symm
  | cons r rest ih =>
      intro f
      rw [layAll, List.foldl_cons, List.flatMap_cons, ← List.append_assoc, ← lay_flatten]
      exact ih (f.lay o r)

/-- What is there is the end of the layout: as many files as these have gone. -/
structure Ends (f laid : LogFiles) (gone : Nat) : Prop where
  older : f.older = laid.older.drop gone
  current : f.current = laid.current
  count : gone ≤ laid.older.length

theorem Ends.length {f laid : LogFiles} {gone : Nat} (h : f.Ends laid gone) :
    laid.older.length = gone + f.older.length := by
  rw [h.older, List.length_drop, Nat.add_sub_cancel' h.count]

theorem Ends.all {f laid : LogFiles} {gone : Nat} (h : f.Ends laid gone) :
    f.all = laid.all.drop gone := by
  rw [LogFiles.all, LogFiles.all, List.drop_append_of_le_length h.count, h.older, h.current]

/-- Where the number of files stays the same, as many have gone as are new. -/
theorem Ends.gone_eq {f before laid : LogFiles} {gone : Nat} (h : f.Ends laid gone)
    (hcount : f.older.length = before.older.length) {first : Bytes} {more : List Bytes}
    (hlaid : laid.all = before.older ++ first :: more) : gone = more.length := by
  have hlength := congrArg List.length hlaid
  simp only [LogFiles.all, List.length_append, List.length_cons, List.length_nil] at hlength
  have hkept := h.length
  omega

end LogFiles

/-- The files of a log as they are: the oldest of those kept behind it first, and
nothing where there is none. -/
def logFiles (read : φ → Bytes → Option Bytes) (o : LogOptions) (s : φ) : LogFiles where
  older := ((List.range o.maxBackups.toNat).map fun i =>
    (read s (slot o.path (i + 1))).getD []).reverse
  current := (read s o.path).getD []

theorem logFiles_older_length (read : φ → Bytes → Option Bytes) (o : LogOptions) (s : φ) :
    (logFiles read o s).older.length = o.maxBackups.toNat := by
  rw [logFiles, List.length_reverse, List.length_map, List.length_range]

theorem logFiles_all_drop (read : φ → Bytes → Option Bytes) (o : LogOptions) (s : φ) :
    (logFiles read o s).all.drop 1 =
      ((List.range o.maxBackups.toNat).map fun i => (read s (slot o.path i)).getD []).reverse := by
  have hall : (logFiles read o s).all = ((List.range (o.maxBackups.toNat + 1)).map fun i =>
      (read s (slot o.path i)).getD []).reverse := by
    rw [List.range_succ_eq_map, List.map_cons, List.reverse_cons, List.map_map]
    rfl
  rw [hall, List.range_succ, List.map_append, List.reverse_append]
  rfl

theorem logFiles_congr {read : φ → Bytes → Option Bytes} {o : LogOptions} {s s' : φ}
    (h : ∀ i ≤ o.maxBackups.toNat, read s' (slot o.path i) = read s (slot o.path i)) :
    logFiles read o s' = logFiles read o s := by
  have holder : ∀ i ∈ List.range o.maxBackups.toNat,
      (read s' (slot o.path (i + 1))).getD [] = (read s (slot o.path (i + 1))).getD [] :=
    fun i hi => by rw [h (i + 1) (List.mem_range.mp hi)]
  have hcurrent : read s' o.path = read s o.path := h 0 (Nat.zero_le _)
  rw [logFiles, logFiles, List.map_congr_left holder, hcurrent]

section Writing

variable {shelf : Shelf φ} {read : φ → Bytes → Option Bytes} {Watched : Bytes → Prop}
  {Ready : φ → Prop} {o : LogOptions}

theorem logFiles_write (hshelf : shelf.Reliable read Watched Ready) (hfile : o.toFile = true)
    (hwatched : ∀ i ≤ o.maxBackups.toNat, Watched (slot o.path i)) {s : φ} (hready : Ready s)
    (r : Record) {laid : LogFiles} {gone : Nat} (hends : (logFiles read o s).Ends laid gone) :
    let s' := (writeRecord shelf o r s).2
    Ready s' ∧ ∃ gone', (logFiles read o s').Ends (laid.lay o r) gone' := by
  intro s'
  obtain ⟨hready', hlog, hbehind⟩ := writeRecord_reliable hshelf hfile hready hwatched r
  have hcurrent : (read s o.path).getD [] = laid.current := hends.current
  rw [hcurrent] at hlog hbehind
  have hlog' : (logFiles read o s').current =
      (if o.IsFull laid.current.length then [] else laid.current) ++ r.render := by
    rw [logFiles, hlog, Option.getD_some]
  have holder : (logFiles read o s').older =
      ((List.range o.maxBackups.toNat).map fun i =>
        (read s (slot o.path (if o.IsFull laid.current.length then i else i + 1))).getD
          []).reverse := by
    rw [logFiles]
    simp only [List.reverse_inj]
    refine List.map_congr_left fun i hi => ?_
    rw [hbehind i (List.mem_range.mp hi)]
  refine ⟨hready', ?_⟩
  by_cases hfull : o.IsFull laid.current.length
  · simp only [hfull, if_true] at hlog' holder
    rw [LogFiles.lay_full hfull]
    refine ⟨gone + 1, ?_, hlog', ?_⟩
    · rw [holder, ← logFiles_all_drop, hends.all, List.drop_drop]
    · rw [LogFiles.all, List.length_append, List.length_singleton]
      exact Nat.succ_le_succ hends.count
  · simp only [hfull, if_false] at hlog' holder
    have hkept : (logFiles read o s').older = laid.older.drop gone := by
      rw [holder, ← hends.older]
      rfl
    rw [LogFiles.lay_room hfull]
    exact ⟨gone, hkept, hlog', hends.count⟩

/-! ## Runs -/

namespace SharedLog

/-- Either no session has begun, and the first one can, or the log is kept with
these options and its files are ready. -/
def Tended (shelf : Shelf φ) (read : φ → Bytes → Option Bytes) (Watched : Bytes → Prop)
    (Ready : φ → Prop) (o : LogOptions) (s : SharedLog φ) : Prop :=
  (shelf.Opens read Watched Ready o.directory s.files ∧ s.writer.running = false ∧
    s.writer.pending = []) ∨
  (Ready s.files ∧ s.writer.options = o)

variable {s t : SharedLog φ} {events history : List LogEvent}

theorem start_opened (h : s.writer.running = false) (hfile : o.toFile = true) {files : φ}
    (hmake : shelf.makeDirectories o.directory s.files = (.ok (), files)) :
    s.logger.start shelf o s.files =
      ({ s.logger with writer := s.writer.start o }, [], files) := by
  rw [Logger.start, if_neg (by rw [show s.logger.writer.running = false from h]; decide)]
  simp only [hfile, hmake]
  rfl

theorem Tended.ready (h : s.Tended shelf read Watched Ready o)
    (hbusy : s.writer.running = true ∨ s.writer.pending ≠ []) :
    Ready s.files ∧ s.writer.options = o := by
  rcases h with ⟨-, hrunning, hpending⟩ | h
  · rw [hrunning, hpending] at hbusy
    rcases hbusy with hbusy | hbusy
    · cases hbusy
    · exact absurd rfl hbusy
  · exact h

theorem Tended.ready_of_held (h : s.Tended shelf read Watched Ready o) {r : Record}
    (hheld : s.writer.held = some r) : Ready s.files ∧ s.writer.options = o := by
  refine h.ready (Or.inr ?_)
  rw [Writer.pending, hheld]
  exact List.cons_ne_nil _ _

theorem Tended.opens (h : s.Tended shelf read Watched Ready o)
    (hopens : ∀ {s}, Ready s → shelf.Opens read Watched Ready o.directory s) :
    shelf.Opens read Watched Ready o.directory s.files := by
  rcases h with ⟨h, -, -⟩ | ⟨hready, -⟩
  · exact h
  · exact hopens hready

/-- Every step leaves the log tended, and its files at the end of a layout to
which the step has added what it has written. -/
theorem tended_step (hshelf : shelf.Reliable read Watched Ready)
    (hopens : ∀ {s}, Ready s → shelf.Opens read Watched Ready o.directory s)
    (hfile : o.toFile = true) (hwatched : ∀ i ≤ o.maxBackups.toNat, Watched (slot o.path i))
    (hstep : Step shelf s events t) (hoptions : ∀ o' shown, .started o' shown ∈ events → o' = o)
    (hs : s.Tended shelf read Watched Ready o) {laid : LogFiles} {gone : Nat}
    (hends : (logFiles read o s.files).Ends laid gone) :
    t.Tended shelf read Watched Ready o ∧ ∃ gone', (logFiles read o t.files).Ends
      (laid.layAll o ((written events).map Prod.snd)) gone' := by
  cases hstep with
  | start o' hfree hrunning =>
      obtain rfl := hoptions o' _ List.mem_cons_self
      obtain ⟨files, hmake, hready, hread⟩ := hs.opens hopens
      have hfiles : (s.start shelf o').files = files := by
        rw [start, start_opened hrunning hfile hmake]
      have hsame : logFiles read o' files = logFiles read o' s.files :=
        logFiles_congr fun i hi => hread _ (hwatched i hi)
      have hoptions' : (s.start shelf o').writer.options = o' := by rw [writer_start hrunning]
      rw [← hfiles] at hready
      refine ⟨Or.inr ⟨hready, hoptions'⟩, gone, ?_⟩
      rw [hfiles, hsame]
      exact hends
  | startAgain o' hfree hrunning =>
      rw [start_running hrunning]
      exact ⟨hs, gone, hends⟩
  | stop hfree =>
      cases hrunning : s.writer.running with
      | false =>
          rw [beginStop_stopped hrunning]
          exact ⟨hs, gone, hends⟩
      | true =>
          rw [beginStop_running hrunning]
          exact ⟨Or.inr (hs.ready (Or.inl hrunning)), gone, hends⟩
  | join hwaits hleft => exact ⟨hs, gone, hends⟩
  | setThreshold l => exact ⟨hs, gone, hends⟩
  | drop stamp note hlow =>
      rw [Logger.log_low hlow]
      exact ⟨hs, gone, hends⟩
  | accept stamp note hpasses hpush =>
      obtain ⟨hrunning, rfl⟩ := Writer.eq_of_push? hpush
      rw [Logger.log_accepted hpasses hpush]
      exact ⟨Or.inr (hs.ready (Or.inl hrunning)), gone, hends⟩
  | refuse stamp note hpasses hpush =>
      rw [Logger.log_refused hpasses hpush]
      exact ⟨hs, gone, hends⟩
  | take hworks hfree hqueue =>
      obtain ⟨r, rest, hfront⟩ := List.exists_cons_of_ne_nil hqueue
      have hpending : s.writer.pending ≠ [] := List.append_ne_nil_of_right_ne_nil _ hqueue
      rw [Writer.take_cons hworks hfree hfront]
      exact ⟨Or.inr (hs.ready (Or.inr hpending)), gone, hends⟩
  | @write r hheld =>
      obtain ⟨hready, hcurrent⟩ := hs.ready_of_held hheld
      obtain ⟨hready', gone', hends'⟩ := logFiles_write hshelf hfile hwatched hready r hends
      rw [write_held hheld, hcurrent]
      exact ⟨Or.inr ⟨hready', hcurrent⟩, gone', hends'⟩
  | leave hworks hcleared hfree hqueue =>
      rw [Writer.leave_idle hcleared hfree hqueue]
      exact ⟨hs, gone, hends⟩

theorem tended_run (hshelf : shelf.Reliable read Watched Ready)
    (hopens : ∀ {s}, Ready s → shelf.Opens read Watched Ready o.directory s)
    (hfile : o.toFile = true) (hwatched : ∀ i ≤ o.maxBackups.toNat, Watched (slot o.path i))
    {files : φ} (hfirst : shelf.Opens read Watched Ready o.directory files)
    (hrun : Run shelf (new files) history s)
    (hoptions : ∀ o' shown, .started o' shown ∈ history → o' = o) :
    s.Tended shelf read Watched Ready o ∧ ∃ gone, (logFiles read o s.files).Ends
      ((logFiles read o files).layAll o ((written history).map Prod.snd)) gone := by
  induction hrun with
  | none => exact ⟨Or.inl ⟨hfirst, rfl, rfl⟩, 0, rfl, rfl, Nat.zero_le _⟩
  | step hrun hstep ih =>
      obtain ⟨hs, gone, hends⟩ :=
        ih fun o' shown hmem => hoptions o' shown (List.mem_append_left _ hmem)
      obtain ⟨ht, gone', hends'⟩ := tended_step hshelf hopens hfile hwatched hstep
        (fun o' shown hmem => hoptions o' shown (List.mem_append_right _ hmem)) hs hends
      refine ⟨ht, gone', ?_⟩
      rw [written, List.filterMap_append, List.map_append, LogFiles.layAll, List.foldl_append]
      exact hends'

/-- Between sessions every record that was accepted has been written. -/
theorem written_at_rest {files : φ} (hrun : Run shelf (new files) history s)
    (hfree : s.stopping = false) (hrunning : s.writer.running = false) :
    written history = accepted history := by
  obtain ⟨hqueue, hheld⟩ := (coherent_run (coherent_new files) hrun).at_rest hrunning hfree
  have hpending : s.pending = [] := by
    rw [pending, Writer.pending, hqueue, hheld]
    rfl
  have horder := pending_run (coherent_new files) hrun
  rwa [hpending, List.append_nil] at horder

/-- A session that has written one record. -/
theorem one_record_run (hfile : o.toFile = true) {r : Record}
    (hpasses : r.note.level.passes .info = true) {files : φ}
    (hmake : shelf.makeDirectories o.directory files = (.ok (), files)) :
    ∃ history s, Run shelf (new files) history s ∧ (written history).map Prod.snd = [r] ∧
      ∀ o' shown, .started o' shown ∈ history → o' = o := by
  let state (w : Writer) : SharedLog φ := ⟨⟨.info, w⟩, false, files⟩
  have hstarted : Run shelf (new files) [.started o []] (state ⟨true, true, o, [], none⟩) := by
    have hrun : Run shelf (new files) _ _ := Run.none.step (.start o rfl rfl)
    rw [start, start_opened rfl hfile hmake] at hrun
    exact hrun
  have haccepted : Run shelf (new files) [.started o [], .accepted o r []]
      (state ⟨true, true, o, [r], none⟩) := by
    have hrun := hstarted.step (.accept r.stamp r.note hpasses rfl)
    rw [Logger.log_accepted hpasses rfl] at hrun
    exact hrun
  have hheld : Run shelf (new files) _ (state ⟨true, true, o, [], some r⟩) :=
    haccepted.step (.take rfl rfl (List.cons_ne_nil _ _))
  refine ⟨_, _, hheld.step (.write rfl), rfl, ?_⟩
  intro o' shown hstart
  have hmem := List.mem_filterMap.mpr ⟨_, hstart, (rfl : LogEvent.started? _ = some o')⟩
  exact List.mem_singleton.mp hmem

/-- The files of a log, from the oldest that is kept to the log itself, are an
unbroken end of what they were before and the records written since. Imagine
that no file ever went: the records are cut somewhere, the first part goes behind
what was in the log, and each other part is a file of its own. What is really
there is the end of this layout, and what is missing in front of it are the
oldest files, whole. If no older files are kept the log is all there is. Between
sessions every record that was accepted is among those written. Before a record
the files are rotated if and only if the log is there and has the number of
mebibytes it is given, and that number is positive. -/
theorem log_files_keep_a_tail (hshelf : shelf.Reliable read Watched Ready)
    (hopens : ∀ {s}, Ready s → shelf.Opens read Watched Ready o.directory s)
    (hfile : o.toFile = true) (hwatched : ∀ i ≤ o.maxBackups.toNat, Watched (slot o.path i))
    {files : φ} (hfirst : shelf.Opens read Watched Ready o.directory files)
    (hrun : Run shelf (new files) history s)
    (hoptions : ∀ o' shown, .started o' shown ∈ history → o' = o) :
    let before := logFiles read o files
    let after := logFiles read o s.files
    let records := (written history).map Prod.snd
    (∃ (first : List Record) (more : List (List Record)), records = first ++ more.flatten ∧
      (before.layAll o records).all =
        before.older ++ (before.current ++ first.flatMap Record.render) ::
          more.map (·.flatMap Record.render) ∧
      after.all = (before.layAll o records).all.drop more.length) ∧
    after.all.flatten <:+ before.all.flatten ++ records.flatMap Record.render ∧
    (s.stopping = false → s.writer.running = false →
      records = (accepted history).map Prod.snd) ∧
    ∀ r, s.writer.held = some r → -2147483648 ≤ o.maxFileSizeMb → o.maxFileSizeMb ≤ 2147483647 →
      (o.maxFileSizeMb < 0 → after.current.length < 9223372036854775808) →
      let full := 1 ≤ o.maxFileSizeMb ∧ ∃ data, read s.files o.path = some data ∧
        o.maxFileSizeMb * 1048576 ≤ data.length
      (full → rotateIfFull shelf o s.files = rotate shelf o.path o.maxBackups s.files) ∧
        (¬ full → rotateIfFull shelf o s.files = (.ok (), s.files)) := by
  intro before after records
  obtain ⟨hs, gone, hends⟩ := tended_run hshelf hopens hfile hwatched hfirst hrun hoptions
  obtain ⟨first, more, hcut, hlaid⟩ := before.layAll_all o records
  have hcount : after.older.length = before.older.length := by
    rw [logFiles_older_length, logFiles_older_length]
  have hgone := hends.gone_eq hcount hlaid
  rw [List.length_map] at hgone
  subst hgone
  refine ⟨⟨first, more, hcut, hlaid, hends.all⟩, ?_, ?_, ?_⟩
  · rw [← before.layAll_flatten o, hends.all]
    refine ⟨((before.layAll o records).all.take more.length).flatten, ?_⟩
    rw [← List.flatten_append, List.take_append_drop]
  · intro hfree hrunning
    show (written history).map Prod.snd = _
    rw [written_at_rest hrun hfree hrunning]
  · intro r hheld hlow hhigh hsize full
    have hrotate :=
      rotateIfFull_reliable hshelf (hs.ready_of_held hheld).1 (hwatched 0 (Nat.zero_le _))
    have hfull := LogOptions.isFull_contents_iff hlow hhigh hsize
    constructor
    · intro h
      rw [hrotate, if_pos (hfull.mpr h)]
    · intro h
      rw [hrotate, if_neg (mt hfull.mp h)]

end SharedLog

end Writing

namespace SharedLog

/-- A log that has reached one mebibyte in the root directory of a machine, and a
record that is written to it. The log becomes the one older file that is kept. -/
theorem log_files_keep_a_tail_full_log :
    let o : LogOptions :=
      { directory := text "/", maxFileSizeMb := 1, maxBackups := 1, toFile := true,
        toConsole := false }
    let full : Bytes := List.replicate 1048576 120
    let host := Host.new ⟨#[.directory 0 [(text "nipc.log", 1)], .ofBytes full]⟩ 0
    let r : Record := ⟨⟨text "08:00", text "1"⟩, ⟨.info, text "Main", none, text "hello"⟩⟩
    ∃ history s, Run Host.shelf (new host) history s ∧
      (written history).map Prod.snd = [r] ∧
      (logFiles Host.contents? o host).all = [[], full] ∧
      (logFiles Host.contents? o s.files).all = [full, r.render] := by
  intro o full host r
  have hfull : o.IsFull full.length := by
    rw [List.length_replicate]
    decide
  -- the mebibyte is not to be computed with from here on
  clear_value full
  have hnamed : o.Named (text "/") (text "nipc.log") :=
    Host.named_root rfl rfl ⟨by decide, by decide, by decide⟩ (by decide) (by decide) (by decide)
      (by decide) (by decide)
  have hlog : host.HousesLog o (text "/") (text "nipc.log") 0 := by
    refine Host.housesLog_root rfl rfl rfl ?_ (by decide)
    intro entry hentry
    rw [List.mem_singleton.mp hentry]
    exact ⟨_, rfl⟩
  have hready : ∃ d, host.HousesLog o (text "/") (text "nipc.log") d := ⟨0, hlog⟩
  have hmake : Host.shelf.makeDirectories o.directory host = (.ok (), host) :=
    hlog.makeDirectories hnamed
  obtain ⟨history, s, hrun, hwritten, hoptions⟩ := one_record_run rfl (r := r) rfl hmake
  obtain ⟨⟨first, more, -, hlaid, hafter⟩, -⟩ :=
    log_files_keep_a_tail (Host.shelf_reliable hnamed) (Host.shelf_opens hnamed) rfl
      (fun i hi => ⟨i, hi, rfl⟩) (Host.shelf_opens hnamed hready) hrun hoptions
  have hdata : host.files.contents? 0 (text "nipc.log") = some full.toArray.toList :=
    FileTree.Houses.contents?_some (rfl : host.files.child? 0 _ = some 1) rfl
  have hcurrent : host.contents? o.path = some full := by
    rw [← slot_zero o.path, hlog.contents?_slot hnamed (Nat.zero_le _)]
    exact hdata
  have holder : host.contents? (slot o.path 1) = none := by
    rw [hlog.contents?_slot hnamed (i := 1) (by decide), slot_digit (by decide)]
    exact FileTree.Houses.contents?_none rfl
  have hbefore : logFiles Host.contents? o host = ⟨[[]], full⟩ := by
    show LogFiles.mk [(host.contents? (slot o.path 1)).getD []]
      ((host.contents? o.path).getD []) = _
    rw [hcurrent, holder]
    rfl
  rw [hwritten, hbefore] at hlaid hafter
  have hlay : (LogFiles.layAll o ⟨[[]], full⟩ [r]).all = [[], full, r.render] := by
    rw [LogFiles.layAll, List.foldl_cons, LogFiles.lay_full hfull]
    rfl
  rw [hlay] at hlaid hafter
  have hmore : more.length = 1 := by
    have hlength := congrArg List.length hlaid
    simp only [List.length_append, List.length_cons, List.length_map, List.length_nil] at hlength
    omega
  rw [hmore] at hafter
  exact ⟨history, s, hrun, hwritten, by rw [hbefore]; rfl, hafter⟩

end SharedLog

end DaemonLink
