import DaemonLink.Proofs.LogDirectory
import DaemonLink.Proofs.LogThreads

/-!
# A rotation that breaks off loses only the oldest file

Any of the changes that a rotation asks for can fail, and then it asks for no
other. What is left is told by the place that is empty: what stood below it has
its old name, and what stood above it has the next one. So every file but the
oldest is at a home of its own, and the homes leave one place over. Nothing is
in that place, unless not even the oldest file could be removed, and then it
still has it.

To see what is asked, the changes are written down as they are made, each with
the files that it found. Files that do so obey the same laws, with more in the
state that is ready: so far no change has failed, and no rename has found a file
at its target. The laws ask of a rename only what rotation grants, so that the
second is never given up is no new induction.

The writer needs no laws. It keeps the files that a rotation leaves, whatever
they are, and takes the next record.
-/

namespace DaemonLink

variable {φ : Type}

/-! ## Changes written down -/

/-- A change of files. -/
inductive Change
  | remove (path : Bytes)
  | rename (source target : Bytes)
  deriving DecidableEq, Repr

/-- A change that was asked for: the files it found, and the answer. -/
structure Asked (φ : Type) where
  before : φ
  change : Change
  answer : Except SystemError Unit

/-- If it is a rename, it found something at the source and nothing at the target. -/
def Asked.OntoFree (read : φ → Bytes → Option Bytes) (x : Asked φ) : Prop :=
  ∀ source target, x.change = .rename source target →
    (read x.before source).isSome ∧ read x.before target = none

/-- Files that write down the changes asked of them. -/
def Shelf.recorded (shelf : Shelf φ) : Shelf (φ × List (Asked φ)) where
  makeDirectories path s :=
    ((shelf.makeDirectories path s.1).1, (shelf.makeDirectories path s.1).2, s.2)
  pathExists path s := shelf.pathExists path s.1
  fileSize path s := shelf.fileSize path s.1
  remove path s :=
    ((shelf.remove path s.1).1, (shelf.remove path s.1).2,
      s.2 ++ [⟨s.1, .remove path, (shelf.remove path s.1).1⟩])
  rename source target s :=
    ((shelf.rename source target s.1).1, (shelf.rename source target s.1).2,
      s.2 ++ [⟨s.1, .rename source target, (shelf.rename source target s.1).1⟩])
  append path data s := (shelf.append path data s.1, s.2)

/-- Files on which changes fail as planned: for each remove and rename, in order,
the error it fails with. Behind the plan none fails. -/
def Shelf.failing (shelf : Shelf φ) : Shelf (φ × List (Option SystemError)) where
  makeDirectories path s :=
    ((shelf.makeDirectories path s.1).1, (shelf.makeDirectories path s.1).2, s.2)
  pathExists path s := shelf.pathExists path s.1
  fileSize path s := shelf.fileSize path s.1
  remove path s := planned (shelf.remove path) s
  rename source target s := planned (shelf.rename source target) s
  append path data s := (shelf.append path data s.1, s.2)
where
  planned (change : φ → Except SystemError Unit × φ) :
      φ × List (Option SystemError) → Except SystemError Unit × φ × List (Option SystemError)
    | (s, some e :: plan) => (.error e, s, plan)
    | (s, plan) => ((change s).1, (change s).2, plan.tail)

section Laws

variable {shelf : Shelf φ} {read : φ → Bytes → Option Bytes} {Watched : Bytes → Prop}
  {Ready Broken : φ → Prop} {path : Bytes}

theorem failing_remove (shelf : Shelf φ) {s s' : φ} (h : shelf.remove path s = (.ok (), s'))
    (plan : List (Option SystemError)) :
    shelf.failing.remove path (s, none :: plan) = (.ok (), s', plan) := by
  show ((shelf.remove path s).1, (shelf.remove path s).2, plan) = _
  rw [h]

theorem failing_rename (shelf : Shelf φ) {target : Bytes} {s s' : φ}
    (h : shelf.rename path target s = (.ok (), s')) (plan : List (Option SystemError)) :
    shelf.failing.rename path target (s, none :: plan) = (.ok (), s', plan) := by
  show ((shelf.rename path target s).1, (shelf.rename path target s).2, plan) = _
  rw [h]

theorem shiftUp_recorded (shelf : Shelf φ) (path : Bytes) (n : Nat) :
    ∀ s log, ∃ log', shiftUp shelf.recorded path n (s, log) =
      ((shiftUp shelf path n s).1, (shiftUp shelf path n s).2, log') := by
  induction n with
  | zero => exact fun s log => ⟨log, rfl⟩
  | succ n ih =>
      intro s log
      rw [shiftUp, shiftUp]
      simp only [Shelf.recorded]
      rcases hexists : shelf.pathExists (generation path (n + 1)) s with e | _ | _
      · exact ⟨log, rfl⟩
      · exact ih s log
      · rcases hrename : shelf.rename (generation path (n + 1)) (generation path (n + 2)) s with
          ⟨e | _, s₁⟩
        · exact ⟨_, rfl⟩
        · exact ih s₁ _

theorem rotate_recorded (shelf : Shelf φ) (path : Bytes) (backups : Int) (s : φ) :
    ∃ asked, rotate shelf.recorded path backups (s, []) =
      ((rotate shelf path backups s).1, (rotate shelf path backups s).2, asked) := by
  by_cases hnone : backups ≤ 0
  · rw [rotate_none hnone, rotate_none hnone]
    simp only [Shelf.recorded]
    rcases hremove : shelf.remove path s with ⟨e | _, s₁⟩ <;> exact ⟨_, rfl⟩
  · obtain ⟨n, hn⟩ : ∃ n : Nat, backups = n + 1 := ⟨backups.toNat - 1, by omega⟩
    rw [rotate_some hn, rotate_some hn]
    rcases hremove : shelf.remove (slot path (n + 1)) s with ⟨e | _, s₁⟩
    · simp only [Shelf.recorded, hremove]
      exact ⟨_, rfl⟩
    obtain ⟨log, hshift⟩ := shiftUp_recorded shelf path n s₁
      [⟨s, .remove (slot path (n + 1)), .ok ()⟩]
    rw [Shelf.recorded] at hshift ⊢
    simp only [hremove, List.nil_append, hshift]
    rcases shiftUp shelf path n s₁ with ⟨fault | _, s₂⟩
    · exact ⟨_, rfl⟩
    · rcases hrename : shelf.rename path (slot path 1) s₂ with ⟨e | _, s₃⟩ <;>
        exact ⟨_, by simp only [hrename]; rfl⟩

/-! ## The laws of what is written down -/

/-- A change is written down, and the state it leaves is judged with it. -/
theorem recorded_ends {result : Except SystemError Unit × φ} {D B : φ → Prop} {s : φ}
    {change : Change} {log : List (Asked φ)}
    (hends : EndsIn (fun t => Ready t ∧ D t) (fun t => Broken t ∧ B t) result)
    (hlog : ∀ x ∈ log, x.OntoFree read ∧ x.answer = .ok ())
    (honto : Asked.OntoFree read ⟨s, change, result.1⟩) :
    EndsIn
      (fun t : φ × List (Asked φ) =>
        (Ready t.1 ∧ ∀ x ∈ t.2, x.OntoFree read ∧ x.answer = .ok ()) ∧ D t.1)
      (fun t => (Broken t.1 ∧ (∀ x ∈ t.2, x.OntoFree read) ∧ ∃ x ∈ t.2, x.answer ≠ .ok ()) ∧ B t.1)
      (result.1, result.2, log ++ [⟨s, change, result.1⟩]) := by
  rcases result with ⟨e | _, s₁⟩
  · obtain ⟨hbroken, hread⟩ := hends
    refine ⟨⟨hbroken, ?_, ⟨s, change, .error e⟩,
      List.mem_append_right _ (List.mem_singleton_self _), nofun⟩, hread⟩
    intro x hx
    rcases List.mem_append.mp hx with hx | hx
    · exact (hlog x hx).1
    · rw [List.mem_singleton.mp hx]
      exact honto
  · obtain ⟨hready, hread⟩ := hends
    refine ⟨⟨hready, ?_⟩, hread⟩
    intro x hx
    rcases List.mem_append.mp hx with hx | hx
    · exact hlog x hx
    · rw [List.mem_singleton.mp hx]
      exact ⟨honto, rfl⟩

theorem recorded_allOrNothing (hshelf : shelf.AllOrNothing read Watched Ready Broken) :
    shelf.recorded.AllOrNothing (fun s => read s.1) Watched
      (fun s => Ready s.1 ∧ ∀ x ∈ s.2, x.OntoFree read ∧ x.answer = .ok ())
      (fun s => Broken s.1 ∧ (∀ x ∈ s.2, x.OntoFree read) ∧ ∃ x ∈ s.2, x.answer ≠ .ok ()) where
  pathExists h := hshelf.pathExists h.1
  fileSize h := hshelf.fileSize h.1
  remove h hp := recorded_ends (hshelf.remove h.1 hp) h.2 nofun
  rename := by
    rintro ⟨s, log⟩ p q ⟨hready, hlog⟩ hp hq hsource htarget
    refine recorded_ends (hshelf.rename hready hp hq hsource htarget) hlog ?_
    rintro _ _ ⟨⟩
    exact ⟨hsource, htarget⟩

theorem failing_ends {change : φ → Except SystemError Unit × φ} {D : φ → Prop} {s : φ}
    {plan : List (Option SystemError)} (hready : Ready s)
    (hdone : ∃ t, change s = (.ok (), t) ∧ Ready t ∧ D t) :
    EndsIn (fun t : φ × List (Option SystemError) => Ready t.1 ∧ D t.1)
      (fun t => Ready t.1 ∧ ∀ q, Watched q → read t.1 q = read s q)
      (Shelf.failing.planned change (s, plan)) := by
  obtain ⟨t, hchange, hdone⟩ := hdone
  match plan with
  | some e :: plan => exact ⟨hready, fun _ _ => rfl⟩
  | [] | none :: plan =>
      rw [Shelf.failing.planned, hchange]
      · exact hdone
      · nofun

/-- Files that never fail by themselves are all or nothing under every plan. -/
theorem failing_allOrNothing (hshelf : shelf.Reliable read Watched Ready) :
    shelf.failing.AllOrNothing (fun s => read s.1) Watched (fun s => Ready s.1)
      (fun s => Ready s.1) where
  pathExists h := hshelf.pathExists h
  fileSize h := hshelf.fileSize h
  remove h hp := failing_ends h (hshelf.remove h hp)
  rename h hp hq hsource htarget := failing_ends h (hshelf.rename h hp hq hsource htarget)

/-! ## Where the files are -/

/-- Each file but the last is there, whole, under one name, and that is its own
name or the next. Nothing has come to any other place. -/
structure EachKept (read : φ → Bytes → Option Bytes) (path : Bytes) (last : Nat) (s s' : φ)
    (home : Nat → Nat) : Prop where
  near : ∀ i, home i = i ∨ home i = i + 1
  apart : ∀ i j, home i = home j → i = j
  whole : ∀ i < last, read s' (slot path (home i)) = read s (slot path i)
  alone : ∀ j ≤ last, (∀ i < last, home i ≠ j) →
    read s' (slot path j) = none ∨ j = last ∧ read s' (slot path j) = read s (slot path j)

variable {last free : Nat} {s s' : φ}

theorem eachKept_unchanged (hwatched : ∀ i ≤ last, Watched (slot path i))
    (hread : ∀ q, Watched q → read s' q = read s q) : EachKept read path last s s' id where
  near _ := Or.inl rfl
  apart _ _ h := h
  whole i hi := hread _ (hwatched i (Nat.le_of_lt hi))
  alone j hj hnobody := by
    rcases Nat.lt_or_eq_of_le hj with hlt | hlast
    · exact absurd rfl (hnobody j hlt)
    · exact Or.inr ⟨hlast, hread _ (hwatched j hj)⟩

theorem MovedUp.eachKept (h : MovedUp read Watched path last free s s')
    (hwatched : ∀ i ≤ last, Watched (slot path i)) :
    EachKept read path last s s' fun i => if i < free then i else i + 1 where
  near i := by
    by_cases hi : i < free
    · exact Or.inl (if_pos hi)
    · exact Or.inr (if_neg hi)
  apart i j hij := by
    split at hij <;> split at hij <;> omega
  whole i hi := by
    by_cases hbelow : i < free
    · rw [if_pos hbelow, h.below hbelow (hwatched i (Nat.le_of_lt hi))]
    · rw [if_neg hbelow, h.moved i (Nat.le_of_not_lt hbelow) hi]
  alone j hj hnobody := by
    have hbound := h.bound
    have hempty : j = free := by
      rcases Nat.lt_trichotomy j free with hlt | heq | hgt
      · exact absurd (if_pos hlt) (hnobody j (by omega))
      · exact heq
      · refine absurd ?_ (hnobody (j - 1) (by omega))
        rw [if_neg (by omega)]
        omega
    rw [hempty]
    exact Or.inl h.empty

theorem MovedUp.of_recorded {α : Type} {s t : φ × α}
    (h : MovedUp (fun u : φ × α => read u.1) Watched path last free s t) :
    MovedUp read Watched path last free s.1 t.1 :=
  ⟨h.bound, h.empty, h.moved, h.others⟩

/-- What a rotation leaves: that it succeeded or broke off is what the changes it
asked for did, no rename was asked for onto a file, and everything has moved or
everything is kept. -/
structure Rotated (read : φ → Bytes → Option Bytes) (Watched : Bytes → Prop) (path : Bytes)
    (backups : Int) (s : φ) (answer : Except FileFault Unit) (s' : φ)
    (asked : List (Asked φ)) : Prop where
  answered : answer = .ok () ↔ ∀ x ∈ asked, x.answer = .ok ()
  ontoFree : ∀ x ∈ asked, x.OntoFree read
  moved : answer = .ok () → read s' path = none ∧
    ∀ i < backups.toNat, read s' (slot path (i + 1)) = read s (slot path i)
  kept : answer ≠ .ok () → ∃ home, EachKept read path backups.toNat s s' home
  alone : answer ≠ .ok () → backups ≤ 0 → read s' path = read s path
  others : ∀ q, Watched q → (∀ i ≤ backups.toNat, q ≠ slot path i) → read s' q = read s q

theorem rotate_rotated (hshelf : shelf.AllOrNothing read Watched Ready Ready) {backups : Int}
    {s : φ} (hready : Ready s) (hwatched : ∀ i ≤ backups.toNat, Watched (slot path i))
    (hlog : (read s path).isSome) :
    ∃ answer s' asked, rotate shelf path backups s = (answer, s') ∧
      rotate shelf.recorded path backups (s, []) = (answer, s', asked) ∧ Ready s' ∧
      Rotated read Watched path backups s answer s' asked := by
  have hends : EndsIn _ _ (rotate shelf.recorded path backups (s, [])) :=
    rotate_ends (recorded_allOrNothing hshelf) ⟨hready, nofun⟩ hwatched hlog
  obtain ⟨asked, hrecorded⟩ := rotate_recorded shelf path backups s
  rcases hrotate : rotate shelf path backups s with ⟨fault | _, s'⟩
  · rw [hrotate] at hrecorded
    rw [hrecorded] at hends
    obtain ⟨⟨hready', honto, x, hx, hfailed⟩, hplaces⟩ := hends
    have hkept : ∃ home, EachKept read path backups.toNat s s' home := by
      rcases hplaces with hsame | ⟨free, -, hmoved⟩
      · exact ⟨id, eachKept_unchanged hwatched hsame⟩
      · exact ⟨_, hmoved.of_recorded.eachKept hwatched⟩
    refine ⟨_, s', asked, rfl, hrecorded, hready', ⟨?_, honto, ?_, fun _ => hkept, ?_, ?_⟩⟩
    · refine iff_of_false (fun hok => by cases hok) ?_
      exact fun hall => hfailed (hall x hx)
    · intro hok
      cases hok
    · intro _ hnone
      rcases hplaces with hsame | ⟨free, hpos, hmoved⟩
      · exact hsame path (hwatched 0 (Nat.zero_le _))
      · have hbound := hmoved.bound
        omega
    · intro q hq hne
      rcases hplaces with hsame | ⟨free, -, hmoved⟩
      · exact hsame q hq
      · exact hmoved.others q hq fun i _ => hne i
  · rw [hrotate] at hrecorded
    rw [hrecorded] at hends
    obtain ⟨⟨hready', hasked⟩, hmoved⟩ := hends
    refine ⟨_, s', asked, rfl, hrecorded, hready', ⟨?_, ?_, ?_, ?_, ?_, ?_⟩⟩
    · exact iff_of_true rfl fun x hx => (hasked x hx).2
    · exact fun x hx => (hasked x hx).1
    · exact fun _ => ⟨hmoved.empty, fun i => hmoved.moved i (Nat.zero_le _)⟩
    · exact fun hfailed => absurd rfl hfailed
    · exact fun hfailed => absurd rfl hfailed
    · exact fun q hq hne => hmoved.others q hq fun i _ => hne i

/-! ## The writer goes on -/

theorem writeRecord_broken {o : LogOptions} (hfile : o.toFile = true) {fault : FileFault}
    (hrotate : rotateIfFull shelf o s = (.error fault, s')) (r : Record) :
    writeRecord shelf o r s =
      (if o.toConsole then [.record (consoleForm o r), .notice (writeErrorNotice fault)] else [],
        s') := by
  rw [writeRecord, hfile]
  simp only [hrotate, Bool.not_true, Bool.false_eq_true, if_false]
  split <;> rfl

end Laws

namespace SharedLog

variable {shelf : Shelf φ} {read : φ → Bytes → Option Bytes} {Watched : Bytes → Prop}
  {Ready : φ → Prop}

/-- A rotation succeeds if and only if no change it asks for fails, and it never
renames a file onto another. If it succeeds the log is gone, and each file but the
last is at the next number, as is each gap. If it breaks off each of these files
is there under its own name or the next, and only there; where no older files are
kept, the log is as it was. No other file changes in either case. A writer for
which a rotation breaks off leaves the files as they are then, without the record,
reports the failure where it shows the record, and writes what is in its queue. -/
theorem rotation_keeps_each_file (hshelf : shelf.AllOrNothing read Watched Ready Ready) :
    (∀ (path : Bytes) (backups : Int) (s : φ), Ready s →
      (∀ i ≤ backups.toNat, Watched (slot path i)) → (read s path).isSome →
      ∃ answer s' asked, rotate shelf path backups s = (answer, s') ∧
        rotate shelf.recorded path backups (s, []) = (answer, s', asked) ∧ Ready s' ∧
        Rotated read Watched path backups s answer s' asked) ∧
    ∀ (t : SharedLog φ) (r : Record) (fault : FileFault) (files : φ),
      t.writer.working = true → t.writer.held = some r → Ready t.files →
      let o := t.writer.options
      o.toFile = true → Watched o.path → o.IsFull ((read t.files o.path).getD []).length →
      rotate shelf o.path o.maxBackups t.files = (.error fault, files) →
      ∃ t' later u,
        Step shelf t [.written o r (if o.toConsole then
          [.record (consoleForm o r), .notice (writeErrorNotice fault)] else [])] t' ∧
        t'.files = files ∧ t'.writer = { t.writer with held := none } ∧
        Run shelf t' later u ∧ written later = t.writer.queue.map (o, ·) ∧
        u.writer = { t.writer with held := none, queue := [] } := by
  refine ⟨fun path backups s => rotate_rotated hshelf, ?_⟩
  intro t r fault files hworks hheld hready o hfile hpath hfull hrotate
  have hbroken : rotateIfFull shelf o t.files = (.error fault, files) := by
    rw [rotateIfFull_eq hshelf hready hpath, if_pos hfull, hrotate]
  have hrecord := writeRecord_broken hfile hbroken r
  have hwrite := write_held hheld shelf
  have hstep : Step shelf t _ _ := .write hheld
  rw [Writer.writeHeld_some hheld, hrecord] at hstep
  rw [hwrite, hrecord] at hstep
  obtain ⟨hlast, later, hrun, hwritten, -⟩ := rounds_run shelf t.writer.queue
    { t.withWriter { t.writer with held := none } with files := files } rfl rfl hworks
  exact ⟨_, later, _, hstep, rfl, rfl, hrun, hwritten, hlast⟩

/-- A full log with one older file, a gap behind that, and a file that has nothing to
do with the two that are kept. The last of the three changes fails. -/
theorem rotation_keeps_each_file_last_change_fails :
    let o : LogOptions :=
      { directory := text "/", maxFileSizeMb := 1, maxBackups := 2, toFile := true }
    let full : Bytes := List.replicate 1048576 120
    let host := Host.new ⟨#[.directory 0 [(text "nipc.log", 1), (text "nipc.log.1", 2),
      (text "nipc.log.3", 3)], .ofBytes full, .ofBytes (text "older"), .ofBytes (text "other")]⟩ 0
    let record : UInt8 → Record := fun n => ⟨⟨[], []⟩, ⟨.info, [], none, [n]⟩⟩
    let plan := [none, none, some .noDevice]
    let t : SharedLog (Host × List (Option SystemError)) :=
      ⟨⟨.info, ⟨true, true, o, [record 2], some (record 1)⟩⟩, false, host, plan⟩
    let fault := FileFault.rename o.path (slot o.path 1) .noDevice
    ∃ files asked t' later u,
      rotate Host.shelf.failing.recorded o.path 2 (t.files, []) = (.error fault, files, asked) ∧
      Rotated (fun s => s.1.contents?) (fun p => ∃ i ≤ 3, p = slot o.path i) o.path 2 t.files
        (.error fault) files asked ∧
      Step Host.shelf.failing t [.written o (record 1)
        [.record (consoleForm o (record 1)), .notice (writeErrorNotice fault)]] t' ∧
      t'.files = files ∧ Run Host.shelf.failing t' later u ∧ written later = [(o, record 2)] ∧
      (List.range 4).map (fun i => files.1.contents? (slot o.path i)) =
        [some full, none, some (text "older"), some (text "other")] := by
  intro o full host record plan t fault
  have hfull : o.IsFull full.length := by
    rw [List.length_replicate]
    decide
  -- the mebibyte is not to be computed with from here on
  clear_value full
  let watched : LogOptions := { o with maxBackups := 3 }
  have hnamed : watched.Named (text "/") (text "nipc.log") :=
    Host.named_root rfl rfl ⟨by decide, by decide, by decide⟩ (by decide) (by decide) (by decide)
      (by decide) (by decide)
  have hlog : host.HousesLog watched (text "/") (text "nipc.log") 0 := by
    refine Host.housesLog_root rfl rfl rfl ?_ (by decide)
    intro entry hentry
    simp only [List.mem_cons, List.not_mem_nil, or_false] at hentry
    rcases hentry with rfl | rfl | rfl <;> exact ⟨_, rfl⟩
  have hzeroth : host.contents? o.path = some full :=
    (hlog.contents?_slot hnamed (i := 0) (by decide)).trans
      (FileTree.Houses.contents?_some (rfl : host.files.child? 0 _ = some 1) rfl)
  have hfirst : host.contents? (slot o.path 1) = some (text "older") := by
    refine (hlog.contents?_slot hnamed (i := 1) (by decide)).trans ?_
    rw [slot_digit (by decide)]
    exact FileTree.Houses.contents?_some (rfl : host.files.child? 0 _ = some 2) rfl
  have hthird : host.contents? (slot o.path 3) = some (text "other") := by
    refine (hlog.contents?_slot hnamed (i := 3) (by decide)).trans ?_
    rw [slot_digit (by decide)]
    exact FileTree.Houses.contents?_some (rfl : host.files.child? 0 _ = some 3) rfl
  have hsame : watched.path = o.path := rfl
  have hshelf := failing_allOrNothing (Host.shelf_reliable hnamed)
  rw [hsame] at hshelf
  -- the two changes that do not fail
  obtain ⟨h₁, hremove, hlog₁, hread₁⟩ := hlog.remove hnamed (i := 2) (by decide)
  rw [hsame] at hremove hread₁
  have hfirst₁ : h₁.contents? (slot o.path 1) = some (text "older") := by
    rw [hread₁ _ ⟨1, by decide, rfl⟩, if_neg (slot_ne (by decide)), hfirst]
  have hsecond₁ : h₁.contents? (slot o.path 2) = none := by
    rw [hread₁ _ ⟨2, by decide, rfl⟩, if_pos rfl]
  obtain ⟨h₂, hrename, -, hread₂⟩ := hlog₁.rename hnamed (i := 1) (j := 2) (by decide) (by decide)
    (by rw [hsame, hfirst₁]; rfl) hsecond₁
  rw [hsame] at hrename hread₂
  have hexists : Host.shelf.failing.pathExists (slot o.path 1) (h₁, [none, some .noDevice]) =
      .ok true := by
    rw [hshelf.pathExists (s := (h₁, _)) ⟨0, hlog₁⟩ ⟨1, by decide, rfl⟩, hfirst₁]
    rfl
  have hrotate : rotate Host.shelf.failing o.path 2 (host, plan) = (.error fault, h₂, []) := by
    have htwo : (2 : Int) = (1 : Nat) + 1 := rfl
    rw [htwo, rotate_some rfl, failing_remove Host.shelf hremove]
    simp only [shiftUp_present hexists, Nat.zero_add, failing_rename Host.shelf hrename]
    rfl
  have hfull' : o.IsFull ((host.contents? o.path).getD []).length := by
    rw [hzeroth]
    exact hfull
  obtain ⟨hrotations, hwriter⟩ := rotation_keeps_each_file hshelf
  obtain ⟨answer, files, asked, hanswer, hrecorded, -, hrotated⟩ :=
    hrotations o.path 2 (host, plan) ⟨0, hlog⟩ (fun i hi => ⟨i, Nat.le_succ_of_le hi, rfl⟩)
      (by rw [hzeroth]; rfl)
  rw [hrotate] at hanswer
  cases hanswer
  obtain ⟨t', later, u, hstep, hfiles, -, hrun, hwritten, -⟩ :=
    hwriter t (record 1) fault (h₂, []) rfl rfl ⟨0, hlog⟩ rfl ⟨0, by decide, rfl⟩ hfull' hrotate
  refine ⟨(h₂, []), asked, t', later, u, hrecorded, hrotated, hstep, hfiles, hrun, hwritten, ?_⟩
  have hthird₂ := hrotated.others (slot o.path 3) ⟨3, by decide, rfl⟩ fun i hi =>
    slot_ne (by have : i ≤ 2 := hi; omega)
  have hzeroth₂ : h₂.contents? (slot o.path 0) = some full := by
    rw [hread₂ _ ⟨0, by decide, rfl⟩, if_neg (slot_ne (by decide)), if_neg (slot_ne (by decide)),
      hread₁ _ ⟨0, by decide, rfl⟩, if_neg (slot_ne (by decide)), slot_zero, hzeroth]
  have hfirst₂ : h₂.contents? (slot o.path 1) = none := by
    rw [hread₂ _ ⟨1, by decide, rfl⟩, if_neg (slot_ne (by decide)), if_pos rfl]
  have hsecond₂ : h₂.contents? (slot o.path 2) = some (text "older") := by
    rw [hread₂ _ ⟨2, by decide, rfl⟩, if_pos rfl, hfirst₁]
  show [h₂.contents? (slot o.path 0), h₂.contents? (slot o.path 1), h₂.contents? (slot o.path 2),
    h₂.contents? (slot o.path 3)] = _
  rw [hzeroth₂, hfirst₂, hsecond₂, hthird₂.trans hthird]

end SharedLog

end DaemonLink
