import DaemonLink.DaemonLog
import DaemonLink.Proofs.LogLevels

/-!
# The daemon's levels on the log's scale

The daemon's log and this one name their levels with the same five words, and
number them alike. Nothing makes them do so: each has its own words, and a table
leads from the one to the other. What holds them together is shown here for every
text and for every number.

A text is a word of the one exactly if it is a word of the other, and then it
stands for the same number. A number of the daemon's that has no word is taken for
the level of ordinary information, and any other keeps its place. So the threshold
is compared with the number that the daemon's word stands for, and a line of the
daemon's log is shown when a record of the log with that word for its level would
be.
-/

namespace DaemonLink

namespace DaemonLevel

/-- The level is one of the five that have a word. -/
def Named (l : DaemonLevel) : Prop :=
  0 ≤ l.code ∧ l.code ≤ 4

instance (l : DaemonLevel) : Decidable l.Named :=
  inferInstanceAs (Decidable (_ ∧ _))

variable {l : DaemonLevel} {s : Bytes}

theorem Named.cases (h : l.Named) : l = trace ∨ l = debug ∨ l = info ∨ l = warn ∨ l = error := by
  obtain ⟨code⟩ := l
  obtain ⟨hlow, hhigh⟩ := h
  simp only [trace, debug, info, warn, error, mk.injEq] at hlow hhigh ⊢
  omega

theorem ofName?_name (h : l.Named) : ofName? l.name = some l := by
  rcases h.cases with rfl | rfl | rfl | rfl | rfl <;> decide

theorem name_of_ofName? (h : ofName? s = some l) : l.Named ∧ s = l.name := by
  revert h
  fun_cases ofName? s with
  | case1 hs | case2 _ hs | case3 _ _ hs | case4 _ _ _ hs | case5 _ _ _ _ hs =>
      rintro ⟨⟩
      exact ⟨by decide, hs⟩
  | case6 => nofun

theorem ofName?_eq_some_iff : ofName? s = some l ↔ l.Named ∧ s = l.name := by
  refine ⟨name_of_ofName?, ?_⟩
  rintro ⟨hnamed, rfl⟩
  exact ofName?_name hnamed

/-- The level of the log with the same number. -/
def sameLevel (l : DaemonLevel) : Level :=
  ⟨l.code⟩

theorem level_ofName? (s : Bytes) : Level.ofName? s = (ofName? s).map sameLevel := by
  rw [Level.ofName?, ofName?]
  simp only [apply_ite (Option.map sameLevel)]
  rfl

theorem level_ofName?_eq_some_iff {l : Level} :
    Level.ofName? s = some l ↔ ofName? s = some ⟨l.code⟩ := by
  rw [level_ofName?, Option.map_eq_some_iff]
  constructor
  · rintro ⟨d, hd, rfl⟩
    exact hd
  · exact fun hd => ⟨_, hd, rfl⟩

theorem ofName?_eq_none (h : ∀ l : DaemonLevel, l.Named → s ≠ l.name) : ofName? s = none := by
  cases hs : ofName? s with
  | none => rfl
  | some l =>
      obtain ⟨hnamed, hname⟩ := name_of_ofName? hs
      exact absurd hname (h l hnamed)

theorem toLevel_eq (l : DaemonLevel) : l.toLevel = if l.Named then l.sameLevel else .info := by
  split
  · next h => rcases h.cases with rfl | rfl | rfl | rfl | rfl <;> rfl
  · next h =>
      rw [toLevel]
      split
      all_goals simp_all [Named]

end DaemonLevel

/-! ## Lines of the daemon's log in the log -/

namespace Logger

theorem accept_record_ne (l : Logger) (r : Record) : l.accept [r] ≠ (l, []) := by
  rw [accept]
  split
  · intro h
    have hqueue := congrArg (fun after => after.1.writer.queue.length) h
    simp at hqueue
  · intro h
    rw [Prod.mk.injEq] at h
    cases h.2

theorem log_recorded {l : Logger} {note : Note} (h : l.threshold.code ≤ note.level.code)
    (stamp : Stamp) : l.log stamp note = l.accept [⟨stamp, note⟩] := by
  have hpasses : note.level.passes l.threshold = true := decide_eq_true h
  rw [log_accept, if_pos hpasses]

theorem log_ne_iff (l : Logger) (stamp : Stamp) (note : Note) :
    l.log stamp note ≠ (l, []) ↔ l.threshold.code ≤ note.level.code := by
  by_cases h : l.threshold.code ≤ note.level.code
  · simp [h, log_recorded, accept_record_ne]
  · have hlow : note.level.passes l.threshold = false := decide_eq_false h
    simp [h, log_low hlow]

end Logger

namespace LogEntry

/-- The note that a line of the daemon's log becomes. -/
theorem note_eq (e : LogEntry) :
    e.note = ⟨⟨if e.level.Named then e.level.code else 2⟩,
      if e.source = [] then text "-" else e.source, none, e.message⟩ := by
  have hhyphen : text "-" = [hyphen] := rfl
  rw [note, Note.line, DaemonLevel.toLevel_eq, hhyphen]
  simp only [List.isEmpty_iff, apply_ite Level.mk]
  rfl

/-- A line whose level is a word is logged as a line of the log at the level with
that word. -/
theorem note_of_word {word : Bytes} {d : DaemonLevel} {l : Level}
    (hd : DaemonLevel.ofName? word = some d) (hl : Level.ofName? word = some l)
    (source message : Bytes) : note ⟨source, d, message⟩ = .line l source message := by
  obtain ⟨hnamed, -⟩ := DaemonLevel.name_of_ofName? hd
  rw [DaemonLevel.level_ofName?, hd, Option.map_some, Option.some.injEq] at hl
  rw [note, DaemonLevel.toLevel_eq, if_pos hnamed, hl]

end LogEntry

/-- The daemon's levels and those of the log are one scale. A text names a level of
the one exactly if it names one of the other, and the two have the same number, from
zero to four, whose name with the daemon the text is. Where it names none, what was
there before stays. A line of the daemon's log becomes a record exactly if its number
is not below the threshold, with two taken for every number that has no name. It is
then one record, with the label of that number, the line's source for its tag or a
hyphen if it has none, no place, and the message as it is. So a line whose level the
daemon gave as a word does with the log what a line of the log's own at the level of
that word does, and is shown exactly when any record at that level would be. -/
theorem daemon_levels_on_log_scale :
    (∀ word : Bytes,
      Level.ofName? word = (DaemonLevel.ofName? word).map (fun d => ⟨d.code⟩) ∧
      (∀ n : Int, DaemonLevel.ofName? word = some ⟨n⟩ ↔
        0 ≤ n ∧ n ≤ 4 ∧ word = (⟨n⟩ : DaemonLevel).name) ∧
      (∀ n : Int, Level.ofName? word = some ⟨n⟩ ↔
        0 ≤ n ∧ n ≤ 4 ∧ word = (⟨n⟩ : DaemonLevel).name) ∧
      ∀ (before : DaemonLevel) (before' : Level),
        (∀ n : Int, 0 ≤ n → n ≤ 4 → word ≠ (⟨n⟩ : DaemonLevel).name) →
        (DaemonLevel.ofName? word).getD before = before ∧
          (Level.ofName? word).getD before' = before') ∧
    (∀ (log : Logger) (stamp : Stamp) (e : LogEntry),
      let level : Level := ⟨if 0 ≤ e.level.code ∧ e.level.code ≤ 4 then e.level.code else 2⟩
      let tag := if e.source = [] then text "-" else e.source
      let record : Record := ⟨stamp, ⟨level, tag, none, e.message⟩⟩
      (log.log stamp e.note ≠ (log, []) ↔ log.threshold.code ≤ level.code) ∧
      (log.threshold.code ≤ level.code → log.log stamp e.note = log.accept [record]) ∧
      record.render = Record.bracketed stamp.time ++ Record.bracketed level.label ++
        Record.bracketed (text "tid:" ++ stamp.thread) ++ Record.bracketed tag ++
        e.message ++ [newline]) ∧
    ∀ (word : Bytes) (d : DaemonLevel) (l : Level),
      DaemonLevel.ofName? word = some d → Level.ofName? word = some l →
      ∀ (log : Logger) (stamp : Stamp) (source message : Bytes),
        let e : LogEntry := ⟨source, d, message⟩
        log.log stamp e.note = log.log stamp (.line l source message) ∧
        ∀ note : Note, note.level = l →
          (log.log stamp e.note ≠ (log, []) ↔ log.log stamp note ≠ (log, [])) := by
  refine ⟨fun word => ⟨DaemonLevel.level_ofName? word, ?_, ?_, ?_⟩, fun log stamp e => ?_, ?_⟩
  · intro n
    rw [DaemonLevel.ofName?_eq_some_iff, DaemonLevel.Named, and_assoc]
  · intro n
    rw [DaemonLevel.level_ofName?_eq_some_iff, DaemonLevel.ofName?_eq_some_iff, DaemonLevel.Named,
      and_assoc]
  · intro before before' hword
    have hnone : DaemonLevel.ofName? word = none :=
      DaemonLevel.ofName?_eq_none fun l hnamed => hword l.code hnamed.1 hnamed.2
    rw [DaemonLevel.level_ofName?, hnone]
    exact ⟨rfl, rfl⟩
  · intro level tag record
    have hnote : e.note = record.note := e.note_eq
    refine ⟨?_, fun hpasses => ?_, ?_⟩
    · rw [Logger.log_ne_iff, hnote]
    · rw [hnote, Logger.log_recorded hpasses]
    · simp [Record.render, Record.body, record]
  · intro word d l hd hl log stamp source message e
    have hnote : e.note = .line l source message := LogEntry.note_of_word hd hl source message
    refine ⟨by rw [hnote], fun note hnote' => ?_⟩
    rw [Logger.log_ne_iff, Logger.log_ne_iff, hnote, hnote', Note.line]

end DaemonLink
