import DaemonLink.Proofs.LogThreads

/-!
# Levels as filters

A note passes a threshold only if it passes every lower one, so a high threshold is
a low one and a filter behind it. A logger takes the records of the notes that pass.
Whether it queues or prints them depends on the writer and not on their level, and
either way they stay in order.
-/

namespace DaemonLink

theorem Level.passes_mono {l low high : Level} (hle : low.code ≤ high.code)
    (h : l.passes high = true) : l.passes low = true := by
  simp only [passes, decide_eq_true_eq] at h ⊢
  exact Int.le_trans hle h

/-- A high threshold is a low one and a filter behind it. -/
theorem Level.filter_passes {low high : Level} (hle : low.code ≤ high.code) (notes : List Note) :
    (notes.filter (·.level.passes low)).filter (·.level.passes high) =
      notes.filter (·.level.passes high) := by
  rw [List.filter_filter]
  refine List.filter_congr fun note _ => ?_
  cases hpasses : note.level.passes high with
  | false => rfl
  | true => rw [passes_mono hle hpasses]; rfl

namespace Logger

/-- Take records: a writer that is running queues them, and otherwise they are
printed. -/
def accept (l : Logger) (records : List Record) : Logger × List Output :=
  if l.writer.running then
    ({ l with writer := { l.writer with queue := l.writer.queue ++ records } }, [])
  else (l, records.map fun r => .record r.fallback)

theorem accept_nil (l : Logger) : l.accept [] = (l, []) := by
  rw [accept, List.append_nil]
  split <;> rfl

theorem accept_threshold (l : Logger) (records : List Record) :
    (l.accept records).1.threshold = l.threshold := by
  rw [accept]
  split <;> rfl

theorem accept_append (l : Logger) (first second : List Record) :
    l.accept (first ++ second) =
      (((l.accept first).1.accept second).1,
        (l.accept first).2 ++ ((l.accept first).1.accept second).2) := by
  cases hrunning : l.writer.running with
  | true => simp only [accept, hrunning, if_true, List.append_assoc, List.append_nil]
  | false =>
      simp only [accept, hrunning, Bool.false_eq_true, if_false, List.map_append]

theorem log_accept (l : Logger) (stamp : Stamp) (note : Note) :
    l.log stamp note =
      l.accept (if note.level.passes l.threshold then [⟨stamp, note⟩] else []) := by
  cases hpasses : note.level.passes l.threshold with
  | false =>
      rw [log_low hpasses, if_neg (by decide), accept_nil]
  | true =>
      rw [if_pos rfl]
      cases hpush : l.writer.push? ⟨stamp, note⟩ with
      | some w =>
          obtain ⟨hrunning, rfl⟩ := Writer.eq_of_push? hpush
          rw [log_accepted hpasses hpush, accept, if_pos hrunning]
      | none =>
          have hstopped : l.writer.running = false := by
            cases hrunning : l.writer.running with
            | false => rfl
            | true => simp [Writer.push?, hrunning] at hpush
          rw [log_refused hpasses hpush, accept, hstopped]
          rfl

/-- Notes that are all logged at one moment. -/
theorem logAll_accept (stamp : Stamp) (notes : List Note) (l : Logger) :
    l.logAll stamp notes =
      l.accept ((notes.filter (·.level.passes l.threshold)).map (⟨stamp, ·⟩)) := by
  induction notes generalizing l with
  | nil => exact (accept_nil l).symm
  | cons note rest ih =>
      rw [logAll, log_accept, List.filter_cons]
      simp only [ih, accept_threshold]
      split
      · rw [List.map_cons, ← List.singleton_append (l := List.map _ _), accept_append]
      · rw [accept_nil, List.nil_append]

end Logger

end DaemonLink
