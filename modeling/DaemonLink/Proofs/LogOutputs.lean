import DaemonLink.Proofs.LogDirectory
import DaemonLink.Proofs.LogThreads

/-!
# One record on three ways out

A record can go to the file, to the console, and, when nobody writes it, to the
error output at once. The first two take it with its length, so they get all of
it whatever is in it, and colour is put around the line and not into it. The
third takes it without its length and stops at the first NUL.

So the ways agree as far as a record holds no NUL, and what could bring one in
is little: the brackets, the label and the numerals hold none, and neither does
what the log adds of its own, the time, the thread and the place. That leaves
the tag and the message. A finished line brings both as they are. A message that
is put together loses its NULs on the way, first in the texts put in and then in
the buffer, and its tag is a text without a length to begin with.
-/

namespace DaemonLink

variable {φ : Type}

/-! ## Texts without their length -/

theorem untilNul_eq_self_iff {bytes : Bytes} : untilNul bytes = bytes ↔ nul ∉ bytes :=
  ⟨fun h => by rw [← h]; exact not_mem_untilNul bytes, untilNul_eq_self⟩

theorem untilNul_append_nul {front : Bytes} (h : nul ∉ front) (rest : Bytes) :
    untilNul (front ++ nul :: rest) = front := by
  have hfront : ∀ b ∈ front, (b != nul) = true := fun b hb =>
    bne_iff_ne.mpr fun heq => h (by rwa [heq] at hb)
  rw [untilNul, List.takeWhile_append_of_pos hfront, List.takeWhile_cons_of_neg (by decide),
    List.append_nil]

theorem not_mem_of_append {b : UInt8} {front rest : Bytes} (hfront : b ∉ front) (hrest : b ∉ rest) :
    b ∉ front ++ rest :=
  fun h => (List.mem_append.mp h).elim hfront hrest

theorem nul_not_mem_decimal (n : Nat) : nul ∉ decimal n := by
  intro h
  have hdigit := isDigit_of_mem_decimal h
  revert hdigit
  decide

theorem nul_not_mem_signed (n : Int) : nul ∉ signed n := by
  rw [signed]
  split
  · intro h
    rcases List.mem_cons.mp h with h | h
    · revert h
      decide
    · exact nul_not_mem_decimal _ h
  · exact nul_not_mem_decimal _

/-! ## What a record holds -/

/-- What the log itself puts into a record holds no NUL. -/
structure Record.Clean (r : Record) : Prop where
  time : nul ∉ r.stamp.time
  thread : nul ∉ r.stamp.thread
  origin : ∀ origin, r.note.origin = some origin → nul ∉ origin.file

namespace Record

variable {r : Record}

theorem render_dropLast (r : Record) : r.render.dropLast = r.body :=
  List.dropLast_concat

theorem nul_not_mem_bracketed {s : Bytes} (h : nul ∉ s) : nul ∉ bracketed s := by
  rw [bracketed]
  exact not_mem_of_append (not_mem_of_append (by decide) h) (by decide)

theorem nul_not_mem_label (l : Level) : nul ∉ l.label := by
  rw [Level.label]
  split <;> decide

theorem nul_mem_body (hclean : r.Clean) :
    nul ∈ r.body ↔ nul ∈ r.note.tag ∨ nul ∈ r.note.message := by
  have htime := nul_not_mem_bracketed hclean.time
  have hlabel := nul_not_mem_bracketed (nul_not_mem_label r.note.level)
  have hthread : nul ∉ bracketed (text "tid:" ++ r.stamp.thread) :=
    nul_not_mem_bracketed (not_mem_of_append (by decide) hclean.thread)
  have horigin : ∀ o, r.note.origin = some o → nul ∉ bracketed o.render := by
    intro o hplace
    have hcolon : nul ∉ text ":" := by decide
    exact nul_not_mem_bracketed (not_mem_of_append
      (not_mem_of_append (hclean.origin o hplace) hcolon) (nul_not_mem_signed o.line))
  have htag : nul ∈ bracketed r.note.tag ↔ nul ∈ r.note.tag := by
    refine ⟨fun h => ?_, fun h => ?_⟩
    · exact Decidable.not_imp_not.mp nul_not_mem_bracketed h
    · rw [bracketed]
      exact List.mem_append_left _ (List.mem_append_right _ h)
  rw [body]
  cases hplace : r.note.origin with
  | none =>
      simp only [List.mem_append, htime, hlabel, hthread, htag, List.not_mem_nil, false_or,
        or_false]
  | some o =>
      have hplaced := horigin o hplace
      simp only [List.mem_append, htime, hlabel, hthread, htag, hplaced, false_or, or_false]

theorem nul_mem_render (hclean : r.Clean) :
    nul ∈ r.render ↔ nul ∈ r.note.tag ∨ nul ∈ r.note.message := by
  have hend : nul ∉ [newline] := by decide
  rw [render, List.mem_append, nul_mem_body hclean, or_iff_left hend]

theorem fallback_eq_render_iff (hclean : r.Clean) :
    untilNul r.render = r.render ↔ nul ∉ r.note.tag ∧ nul ∉ r.note.message := by
  rw [untilNul_eq_self_iff, nul_mem_render hclean, not_or]

/-- A record that is cut is cut within its line. -/
theorem fallback_of_ne (hcut : untilNul r.render ≠ r.render) :
    ∃ lost, r.render.dropLast = untilNul r.render ++ nul :: lost := by
  have hmem : nul ∈ r.render := Decidable.not_not.mp fun h => hcut (untilNul_eq_self h)
  rw [render, List.mem_append, or_iff_left (by decide)] at hmem
  obtain ⟨front, lost, hbody, hfront⟩ := List.eq_append_cons_of_mem hmem
  refine ⟨lost, ?_⟩
  rw [render_dropLast, render, hbody, List.append_assoc, List.cons_append,
    untilNul_append_nul hfront]

end Record

/-! ## What notes hold -/

theorem nul_not_mem_pieces {pieces : List Piece}
    (hliterals : ∀ s, .literal s ∈ pieces → nul ∉ s) : nul ∉ pieces.flatMap Piece.bytes := by
  intro h
  obtain ⟨piece, hpiece, hnul⟩ := List.mem_flatMap.mp h
  cases piece with
  | literal s => exact hliterals s hpiece hnul
  | string s => exact not_mem_untilNul s hnul
  | number n => exact nul_not_mem_signed n hnul

theorem Note.compose_eq_take {pieces : List Piece}
    (hliterals : ∀ s, .literal s ∈ pieces → nul ∉ s) :
    compose pieces = (pieces.flatMap Piece.bytes).take messageLimit :=
  untilNul_eq_self fun h => nul_not_mem_pieces hliterals (List.mem_of_mem_take h)

theorem nul_not_mem_ofPath (path : Option Bytes) (line : Int) :
    nul ∉ (Origin.ofPath path line).file := by
  intro h
  rw [Origin.ofPath, FilePath.fileName, List.mem_reverse] at h
  have hpath := List.mem_reverse.mp ((List.takeWhile_sublist _).subset h)
  exact not_mem_untilNul _ hpath

/-! ## What is written -/

theorem consoleForm_eq (o : LogOptions) (r : Record) :
    consoleForm o r = if o.coloured then
      r.note.level.colour ++ r.render.dropLast ++ Level.resetColour ++ [newline] else r.render := by
  rw [consoleForm, Record.render_dropLast]
  rfl

theorem writeRecord_shows (shelf : Shelf φ) (o : LogOptions) (r : Record) (files : φ) :
    ∃ notices : List Bytes, (writeRecord shelf o r files).1 =
      (if o.toConsole then [.record (consoleForm o r)] else []) ++ notices.map .notice := by
  rw [writeRecord]
  split
  · exact ⟨[], (List.append_nil _).symm⟩
  · split
    · exact ⟨[], (List.append_nil _).symm⟩
    · next fault files' hrotate =>
        refine ⟨if o.toConsole then [writeErrorNotice fault] else [], ?_⟩
        cases o.toConsole <;> rfl

namespace SharedLog

variable {shelf : Shelf φ} {s t : SharedLog φ} {events : List LogEvent}

theorem written_of_step {o : LogOptions} {r : Record} {shown : List Output}
    (h : Step shelf s events t) (hevent : .written o r shown ∈ events) :
    shown = (writeRecord shelf o r s.files).1 ∧ t.files = (writeRecord shelf o r s.files).2 := by
  cases h with
  | write hheld =>
      rw [Writer.writeHeld_some hheld] at hevent
      cases List.mem_singleton.mp hevent
      rw [write_held hheld]
      exact ⟨rfl, rfl⟩
  | start | startAgain | stop | join | setThreshold | drop | accept | refuse | take | leave =>
      simp at hevent

/-- A record that is written goes to the console as a whole line, or with colour as
the same line without its end between two sequences and the end behind them. It
goes to the file as a whole line. A record that nobody writes is shown as far as
its first NUL. That is the whole line if and only if its tag and its message hold
none, and otherwise something less than the line without its end. A message that is
put together is what the buffer holds of the text, as far as its first NUL, which
only the text of the program itself could bring in, and its record is always shown
whole. A finished message is taken as it is. -/
theorem outputs_agree_up_to_nul (shelf : Shelf φ) :
    (∀ {s t : SharedLog φ} {events : List LogEvent}, Step shelf s events t →
      (∀ o r shown, .written o r shown ∈ events →
        (∃ notices : List Bytes, shown =
          (if o.toConsole then
            [.record (if o.coloured then r.note.level.colour ++ r.render.dropLast ++
              Level.resetColour ++ [newline] else r.render)] else []) ++ notices.map .notice) ∧
        (o.toFile = false → t.files = s.files) ∧
        ∀ files, o.toFile = true → rotateIfFull shelf o s.files = (.ok (), files) →
          t.files = shelf.append o.path r.render files) ∧
      ∀ r shown, .refused r shown ∈ events → shown = [.record (untilNul r.render)]) ∧
    (∀ r : Record, r.Clean →
      (untilNul r.render = r.render ↔ nul ∉ r.note.tag ∧ nul ∉ r.note.message) ∧
      (untilNul r.render ≠ r.render →
        ∃ lost, r.render.dropLast = untilNul r.render ++ nul :: lost)) ∧
    (∀ (stamp : Stamp) (level : Level), nul ∉ stamp.time → nul ∉ stamp.thread →
      (∀ tag path line pieces,
        let r : Record := ⟨stamp, .formatted level tag (.ofPath path line) pieces⟩
        let composed := pieces.flatMap Piece.bytes
        r.note.message = untilNul (composed.take 16383) ∧ untilNul r.render = r.render ∧
        ((∀ s, .literal s ∈ pieces → nul ∉ s) →
          nul ∉ composed ∧ r.note.message = composed.take 16383)) ∧
      ∀ tag message,
        let r : Record := ⟨stamp, .line level tag message⟩
        r.Clean ∧ r.note.message = message) := by
  refine ⟨?_, ?_, ?_⟩
  · intro s t events h
    refine ⟨?_, ?_⟩
    · intro o r shown hevent
      obtain ⟨hshown, hfiles⟩ := written_of_step h hevent
      refine ⟨?_, fun hunfiled => ?_, fun files hfile hrotate => ?_⟩
      · rw [hshown, ← consoleForm_eq]
        exact writeRecord_shows shelf o r _
      · rw [hfiles, writeRecord_unfiled shelf hunfiled]
      · rw [hfiles, writeRecord_appends hfile hrotate]
    · intro r shown hevent
      exact effect_printed (effect_step h) _ hevent
  · intro r hclean
    exact ⟨r.fallback_eq_render_iff hclean, r.fallback_of_ne⟩
  · intro stamp level htime hthread
    refine ⟨?_, ?_⟩
    · intro tag path line pieces r composed
      have hclean : r.Clean := by
        refine ⟨htime, hthread, fun origin horigin => ?_⟩
        rw [← Option.some.inj horigin]
        exact nul_not_mem_ofPath path line
      have hwhole : untilNul r.render = r.render :=
        (r.fallback_eq_render_iff hclean).mpr ⟨not_mem_untilNul _, not_mem_untilNul _⟩
      refine ⟨rfl, hwhole, fun hliterals => ?_⟩
      exact ⟨nul_not_mem_pieces hliterals, Note.compose_eq_take hliterals⟩
    · intro tag message r
      exact ⟨⟨htime, hthread, nofun⟩, rfl⟩

/-- A line with a NUL in it, on the console and then without a writer, and a message
that is put together from a text with a NUL in it. -/
theorem outputs_agree_up_to_nul_within_message :
    let stamp : Stamp := ⟨text "08:00", text "1"⟩
    let line : Record := ⟨stamp, .line .warn (text "Daemon") (text "one" ++ nul :: text "two")⟩
    let composed : Record := ⟨stamp, .formatted .warn none (.ofPath (some (text "src/Main")) 7)
      [.literal (text "opened "), .string (text "a" ++ nul :: text "b")]⟩
    let log (w : Writer) : SharedLog Host := ⟨⟨.info, w⟩, false, Host.new .bare FileTree.root⟩
    (∃ t, Step Host.shelf (log ⟨true, true, {}, [], some line⟩) [.written {} line
      [.record (Level.warn.colour ++ line.render.dropLast ++ Level.resetColour ++ [newline])]] t) ∧
    (∃ t, Step Host.shelf (log .idle) [.refused line [.record (untilNul line.render)]] t) ∧
    untilNul line.render ≠ line.render ∧
    (∃ lost, line.render.dropLast = untilNul line.render ++ nul :: lost) ∧
    untilNul composed.render = composed.render ∧ composed.note.message = text "opened a" := by
  intro stamp line composed log
  obtain ⟨hsteps, hfallback, hmade⟩ := outputs_agree_up_to_nul Host.shelf
  obtain ⟨hcomposed, hline⟩ := hmade stamp .warn (by decide) (by decide)
  obtain ⟨hclean, -⟩ := hline (text "Daemon") (text "one" ++ nul :: text "two")
  obtain ⟨hiff, hlost⟩ := hfallback line hclean
  have hcut : untilNul line.render ≠ line.render := fun h => (hiff.mp h).2 (by decide)
  obtain ⟨hmessage, hwhole, -⟩ := hcomposed none (some (text "src/Main")) 7
    [.literal (text "opened "), .string (text "a" ++ nul :: text "b")]
  have hwritten : Step Host.shelf (log ⟨true, true, {}, [], some line⟩) _ _ := .write rfl
  have hrefused : Step Host.shelf (log .idle) _ _ := .refuse line.stamp line.note rfl rfl
  rw [(hsteps hrefused).2 line _ (List.mem_singleton_self _)] at hrefused
  refine ⟨⟨_, hwritten⟩, ⟨_, hrefused⟩, hcut, hlost hcut, hwhole, ?_⟩
  rw [hmessage]
  decide

end SharedLog

end DaemonLink
