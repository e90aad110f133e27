import DaemonLink.Control

/-!
# One line between the sides of a failure

On which side a failure lies is told in several places: by two predicates of the
failure, by the code the program exits with, by the wording of the report, and,
for an error of the daemon, by the category that its kind is given. Each of them
draws its own lines through the categories, and each has to say something of a
category that has no name.

They are compared through one value, the side of a category. Every category is on
one of four sides, and each of the places is a function of the side. Exit codes
tell all four apart, so code and predicates agree for every category because both
are the side in other words.

A report is one of three lines, and their first letters differ. So which of the
three it is can be seen from the line, whatever kind and message stand in it, and
it is the side again that decides, with the daemon's refusals told from its other
errors.
-/

namespace DaemonLink

/-! ## Sides -/

/-- On which side of an exchange a failure lies. -/
inductive Side
  /-- There is no failure. -/
  | nobody
  /-- The daemon was not reached, or its answer not understood. -/
  | exchange
  | daemon
  /-- Anything that should not have happened. -/
  | program
  deriving DecidableEq, Repr

/-- The code for a failure on a side. -/
def Side.exit : Side → ExitCode
  | nobody => .success
  | exchange => .transport
  | daemon => .daemon
  | program => .internal

theorem Side.code_exit_inj {a b : Side} : a.exit.code = b.exit.code ↔ a = b := by
  cases a <;> cases b <;> decide

namespace Category

/-- The side that a category stands for. -/
def side (c : Category) : Side :=
  if c = none then .nobody
  else if c = frameIo ∨ c = malformedEnvelope then .exchange
  else if c = protocol ∨ c = validation then .daemon
  else .program

variable {c : Category}

theorem side_eq_nobody_iff : c.side = .nobody ↔ c = none := by
  grind [side]

theorem side_eq_exchange_iff : c.side = .exchange ↔ c = frameIo ∨ c = malformedEnvelope := by
  grind [side, none, frameIo, malformedEnvelope]

theorem side_eq_daemon_iff : c.side = .daemon ↔ c = protocol ∨ c = validation := by
  grind [side, none, frameIo, malformedEnvelope, protocol, validation]

/-- Categories that have a name and are nobody's, and all that have none. -/
theorem side_eq_program_iff : c.side = .program ↔ c.code < 0 ∨ 4 < c.code := by
  obtain ⟨code⟩ := c
  grind [side, none, frameIo, malformedEnvelope, protocol, validation]

theorem ofCategory_eq (c : Category) : ExitCode.ofCategory c = c.side.exit := by
  obtain ⟨code⟩ := c
  rw [ExitCode.ofCategory]
  split <;> simp_all [side, none, frameIo, malformedEnvelope, protocol, validation, Side.exit]

/-! ## Kinds of the daemon -/

theorem ofDaemonKind_eq_validation_iff {kind : Bytes} :
    ofDaemonKind kind = validation ↔ kind = text "invalid-argument" := by
  rw [ofDaemonKind, invalidArgumentKind]
  split
  · next h => simp [h]
  · next h => simp [h, protocol, validation]

theorem ofDaemonKind_eq_protocol_iff {kind : Bytes} :
    ofDaemonKind kind = protocol ↔ kind ≠ text "invalid-argument" := by
  rw [ofDaemonKind, invalidArgumentKind]
  split
  · next h => simp [h, protocol, validation]
  · next h => simp [h]

theorem side_ofDaemonKind (kind : Bytes) : (ofDaemonKind kind).side = .daemon := by
  rw [side_eq_daemon_iff, ofDaemonKind_eq_protocol_iff, ofDaemonKind_eq_validation_iff]
  exact (Decidable.em _).symm

end Category

namespace Failure

variable {f : Failure}

theorem isTransportError_iff : f.isTransportError = true ↔ f.category.side = .exchange := by
  rw [Category.side_eq_exchange_iff]
  simp [isTransportError]

theorem isDaemonError_iff : f.isDaemonError = true ↔ f.category.side = .daemon := by
  rw [Category.side_eq_daemon_iff]
  simp [isDaemonError]

theorem isDaemonError_of_validation (h : f.isValidationError = true) : f.isDaemonError = true := by
  rw [isDaemonError, isValidationError] at *
  rw [h, Bool.or_true]

theorem ofFailure_code_iff (side : Side) :
    (ExitCode.ofFailure f).code = side.exit.code ↔ f.category.side = side := by
  rw [ExitCode.ofFailure, Category.ofCategory_eq, Side.code_exit_inj]

/-! ## The wording of a report -/

/-- The three ways to word a failure. -/
inductive Wording
  /-- The daemon refuses what it was asked for. -/
  | refusal
  /-- The daemon reports another error. -/
  | complaint
  /-- The failure is not the daemon's. -/
  | account
  deriving DecidableEq, Repr

/-- The line that words a failure so. -/
def Wording.line (f : Failure) : Wording → Bytes
  | refusal => text "invalid argument: " ++ f.kind ++ text ": " ++ f.message ++ [newline]
  | complaint => text "daemon error: " ++ f.kind ++ text ": " ++ f.message ++ [newline]
  | account => text "error: " ++ f.describe ++ [newline]

/-- How a failure is worded. -/
def wording (f : Failure) : Wording :=
  if f.isValidationError then .refusal else if f.isDaemonError then .complaint else .account

/-- The first letter of a line is that of its wording. -/
theorem Wording.head_line (w : Wording) (f : Failure) :
    (w.line f).head? = (match w with
      | refusal => text "i"
      | complaint => text "d"
      | account => text "e").head? := by
  cases w <;> simp only [line, List.append_assoc] <;> rfl

theorem Wording.line_inj {w w' : Wording} {g : Failure} : w.line f = w'.line g → w = w' := by
  intro h
  have hhead := congrArg List.head? h
  rw [head_line, head_line] at hhead
  revert hhead
  cases w <;> cases w' <;> decide

theorem reportLine_eq (f : Failure) : reportLine f = f.wording.line f := by
  rw [reportLine, wording]
  by_cases hvalid : f.isValidationError = true
  · simp [hvalid, isDaemonError_of_validation hvalid, Wording.line]
  · by_cases hdaemon : f.isDaemonError = true
    · simp [hvalid, hdaemon, Wording.line]
    · simp [hvalid, hdaemon, Wording.line]

theorem reportLine_eq_line_iff {w : Wording} : reportLine f = w.line f ↔ f.wording = w := by
  rw [reportLine_eq]
  exact ⟨Wording.line_inj, fun h => by rw [h]⟩

theorem wording_eq_refusal_iff : f.wording = .refusal ↔ f.isValidationError = true := by
  grind [wording]

theorem wording_eq_complaint_iff :
    f.wording = .complaint ↔ f.isDaemonError = true ∧ ¬ f.isValidationError = true := by
  grind [wording]

theorem wording_eq_account_iff : f.wording = .account ↔ ¬ f.isDaemonError = true := by
  grind [wording, isDaemonError_of_validation]

/-- The report of an error in the daemon's own words. -/
theorem reportLine_ofDaemonKind (kind message : Bytes) :
    reportLine ⟨.ofDaemonKind kind, kind, message⟩ =
      (if kind = text "invalid-argument" then text "invalid argument: "
        else text "daemon error: ") ++ kind ++ text ": " ++ message ++ [newline] := by
  have hdaemon : (⟨.ofDaemonKind kind, kind, message⟩ : Failure).isDaemonError = true :=
    isDaemonError_iff.mpr (Category.side_ofDaemonKind kind)
  rw [reportLine, if_pos hdaemon, isValidationError]
  simp only [Category.ofDaemonKind_eq_validation_iff, decide_eq_true_eq]

/-- Predicates, exit code, report and the daemon's kinds agree about every failure,
whatever its category. The code tells apart no failure, one of the exchange, one of
the daemon and any other, which are all whose category has a number below zero or
above four; and no failure is both of the exchange and of the daemon. The report
exits with that code, prints nothing on the output, and words the failure as a
refusal of the daemon, as another error of the daemon or as neither, each exactly
when that is what it is. An error the daemon reports is one of its refusals if its
kind is that of an invalid argument, and otherwise another of its errors. It is
always reported as the daemon's, with kind and message as they came. -/
theorem failure_told_alike (f : Failure) :
    let code := (ExitCode.ofFailure f).code
    (code = 0 ↔ f.category = .none) ∧
    (code = 2 ↔ f.isTransportError = true) ∧
    (code = 3 ↔ f.isDaemonError = true) ∧
    (code = 4 ↔ f.category ≠ .none ∧ ¬ f.isTransportError = true ∧ ¬ f.isDaemonError = true) ∧
    (code = 4 ↔ f.category.code < 0 ∨ 4 < f.category.code) ∧
    ¬ (f.isTransportError = true ∧ f.isDaemonError = true) ∧
    (report f).exit = ExitCode.ofFailure f ∧ (report f).out = [] ∧
    ((report f).err = text "invalid argument: " ++ f.kind ++ text ": " ++ f.message ++ [newline] ↔
      f.isValidationError = true) ∧
    ((report f).err = text "daemon error: " ++ f.kind ++ text ": " ++ f.message ++ [newline] ↔
      f.isDaemonError = true ∧ ¬ f.isValidationError = true) ∧
    ((report f).err = text "error: " ++ f.describe ++ [newline] ↔ ¬ f.isDaemonError = true) ∧
    ∀ kind message : Bytes,
      let g : Failure := ⟨.ofDaemonKind kind, kind, message⟩
      (g.category = .validation ↔ kind = text "invalid-argument") ∧
      (g.category = .protocol ↔ kind ≠ text "invalid-argument") ∧
      g.isDaemonError = true ∧ (report g).exit.code = 3 ∧
      (report g).err = (if kind = text "invalid-argument" then text "invalid argument: "
        else text "daemon error: ") ++ kind ++ text ": " ++ message ++ [newline] := by
  intro code
  have hnobody : code = 0 ↔ f.category.side = .nobody := ofFailure_code_iff .nobody
  have hexchange : code = 2 ↔ f.category.side = .exchange := ofFailure_code_iff .exchange
  have hdaemon : code = 3 ↔ f.category.side = .daemon := ofFailure_code_iff .daemon
  have hprogram : code = 4 ↔ f.category.side = .program := ofFailure_code_iff .program
  refine ⟨?_, ?_, ?_, ?_, ?_, ?_, rfl, rfl, ?_, ?_, ?_, ?_⟩
  · rw [hnobody, Category.side_eq_nobody_iff]
  · rw [hexchange, isTransportError_iff]
  · rw [hdaemon, isDaemonError_iff]
  · rw [hprogram, ne_eq, ← Category.side_eq_nobody_iff, isTransportError_iff, isDaemonError_iff]
    cases f.category.side <;> simp
  · rw [hprogram, Category.side_eq_program_iff]
  · rw [isTransportError_iff, isDaemonError_iff]
    rintro ⟨hside, hother⟩
    rw [hside] at hother
    cases hother
  · show reportLine f = Wording.refusal.line f ↔ _
    rw [reportLine_eq_line_iff, wording_eq_refusal_iff]
  · show reportLine f = Wording.complaint.line f ↔ _
    rw [reportLine_eq_line_iff, wording_eq_complaint_iff]
  · show reportLine f = Wording.account.line f ↔ _
    rw [reportLine_eq_line_iff, wording_eq_account_iff]
  · intro kind message g
    have hside := Category.side_ofDaemonKind kind
    refine ⟨Category.ofDaemonKind_eq_validation_iff, Category.ofDaemonKind_eq_protocol_iff, ?_, ?_,
      reportLine_ofDaemonKind kind message⟩
    · rw [isDaemonError_iff]
      exact hside
    · exact (ofFailure_code_iff .daemon).mpr hside

end Failure

end DaemonLink
