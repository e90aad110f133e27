import DaemonLink.Proofs.CommandLineErrors

/-!
# Reading into arguments that have been used

A line is read into arguments that may hold what earlier lines have set, lines
that were refused included. What is there is overwritten or left, and the
parser looks at next to nothing of it. So what a line does is a change that can
be told from the words, and the same change is made to whatever is there.

One thing is looked at, and only behind `apply`: whether there is a source
already. This one bit decides whether a word that could be a source is taken,
and whether a line that gives none may end. A line that comes as far as `apply`
has two changes then, one for each value of the bit, and any other line has one.

A field that a change sets is the same afterwards wherever it is made, and a
field that it does not set is as it was. The verbosity is neither: it is counted
on from where it stood.
-/

namespace DaemonLink

namespace CommandLine

/-! ## Changes -/

/-- What reading the words of an order does to a request. -/
structure RequestChange where
  command : Option Subcommand := none
  shown : Option StateKind := none
  source : Option Bytes := none
  /-- How many times verifying is switched off. -/
  unverified : Nat := 0

def RequestChange.make (c : RequestChange) (r : Request) : Request where
  command := c.command.getD r.command
  showKind := c.shown.getD r.showKind
  source := c.source.getD r.source
  verify := r.verify && c.unverified = 0

/-- What reading a line does to arguments. -/
structure Change where
  settings : List Setting
  request : RequestChange

def Change.make (c : Change) (a : Arguments) : Arguments :=
  { Setting.setAll c.settings a with
    request := c.request.make (Setting.setAll c.settings a).request }

/-- The arguments `a` and `b` have become `a'` and `b'`. The verbosity has changed
by the same amount in both, and every other field is the same in both now or as
it was in each. -/
structure ChangedAlike (a b a' b' : Arguments) : Prop where
  verbosity : a'.verbosity - a.verbosity = b'.verbosity - b.verbosity
  configPath : a'.configPath = b'.configPath ∨
    a'.configPath = a.configPath ∧ b'.configPath = b.configPath
  configGiven : a'.configGiven = b'.configGiven ∨
    a'.configGiven = a.configGiven ∧ b'.configGiven = b.configGiven
  socketPath : a'.socketPath = b'.socketPath ∨
    a'.socketPath = a.socketPath ∧ b'.socketPath = b.socketPath
  timeout : a'.timeout = b'.timeout ∨ a'.timeout = a.timeout ∧ b'.timeout = b.timeout
  command : a'.request.command = b'.request.command ∨
    a'.request.command = a.request.command ∧ b'.request.command = b.request.command
  showKind : a'.request.showKind = b'.request.showKind ∨
    a'.request.showKind = a.request.showKind ∧ b'.request.showKind = b.request.showKind
  source : a'.request.source = b'.request.source ∨
    a'.request.source = a.request.source ∧ b'.request.source = b.request.source
  verify : a'.request.verify = b'.request.verify ∨
    a'.request.verify = a.request.verify ∧ b'.request.verify = b.request.verify

theorem set_or_kept {α : Type} (set : Option α) (x y : α) :
    set.getD x = set.getD y ∨ set.getD x = x ∧ set.getD y = y := by
  cases set with
  | none => exact Or.inr ⟨rfl, rfl⟩
  | some value => exact Or.inl rfl

theorem raised_or_kept (raised x y : Bool) :
    (x || raised) = (y || raised) ∨ (x || raised) = x ∧ (y || raised) = y := by
  cases raised with
  | false => exact Or.inr ⟨Bool.or_false x, Bool.or_false y⟩
  | true =>
      rw [Bool.or_true, Bool.or_true]
      exact Or.inl rfl

theorem left_or_lowered (left x y : Bool) :
    (x && left) = (y && left) ∨ (x && left) = x ∧ (y && left) = y := by
  cases left with
  | true => exact Or.inr ⟨Bool.and_true x, Bool.and_true y⟩
  | false =>
      rw [Bool.and_false, Bool.and_false]
      exact Or.inl rfl

theorem Change.alike (c : Change) (a b : Arguments) : ChangedAlike a b (c.make a) (c.make b) := by
  simp only [make, setAll_eq]
  refine ⟨?_, set_or_kept _ _ _, raised_or_kept _ _ _, set_or_kept _ _ _, set_or_kept _ _ _,
    set_or_kept _ _ _, set_or_kept _ _ _, set_or_kept _ _ _, left_or_lowered _ _ _⟩
  show a.verbosity + _ - a.verbosity = b.verbosity + _ - b.verbosity
  omega

/-! ## What the options change -/

/-- The options end with an error, or in front of words that are none, and what
they have set by then does not depend on what was there. -/
inductive OptionsSet (words : List Bytes) : Prop
  | stuck (settings : List Setting) (e : UsageError)
      (hread : ∀ a, readOptions words a = (.error e, Setting.setAll settings a))
  | through (settings : List Setting) (rest : List Bytes)
      (hwords : words = settings.flatMap Setting.words ++ rest)
      (hread : ∀ a, readOptions words a = (.ok rest, Setting.setAll settings a))

theorem OptionsSet.setting {words : List Bytes} (h : OptionsSet words) (s : Setting) :
    OptionsSet (s.words ++ words) := by
  cases h with
  | stuck settings e hread =>
      refine .stuck (s :: settings) e fun a => ?_
      rw [readOptions_setting, hread]
      rfl
  | through settings rest hwords hread =>
      refine .through (s :: settings) rest ?_ fun a => ?_
      · rw [List.flatMap_cons, List.append_assoc, ← hwords]
      · rw [readOptions_setting, hread]
        rfl

/-- The walk is the one from fresh arguments, and it serves for all, since no
branch of it looks at them. -/
theorem optionsSet (words : List Bytes) : OptionsSet words := by
  fun_induction readOptions words {} with
  | case1 => exact .through [] [] rfl fun _ => rfl
  | case2 word more _ hstarts =>
      have hstop : startsOption word = false := by simpa using hstarts
      exact .through [] (word :: more) rfl (readOptions_stop hstop more)
  | case3 word more _ hstarts hword =>
      refine .stuck [] (.unknownOption word) fun a => ?_
      rw [readOptions, if_neg hstarts]
      simp only [hword]
      rfl
  | case4 word more _ _ hword ih =>
      rw [Switch.eq_word hword]
      exact ih.setting .verbose
  | case5 word more _ _ hword ih =>
      rw [Switch.eq_word hword]
      exact ih.setting .quiet
  | case6 word _ _ switch hverbose hquiet hword =>
      rw [Switch.eq_word hword]
      refine .stuck [] (.missingValue switch.word) fun a => ?_
      cases switch with
      | verbose => exact absurd rfl hverbose
      | quiet => exact absurd rfl hquiet
      | config | socket | timeout => rfl
  | case7 word _ _ switch _ _ hword value more e hvalue =>
      obtain ⟨rfl, hinvalid⟩ := invalid_of_setValue hvalue
      rw [Switch.eq_word hword]
      exact .stuck [] (.invalidTimeout value) (readOptions_invalid_timeout hinvalid more)
  | case8 word _ _ switch hverbose hquiet hword value more b hvalue ih =>
      obtain ⟨s, hs, -⟩ := setting_of_setValue hverbose hquiet hvalue
      have hread := ih.setting s
      rwa [hs, ← Switch.eq_word hword] at hread

/-! ## What an order changes -/

theorem readShow_changes (words : List Bytes) :
    ∃ e shown, ∀ a, readShow words a = (e, withShown a shown) := by
  obtain ⟨flags, rest, rfl, rfl | ⟨word, after, rfl, hunknown⟩⟩ := longest_front Flag.word words
  · exact ⟨none, flags.getLast?.map Flag.kind, fun a => readShow_append flags [] a⟩
  · refine ⟨some (.unexpected word (text "show")), flags.getLast?.map Flag.kind, fun a => ?_⟩
    rw [readShow_append, readShow_unknown hunknown]

theorem readApply_given (words : List Bytes) :
    ∃ e times, ∀ a : Arguments, a.request.source ≠ [] →
      readApply words a = (e, unverified a times) := by
  obtain ⟨flags, rest, rfl, hrest⟩ := longest_front (fun _ : Unit => text "--no-verify") words
  rw [List.map_const']
  rcases hrest with rfl | ⟨word, after, rfl, hflag⟩
  · refine ⟨none, flags.length, fun a ha => ?_⟩
    rw [readApply_replicate, readApply_nil (by exact ha)]
  · refine ⟨some (.unexpected word (text "apply")), flags.length, fun a ha => ?_⟩
    rw [readApply_replicate, readApply_unexpected (hflag ()) (by exact ha)]

/-- Without a source, the words are read up to an operand and from there on as
with one. -/
theorem readApply_lacking (words : List Bytes) :
    ∃ e source times, ∀ a : Arguments, a.request.source = [] →
      readApply words a =
        (e, unverified { a with request := { a.request with source := source } } times) := by
  obtain ⟨before, rest, rfl, rfl | ⟨word, after, rfl, hother⟩⟩ := longest_front Filler.word words
  · refine ⟨some .missingSource, [], before.count .noVerify, fun a ha => ?_⟩
    have hsource : (unverified a (before.count .noVerify)).request.source.isEmpty = true := by
      rw [source_unverified, ha]
      rfl
    rw [readApply_fillers before [] ha, readApply, if_pos hsource, ← ha]
  cases hstarts : startsOption word with
  | true =>
      refine ⟨some (.unexpected word (text "apply")), [], before.count .noVerify, fun a ha => ?_⟩
      rw [readApply_fillers before _ ha, readApply_option hstarts (hother .noVerify), ← ha]
  | false =>
      have hsource : isSource word = true := by rw [isSource_eq, hstarts]; rfl
      let operand : Operand := ⟨word, named_of_isSource hsource (hother .empty)⟩
      obtain ⟨e, times, hafter⟩ := readApply_given after
      refine ⟨e, word, before.count .noVerify + times, fun a ha => ?_⟩
      rw [readApply_fillers before _ ha, readApply_operand operand after (by exact ha),
        hafter _ (by exact operand.ne_nil), ← unverified_add]
      rfl

/-- Behind any word but `apply` the change of the request is one for all. -/
theorem readCommand_changes {word : Bytes} (happly : word ≠ text "apply") (rest : List Bytes) :
    ∃ (e : Option UsageError) (c : RequestChange), ∀ a : Arguments,
      readCommand (word :: rest) a = (e, { a with request := c.make a.request }) := by
  by_cases hping : word = text "ping"
  · refine ⟨readPing rest, { command := some .ping }, fun a => ?_⟩
    rw [readCommand, if_pos hping]
    simp only [RequestChange.make, Option.getD_some, Option.getD_none, decide_true, Bool.and_true]
  by_cases hshow : word = text "show"
  · obtain ⟨e, shown, hread⟩ := readShow_changes rest
    refine ⟨e, { command := some .show, shown := shown }, fun a => ?_⟩
    rw [readCommand, if_neg hping, if_pos hshow, hread]
    simp only [RequestChange.make, withShown, Option.getD_some, Option.getD_none, decide_true,
      Bool.and_true]
  · refine ⟨some (.unknownCommand word), {}, fun a => ?_⟩
    rw [readCommand, if_neg hping, if_neg hshow, if_neg happly]
    simp only [RequestChange.make, Option.getD_none, decide_true, Bool.and_true]

theorem readCommand_apply (rest : List Bytes) (a : Arguments) :
    readCommand (text "apply" :: rest) a =
      readApply rest { a with request := { a.request with command := .apply } } := by
  rw [readCommand, if_neg (by decide), if_neg (by decide), if_pos rfl]

/-- Behind `apply` there is one change where there is a source, and one where
there is none. -/
theorem readCommand_apply_changes (rest : List Bytes) (given : Bool) :
    ∃ (e : Option UsageError) (c : RequestChange), ∀ a : Arguments,
      a.request.source.isEmpty = !given →
      readCommand (text "apply" :: rest) a = (e, { a with request := c.make a.request }) := by
  cases given with
  | true =>
      obtain ⟨e, times, hread⟩ := readApply_given rest
      refine ⟨e, { command := some .apply, unverified := times }, fun a ha => ?_⟩
      rw [readCommand_apply, hread _ (by exact List.isEmpty_eq_false_iff.mp ha)]
      rfl
  | false =>
      obtain ⟨e, source, times, hread⟩ := readApply_lacking rest
      refine ⟨e, { command := some .apply, source := some source, unverified := times },
        fun a ha => ?_⟩
      rw [readCommand_apply, hread _ (by exact List.isEmpty_iff.mp ha)]
      rfl

/-! ## What a line changes -/

/-- The words are settings, `apply`, and these words. -/
def ReachesApply (words rest : List Bytes) : Prop :=
  ∃ settings : List Setting, words = settings.flatMap Setting.words ++ text "apply" :: rest

theorem parse_apply {words rest : List Bytes} (h : ReachesApply words rest) :
    ∃ settings : List Setting, ∀ a,
      parse words a = readCommand (text "apply" :: rest) (Setting.setAll settings a) := by
  obtain ⟨settings, rfl⟩ := h
  exact ⟨settings, fun a => by rw [parse_settings, parse_order rfl]⟩

theorem source_setAll (settings : List Setting) (a : Arguments) :
    (Setting.setAll settings a).request.source = a.request.source := by
  rw [setAll_eq]

/-- A line makes the same change to all arguments, or it comes as far as `apply`
and makes the same change to all that have a source, and to all that have none. -/
theorem parse_changes (words : List Bytes) :
    (∃ e c, ∀ a, parse words a = (e, Change.make c a)) ∨
    (∃ rest, ReachesApply words rest) ∧ ∀ given : Bool, ∃ e c, ∀ a : Arguments,
      a.request.source.isEmpty = !given → parse words a = (e, Change.make c a) := by
  cases optionsSet words with
  | stuck settings e hread =>
      refine Or.inl ⟨some e, ⟨settings, {}⟩, fun a => ?_⟩
      rw [parse, hread]
      simp only [Change.make, RequestChange.make, Option.getD_none, decide_true, Bool.and_true]
  | through settings rest hwords hread =>
      have hparse (a : Arguments) :
          parse words a = readCommand rest (Setting.setAll settings a) := by
        rw [parse, hread]
      cases rest with
      | nil =>
          refine Or.inl ⟨some .noCommand, ⟨settings, {}⟩, fun a => ?_⟩
          rw [hparse, readCommand]
          simp only [Change.make, RequestChange.make, Option.getD_none, decide_true, Bool.and_true]
      | cons word rest =>
          by_cases happly : word = text "apply"
          · subst happly
            refine Or.inr ⟨⟨rest, settings, hwords⟩, fun given => ?_⟩
            obtain ⟨e, c, hcommand⟩ := readCommand_apply_changes rest given
            refine ⟨e, ⟨settings, c⟩, fun a ha => ?_⟩
            rw [hparse, hcommand _ (by rw [source_setAll, ha])]
            rfl
          · obtain ⟨e, c, hcommand⟩ := readCommand_changes happly rest
            exact Or.inl ⟨e, ⟨settings, c⟩, fun a => by rw [hparse, hcommand]; rfl⟩

theorem parse_alike {words : List Bytes} {a b : Arguments} {e : Option UsageError} {c : Change}
    (ha : parse words a = (e, c.make a)) (hb : parse words b = (e, c.make b)) :
    (parse words a).1 = (parse words b).1 ∧
      ChangedAlike a b (parse words a).2 (parse words b).2 := by
  rw [ha, hb]
  exact ⟨rfl, c.alike a b⟩

/-- With a source there already, `apply` takes nothing but `--no-verify`. -/
theorem readApply_given_eq_none_iff {a : Arguments} (ha : a.request.source ≠ [])
    (words : List Bytes) :
    (readApply words a).1 = none ↔ ∀ word ∈ words, word = text "--no-verify" := by
  constructor
  · intro hnone
    obtain ⟨n, rfl⟩ := replicate_of_readApply ha (Prod.ext hnone rfl)
    exact fun word hword => List.eq_of_mem_replicate hword
  · intro hall
    have hread := readApply_replicate words.length [] a
    rw [List.append_nil, ← List.eq_replicate_of_mem hall, readApply_nil (by exact ha)] at hread
    rw [hread]

theorem source_readApply_given {a : Arguments} (ha : a.request.source ≠ [])
    (words : List Bytes) : (readApply words a).2.request.source = a.request.source := by
  obtain ⟨e, times, hread⟩ := readApply_given words
  rw [hread a ha]
  rfl

/-- Two readings of a line, into arguments that both have a source or both have
none, refuse it for the same reason or both take it, and change the arguments
alike. The same holds for any two arguments if the line does not come as far as
`apply`. Where there is a source and it does, it is taken if and only if nothing
but `--no-verify` follows. The source stays, and the first other word is refused
as unexpected. -/
theorem used_arguments_change_alike (words : List Bytes) :
    (∀ a b : Arguments, (a.request.source = [] ↔ b.request.source = []) →
      (parse words a).1 = (parse words b).1 ∧
        ChangedAlike a b (parse words a).2 (parse words b).2) ∧
    ((∀ rest, ¬ ReachesApply words rest) → ∀ a b : Arguments,
      (parse words a).1 = (parse words b).1 ∧
        ChangedAlike a b (parse words a).2 (parse words b).2) ∧
    ∀ rest, ReachesApply words rest → ∀ a : Arguments, a.request.source ≠ [] →
      ((parse words a).1 = none ↔ ∀ word ∈ rest, word = text "--no-verify") ∧
      (parse words a).2.request.source = a.request.source ∧
      ∀ n word after, rest = List.replicate n (text "--no-verify") ++ word :: after →
        word ≠ text "--no-verify" →
        ∀ before, errorText before (parse words a).1 =
          text "unexpected argument '" ++ word ++ text "' for apply" := by
  refine ⟨?_, ?_, ?_⟩
  · intro a b hsource
    rcases parse_changes words with ⟨e, c, hparse⟩ | ⟨-, hparse⟩
    · exact parse_alike (hparse a) (hparse b)
    · have hbit : b.request.source.isEmpty = a.request.source.isEmpty := by
        rw [Bool.eq_iff_iff, List.isEmpty_iff, List.isEmpty_iff, hsource]
      obtain ⟨e, c, hparse⟩ := hparse !a.request.source.isEmpty
      rw [Bool.not_not] at hparse
      exact parse_alike (hparse a rfl) (hparse b hbit)
  · intro hshort a b
    rcases parse_changes words with ⟨e, c, hparse⟩ | ⟨⟨rest, hreaches⟩, -⟩
    · exact parse_alike (hparse a) (hparse b)
    · exact absurd hreaches (hshort rest)
  · intro rest hreaches a ha
    obtain ⟨settings, hparse⟩ := parse_apply hreaches
    have hset : (Setting.setAll settings a).request.source ≠ [] := by rwa [source_setAll]
    rw [hparse, readCommand_apply]
    refine ⟨readApply_given_eq_none_iff (by exact hset) rest, ?_, ?_⟩
    · rw [source_readApply_given (by exact hset)]
      exact source_setAll settings a
    · rintro n word after rfl hflag before
      rw [readApply_replicate, readApply_unexpected hflag (by exact hset)]
      show text "unexpected argument '" ++ word ++ text "' for " ++ text "apply" = _
      rw [List.append_assoc, ← text_append]
      rfl

/-- A line that was refused for its second operand has left the first. The next
line does without one, and a third one is refused. -/
theorem used_arguments_change_alike_after_refusal :
    let used := (parse [text "apply", text "a.json", text "b.json"] {}).2
    let words := [text "-v", text "apply", text "--no-verify"]
    used.request.source = text "a.json" ∧ (parse words {}).1 = some .missingSource ∧
      (parse words used).1 = none ∧ (parse words used).2.request.source = text "a.json" ∧
      errorText [] (parse (words ++ [text "c.json"]) used).1 =
        text "unexpected argument 'c.json' for apply" := by
  intro used words
  have hsource : used.request.source = text "a.json" := by decide
  have hne : used.request.source ≠ [] := by rw [hsource]; decide
  obtain ⟨hnone, hkept, -⟩ :=
    (used_arguments_change_alike words).2.2 [text "--no-verify"] ⟨[.verbose], rfl⟩ used hne
  obtain ⟨-, -, hrefused⟩ :=
    (used_arguments_change_alike (words ++ [text "c.json"])).2.2
      [text "--no-verify", text "c.json"] ⟨[.verbose], rfl⟩ used hne
  have hrest := hrefused 1 (text "c.json") [] rfl (by decide) []
  rw [hsource] at hkept
  refine ⟨hsource, by decide, hnone.mpr ?_, hkept, ?_⟩
  · exact fun word hword => List.mem_singleton.mp hword
  · rw [hrest]
    rfl

end CommandLine

end DaemonLink
