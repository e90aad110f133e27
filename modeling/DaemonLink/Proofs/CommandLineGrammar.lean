import DaemonLink.CommandLine.Parse

/-!
# The grammar of the command line

The parser reads from left to right and sets one thing after another. What it
accepts can be said without it: a line is any number of settings and then one
order, each with its own words, and here it is a tree of that shape. The tree
says what words it is written with and what it means, and the meaning takes no
account of reading: of several values for one thing the last counts, and the
verbosity is a difference of two counts.

The parser and the tree meet in one lemma per loop. Reading the words of a
setting is one round of the loop of options, so reading a list of them is a
fold; and a loop that ends well has read the words of some list. The only
choice in the grammar that depends on what was read before is that of an empty
word after `apply`, which is taken as long as there is no operand. So the words
of that order are split at the operand, and before it the source stays empty.
-/

namespace DaemonLink

namespace CommandLine

/-! ## Lines -/

/-- A setting in front of the order. The value of a timeout is a number. -/
inductive Setting
  | verbose
  | quiet
  | config (path : Bytes)
  | socket (path : Bytes)
  | timeout (value : Bytes) (n : Nat) (h : Numeral.parse? value = some n)
  deriving DecidableEq

namespace Setting

def words : Setting → List Bytes
  | verbose => [text "-v"]
  | quiet => [text "-q"]
  | config path => [text "-c", path]
  | socket path => [text "-s", path]
  | timeout value _ _ => [text "-t", value]

def config? : Setting → Option Bytes
  | config path => some path
  | _ => none

def socket? : Setting → Option Bytes
  | socket path => some path
  | _ => none

def timeout? : Setting → Option Int
  | timeout _ n _ => some n
  | _ => none

/-- What reading the setting does to the arguments. -/
def set : Setting → Arguments → Arguments
  | verbose, a => { a with verbosity := a.verbosity + 1 }
  | quiet, a => { a with verbosity := a.verbosity - 1 }
  | config path, a => { a with configPath := path, configGiven := true }
  | socket path, a => { a with socketPath := path }
  | timeout _ n _, a => { a with timeout := n }

/-- What reading one setting after another does to the arguments. -/
def setAll (settings : List Setting) (a : Arguments) : Arguments :=
  settings.foldl (fun a s => s.set a) a

end Setting

/-- A state that can be shown. -/
inductive Flag
  | saved
  | postLastCommit
  | running

namespace Flag

def word : Flag → Bytes
  | saved => text "--saved"
  | postLastCommit => text "--post-last-commit"
  | running => text "--running"

def kind : Flag → StateKind
  | saved => .saved
  | postLastCommit => .postLastCommit
  | running => .running

end Flag

/-- What may stand before the operand of `apply`. -/
inductive Filler
  | noVerify
  | empty
  deriving DecidableEq

def Filler.word : Filler → Bytes
  | noVerify => text "--no-verify"
  | empty => []

/-- The operand of `apply`: a hyphen, or a word that does not start with one. -/
structure Operand where
  word : Bytes
  named : word = text "-" ∨ word ≠ [] ∧ word.head? ≠ some hyphen

/-- A command with what it takes. Behind the operand of `apply` there is room
only for `--no-verify`, so many times. -/
inductive Order
  | ping
  | show (flags : List Flag)
  | apply (before : List Filler) (operand : Operand) (after : Nat)

namespace Order

def words : Order → List Bytes
  | ping => [text "ping"]
  | .show flags => text "show" :: flags.map Flag.word
  | apply before operand after =>
      text "apply" ::
        (before.map Filler.word ++ operand.word :: List.replicate after (text "--no-verify"))

def request : Order → Request
  | ping => { command := .ping }
  | .show flags =>
      { command := .show, showKind := (flags.getLast?.map Flag.kind).getD .running }
  | apply before operand after =>
      { command := .apply
        source := operand.word
        verify := before.count .noVerify + after = 0 }

end Order

/-- A command line. -/
structure Line where
  settings : List Setting
  order : Order

namespace Line

def words (line : Line) : List Bytes :=
  line.settings.flatMap Setting.words ++ line.order.words

/-- What the line means: of each setting the last value that is given. -/
def arguments (line : Line) : Arguments where
  configPath := (line.settings.filterMap Setting.config?).getLast?.getD (text "nipc_config.json")
  configGiven := !(line.settings.filterMap Setting.config?).isEmpty
  socketPath := (line.settings.filterMap Setting.socket?).getLast?.getD []
  timeout := (line.settings.filterMap Setting.timeout?).getLast?.getD (-1)
  verbosity := line.settings.count .verbose - line.settings.count .quiet
  request := line.order.request

end Line

/-! ## Settings -/

def Switch.word : Switch → Bytes
  | verbose => text "-v"
  | quiet => text "-q"
  | config => text "-c"
  | socket => text "-s"
  | timeout => text "-t"

theorem Switch.eq_word {word : Bytes} {switch : Switch} (h : ofWord? word = some switch) :
    word = switch.word := by
  simp only [ofWord?] at h
  split at h
  · cases h; assumption
  · split at h
    · cases h; assumption
    · split at h
      · cases h; assumption
      · split at h
        · cases h; assumption
        · split at h
          · cases h; assumption
          · cases h

theorem readOptions_stop {word : Bytes} (h : startsOption word = false) (rest : List Bytes)
    (a : Arguments) : readOptions (word :: rest) a = (.ok (word :: rest), a) := by
  rw [readOptions, h]
  rfl

theorem readOptions_setting (s : Setting) (rest : List Bytes) (a : Arguments) :
    readOptions (s.words ++ rest) a = readOptions rest (s.set a) := by
  cases s with
  | verbose => rfl
  | quiet => rfl
  | config path => rfl
  | socket path => rfl
  | timeout value n h =>
      have hvalue : setValue .timeout value a = .ok (Setting.set (.timeout value n h) a) := by
        simp only [setValue, h]
        rfl
      have hswitch : Switch.ofWord? (text "-t") = some .timeout := rfl
      have hstarts : startsOption (text "-t") = true := rfl
      simp only [Setting.words, List.cons_append, List.nil_append]
      rw [readOptions, hstarts]
      simp only [hswitch, hvalue, Bool.not_true, Bool.false_eq_true, if_false]

theorem readOptions_settings (settings : List Setting) (rest : List Bytes) (a : Arguments) :
    readOptions (settings.flatMap Setting.words ++ rest) a =
      readOptions rest (Setting.setAll settings a) := by
  induction settings generalizing a with
  | nil => rfl
  | cons s more ih =>
      rw [List.flatMap_cons, List.append_assoc, readOptions_setting, ih]
      rfl

theorem parse_settings (settings : List Setting) (rest : List Bytes) (a : Arguments) :
    parse (settings.flatMap Setting.words ++ rest) a = parse rest (Setting.setAll settings a) := by
  rw [parse, readOptions_settings]
  rfl

theorem parse_timeout {value : Bytes} {n : Nat} (h : Numeral.parse? value = some n)
    (rest : List Bytes) (a : Arguments) :
    parse (text "-t" :: value :: rest) a = parse rest { a with timeout := n } :=
  parse_settings [.timeout value n h] rest a

theorem readOptions_invalid_timeout {value : Bytes} (h : Numeral.parse? value = none)
    (rest : List Bytes) (a : Arguments) :
    readOptions (text "-t" :: value :: rest) a = (.error (.invalidTimeout value), a) := by
  have hswitch : Switch.ofWord? (text "-t") = some .timeout := rfl
  have hstarts : startsOption (text "-t") = true := rfl
  rw [readOptions, hstarts]
  simp only [hswitch, setValue, h, Bool.not_true, Bool.false_eq_true, if_false]

theorem parse_invalid_timeout {value : Bytes} (h : Numeral.parse? value = none)
    (rest : List Bytes) (a : Arguments) :
    parse (text "-t" :: value :: rest) a = (some (.invalidTimeout value), a) := by
  rw [parse, readOptions_invalid_timeout h]

/-- A value that is taken for an option makes a setting of the two. -/
theorem setting_of_setValue {switch : Switch} {value : Bytes} {a b : Arguments}
    (hverbose : switch ≠ .verbose) (hquiet : switch ≠ .quiet)
    (h : setValue switch value a = .ok b) :
    ∃ s : Setting, s.words = [switch.word, value] ∧ b = s.set a := by
  cases switch with
  | verbose => exact absurd rfl hverbose
  | quiet => exact absurd rfl hquiet
  | config => cases h; exact ⟨.config value, rfl, rfl⟩
  | socket => cases h; exact ⟨.socket value, rfl, rfl⟩
  | timeout =>
      simp only [setValue] at h
      split at h
      · next n hn => cases h; exact ⟨.timeout value n hn, rfl, rfl⟩
      · cases h

/-- What the loop of options has read when it ends well are settings. -/
theorem settings_of_readOptions {words rest : List Bytes} {a b : Arguments}
    (h : readOptions words a = (.ok rest, b)) :
    ∃ settings : List Setting, words = settings.flatMap Setting.words ++ rest ∧
      b = Setting.setAll settings a := by
  fun_induction readOptions words a with
  | case1 a => cases h; exact ⟨[], rfl, rfl⟩
  | case2 a word more _ => cases h; exact ⟨[], rfl, rfl⟩
  | case3 a word more _ _ => cases h
  | case4 a word more _ hword ih =>
      obtain ⟨settings, hwords, hb⟩ := ih h
      refine ⟨.verbose :: settings, ?_, hb⟩
      rw [Switch.eq_word hword, hwords]
      rfl
  | case5 a word more _ hword ih =>
      obtain ⟨settings, hwords, hb⟩ := ih h
      refine ⟨.quiet :: settings, ?_, hb⟩
      rw [Switch.eq_word hword, hwords]
      rfl
  | case6 => cases h
  | case7 => cases h
  | case8 a word _ switch hverbose hquiet hword value more b' hvalue ih =>
      obtain ⟨settings, hwords, hb⟩ := ih h
      obtain ⟨s, hs, rfl⟩ :=
        setting_of_setValue (fun heq => hverbose heq) (fun heq => hquiet heq) hvalue
      refine ⟨s :: settings, ?_, hb⟩
      rw [Switch.eq_word hword, List.flatMap_cons, hs, hwords]
      rfl

/-- What a list of settings does to the arguments, told from the list. -/
theorem setAll_eq (settings : List Setting) (a : Arguments) :
    Setting.setAll settings a =
      { a with
        configPath := (settings.filterMap Setting.config?).getLast?.getD a.configPath
        configGiven := a.configGiven || !(settings.filterMap Setting.config?).isEmpty
        socketPath := (settings.filterMap Setting.socket?).getLast?.getD a.socketPath
        timeout := (settings.filterMap Setting.timeout?).getLast?.getD a.timeout
        verbosity := a.verbosity + (settings.count .verbose - settings.count .quiet) } := by
  induction settings generalizing a with
  | nil => simp [Setting.setAll]
  | cons s more ih =>
      have hstep : Setting.setAll (s :: more) a = Setting.setAll more (s.set a) := rfl
      rw [hstep, ih]
      cases s with
      | verbose | quiet =>
          simp only [Setting.set, Setting.config?, Setting.socket?, Setting.timeout?,
            List.filterMap_cons, List.count_cons_self, List.count_cons_of_ne, ne_eq,
            reduceCtorEq, not_false_eq_true, Int.natCast_add, Int.cast_ofNat_Int,
            Arguments.mk.injEq, and_true, true_and]
          omega
      | config path | socket path | timeout value n h =>
          simp [Setting.set, Setting.config?, Setting.socket?, Setting.timeout?,
            List.filterMap_cons, List.getLast?_cons]

/-! ## Orders -/

theorem Flag.shownState?_word (flag : Flag) : shownState? flag.word = some flag.kind := by
  cases flag <;> rfl

theorem Flag.eq_word {word : Bytes} {kind : StateKind} (h : shownState? word = some kind) :
    ∃ flag : Flag, word = flag.word ∧ kind = flag.kind := by
  simp only [shownState?] at h
  split at h
  · cases h; exact ⟨.saved, by assumption, rfl⟩
  · split at h
    · cases h; exact ⟨.postLastCommit, by assumption, rfl⟩
    · split at h
      · cases h; exact ⟨.running, by assumption, rfl⟩
      · cases h

/-- The arguments with another state to be shown, if there is one. -/
def withShown (a : Arguments) (kind : Option StateKind) : Arguments :=
  { a with request := { a.request with showKind := kind.getD a.request.showKind } }

theorem readShow_append (flags : List Flag) (rest : List Bytes) (a : Arguments) :
    readShow (flags.map Flag.word ++ rest) a =
      readShow rest (withShown a (flags.getLast?.map Flag.kind)) := by
  induction flags generalizing a with
  | nil => rfl
  | cons flag more ih =>
      rw [List.map_cons, List.cons_append, readShow]
      simp only [flag.shownState?_word]
      rw [ih, List.getLast?_cons]
      cases more.getLast? <;> rfl

theorem readShow_flags (flags : List Flag) (a : Arguments) :
    readShow (flags.map Flag.word) a = (none, withShown a (flags.getLast?.map Flag.kind)) := by
  have h := readShow_append flags [] a
  rwa [List.append_nil] at h

theorem flags_of_readShow {words : List Bytes} {a b : Arguments}
    (h : readShow words a = (none, b)) :
    ∃ flags : List Flag, words = flags.map Flag.word ∧
      b = withShown a (flags.getLast?.map Flag.kind) := by
  suffices hwords : ∃ flags : List Flag, words = flags.map Flag.word by
    obtain ⟨flags, rfl⟩ := hwords
    rw [readShow_flags, Prod.mk.injEq] at h
    exact ⟨flags, rfl, h.2.symm⟩
  fun_induction readShow words a with
  | case1 a => exact ⟨[], rfl⟩
  | case2 a word more _ => cases h
  | case3 a word more kind hkind ih =>
      obtain ⟨flags, rfl⟩ := ih h
      obtain ⟨flag, rfl, -⟩ := Flag.eq_word hkind
      exact ⟨flag :: flags, rfl⟩

/-- The arguments after `--no-verify` so many times. -/
def unverified (a : Arguments) (times : Nat) : Arguments :=
  { a with request := { a.request with verify := a.request.verify && times = 0 } }

theorem source_unverified {a : Arguments} (times : Nat) :
    (unverified a times).request.source = a.request.source := rfl

theorem unverified_zero (a : Arguments) : unverified a 0 = a := by
  simp only [unverified, decide_true, Bool.and_true]

theorem readApply_noVerify (rest : List Bytes) (a : Arguments) :
    readApply (text "--no-verify" :: rest) a = readApply rest (unverified a 1) := by
  rw [readApply, if_pos rfl]
  simp only [unverified, Nat.one_ne_zero, decide_false, Bool.and_false]

theorem unverified_add (a : Arguments) (m n : Nat) :
    unverified (unverified a m) n = unverified a (m + n) := by
  simp only [unverified, Bool.and_assoc, ← Bool.decide_and, Nat.add_eq_zero_iff]

theorem readApply_fillers (before : List Filler) (rest : List Bytes) {a : Arguments}
    (ha : a.request.source = []) :
    readApply (before.map Filler.word ++ rest) a =
      readApply rest (unverified a (before.count .noVerify)) := by
  induction before generalizing a with
  | nil => rw [List.count_nil, unverified_zero]; rfl
  | cons filler more ih =>
      cases filler with
      | noVerify =>
          have hnone : (unverified a 1).request.source = [] := by rw [source_unverified, ha]
          rw [List.map_cons, List.cons_append, Filler.word, readApply_noVerify, ih hnone,
            unverified_add, List.count_cons_self, Nat.add_comm]
      | empty =>
          have hstill : { a with request := { a.request with source := [] } } = a := by
            rw [← ha]
          rw [List.map_cons, List.cons_append, Filler.word, readApply, if_neg (by decide),
            ha, if_pos (by decide), hstill, ih ha, List.count_cons_of_ne (by decide)]

theorem readApply_operand (operand : Operand) (rest : List Bytes) {a : Arguments}
    (ha : a.request.source = []) :
    readApply (operand.word :: rest) a =
      readApply rest { a with request := { a.request with source := operand.word } } := by
  have hflag : operand.word ≠ text "--no-verify" := by
    rcases operand.named with h | ⟨-, h⟩
    · rw [h]; decide
    · intro heq
      rw [heq] at h
      exact h rfl
  have hsource : isSource operand.word = true := by
    rcases operand.named with h | ⟨-, h⟩
    · rw [h]; rfl
    · simp [isSource, h]
  rw [readApply, if_neg hflag, ha, hsource, if_pos (by decide)]

theorem readApply_replicate (n : Nat) (rest : List Bytes) (a : Arguments) :
    readApply (List.replicate n (text "--no-verify") ++ rest) a =
      readApply rest (unverified a n) := by
  induction n generalizing a with
  | zero => rw [unverified_zero]; rfl
  | succ n ih =>
      rw [List.replicate_succ, List.cons_append, readApply_noVerify, ih, unverified_add,
        Nat.add_comm]

theorem readApply_nil {a : Arguments} (ha : a.request.source ≠ []) :
    readApply [] a = (none, a) := by
  rw [readApply, if_neg (by simpa using ha)]

theorem Operand.ne_nil (operand : Operand) : operand.word ≠ [] := by
  rcases operand.named with h | ⟨h, -⟩
  · rw [h]; decide
  · exact h

theorem readApply_append (before : List Filler) (operand : Operand) (after : Nat)
    (rest : List Bytes) {a : Arguments} (ha : a.request.source = []) :
    readApply (before.map Filler.word ++
        operand.word :: (List.replicate after (text "--no-verify") ++ rest)) a =
      readApply rest (unverified
        { a with request := { a.request with source := operand.word } }
        (before.count .noVerify + after)) := by
  rw [readApply_fillers before _ ha, readApply_operand operand _ (by exact ha),
    readApply_replicate, ← unverified_add]
  rfl

theorem readApply_words (before : List Filler) (operand : Operand) (after : Nat)
    {a : Arguments} (ha : a.request.source = []) :
    readApply (before.map Filler.word ++
        operand.word :: List.replicate after (text "--no-verify")) a =
      (none, unverified
        { a with request := { a.request with source := operand.word } }
        (before.count .noVerify + after)) := by
  have h := readApply_append before operand after [] ha
  rwa [List.append_nil, readApply_nil (by exact operand.ne_nil)] at h

/-- Once there is an operand, only `--no-verify` can follow. -/
theorem replicate_of_readApply {words : List Bytes} {a b : Arguments}
    (ha : a.request.source ≠ []) (h : readApply words a = (none, b)) :
    ∃ n, words = List.replicate n (text "--no-verify") := by
  induction words generalizing a with
  | nil => exact ⟨0, rfl⟩
  | cons word more ih =>
      by_cases hflag : word = text "--no-verify"
      · subst hflag
        rw [readApply_noVerify] at h
        obtain ⟨n, rfl⟩ := ih (a := unverified a 1) ha h
        exact ⟨n + 1, rfl⟩
      · have hempty : a.request.source.isEmpty = false := by simpa using ha
        rw [readApply, if_neg hflag, hempty, if_neg (by simp)] at h
        cases h

/-- A word that is taken for an operand and is one. -/
theorem named_of_isSource {word : Bytes} (h : isSource word = true) (hne : word ≠ []) :
    word = text "-" ∨ word ≠ [] ∧ word.head? ≠ some hyphen := by
  simp only [isSource, Bool.or_eq_true, decide_eq_true_eq] at h
  rcases h with h | h
  · exact Or.inl h
  · exact Or.inr ⟨hne, h⟩

theorem words_of_readApply {words : List Bytes} {a b : Arguments}
    (ha : a.request.source = []) (h : readApply words a = (none, b)) :
    ∃ (before : List Filler) (operand : Operand) (after : Nat),
      words = before.map Filler.word ++
        operand.word :: List.replicate after (text "--no-verify") := by
  induction words generalizing a with
  | nil =>
      rw [readApply, ha] at h
      cases h
  | cons word more ih =>
      by_cases hflag : word = text "--no-verify"
      · subst hflag
        rw [readApply_noVerify] at h
        obtain ⟨before, operand, after, rfl⟩ := ih (a := unverified a 1) ha h
        exact ⟨.noVerify :: before, operand, after, rfl⟩
      · rw [readApply, if_neg hflag, ha] at h
        split at h
        · next hsource =>
            by_cases hword : word = []
            · -- An empty word leaves the source as empty as it was.
              subst hword
              obtain ⟨before, operand, after, rfl⟩ := ih (by rfl) h
              exact ⟨.empty :: before, operand, after, rfl⟩
            · rw [List.isEmpty_nil, Bool.true_and] at hsource
              obtain ⟨n, rfl⟩ := replicate_of_readApply (by exact hword) h
              exact ⟨[], ⟨word, named_of_isSource hsource hword⟩, n, rfl⟩
        · cases h

/-! ## Lines -/

theorem readCommand_words (order : Order) {a : Arguments} (ha : a.request = {}) :
    readCommand order.words a = (none, { a with request := order.request }) := by
  obtain ⟨configPath, configGiven, socketPath, timeout, verbosity, request⟩ := a
  subst ha
  cases order with
  | ping => rfl
  | «show» flags =>
      rw [Order.words, readCommand, if_neg (by decide), if_pos rfl, readShow_flags]
      rfl
  | apply before operand after =>
      rw [Order.words, readCommand, if_neg (by decide), if_neg (by decide), if_pos rfl,
        readApply_words before operand after (by rfl)]
      simp only [unverified, Order.request, Bool.true_and]

theorem order_of_readCommand {words : List Bytes} {a b : Arguments} (ha : a.request = {})
    (h : readCommand words a = (none, b)) : ∃ order : Order, words = order.words := by
  cases words with
  | nil => cases h
  | cons word rest =>
      rw [readCommand] at h
      split at h
      · next hword =>
          cases rest with
          | nil => exact ⟨.ping, by rw [hword]; rfl⟩
          | cons => cases h
      · split at h
        · next hword =>
            obtain ⟨flags, rfl, -⟩ := flags_of_readShow h
            exact ⟨.show flags, by rw [hword]; rfl⟩
        · split at h
          · next hword =>
              obtain ⟨before, operand, after, rfl⟩ :=
                words_of_readApply (by rw [ha]) h
              exact ⟨.apply before operand after, by rw [hword]; rfl⟩
          · cases h

theorem Order.starts (order : Order) :
    ∃ word rest, order.words = word :: rest ∧ startsOption word = false := by
  cases order with
  | ping => exact ⟨_, _, rfl, rfl⟩
  | «show» flags => exact ⟨_, _, rfl, rfl⟩
  | apply before operand after => exact ⟨_, _, rfl, rfl⟩

theorem parse_words (line : Line) : parse line.words {} = (none, line.arguments) := by
  obtain ⟨word, rest, hwords, hstarts⟩ := line.order.starts
  have hrequest : (Setting.setAll line.settings {}).request = {} := by
    rw [setAll_eq]
  have hread := readCommand_words line.order hrequest
  rw [parse, Line.words, readOptions_settings]
  rw [hwords] at hread ⊢
  rw [readOptions_stop hstarts]
  simp only [hread]
  rw [setAll_eq]
  simp [Line.arguments]

theorem line_of_parse {words : List Bytes} {b : Arguments} (h : parse words {} = (none, b)) :
    ∃ line : Line, words = line.words := by
  rw [parse] at h
  split at h
  · cases h
  · next rest a hread =>
      obtain ⟨settings, rfl, rfl⟩ := settings_of_readOptions hread
      have hrequest : (Setting.setAll settings {}).request = {} := by
        rw [setAll_eq]
      obtain ⟨order, rfl⟩ := order_of_readCommand hrequest h
      exact ⟨⟨settings, order⟩, rfl⟩

/-- The text of the error after a line was read, if it was `before`: only a
refusal writes to it. -/
def errorText (before : Bytes) : Option UsageError → Bytes
  | none => before
  | some e => e.message

/-- The words behind the name of the program are accepted if and only if some
line is written with them, and then the arguments are what this line means and
the text of the error is as it was. -/
theorem parse_accepts_lines (argv : List Bytes) :
    ((parse (argv.drop 1) {}).1 = none ↔ ∃ line : Line, argv.drop 1 = line.words) ∧
    ∀ line : Line, argv.drop 1 = line.words →
      (parse (argv.drop 1) {}).2 = line.arguments ∧
      ∀ before, errorText before (parse (argv.drop 1) {}).1 = before := by
  refine ⟨⟨fun h => line_of_parse (Prod.ext h rfl), ?_⟩, ?_⟩
  · rintro ⟨line, hline⟩
    rw [hline, parse_words]
  · intro line hline
    rw [hline, parse_words]
    exact ⟨rfl, fun _ => rfl⟩

/-- An option that is taken as the value of another one, an empty word, and the
standard input. -/
theorem parse_accepts_lines_switch_as_value :
    let argv := [text "ctl", text "-c", text "-v", text "-q", text "-t", text " +5",
      text "apply", [], text "--no-verify", text "-"]
    let line : Line :=
      ⟨[.config (text "-v"), .quiet, .timeout (text " +5") 5 rfl],
        .apply [.empty, .noVerify] ⟨text "-", Or.inl rfl⟩ 0⟩
    argv.drop 1 = line.words ∧
      (parse (argv.drop 1) {}).2 =
        { configPath := text "-v"
          configGiven := true
          timeout := 5
          verbosity := -1
          request := { command := .apply, source := text "-", verify := false } } ∧
      ∀ before, errorText before (parse (argv.drop 1) {}).1 = before := by
  intro argv line
  have hwords : argv.drop 1 = line.words := by decide
  have hmeaning : line.arguments =
      { configPath := text "-v"
        configGiven := true
        timeout := 5
        verbosity := -1
        request := { command := .apply, source := text "-", verify := false } } := by
    decide
  rw [← hmeaning]
  exact ⟨hwords, (parse_accepts_lines argv).2 line hwords⟩

end CommandLine

end DaemonLink
