import DaemonLink.Proofs.CommandLineGrammar

/-!
# Where a command line goes wrong

A line that is refused has a well-formed front, and reading stops behind it.
There are two ways to stop. A word may stand there that nothing can make right:
then it does not matter what follows it. Or the line may simply end too early,
and then some words would complete it.

Both are said of the words alone, without the parser. The front is a tree like
that of a whole line, except that the order may be missing, or may be an
`apply` that has no operand yet. What can offend behind a front, or be lacking
there, depends only on how far its order has come. Every list of words is a
line, or a front with a word that offends, or a front that lacks something,
which is seen by walking through the words once. The parser comes in only at
the end: behind the words of a front it is in the loop that the front says,
with what the front means as its arguments, so it answers as the front says.
-/

namespace DaemonLink

namespace CommandLine

/-! ## Fronts of lines -/

/-- As much of an order as there is in front of the word that ends it. -/
inductive Opening
  | nothing
  | applying (before : List Filler)
  | whole (order : Order)

namespace Opening

def words : Opening → List Bytes
  | nothing => []
  | applying before => text "apply" :: before.map Filler.word
  | whole order => order.words

def request : Opening → Request
  | nothing => {}
  | applying before => { command := .apply, verify := before.count .noVerify = 0 }
  | whole order => order.request

end Opening

/-- The front of a line: settings that are complete, and what there is of the
order. -/
structure Front where
  settings : List Setting
  opening : Opening

namespace Front

def words (front : Front) : List Bytes :=
  front.settings.flatMap Setting.words ++ front.opening.words

/-- What the front does to the arguments. -/
def arguments (front : Front) : Arguments :=
  { Setting.setAll front.settings {} with request := front.opening.request }

end Front

/-- The options that take a value. -/
def Switch.valued : List Switch := [.config, .socket, .timeout]

/-- A word cannot stand behind an opening, and this is what is said about it.
The words between the two are those of an option whose value it would be. -/
inductive Offends : Opening → List Bytes → Bytes → Bytes → Prop
  | option {word : Bytes} (hstarts : startsOption word = true)
      (hunknown : ∀ switch : Switch, word ≠ switch.word) :
      Offends .nothing [] word (text "unknown option '" ++ word ++ text "'")
  | timeout {value : Bytes} (hinvalid : Numeral.parse? value = none) :
      Offends .nothing [text "-t"] value (text "invalid timeout '" ++ value ++ text "'")
  | command {word : Bytes} (hstarts : startsOption word = false) (hping : word ≠ text "ping")
      (hshow : word ≠ text "show") (happly : word ≠ text "apply") :
      Offends .nothing [] word (text "unknown command '" ++ word ++ text "'")
  | ping {word : Bytes} :
      Offends (.whole .ping) [] word
        (text "unexpected argument '" ++ word ++ text "' for " ++ text "ping")
  | show {flags : List Flag} {word : Bytes} (hunknown : ∀ flag : Flag, word ≠ flag.word) :
      Offends (.whole (.show flags)) [] word
        (text "unexpected argument '" ++ word ++ text "' for " ++ text "show")
  | operand {before : List Filler} {word : Bytes} (hstarts : startsOption word = true)
      (hflag : word ≠ text "--no-verify") :
      Offends (.applying before) [] word
        (text "unexpected argument '" ++ word ++ text "' for " ++ text "apply")
  | applied {before : List Filler} {operand : Operand} {after : Nat} {word : Bytes}
      (hflag : word ≠ text "--no-verify") :
      Offends (.whole (.apply before operand after)) [] word
        (text "unexpected argument '" ++ word ++ text "' for " ++ text "apply")

/-- A line cannot end behind an opening, or behind an option that stands there
without its value, and this is what is said about it. -/
inductive Lacks : Opening → List Bytes → Bytes → Prop
  | command : Lacks .nothing [] (text "no command given")
  | value {switch : Switch} (hvalued : switch ∈ Switch.valued) :
      Lacks .nothing [switch.word]
        (text "option " ++ switch.word ++ text " requires a value")
  | source {before : List Filler} :
      Lacks (.applying before) [] (text "apply requires a state file or '-'")

/-! ## Every list of words is one of three things -/

/-- What a list of words is. -/
inductive Kind (words : List Bytes) : Prop
  | line (line : Line) (h : words = line.words)
  | offended (front : Front) (pending : List Bytes) (word : Bytes) (after : List Bytes)
      (err : Bytes) (h : words = front.words ++ pending ++ word :: after)
      (hoffends : Offends front.opening pending word err)
  | lacking (front : Front) (pending : List Bytes) (err : Bytes)
      (h : words = front.words ++ pending) (hlacks : Lacks front.opening pending err)

theorem Kind.setting {words : List Bytes} (kind : Kind words) (s : Setting) :
    Kind (s.words ++ words) := by
  cases kind with
  | line line h =>
      refine .line ⟨s :: line.settings, line.order⟩ ?_
      rw [h, Line.words, Line.words, List.flatMap_cons, List.append_assoc]
  | offended front pending word after err h hoffends =>
      refine .offended ⟨s :: front.settings, front.opening⟩ pending word after err ?_ hoffends
      rw [h, Front.words, Front.words, List.flatMap_cons]
      simp only [List.append_assoc]
  | lacking front pending err h hlacks =>
      refine .lacking ⟨s :: front.settings, front.opening⟩ pending err ?_ hlacks
      rw [h, Front.words, Front.words, List.flatMap_cons]
      simp only [List.append_assoc]

/-- Take words of one sort from the front until one is of another. -/
theorem longest_front {α : Type} (word : α → Bytes) (words : List Bytes) :
    ∃ (items : List α) (rest : List Bytes), words = items.map word ++ rest ∧
      (rest = [] ∨ ∃ w after, rest = w :: after ∧ ∀ x, w ≠ word x) := by
  induction words with
  | nil => exact ⟨[], [], rfl, Or.inl rfl⟩
  | cons w more ih =>
      by_cases hword : ∃ x, w = word x
      · obtain ⟨x, rfl⟩ := hword
        obtain ⟨items, rest, rfl, hrest⟩ := ih
        exact ⟨x :: items, rest, rfl, hrest⟩
      · exact ⟨[], w :: more, rfl, Or.inr ⟨w, more, rfl, not_exists.mp hword⟩⟩

theorem kind_ping (words : List Bytes) : Kind (text "ping" :: words) := by
  cases words with
  | nil => exact .line ⟨[], .ping⟩ rfl
  | cons word after => exact .offended ⟨[], .whole .ping⟩ [] word after _ rfl .ping

theorem kind_show (words : List Bytes) : Kind (text "show" :: words) := by
  obtain ⟨flags, rest, rfl, rfl | ⟨word, after, rfl, hunknown⟩⟩ :=
    longest_front Flag.word words
  · refine .line ⟨[], .show flags⟩ ?_
    rw [List.append_nil]
    rfl
  · refine .offended ⟨[], .whole (.show flags)⟩ [] word after _ ?_ (.show hunknown)
    simp only [Front.words, Opening.words, Order.words, List.flatMap_nil, List.nil_append,
      List.append_nil, List.cons_append]

theorem kind_applied (before : List Filler) (operand : Operand) (words : List Bytes) :
    Kind (text "apply" :: (before.map Filler.word ++ operand.word :: words)) := by
  obtain ⟨flags, rest, rfl, hrest⟩ :=
    longest_front (fun _ : Unit => text "--no-verify") words
  rw [List.map_const']
  rcases hrest with rfl | ⟨word, after, rfl, hflag⟩
  · refine .line ⟨[], .apply before operand flags.length⟩ ?_
    rw [List.append_nil]
    rfl
  · refine .offended ⟨[], .whole (.apply before operand flags.length)⟩ [] word after _ ?_
      (.applied (hflag ()))
    simp only [Front.words, Opening.words, Order.words, List.flatMap_nil, List.nil_append,
      List.append_nil, List.cons_append, List.append_assoc]

theorem isSource_eq (word : Bytes) : isSource word = !startsOption word := by
  rw [isSource, startsOption]
  by_cases hhyphen : word.head? = some hyphen <;> by_cases hin : word = standardInput <;>
    simp [hhyphen, hin]

theorem kind_apply (words : List Bytes) : Kind (text "apply" :: words) := by
  obtain ⟨before, rest, rfl, rfl | ⟨word, after, rfl, hother⟩⟩ :=
    longest_front Filler.word words
  · refine .lacking ⟨[], .applying before⟩ [] _ ?_ .source
    simp only [Front.words, Opening.words, List.flatMap_nil, List.nil_append, List.append_nil]
  · cases hstarts : startsOption word with
    | false =>
        have hsource : isSource word = true := by rw [isSource_eq, hstarts]; rfl
        exact kind_applied before ⟨word, named_of_isSource hsource (hother .empty)⟩ after
    | true =>
        refine .offended ⟨[], .applying before⟩ [] word after _ ?_
          (.operand hstarts (hother .noVerify))
        simp only [Front.words, Opening.words, List.flatMap_nil, List.nil_append,
          List.append_nil, List.cons_append]

theorem kind_order {word : Bytes} (hstarts : startsOption word = false) (words : List Bytes) :
    Kind (word :: words) := by
  by_cases hping : word = text "ping"
  · subst hping
    exact kind_ping words
  by_cases hshow : word = text "show"
  · subst hshow
    exact kind_show words
  by_cases happly : word = text "apply"
  · subst happly
    exact kind_apply words
  exact .offended ⟨[], .nothing⟩ [] word words _ rfl (.command hstarts hping hshow happly)

theorem Switch.ofWord?_word (switch : Switch) : ofWord? switch.word = some switch := by
  cases switch <;> rfl

theorem Switch.mem_valued {switch : Switch} (hverbose : switch ≠ .verbose)
    (hquiet : switch ≠ .quiet) : switch ∈ valued := by
  cases switch with
  | verbose => exact absurd rfl hverbose
  | quiet => exact absurd rfl hquiet
  | config | socket | timeout => decide

theorem invalid_of_setValue {switch : Switch} {value : Bytes} {a : Arguments} {e : UsageError}
    (h : setValue switch value a = .error e) :
    switch = .timeout ∧ Numeral.parse? value = none := by
  cases switch with
  | verbose | quiet | config | socket => cases h
  | timeout =>
      simp only [setValue] at h
      split at h
      · cases h
      · next hnone => exact ⟨rfl, hnone⟩

/-- The walk through the settings is the parser's, and no more of it is used. -/
theorem kind_of_words (words : List Bytes) : Kind words := by
  fun_induction readOptions words {} with
  | case1 => exact .lacking ⟨[], .nothing⟩ [] _ rfl .command
  | case2 word more a hstarts => exact kind_order (by simpa using hstarts) more
  | case3 word more a hstarts hword =>
      have hunknown (switch : Switch) : word ≠ switch.word := by
        rintro rfl
        rw [switch.ofWord?_word] at hword
        cases hword
      exact .offended ⟨[], .nothing⟩ [] word more _ rfl (.option (by simpa using hstarts) hunknown)
  | case4 word more a _ hword ih =>
      rw [Switch.eq_word hword]
      exact ih.setting .verbose
  | case5 word more a _ hword ih =>
      rw [Switch.eq_word hword]
      exact ih.setting .quiet
  | case6 word a _ switch hverbose hquiet hword =>
      rw [Switch.eq_word hword]
      exact .lacking ⟨[], .nothing⟩ [switch.word] _ rfl
        (.value (Switch.mem_valued hverbose hquiet))
  | case7 word a _ switch _ _ hword value more e hvalue =>
      obtain ⟨rfl, hinvalid⟩ := invalid_of_setValue hvalue
      rw [Switch.eq_word hword]
      exact .offended ⟨[], .nothing⟩ [text "-t"] value more _ rfl (.timeout hinvalid)
  | case8 word a _ switch hverbose hquiet hword value more b hvalue ih =>
      obtain ⟨s, hs, -⟩ := setting_of_setValue hverbose hquiet hvalue
      have hkind := ih.setting s
      rwa [hs, ← Switch.eq_word hword] at hkind

/-! ## Reading behind a front -/

/-- The reader that has its turn behind an opening. -/
def Opening.resume : Opening → List Bytes → Arguments → Option UsageError × Arguments
  | nothing => parse
  | applying _ => readApply
  | whole .ping => fun rest a => (readPing rest, a)
  | whole (.show _) => readShow
  | whole (.apply ..) => readApply

theorem parse_order {word : Bytes} (hstarts : startsOption word = false) (rest : List Bytes)
    (a : Arguments) : parse (word :: rest) a = readCommand (word :: rest) a := by
  rw [parse, readOptions_stop hstarts]

theorem parse_opening (opening : Opening) (rest : List Bytes) {a : Arguments}
    (ha : a.request = {}) :
    parse (opening.words ++ rest) a =
      opening.resume rest { a with request := opening.request } := by
  obtain ⟨configPath, configGiven, socketPath, timeout, verbosity, request⟩ := a
  subst ha
  cases opening with
  | nothing => rfl
  | applying before =>
      rw [Opening.words, List.cons_append, parse_order rfl, readCommand, if_neg (by decide),
        if_neg (by decide), if_pos rfl, readApply_fillers before rest (by rfl)]
      simp only [Opening.resume, Opening.request, unverified, Bool.true_and]
  | whole order =>
      cases order with
      | ping => rfl
      | «show» flags =>
          rw [Opening.words, Order.words, List.cons_append, parse_order rfl, readCommand,
            if_neg (by decide), if_pos rfl, readShow_append]
          rfl
      | apply before operand after =>
          rw [Opening.words, Order.words, List.cons_append, List.append_assoc, List.cons_append,
            parse_order rfl, readCommand, if_neg (by decide), if_neg (by decide), if_pos rfl,
            readApply_append before operand after rest (by rfl)]
          simp only [Opening.resume, Opening.request, Order.request, unverified, Bool.true_and]

/-- Behind the words of a front the reader of its opening goes on, with what the
front means. -/
theorem parse_front (front : Front) (rest : List Bytes) :
    parse (front.words ++ rest) {} = front.opening.resume rest front.arguments := by
  have hrequest : (Setting.setAll front.settings {}).request = {} := by rw [setAll_eq]
  rw [Front.words, List.append_assoc, parse_settings, parse_opening front.opening rest hrequest]
  rfl

theorem source_ne_nil_of_apply {before : List Filler} {operand : Operand} {after : Nat}
    {a : Arguments} (ha : a.request = (Order.apply before operand after).request) :
    a.request.source ≠ [] := by
  rw [ha]
  exact operand.ne_nil

theorem readShow_unknown {word : Bytes} (h : ∀ flag : Flag, word ≠ flag.word) (rest : List Bytes)
    (a : Arguments) : readShow (word :: rest) a = (some (.unexpected word (text "show")), a) := by
  have hnone : shownState? word = none := by
    rw [Option.eq_none_iff_forall_ne_some]
    intro kind hkind
    obtain ⟨flag, hword, -⟩ := Flag.eq_word hkind
    exact h flag hword
  rw [readShow]
  simp only [hnone]

/-- Behind `apply` a word that starts like an option is refused, source or not. -/
theorem readApply_option {word : Bytes} (hstarts : startsOption word = true)
    (hflag : word ≠ text "--no-verify") (rest : List Bytes) (a : Arguments) :
    readApply (word :: rest) a = (some (.unexpected word (text "apply")), a) := by
  rw [readApply, if_neg hflag, isSource_eq, hstarts, Bool.not_true, Bool.and_false,
    if_neg Bool.false_ne_true]

/-- Where there is a source already, only `--no-verify` is taken. -/
theorem readApply_unexpected {word : Bytes} (hflag : word ≠ text "--no-verify") {a : Arguments}
    (ha : a.request.source ≠ []) (rest : List Bytes) :
    readApply (word :: rest) a = (some (.unexpected word (text "apply")), a) := by
  have hsource : a.request.source.isEmpty = false := List.isEmpty_eq_false_iff.mpr ha
  rw [readApply, if_neg hflag, hsource, Bool.false_and, if_neg Bool.false_ne_true]

/-- A word that offends ends the reading, whatever follows it. -/
theorem resume_offended {opening : Opening} {pending : List Bytes} {word err : Bytes}
    (h : Offends opening pending word err) {a : Arguments} (ha : a.request = opening.request) :
    ∃ e : UsageError, e.message = err ∧
      ∀ tail, opening.resume (pending ++ word :: tail) a = (some e, a) := by
  cases h with
  | option hstarts hunknown =>
      refine ⟨.unknownOption word, rfl, fun tail => ?_⟩
      have hnone : Switch.ofWord? word = none := by
        rw [Option.eq_none_iff_forall_ne_some]
        intro switch hword
        exact hunknown switch (Switch.eq_word hword)
      show parse (word :: tail) a = _
      rw [parse, readOptions, hstarts]
      simp only [hnone, Bool.not_true, Bool.false_eq_true, if_false]
  | timeout hinvalid =>
      exact ⟨.invalidTimeout word, rfl, fun tail => parse_invalid_timeout hinvalid tail a⟩
  | command hstarts hping hshow happly =>
      refine ⟨.unknownCommand word, rfl, fun tail => ?_⟩
      show parse (word :: tail) a = _
      rw [parse_order hstarts, readCommand, if_neg hping, if_neg hshow, if_neg happly]
  | ping => exact ⟨.unexpected word (text "ping"), rfl, fun _ => rfl⟩
  | «show» hunknown =>
      exact ⟨.unexpected word (text "show"), rfl, fun tail => readShow_unknown hunknown tail a⟩
  | operand hstarts hflag =>
      exact ⟨.unexpected word (text "apply"), rfl,
        fun tail => readApply_option hstarts hflag tail a⟩
  | applied hflag =>
      exact ⟨.unexpected word (text "apply"), rfl,
        fun tail => readApply_unexpected hflag (source_ne_nil_of_apply ha) tail⟩

theorem resume_lacking {opening : Opening} {pending : List Bytes} {err : Bytes}
    (h : Lacks opening pending err) {a : Arguments} (ha : a.request = opening.request) :
    ∃ e : UsageError, e.message = err ∧ opening.resume pending a = (some e, a) := by
  cases h with
  | command => exact ⟨.noCommand, rfl, rfl⟩
  | @value switch hvalued =>
      refine ⟨.missingValue switch.word, rfl, ?_⟩
      cases switch with
      | verbose | quiet => exact absurd hvalued (by decide)
      | config | socket | timeout => rfl
  | source =>
      refine ⟨.missingSource, rfl, ?_⟩
      show readApply [] a = _
      have hsource : a.request.source.isEmpty = true := by rw [ha]; rfl
      rw [readApply, hsource, if_pos rfl]

/-! ## Completing a front -/

theorem parse_line {words : List Bytes} {line : Line} (h : words = line.words) :
    (parse words {}).1 = none := by
  rw [h, parse_words]

theorem front_completed (front : Front) : ∃ more, (parse (front.words ++ more) {}).1 = none := by
  obtain ⟨settings, opening⟩ := front
  cases opening with
  | nothing =>
      have h : (Front.mk settings .nothing).words ++ [text "ping"] =
          (Line.mk settings .ping).words := by
        simp only [Front.words, Opening.words, Line.words, Order.words, List.append_nil]
      exact ⟨_, parse_line h⟩
  | applying before =>
      have h : (Front.mk settings (.applying before)).words ++ [text "-"] =
          (Line.mk settings (.apply before ⟨text "-", Or.inl rfl⟩ 0)).words := by
        simp only [Front.words, Opening.words, Line.words, Order.words, List.append_assoc,
          List.cons_append, List.replicate_zero]
      exact ⟨_, parse_line h⟩
  | whole order =>
      exact ⟨[], parse_line (List.append_nil _ : _ = (Line.mk settings order).words)⟩

theorem value_completed (settings : List Setting) {switch : Switch}
    (hvalued : switch ∈ Switch.valued) :
    ∃ more, (parse ((Front.mk settings .nothing).words ++ [switch.word] ++ more) {}).1 = none := by
  obtain ⟨s, hs⟩ : ∃ s : Setting, s.words = [switch.word, text "0"] := by
    cases switch with
    | verbose | quiet => exact absurd hvalued (by decide)
    | config => exact ⟨.config (text "0"), rfl⟩
    | socket => exact ⟨.socket (text "0"), rfl⟩
    | timeout => exact ⟨.timeout (text "0") 0 rfl, rfl⟩
  have h : (Front.mk settings .nothing).words ++ [switch.word] ++ [text "0", text "ping"] =
      (Line.mk (settings ++ [s]) .ping).words := by
    simp only [Front.words, Opening.words, Line.words, Order.words, List.flatMap_append,
      List.flatMap_singleton, hs, List.append_nil, List.append_assoc, List.cons_append,
      List.nil_append]
  exact ⟨_, parse_line h⟩

theorem offended_completed {front : Front} {pending : List Bytes} {word err : Bytes}
    (h : Offends front.opening pending word err) :
    ∃ more, (parse (front.words ++ pending ++ more) {}).1 = none := by
  obtain ⟨settings, opening⟩ := front
  have hfront := front_completed ⟨settings, opening⟩
  cases h with
  | timeout => exact value_completed settings (by decide : Switch.timeout ∈ Switch.valued)
  | option | command | ping | «show» | operand | applied => rwa [List.append_nil]

theorem lacking_completed {front : Front} {pending : List Bytes} {err : Bytes}
    (h : Lacks front.opening pending err) :
    ∃ more, (parse (front.words ++ pending ++ more) {}).1 = none := by
  obtain ⟨settings, opening⟩ := front
  have hfront := front_completed ⟨settings, opening⟩
  cases h with
  | value hvalued => exact value_completed settings hvalued
  | command | source => rwa [List.append_nil]

/-! ## Refused lines -/

/-- A word of the line is wrong where it stands, and it is the first: the words
in front of it are those of a line that is accepted. With them and this word
every line is refused in the same way, and the arguments are what the front
means. -/
def Stuck (words : List Bytes) (e : UsageError) (a : Arguments) : Prop :=
  ∃ (front : Front) (pending : List Bytes) (word : Bytes) (after : List Bytes),
    words = front.words ++ pending ++ word :: after ∧
      Offends front.opening pending word e.message ∧
      a = front.arguments ∧
      (∃ more, (parse (front.words ++ pending ++ more) {}).1 = none) ∧
      ∀ tail, parse (front.words ++ pending ++ word :: tail) {} = (some e, a)

/-- All words of the line are right as far as they go, and with more of them it
is accepted. The arguments are what the front means. -/
def Incomplete (words : List Bytes) (e : UsageError) (a : Arguments) : Prop :=
  ∃ (front : Front) (pending : List Bytes),
    words = front.words ++ pending ∧ Lacks front.opening pending e.message ∧
      a = front.arguments ∧ ∃ more, (parse (words ++ more) {}).1 = none

theorem stuck_or_incomplete {words : List Bytes} {e : UsageError} {a : Arguments}
    (h : parse words {} = (some e, a)) : Stuck words e a ∨ Incomplete words e a := by
  cases kind_of_words words with
  | line line hwords =>
      rw [hwords, parse_words] at h
      cases h
  | offended front pending word after err hwords hoffends =>
      obtain ⟨e', rfl, hresume⟩ := resume_offended hoffends (a := front.arguments) rfl
      have hparse (tail : List Bytes) :
          parse (front.words ++ pending ++ word :: tail) {} = (some e', front.arguments) := by
        rw [List.append_assoc, parse_front, hresume]
      rw [hwords, hparse] at h
      cases h
      exact Or.inl ⟨front, pending, word, after, hwords, hoffends, rfl,
        offended_completed hoffends, hparse⟩
  | lacking front pending err hwords hlacks =>
      obtain ⟨e', rfl, hresume⟩ := resume_lacking hlacks (a := front.arguments) rfl
      have hmore := lacking_completed hlacks
      rw [← hwords] at hmore
      rw [hwords, parse_front, hresume] at h
      cases h
      exact Or.inr ⟨front, pending, hwords, hlacks, rfl, hmore⟩

theorem Stuck.not_completed {words : List Bytes} {e : UsageError} {a : Arguments}
    (h : Stuck words e a) (more : List Bytes) : (parse (words ++ more) {}).1 ≠ none := by
  obtain ⟨front, pending, word, after, hwords, -, -, -, hparse⟩ := h
  rw [hwords, List.append_assoc, List.cons_append, hparse]
  exact nofun

theorem message_ne_nil (e : UsageError) : e.message ≠ [] := by
  cases e <;> exact List.cons_ne_nil _ _

/-- A line that is refused goes wrong at its first wrong word, or wants more
words, and never both. -/
theorem errors_point_at_first_wrong_word {words : List Bytes} {e : UsageError} {a : Arguments}
    (h : parse words {} = (some e, a)) :
    (Stuck words e a ∨ Incomplete words e a) ∧ ¬ (Stuck words e a ∧ Incomplete words e a) ∧
      e.message ≠ [] := by
  refine ⟨stuck_or_incomplete h, ?_, message_ne_nil e⟩
  rintro ⟨hstuck, -, -, -, -, -, more, haccepted⟩
  exact hstuck.not_completed more haccepted

/-- A flag too many, behind one that has been taken, and more words that are
never looked at. -/
theorem errors_point_at_first_wrong_word_second_flag :
    let words := [text "-v", text "show", text "--saved", text "--all", text "-t", []]
    let e := UsageError.unexpected (text "--all") (text "show")
    let a : Arguments := { verbosity := 1, request := { command := .show, showKind := .saved } }
    parse words {} = (some e, a) ∧
      (Stuck words e a ∨ Incomplete words e a) ∧ ¬ (Stuck words e a ∧ Incomplete words e a) ∧
        e.message ≠ [] := by
  intro words e a
  have h : parse words {} = (some e, a) := by decide
  exact ⟨h, errors_point_at_first_wrong_word h⟩

end CommandLine

end DaemonLink
