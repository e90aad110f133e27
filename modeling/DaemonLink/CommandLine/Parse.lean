import DaemonLink.CommandLine.Arguments
import DaemonLink.CommandLine.Numeral

/-!
# Reading a command line

A line is a list of words: options, then a command, then what the command
takes. Options end at the first word that does not start with a hyphen or is
nothing but one. Reading goes from left to right and stops at the first word
that cannot be right, so the words after it never matter; what was read before
it has been set.

A word that is the value of an option is taken as it is, even if it starts with
a hyphen.

Only one thing that was set before is looked at: whether there is a source to
apply already. A second one is refused, and a line that gives none is refused
unless one is there. An empty word is taken for a source and leaves it empty.
-/

namespace DaemonLink

/-- Why a command line is refused. -/
inductive UsageError
  /-- The line ends where the value of an option is due. -/
  | missingValue (option : Bytes)
  | invalidTimeout (value : Bytes)
  | unknownOption (word : Bytes)
  | noCommand
  | unknownCommand (word : Bytes)
  | unexpected (word command : Bytes)
  /-- The line ends without a source to apply. -/
  | missingSource
  deriving DecidableEq, Repr

namespace UsageError

/-- The text that describes the error. -/
def message : UsageError → Bytes
  | missingValue option => text "option " ++ option ++ text " requires a value"
  | invalidTimeout value => text "invalid timeout '" ++ value ++ text "'"
  | unknownOption word => text "unknown option '" ++ word ++ text "'"
  | noCommand => text "no command given"
  | unknownCommand word => text "unknown command '" ++ word ++ text "'"
  | unexpected word command =>
      text "unexpected argument '" ++ word ++ text "' for " ++ command
  | missingSource => text "apply requires a state file or '-'"

end UsageError

namespace CommandLine

/-- The source that stands for the standard input. -/
def standardInput : Bytes := text "-"

/-- The options. -/
inductive Switch
  | verbose
  | quiet
  | config
  | socket
  | timeout
  deriving DecidableEq, Repr

/-- The option a word is. -/
def Switch.ofWord? (word : Bytes) : Option Switch :=
  if word = text "-v" then some verbose
  else if word = text "-q" then some quiet
  else if word = text "-c" then some config
  else if word = text "-s" then some socket
  else if word = text "-t" then some timeout
  else none

/-- Whether a word stands where options stand: it starts with a hyphen and has
more to it. -/
def startsOption (word : Bytes) : Bool :=
  word.head? = some hyphen && word ≠ standardInput

/-- Take the value of an option. -/
def setValue (switch : Switch) (value : Bytes) (a : Arguments) : Except UsageError Arguments :=
  match switch with
  | .config => .ok { a with configPath := value, configGiven := true }
  | .socket => .ok { a with socketPath := value }
  | .timeout =>
      match Numeral.parse? value with
      | some n => .ok { a with timeout := n }
      | none => .error (.invalidTimeout value)
  | _ => .ok a

/-- Read the options, and give the words that follow them. -/
def readOptions : List Bytes → Arguments → Except UsageError (List Bytes) × Arguments
  | [], a => (.ok [], a)
  | word :: rest, a =>
      if !startsOption word then (.ok (word :: rest), a)
      else
        match Switch.ofWord? word with
        | none => (.error (.unknownOption word), a)
        | some .verbose => readOptions rest { a with verbosity := a.verbosity + 1 }
        | some .quiet => readOptions rest { a with verbosity := a.verbosity - 1 }
        | some switch =>
            match rest with
            | [] => (.error (.missingValue word), a)
            | value :: rest =>
                match setValue switch value a with
                | .error e => (.error e, a)
                | .ok a => readOptions rest a

/-- The state a flag of `show` asks for. -/
def shownState? (word : Bytes) : Option StateKind :=
  if word = text "--saved" then some .saved
  else if word = text "--post-last-commit" then some .postLastCommit
  else if word = text "--running" then some .running
  else none

/-- Read what follows `show`. -/
def readShow : List Bytes → Arguments → Option UsageError × Arguments
  | [], a => (none, a)
  | word :: rest, a =>
      match shownState? word with
      | none => (some (.unexpected word (text "show")), a)
      | some kind => readShow rest { a with request := { a.request with showKind := kind } }

/-- Whether a word can be a source to apply. -/
def isSource (word : Bytes) : Bool :=
  word = standardInput || word.head? ≠ some hyphen

/-- Read what follows `apply`. -/
def readApply : List Bytes → Arguments → Option UsageError × Arguments
  | [], a => (if a.request.source.isEmpty then some .missingSource else none, a)
  | word :: rest, a =>
      if word = text "--no-verify" then
        readApply rest { a with request := { a.request with verify := false } }
      else if a.request.source.isEmpty && isSource word then
        readApply rest { a with request := { a.request with source := word } }
      else (some (.unexpected word (text "apply")), a)

/-- Read what follows `ping`, which is nothing. -/
def readPing : List Bytes → Option UsageError
  | [] => none
  | word :: _ => some (.unexpected word (text "ping"))

/-- Read a command and what follows it. -/
def readCommand : List Bytes → Arguments → Option UsageError × Arguments
  | [], a => (some .noCommand, a)
  | word :: rest, a =>
      if word = text "ping" then
        (readPing rest, { a with request := { a.request with command := .ping } })
      else if word = text "show" then
        readShow rest { a with request := { a.request with command := .show } }
      else if word = text "apply" then
        readApply rest { a with request := { a.request with command := .apply } }
      else (some (.unknownCommand word), a)

/-- Read a command line into arguments: why it is refused, if it is, and the
arguments afterwards. -/
def parse (words : List Bytes) (a : Arguments) : Option UsageError × Arguments :=
  match readOptions words a with
  | (.error e, a) => (some e, a)
  | (.ok rest, a) => readCommand rest a

/-- How to use the program. -/
def usage : Bytes :=
  text ("usage: nipc [-c <config.json>] [-s <socket>] [-t <timeout_ms>] [-v|-q] <command>\n" ++
    "commands:\n" ++
    "  ping\n" ++
    "  show [--saved | --post-last-commit]\n" ++
    "  apply <state.json | -> [--no-verify]\n")

end CommandLine

end DaemonLink
