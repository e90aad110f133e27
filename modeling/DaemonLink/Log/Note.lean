import DaemonLink.Host.FilePath
import DaemonLink.Log.Level

/-!
# Notes

A note is what a part of the program tells the log: a level, the name of the
part, a message, and possibly the place in the program it comes from. Nothing
that depends on the moment is in it, and nothing that depends on whether the
note will be shown; both come later. So a run of the program has one list of
notes whatever the log is set to.

Notes are made in two ways. A line that comes finished from elsewhere is taken
as it is. A note of the program itself is put together from pieces, and goes
through a buffer of limited size that ends at its first NUL.
-/

namespace DaemonLink

/-- A place in the program. -/
structure Origin where
  file : Bytes
  line : Int
  deriving DecidableEq, Repr

namespace Origin

/-- The place in a file that is given by its path. No path at all stands as a
hyphen. -/
def ofPath (path : Option Bytes) (line : Int) : Origin where
  file := FilePath.fileName (untilNul (path.getD [hyphen]))
  line := line

/-- How a place is shown. -/
def render (o : Origin) : Bytes :=
  o.file ++ text ":" ++ signed o.line

end Origin

/-- Something told to the log. -/
structure Note where
  level : Level
  tag : Bytes
  origin : Option Origin
  message : Bytes
  deriving DecidableEq, Repr

/-- A piece of a message that is put together. -/
inductive Piece
  /-- Text of the message itself. -/
  | literal (s : Bytes)
  /-- A text put in, as far as its first NUL. -/
  | string (s : Bytes)
  /-- A number put in. -/
  | number (n : Int)
  deriving DecidableEq, Repr

namespace Piece

/-- What the piece contributes. -/
def bytes : Piece → Bytes
  | literal s => s
  | string s => untilNul s
  | number n => signed n

end Piece

namespace Note

/-- How many bytes of a message the buffer holds. -/
def messageLimit : Nat := 16383

/-- What comes out of the buffer that a message is put together in. -/
def compose (pieces : List Piece) : Bytes :=
  untilNul ((pieces.flatMap Piece.bytes).take messageLimit)

/-- A note put together by the program. -/
def formatted (level : Level) (tag : Option Bytes) (origin : Origin) (pieces : List Piece) :
    Note where
  level := level
  tag := untilNul (tag.getD [hyphen])
  origin := some origin
  message := compose pieces

/-- A finished line. One that names nobody as its source has a hyphen there. -/
def line (level : Level) (tag message : Bytes) : Note where
  level := level
  tag := if tag.isEmpty then [hyphen] else tag
  origin := none
  message := message

end Note

/-! ## Previews -/

/-- The limit for a text of the log unless another is asked for. -/
def defaultPreviewLength : Nat := 1024

/-- A text of at most `limit` bytes as it is; of a longer one the first `limit`
bytes, followed by its length. -/
def preview (s : Bytes) (limit : Nat) : Bytes :=
  if s.length ≤ limit then s
  else s.take limit ++ text "...(len=" ++ decimal s.length ++ text ")"

/-- The names under which secrets are stored. -/
def secretKeys : List Bytes :=
  [text "password", text "psk", text "private-key", text "preshared-key", text "secret",
    text "pin"]

/-- Whether a value stored under the name is a secret. -/
def isSecretKey (key : Bytes) : Bool :=
  secretKeys.contains key

end DaemonLink
