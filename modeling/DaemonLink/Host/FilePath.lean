import DaemonLink.Bytes

/-!
# Paths as texts

A path is a text before it is a place. Three things are read off the text
alone: the name at its end, the text of the directory above it, and the names
one has to walk through to get to the place. The first two keep the text as it
was written, dots and doubled slashes included, because the text is what is
shown and what is walked again later.
-/

namespace DaemonLink

namespace FilePath

/-- The component that stands for the directory itself. -/
def dot : Bytes := text "."

/-- The component that stands for the directory above. -/
def dotDot : Bytes := text ".."

/-- Whether walking the path starts at the root. -/
def isAbsolute (path : Bytes) : Bool :=
  path.head? == some slash

/-- Whether the path ends with a slash, so that it can only name a
directory. -/
def endsInSlash (path : Bytes) : Bool :=
  path.getLast? == some slash

/-- What stands behind the last slash. -/
def fileName (path : Bytes) : Bytes :=
  (path.reverse.takeWhile (· != slash)).reverse

/-- The path without the slashes at its end. -/
def withoutTrailingSlashes (path : Bytes) : Bytes :=
  (path.reverse.dropWhile (· == slash)).reverse

/-- The text of the directory above: what stands before the last name and the
slashes in front of it. It is empty for a single name, and the root for a name
directly below the root; a path of slashes alone is its own parent. -/
def parent (path : Bytes) : Bytes :=
  if path.all (· == slash) then path
  else
    let above := (path.reverse.dropWhile (· != slash)).reverse
    match withoutTrailingSlashes above with
    | [] => above.take 1
    | shown => shown

/-- A name below a directory. An absolute name replaces the directory. -/
def join (directory name : Bytes) : Bytes :=
  if isAbsolute name then name
  else if (fileName directory).isEmpty then directory ++ name
  else directory ++ slash :: name

/-- The names between the slashes, empty ones included. -/
def split : Bytes → List Bytes
  | [] => [[]]
  | b :: rest =>
      if b = slash then [] :: split rest
      else
        match split rest with
        | [] => [[b]]
        | name :: names => (b :: name) :: names

/-- The names to walk through. A slash at the end asks for a directory, which
is to say for the entry `.` of what stands before it. -/
def steps (path : Bytes) : List Bytes :=
  (split path).filter (fun name => !name.isEmpty) ++ if endsInSlash path then [dot] else []

end FilePath

end DaemonLink
