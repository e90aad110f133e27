import DaemonLink.Host.Basic

/-!
# Operations on files

What the program does with files: it asks whether one exists and how large it
is, makes directories, removes, renames and appends, and tries whether one can
be opened for reading. The first few say why they failed. Opening does not: a
file that cannot be opened for appending is left alone.

To make a directory with everything above it, the texts of the directories
above are collected until one exists, and then made from the top. The texts
are used as they are written, so `./x/../y` makes `x` on the way to `y`.
-/

namespace DaemonLink

namespace Host

/-- What a path leads to, through links. -/
def status (h : Host) (path : Bytes) : Except SystemError Node :=
  match h.files.resolve h.directory true path with
  | .error e => .error e
  | .ok (.free _) => .error .noSuchEntry
  | .ok (.found id _) =>
      match h.files.get? id with
      | some node => .ok node
      | none => .error .noSuchEntry

/-- Whether an error only says that there is nothing at a path. -/
def saysAbsent (e : SystemError) : Bool :=
  e = .noSuchEntry || e = .notADirectory

/-- Whether there is anything at a path. -/
def pathExists (h : Host) (path : Bytes) : Except SystemError Bool :=
  match h.status path with
  | .ok _ => .ok true
  | .error e => if saysAbsent e then .ok false else .error e

/-- The size of a file. Nothing else has one. -/
def fileSize (h : Host) (path : Bytes) : Except SystemError Nat :=
  match h.status path with
  | .error e => .error e
  | .ok (.file data) => .ok data.size
  | .ok (.directory _ _) => .error .isADirectory
  | .ok _ => .error .notSupported

/-- Remove a file, a link or an empty directory. To remove nothing is no
error. -/
def remove (h : Host) (path : Bytes) : Except SystemError Unit × Host :=
  match h.files.resolve h.directory false path with
  | .error .noSuchEntry => (.ok (), h)
  | .error e => (.error e, h)
  | .ok (.free _) => (.ok (), h)
  | .ok (.found _ none) => (.error .invalidArgument, h)
  | .ok (.found id (some slot)) =>
      if (h.files.get? id).any Node.hasEntries then (.error .notEmpty, h)
      else (.ok (), { h with files := h.files.unlist slot })

/-- Whether something of one kind may be renamed over what another name stands
for. -/
def mayReplace (source : Node) : Option Node → Except SystemError Unit
  | none => .ok ()
  | some target =>
      if target.isDirectory then
        if !source.isDirectory then .error .isADirectory
        else if target.hasEntries then .error .notEmpty
        else .ok ()
      else if source.isDirectory then .error .notADirectory
      else .ok ()

/-- Rename the node `id` from one slot to another, where `there` may be. -/
def renameTo (h : Host) (id : NodeId) (old new : Slot) (there : Option NodeId) :
    Except SystemError Unit × Host :=
  match h.files.get? id with
  | none => (.error .noSuchEntry, h)
  | some node =>
      if there = some id then (.ok (), h)
      else if node.isDirectory && h.files.isWithin id h.files.nodes.size new.directory then
        (.error .invalidArgument, h)
      else
        match mayReplace node (there.bind h.files.get?) with
        | .error e => (.error e, h)
        | .ok () => (.ok (), { h with files := h.files.move old new id })

/-- Rename what is at one path, with all below it, to another. -/
def rename (h : Host) (source target : Bytes) : Except SystemError Unit × Host :=
  match h.files.resolve h.directory false source with
  | .error e => (.error e, h)
  | .ok (.free _) => (.error .noSuchEntry, h)
  | .ok (.found _ none) => (.error .invalidArgument, h)
  | .ok (.found id (some old)) =>
      match h.files.resolve h.directory false target with
      | .error e => (.error e, h)
      | .ok (.found _ none) => (.error .invalidArgument, h)
      | .ok (.found there (some new)) => h.renameTo id old new (some there)
      | .ok (.free new) => h.renameTo id old new none

/-- Append to a file, making it if there is none. A file that cannot be opened
stays as it is. -/
def append (h : Host) (path data : Bytes) : Host :=
  if !h.canOpen then h
  else
    match h.files.resolve h.directory true path with
    | .ok (.free slot) => { h with files := h.files.add slot (.ofBytes data) }
    | .ok (.found id _) =>
        match h.files.get? id with
        | some (.file old) => { h with files := h.files.put id (.file (old ++ ⟨data.toArray⟩)) }
        | _ => h
    | _ => h

/-- Whether a path can be opened for reading. -/
def canRead (h : Host) (path : Bytes) : Bool :=
  h.canOpen &&
    match h.status path with
    | .ok (.socket _) => false
    | .ok _ => true
    | .error _ => false

/-! ## Directories -/

/-- Make one directory. One that is there already is as good. -/
def makeDirectory (h : Host) (path : Bytes) : Except SystemError Unit × Host :=
  let stem := FilePath.withoutTrailingSlashes (untilNul path)
  match h.files.resolve h.directory false (if stem.isEmpty then path else stem) with
  | .error e => (.error e, h)
  | .ok (.free slot) => (.ok (), { h with files := h.files.addDirectory slot })
  | .ok (.found _ _) =>
      match h.status path with
      | .ok (.directory _ _) => (.ok (), h)
      | _ => (.error .alreadyExists, h)

/-- The largest number of directories made at a time. -/
def maxNesting : Nat := 1000

/-- The texts of the directories that are missing at and above a path, the
topmost first. `found` are those below it. The path itself is missing. -/
def missingDirectories (h : Host) (path : Bytes) (found : List Bytes) :
    Except SystemError (List Bytes) :=
  let name := FilePath.fileName path
  let missing :=
    if name = FilePath.dot || name = FilePath.dotDot then found else path :: found
  let above := FilePath.parent path
  if maxNesting < missing.length then .error .nameTooLong
  else if above.isEmpty then .ok missing
  else
    match h.status above with
    | .ok (.directory _ _) => .ok missing
    | .ok _ => .error .notADirectory
    | .error e =>
        if !saysAbsent e then .error e
        else if above.length < path.length then h.missingDirectories above missing
        else .ok missing
termination_by path.length

/-- Make directories in the order given, until one cannot be made. -/
def makeEach (h : Host) : List Bytes → Except SystemError Unit × Host
  | [] => (.ok (), h)
  | path :: rest =>
      match h.makeDirectory path with
      | (.ok (), h) => h.makeEach rest
      | (.error e, h) => (.error e, h)

/-- Make a directory with everything above it. -/
def makeDirectories (h : Host) (path : Bytes) : Except SystemError Unit × Host :=
  if path.isEmpty then (.error .invalidArgument, h)
  else
    match h.status path with
    | .ok (.directory _ _) => (.ok (), h)
    | .ok _ => (.error .notADirectory, h)
    | .error e =>
        if !saysAbsent e then (.error e, h)
        else
          let shown :=
            if (FilePath.fileName path).isEmpty then FilePath.parent path else path
          match h.missingDirectories shown [] with
          | .error e => (.error e, h)
          | .ok missing => h.makeEach missing

end Host

end DaemonLink
