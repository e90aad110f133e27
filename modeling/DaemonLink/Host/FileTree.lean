import DaemonLink.SystemError
import DaemonLink.Host.FilePath

/-!
# The tree of files

A tree is a table of numbered nodes. A directory is a node that lists names
and the numbers they stand for, and knows the directory above it; number zero
is the root. So to move a directory is to list its number elsewhere, and what
is below it comes along.

A path is turned into a node by walking: every name but the last has to lead to
a directory, links are replaced by the path they hold, and no more than forty
links are followed on the way. The walk ends because each link uses up one of
the forty and every other step uses up a name.

What is looked for may be missing while the directory it would be in exists.
That is not a failure yet, since a file can be made there, so the walk answers
with the free slot.
-/

namespace DaemonLink

/-- The number of a node. -/
abbrev NodeId := Nat

/-- The kinds of sockets that can be bound to a name. -/
inductive SocketStyle
  /-- A listening stream socket. -/
  | stream
  /-- A datagram socket. -/
  | datagram
  deriving DecidableEq, Repr

/-- What a number of a tree stands for. -/
inductive Node
  /-- A directory: the directory above it, and what it lists. -/
  | directory (above : NodeId) (listing : List (Bytes × NodeId))
  | file (data : ByteArray)
  | link (target : Bytes)
  | socket (style : SocketStyle)
  /-- A device, which forgets what is written to it. -/
  | device

namespace Node

/-- A file with the given contents. -/
def ofBytes (data : Bytes) : Node :=
  .file ⟨data.toArray⟩

/-- Whether the node is a directory. -/
def isDirectory : Node → Bool
  | directory _ _ => true
  | _ => false

/-- Whether the node is a directory that lists something. -/
def hasEntries : Node → Bool
  | directory _ listing => !listing.isEmpty
  | _ => false

end Node

/-- A name in a directory. -/
structure Slot where
  directory : NodeId
  name : Bytes
  deriving DecidableEq, Repr

/-- Where a walk has led. -/
inductive Destination
  /-- To a node, and to the name that stands for it if the walk ended with
  one. -/
  | found (id : NodeId) (slot : Option Slot)
  /-- To a name that stands for nothing, in a directory that exists. -/
  | free (slot : Slot)
  deriving DecidableEq, Repr

/-- A tree of files. -/
structure FileTree where
  nodes : Array Node

namespace FileTree

/-- The number of the root. -/
def root : NodeId := 0

/-- A tree that is nothing but a root. -/
def bare : FileTree := ⟨#[.directory root []]⟩

/-- The node with a number. -/
def get? (t : FileTree) (id : NodeId) : Option Node :=
  t.nodes[id]?

/-- The tree with another node under a number. -/
def put (t : FileTree) (id : NodeId) (node : Node) : FileTree :=
  ⟨t.nodes.setIfInBounds id node⟩

/-- The tree with the listing of one directory changed. -/
def relist (t : FileTree) (id : NodeId)
    (f : List (Bytes × NodeId) → List (Bytes × NodeId)) : FileTree :=
  match t.get? id with
  | some (.directory above listing) => t.put id (.directory above (f listing))
  | _ => t

/-- The tree in which a name stands for nothing. -/
def unlist (t : FileTree) (slot : Slot) : FileTree :=
  t.relist slot.directory fun listing => listing.filter fun e => e.1 != slot.name

/-- The tree in which a name stands for a number, and for nothing else. -/
def enlist (t : FileTree) (slot : Slot) (id : NodeId) : FileTree :=
  (t.unlist slot).relist slot.directory ((slot.name, id) :: ·)

/-- The tree with a new node under a name. -/
def add (t : FileTree) (slot : Slot) (node : Node) : FileTree :=
  FileTree.enlist ⟨t.nodes.push node⟩ slot t.nodes.size

/-- The tree with a new, empty directory under a name. -/
def addDirectory (t : FileTree) (slot : Slot) : FileTree :=
  t.add slot (.directory slot.directory [])

/-- The tree in which one name stands for what another one stood for. -/
def move (t : FileTree) (old new : Slot) (id : NodeId) : FileTree :=
  let moved := (t.unlist old).enlist new id
  match moved.get? id with
  | some (.directory _ listing) => moved.put id (.directory new.directory listing)
  | _ => moved

/-- Whether one directory is another one or below it, at most so many levels
up. -/
def isWithin (t : FileTree) (outer : NodeId) : Nat → NodeId → Bool
  | 0, _ => false
  | levels + 1, inner =>
      inner == outer ||
        match t.get? inner with
        | some (.directory above _) => above != inner && t.isWithin outer levels above
        | _ => false

/-! ## Walking -/

/-- How many links a walk may follow. -/
def maxLinks : Nat := 40

/-- The longest name a directory can hold. -/
def maxNameLength : Nat := 255

/-- The length from which on a path is refused unread. -/
def pathLengthBound : Nat := 4096

/-- Walk from a node, which was reached through a slot, along a list of names,
following at most `links` links. A link at the end is itself the destination
unless `follow` is set. -/
def walk (t : FileTree) (follow : Bool) (links : Nat) (here : NodeId) (slot : Option Slot)
    (names : List Bytes) : Except SystemError Destination :=
  match names with
  | [] => .ok (.found here slot)
  | name :: rest =>
      match t.get? here with
      | some (.directory above listing) =>
          if name = FilePath.dot then t.walk follow links here none rest
          else if name = FilePath.dotDot then t.walk follow links above none rest
          else if maxNameLength < name.length then .error .nameTooLong
          else
            match listing.lookup name with
            | none => if rest.isEmpty then .ok (.free ⟨here, name⟩) else .error .noSuchEntry
            | some next =>
                match t.get? next with
                | some (.link target) =>
                    if rest.isEmpty && !follow then .ok (.found next (some ⟨here, name⟩))
                    else
                      match links with
                      | 0 => .error .tooManyLinks
                      | more + 1 =>
                          if target.isEmpty then .error .noSuchEntry
                          else
                            t.walk follow more (if FilePath.isAbsolute target then root else here)
                              none (FilePath.steps target ++ rest)
                | _ => t.walk follow links next (some ⟨here, name⟩) rest
      | _ => .error .notADirectory
termination_by (links, names.length)

/-- The destination of a path, for a process that works in the given directory.
The system reads the path up to its first NUL. -/
def resolve (t : FileTree) (directory : NodeId) (follow : Bool) (path : Bytes) :
    Except SystemError Destination :=
  let path := untilNul path
  if path.isEmpty then .error .noSuchEntry
  else if pathLengthBound ≤ path.length then .error .nameTooLong
  else
    t.walk follow maxLinks (if FilePath.isAbsolute path then root else directory) none
      (FilePath.steps path)

end FileTree

end DaemonLink
