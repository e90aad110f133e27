import DaemonLink.Host.Files

/-!
# Socket addresses

A socket is reached by a path in the tree of files or, with an `@` in front, by
an abstract name, which lives in a table of its own. The system's address has
108 bytes for either. A path is padded with zeros to all of them, so that at
least one zero ends it. An abstract name has a zero in front of it and ends
where the address ends, which is why its length is part of the address.

The system tells the two apart by the first byte alone. A path that starts with
a NUL is therefore an abstract name of 107 bytes, padding and all.
-/

namespace DaemonLink

/-- The byte in front of an abstract name as a user writes it. -/
def atSign : UInt8 := 64

/-- The bytes of an address, behind its family. -/
structure Address where
  bytes : Bytes
  deriving DecidableEq, Repr

namespace Address

/-- How many bytes an address has room for. -/
def capacity : Nat := 108

/-- How many bytes the family takes in front of them. -/
def familySize : Nat := 2

/-- The part of a written path that is the name of the socket. -/
def nameOf (path : Bytes) : Bytes :=
  if path.head? = some atSign then path.drop 1 else path

/-- Whether a written path has an address: there is a path, and its name leaves
a byte free besides the one that ends it or stands in front of it. -/
def admits (path : Bytes) : Bool :=
  !path.isEmpty && (nameOf path).length < capacity - 1

/-- The address that is made of a written path. -/
def ofPath (path : Bytes) : Address :=
  ⟨if path.head? = some atSign then nul :: nameOf path
    else path ++ List.replicate (capacity - path.length) nul⟩

/-- The address of a written path, if it has one. -/
def ofPath? (path : Bytes) : Option Address :=
  if admits path then some (ofPath path) else none

/-- The length that goes with the address. -/
def length (a : Address) : Nat :=
  familySize + a.bytes.length

/-- What the system takes an address to name. -/
inductive Target
  | abstractName (name : Bytes)
  | path (path : Bytes)
  deriving DecidableEq, Repr

/-- Read an address the way the system does. -/
def target (a : Address) : Target :=
  match a.bytes with
  | [] => .path []
  | b :: rest => if b = nul then .abstractName rest else .path (untilNul (b :: rest))

end Address

namespace Host

/-- The socket that a stream socket finds at an address. Under an abstract name
it finds one of its own style or none. -/
def boundSocket (h : Host) (a : Address) : Except SystemError SocketStyle :=
  match a.target with
  | .abstractName name =>
      if h.abstractNames.contains (name, .stream) then .ok .stream
      else .error .connectionRefused
  | .path path =>
      match h.status path with
      | .error e => .error e
      | .ok (.socket style) => .ok style
      | .ok _ => .error .connectionRefused

/-- Make a stream socket. -/
def openSocket (h : Host) : Except SystemError Nat × Host :=
  if h.canOpen then
    let (fd, h) := h.openHandle .socket
    (.ok fd, h)
  else (.error .tooManyFiles, h)

/-- Connect a socket to an address. Its descriptor then refers to the client's
end of a new channel. -/
def connect (h : Host) (fd : Nat) (a : Address) : Except SystemError Unit × Host :=
  match h.boundSocket a with
  | .error e => (.error e, h)
  | .ok .datagram => (.error .wrongSocketType, h)
  | .ok .stream =>
      (.ok (),
        { h with
          channels := h.channels ++ [Channel.new]
          descriptors := h.descriptors.map fun d =>
            if d.1 = fd then (fd, .channel h.channels.length) else d })

end Host

end DaemonLink
