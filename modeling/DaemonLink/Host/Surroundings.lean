import DaemonLink.Host.Address

/-!
# What happens around the program

The program shares its machine. Peers send and close, someone makes files and
binds sockets, a limit on descriptors is set. None of this is the program's
doing, and it can fall between any two of its steps, so it is listed as a type
of its own: a run is a list in which the program's steps and these happenings
alternate in any order.

What a peer does it does at once, or it begins something that takes time. Then
the program's next steps run while the peer goes on.

A happening that cannot take place, such as a file below a file, changes
nothing.
-/

namespace DaemonLink

/-- Something that changes the machine without the program's doing. -/
inductive Happening
  /-- A pair of connected sockets is made, and the program given one end. -/
  | channelAppears
  /-- A peer does something. -/
  | peerActs (channel : Nat) (act : PeerAct)
  /-- A peer begins to do several things, each so many milliseconds after the
  one before. -/
  | peerBegins (channel : Nat) (plan : List (Nat × PeerAct))
  /-- What peers have begun is brought to its end. -/
  | peersFinish
  /-- A peer receives all there is. -/
  | peerDrains (channel : Nat)
  /-- A peer receives at most so many bytes. -/
  | peerTakes (channel n : Nat)
  /-- A directory is made, with those above it. -/
  | directoryAppears (path : Bytes)
  /-- A file is made, with the directories above it. -/
  | fileAppears (path data : Bytes)
  /-- A link is made. -/
  | linkAppears (path target : Bytes)
  /-- A device is made. -/
  | deviceAppears (path : Bytes)
  /-- A socket is bound. -/
  | socketAppears (path : Bytes) (style : SocketStyle)
  /-- The bound on descriptors is set or lifted. -/
  | limitChanges (limit : Option Nat)
  deriving DecidableEq, Repr

namespace Host

/-- Put a node where nothing is yet. -/
def place (h : Host) (path : Bytes) (node : Node) : Host :=
  match h.files.resolve h.directory false path with
  | .ok (.free slot) => { h with files := h.files.add slot node }
  | _ => h

/-- Put a file at a path, in place of one that is there. -/
def placeFile (h : Host) (path data : Bytes) : Host :=
  match h.files.resolve h.directory true path with
  | .ok (.free slot) => { h with files := h.files.add slot (.ofBytes data) }
  | .ok (.found id _) =>
      match h.files.get? id with
      | some (.file _) => { h with files := h.files.put id (.ofBytes data) }
      | _ => h
  | .error _ => h

/-- Put a link at a path. The system reads the target up to its first NUL, and
takes no link to nothing. -/
def placeLink (h : Host) (path target : Bytes) : Host :=
  let target := untilNul target
  if target.isEmpty then h else h.place path (.link target)

/-- Bind a socket to a written path. Any path is bound whose address the system
has room for. -/
def bindSocket (h : Host) (path : Bytes) (style : SocketStyle) : Host :=
  let address := Address.ofPath path
  if path.isEmpty || Address.capacity < address.bytes.length then h
  else
    match address.target with
    | .abstractName name => { h with abstractNames := (name, style) :: h.abstractNames }
    | .path path => h.place path (.socket style)

/-- The machine after something has happened. -/
def after (h : Host) : Happening → Host
  | .channelAppears => h.makeChannel.2.2
  | .peerActs channel act => h.updateChannel channel (·.after act)
  | .peerBegins channel plan =>
      let acts := plan.map fun (delay, act) => (delay, channel, act)
      Host.catchUp { h with coming := h.coming ++ acts }
  | .peersFinish => h.settle
  | .peerDrains channel => h.updateChannel channel fun c => c.peerDrain.2.2
  | .peerTakes channel n => h.updateChannel channel fun c => (c.peerTake n).2
  | .directoryAppears path => (h.makeDirectories path).2
  | .fileAppears path data =>
      let above := FilePath.parent path
      let h := if above.isEmpty then h else (h.makeDirectories above).2
      h.placeFile path data
  | .linkAppears path target => h.placeLink path target
  | .deviceAppears path => h.place path .device
  | .socketAppears path style => h.bindSocket path style
  | .limitChanges limit => { h with limit := limit }

end Host

end DaemonLink
