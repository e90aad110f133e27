import DaemonLink.Host.Channel
import DaemonLink.Host.FileTree
import DaemonLink.Stream.Paced
import DaemonLink.Stream.Sides

/-!
# The machine a program runs on

A host is what a program can observe and change: the tree of files and the
place it works in, the names sockets are bound to, the channels between
sockets, and the table of open descriptors.

Descriptors are handed out in increasing order and a number is never given out
twice, so that a number names one opening for good. With every number closed
kept in `closed`, "closed exactly once" can be said of a run and not only of a
moment.

A process may be given a bound on its descriptors. The streams it is started with
and what it has opened since count against it, and what is closed makes room
again. A bound that is set when more is open than it allows counts all of that.
Waiting for a descriptor is itself refused when the bound leaves room for none.

Time passes for the program only while it waits for a descriptor or receives
from one that blocks. What peers will do in the meantime is listed in `coming`.
-/

namespace DaemonLink

/-- What an open descriptor refers to. -/
inductive Handle
  /-- A socket that is not connected. -/
  | socket
  /-- The client's end of a channel. -/
  | channel (index : Nat)
  /-- A file, on which no socket operation works. -/
  | file
  deriving DecidableEq, Repr

/-- The state of the machine. -/
structure Host where
  files : FileTree
  /-- The directory the program works in. -/
  directory : NodeId
  /-- The abstract names sockets are bound to. Sockets of different styles do
  not share their names. -/
  abstractNames : List (Bytes × SocketStyle)
  channels : List Channel
  /-- The open descriptors. -/
  descriptors : List (Nat × Handle)
  /-- The number the next descriptor gets. -/
  next : Nat
  /-- The bound on descriptors, if there is one. -/
  limit : Option Nat
  /-- The descriptors closed so far, in order. -/
  closed : List Nat
  /-- What peers will do, by channel, each with the milliseconds since what was
  done before it. -/
  coming : List (Nat × Nat × PeerAct)

namespace Host

/-- How many descriptors a program is started with: its input and its two outputs. -/
def standardStreams : Nat := 3

/-- A machine with the given files on which the program has opened nothing. -/
def new (files : FileTree) (directory : NodeId) : Host where
  files := files
  directory := directory
  abstractNames := []
  channels := []
  descriptors := []
  next := standardStreams
  limit := none
  closed := []
  coming := []

/-! ## Descriptors -/

/-- What a descriptor refers to, if it is open. No descriptor at all is never
open. -/
def handle? (h : Host) (fd : Option Nat) : Option Handle :=
  fd.bind (h.descriptors.lookup ·)

/-- Whether a descriptor is open. -/
def isOpen (h : Host) (fd : Nat) : Bool :=
  (h.descriptors.lookup fd).isSome

/-- Whether the bound allows so many descriptors more. -/
def hasRoomFor (h : Host) (count : Nat) : Bool :=
  match h.limit with
  | none => true
  | some n => standardStreams + h.descriptors.length + count ≤ n

/-- Whether the bound allows another descriptor. -/
def canOpen (h : Host) : Bool :=
  h.hasRoomFor 1

/-- Open a descriptor for a handle. -/
def openHandle (h : Host) (handle : Handle) : Nat × Host :=
  (h.next, { h with descriptors := (h.next, handle) :: h.descriptors, next := h.next + 1 })

/-- Change a channel. -/
def updateChannel (h : Host) (index : Nat) (f : Channel → Channel) : Host :=
  { h with channels := h.channels.modify index f }

/-- Close a descriptor. A channel notices that its client has closed. -/
def close (h : Host) (fd : Nat) : Host :=
  let noticed :=
    match h.descriptors.lookup fd with
    | some (.channel index) => h.updateChannel index Channel.clientClose
    | _ => h
  { noticed with
    descriptors := h.descriptors.filter fun d => d.1 != fd
    closed := h.closed ++ [fd] }

/-- Make a channel, with a descriptor for the client's end: the descriptor and
the channel's index. -/
def makeChannel (h : Host) : Nat × Nat × Host :=
  let index := h.channels.length
  let (fd, h) := { h with channels := h.channels ++ [Channel.new] }.openHandle (.channel index)
  (fd, index, h)

/-! ## Streams -/

/-- What waiting for a descriptor ends with, if nothing happens meanwhile. A
descriptor that is not open, or that is no connected socket, has its error to
tell and is ready at once; no descriptor at all is never ready. -/
def readiness (h : Host) (fd : Option Nat) : Wait :=
  if h.limit = some 0 then .failed .invalidArgument
  else
    match fd with
    | none => .expired
    | some n =>
        match h.descriptors.lookup n with
        | some (.channel index) =>
            match h.channels[index]? with
            | some c => if c.toClient.ready then .ready else .expired
            | none => .ready
        | _ => .ready

/-- Receive from a descriptor what is there. -/
def receive (h : Host) (fd : Option Nat) (room : Nat) : Except SystemError Bytes × Host :=
  match h.handle? fd with
  | none => (.error .badDescriptor, h)
  | some .file => (.error .notASocket, h)
  | some .socket => (.error .invalidArgument, h)
  | some (.channel index) =>
      match h.channels[index]? with
      | none => (.error .badDescriptor, h)
      | some c =>
          let (answer, c) := c.clientReceive room
          (answer, h.updateChannel index fun _ => c)

/-- Whether one who receives from a descriptor waits for something to come. -/
def blocks (h : Host) (fd : Option Nat) : Bool :=
  match h.handle? fd with
  | some (.channel index) => (h.channels[index]?).any (·.blocking)
  | _ => false

/-- Let the peer of a channel do something; the answer is what it has yet to
do. -/
def perform (act : Nat × PeerAct) (h : Host) : Option (Nat × PeerAct) × Host :=
  match h.channels[act.1]? with
  | none => (none, h)
  | some c =>
      let (left, c) := c.perform act.2
      (left.map (act.1, ·), h.updateChannel act.1 fun _ => c)

/-- Send over a descriptor. -/
def send (h : Host) (fd : Option Nat) (data : Bytes) : Except SystemError Nat × Host :=
  match h.handle? fd with
  | none => (.error .badDescriptor, h)
  | some .file => (.error .notASocket, h)
  | some .socket => (.error .notConnected, h)
  | some (.channel index) =>
      match h.channels[index]? with
      | none => (.error .badDescriptor, h)
      | some c =>
          let (answer, c) := c.clientSend data
          (answer, h.updateChannel index fun _ => c)

/-- A descriptor as a source of bytes to which nothing happens. -/
def stillReceiver (fd : Option Nat) : Receiver Host where
  wait _ h := (h.readiness fd, h)
  receive w h := h.receive fd w.room

/-- The machine as a stream to which peers do things. -/
def toPaced (h : Host) : Paced Host (Nat × PeerAct) :=
  ⟨h, h.coming⟩

/-- The machine that such a stream is. -/
def ofPaced (p : Paced Host (Nat × PeerAct)) : Host :=
  { p.now with coming := p.coming }

/-- A descriptor as a source of bytes. -/
def receiver (fd : Option Nat) : Receiver Host where
  wait timeout h :=
    let (outcome, p) := ((stillReceiver fd).paced perform (·.blocks fd)).wait timeout h.toPaced
    (outcome, ofPaced p)
  receive w h :=
    let (answer, p) := ((stillReceiver fd).paced perform (·.blocks fd)).receive w h.toPaced
    (answer, ofPaced p)

/-- A descriptor as a sink of bytes. -/
def sender (fd : Option Nat) : Sender Host where
  send data h := h.send fd data

/-- What peers were going to do has begun: all that is due is done. -/
def catchUp (h : Host) : Host :=
  ofPaced (Paced.catchUp perform h h.coming)

/-- What peers were going to do has been done, all of it. -/
def settle (h : Host) : Host :=
  { h.coming.foldl (fun h act => h.updateChannel act.2.1 (·.after act.2.2)) h with coming := [] }

end Host

end DaemonLink
