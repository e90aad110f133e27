import DaemonLink.Host.Backlog

/-!
# A channel between a client and its peer

A channel is two streams, one in each direction, and what each end has given
up. The streams hold what has been sent and not yet received. The rest is the
etiquette of closing, and all of it is here:

* An end that closes leaves behind what it has sent. The other end is told
  that the stream is closed once it has received that. If the closing end had
  itself not received everything, the other end is told of a reset first.
* A client that shuts down receiving is told at once that the stream is
  closed, after what has come already; nothing more can be sent to it.
* Sending to an end that has closed, or after one's own side has been shut
  down, breaks the pipe.

A channel that does not block takes only as much as there is room for, and
refuses when it is full. A peer that sends on its own time waits for room.
-/

namespace DaemonLink

/-- A connected pair of stream sockets, seen from outside. -/
structure Channel where
  /-- What the peer has sent and the client has not received. -/
  toClient : Arrivals
  /-- What the client has sent and the peer has not received. -/
  toPeer : Arrivals
  clientOpen : Bool
  peerOpen : Bool
  /-- Whether the client may still send. -/
  clientSends : Bool
  /-- Whether the client waits when it cannot go on at once. -/
  blocking : Bool
  deriving DecidableEq, Repr

/-- Something the peer does. -/
inductive PeerAct
  | send (data : Bytes)
  /-- Go on sending what there was no room for. -/
  | resume (data : Bytes)
  | stopSending
  | close
  deriving DecidableEq, Repr

namespace Channel

/-- A fresh pair. -/
def new : Channel where
  toClient := .silent
  toPeer := .silent
  clientOpen := true
  peerOpen := true
  clientSends := true
  blocking := true

/-- How a stream ends for the end that remains, when the other one closes with
or without something left unread. A reset is told even to an end that already
expects the stream to be closed. -/
def endingAfterClose (unread : Bool) : Ending :=
  if unread then .reset else .closed

/-! ## The client's end -/

/-- The client receives. -/
def clientReceive (c : Channel) (room : Nat) : Except SystemError Bytes × Channel :=
  let (answer, rest) := c.toClient.receive room
  (answer, { c with toClient := rest })

/-- The client sends; the answer is how much was taken. -/
def clientSend (c : Channel) (data : Bytes) : Except SystemError Nat × Channel :=
  if !c.clientSends || !c.peerOpen then (.error .brokenPipe, c)
  else if c.blocking then
    (.ok data.length, { c with toPeer := c.toPeer.pushAll (Backlog.cut data) })
  else
    match Backlog.accept (Backlog.charged c.toPeer) data with
    | ([], _) => (.error .wouldBlock, c)
    | (taken, left) =>
        (.ok (data.length - left.length), { c with toPeer := c.toPeer.pushAll taken })

/-- The client stops sending. -/
def clientStopsSending (c : Channel) : Channel :=
  { c with
    clientSends := false
    toPeer := if c.toPeer.ending = .silence then { c.toPeer with ending := .closed } else c.toPeer }

/-- The client stops receiving. -/
def clientStopsReceiving (c : Channel) : Channel :=
  { c with
    toClient :=
      if c.toClient.ending = .silence then { c.toClient with ending := .closed }
      else c.toClient }

/-- The client closes. What it has not received is lost. -/
def clientClose (c : Channel) : Channel :=
  if !c.clientOpen then c
  else
    { c with
      clientOpen := false
      toPeer := { c.toPeer with ending := endingAfterClose (!c.toClient.bytes.isEmpty) }
      toClient := ⟨[], .closed⟩ }

/-! ## The peer's end -/

/-- The peer sends. What it sends after either side has ended the stream goes
nowhere. -/
def peerSend (c : Channel) (data : Bytes) : Channel :=
  if c.toClient.ending = .silence then { c with toClient := c.toClient.pushAll (Backlog.cut data) }
  else c

/-- The peer stops sending. -/
def peerStopsSending (c : Channel) : Channel :=
  c.clientStopsReceiving

/-- The peer closes. What it has not received is lost. -/
def peerClose (c : Channel) : Channel :=
  if !c.peerOpen then c
  else
    { c with
      peerOpen := false
      toClient :=
        if c.clientOpen then
          { c.toClient with ending := endingAfterClose (!c.toPeer.bytes.isEmpty) }
        else c.toClient
      toPeer := ⟨[], .closed⟩ }

/-- The peer does something and is done with it. -/
def after (c : Channel) : PeerAct → Channel
  | .send data => c.peerSend data
  | .resume data => c.peerSend data
  | .stopSending => c.peerStopsSending
  | .close => c.peerClose

/-- The peer sends what there is room for; the answer is what it has yet to
do. -/
def peerOffer (c : Channel) (data : Bytes) : Option PeerAct × Channel :=
  if c.toClient.ending ≠ .silence then (none, c)
  else
    let (taken, left) := Backlog.accept (Backlog.charged c.toClient) data
    (if left.isEmpty then none else some (.resume left),
      { c with toClient := c.toClient.pushAll taken })

/-- The peer does something on its own time; the answer is what it has yet to
do. Once it has waited for room, it goes on only when three quarters of it are
free. -/
def perform (c : Channel) : PeerAct → Option PeerAct × Channel
  | .send data => c.peerOffer data
  | .resume data =>
      if c.toClient.ending = .silence && Backlog.bound < 4 * Backlog.charged c.toClient then
        (some (.resume data), c)
      else c.peerOffer data
  | .stopSending => (none, c.peerStopsSending)
  | .close => (none, c.peerClose)

/-- The peer receives all there is: the bytes, what follows them, and the
channel afterwards. -/
def peerDrain (c : Channel) : Bytes × Ending × Channel :=
  let ending := c.toPeer.ending
  (c.toPeer.bytes, ending,
    { c with toPeer := ⟨[], if ending = .reset then .closed else ending⟩ })

/-- The peer receives the first bytes of what there is, at most so many. -/
def peerTake (c : Channel) (n : Nat) : Bytes × Channel :=
  let waiting := c.toPeer.bytes
  (waiting.take n, { c with toPeer := { c.toPeer with pieces := Backlog.cut (waiting.drop n) } })

end Channel

end DaemonLink
