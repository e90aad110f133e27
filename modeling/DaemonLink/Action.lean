import DaemonLink.Frame.Reading
import DaemonLink.Host.Surroundings
import DaemonLink.Log.Note

/-!
# Actions

An action is something the program does on its machine. It asks the machine for
things, one after another, and between them tells the log what it is doing. What it
asks for next can depend on what it was answered before, and on nothing else, so an
action is a tree: where something is told it goes on in one way, and where something
is asked for in one way for each answer.

How an action runs is said apart from the tree. `perform` runs it on a machine with
the log left out, and gives the notes as a list. The same tree is also performed
with the log at hand, beside a worker that writes what it is told.
-/

namespace DaemonLink

/-! ## What can be asked of the machine -/

/-- Something the program asks of its machine. -/
inductive Call
  /-- Close a descriptor. -/
  | close (fd : Nat)
  /-- Make a stream socket. -/
  | openSocket
  /-- Connect a socket. -/
  | connect (fd : Nat) (address : Address)
  /-- Read one frame. Nothing is told on the way, and what is asked for meanwhile,
  waiting and receiving, is asked of the one descriptor. -/
  | readFrame (fd : Option Nat) (limits : FrameLimits)
  /-- Whether a file can be opened for reading. -/
  | canRead (path : Bytes)

namespace Call

/-- What the machine can answer. -/
abbrev Answer : Call → Type
  | close _ => Unit
  | openSocket => Except SystemError Nat
  | connect _ _ => Except SystemError Unit
  | readFrame _ _ => FrameResult
  | canRead _ => Bool

/-- What the machine answers, and the machine afterwards. -/
def perform : (c : Call) → Host → c.Answer × Host
  | close fd, h => ((), h.close fd)
  | openSocket, h => h.openSocket
  | connect fd address, h => h.connect fd address
  | readFrame fd limits, h => DaemonLink.readFrame (Host.receiver fd) limits h
  | canRead path, h => (h.canRead path, h)

/-- The same for a program that has so many descriptors open besides those that the
machine knows of. Only what opens one can come out differently. -/
def performBeside (others : Nat) : (c : Call) → Host → c.Answer × Host
  | openSocket, h =>
      if h.hasRoomFor (others + 1) then h.openSocket else (.error .tooManyFiles, h)
  | canRead path, h => (h.hasRoomFor (others + 1) && h.canRead path, h)
  | c, h => c.perform h

end Call

/-! ## Actions -/

/-- Something the program does on its machine. -/
inductive Action (α : Type)
  /-- It is done, and has given a value. -/
  | ended (value : α)
  /-- The log is told something. -/
  | noted (note : Note) (rest : Action α)
  /-- The machine is asked for something. -/
  | asked (c : Call) (rest : c.Answer → Action α)

/-- An action that has been performed. -/
structure Performed (α : Type) where
  value : α
  host : Host
  notes : List Note

namespace Action

variable {α β : Type}

/-- Do one thing after another. -/
protected def bind : Action α → (α → Action β) → Action β
  | ended value, next => next value
  | noted note rest, next => noted note (rest.bind next)
  | asked c rest, next => asked c fun answer => (rest answer).bind next

instance : Monad Action where
  pure := ended
  bind := Action.bind

/-- Tell the log something. -/
def tell (note : Note) : Action Unit :=
  noted note (ended ())

/-- Close a descriptor. -/
def close (fd : Nat) : Action Unit :=
  asked (.close fd) ended

/-- Make a stream socket. -/
def openSocket : Action (Except SystemError Nat) :=
  asked .openSocket ended

/-- Connect a socket. -/
def connect (fd : Nat) (address : Address) : Action (Except SystemError Unit) :=
  asked (.connect fd address) ended

/-- Read one frame. -/
def readFrame (fd : Option Nat) (limits : FrameLimits) : Action FrameResult :=
  asked (.readFrame fd limits) ended

/-- Ask whether a file can be opened for reading. -/
def canRead (path : Bytes) : Action Bool :=
  asked (.canRead path) ended

/-! ## Without a log -/

/-- Perform an action. The notes come in the order in which they are told. -/
def perform : Action α → Host → Performed α
  | ended value, h => ⟨value, h, []⟩
  | noted note rest, h =>
      let done := rest.perform h
      { done with notes := note :: done.notes }
  | asked c rest, h =>
      let (answer, h) := c.perform h
      (rest answer).perform h

instance : CoeFun (Action α) fun _ => Host → Performed α := ⟨perform⟩

@[simp] theorem pure_apply (value : α) (h : Host) :
    (pure value : Action α) h = ⟨value, h, []⟩ := rfl

@[simp] theorem bind_apply (first : Action α) (next : α → Action β) (h : Host) :
    (first >>= next) h =
      ⟨(next (first h).value (first h).host).value,
        (next (first h).value (first h).host).host,
        (first h).notes ++ (next (first h).value (first h).host).notes⟩ := by
  induction first generalizing h with
  | ended value => rfl
  | noted note rest ih =>
      have hrest := ih h
      simp only [bind] at hrest ⊢
      simp only [Action.bind, perform, hrest, List.cons_append]
  | asked c rest ih => exact ih _ _

@[simp] theorem tell_apply (note : Note) (h : Host) : tell note h = ⟨(), h, [note]⟩ := rfl

@[simp] theorem close_apply (fd : Nat) (h : Host) : close fd h = ⟨(), h.close fd, []⟩ := rfl

@[simp] theorem openSocket_apply (h : Host) :
    openSocket h = ⟨h.openSocket.1, h.openSocket.2, []⟩ := rfl

@[simp] theorem connect_apply (fd : Nat) (address : Address) (h : Host) :
    connect fd address h = ⟨(h.connect fd address).1, (h.connect fd address).2, []⟩ := rfl

@[simp] theorem readFrame_apply (fd : Option Nat) (limits : FrameLimits) (h : Host) :
    readFrame fd limits h =
      ⟨(DaemonLink.readFrame (Host.receiver fd) limits h).1,
        (DaemonLink.readFrame (Host.receiver fd) limits h).2, []⟩ := rfl

@[simp] theorem canRead_apply (path : Bytes) (h : Host) :
    canRead path h = ⟨h.canRead path, h, []⟩ := rfl

end Action

end DaemonLink
