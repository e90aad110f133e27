import DaemonLink.Frame.Reading
import DaemonLink.DaemonLog

/-!
# What a connection is set to

A connection is given limits for the frames it reads and a rule for the kinds
of replies it takes. Unless it is strict it takes every kind. If it is, a reply
has to be of the kind of its request, or of one of a set of further kinds.

Sets of kinds are kept in order and without repetition, so that two sets with
the same members are equal and a set can be listed in one way only.

A connection is also given a sink, to which it hands the lines of the daemon's
log. The usual sink forwards them to the program's own log.
-/

namespace DaemonLink

/-- A set of kinds, listed in the order of their bytes. -/
structure KindSet where
  kinds : List Bytes
  deriving DecidableEq, Repr

namespace KindSet

/-- The set without members. -/
def empty : KindSet := ⟨[]⟩

/-- A list in order, with one more member. -/
def insertInto (kind : Bytes) : List Bytes → List Bytes
  | [] => [kind]
  | k :: rest =>
      if kind < k then kind :: k :: rest
      else if kind = k then k :: rest
      else k :: insertInto kind rest

/-- The set with one more member. -/
def insert (s : KindSet) (kind : Bytes) : KindSet :=
  ⟨insertInto kind s.kinds⟩

/-- The set of the kinds in a list. -/
def ofList (kinds : List Bytes) : KindSet :=
  kinds.foldl insert empty

/-- Whether a kind is a member. -/
def contains (s : KindSet) (kind : Bytes) : Bool :=
  s.kinds.contains kind

theorem mem_insertInto (kind x : Bytes) (kinds : List Bytes) :
    x ∈ insertInto kind kinds ↔ x = kind ∨ x ∈ kinds := by
  induction kinds with
  | nil => simp [insertInto]
  | cons k rest ih =>
      simp only [insertInto]
      split
      · simp
      · split
        · next h => subst h; simp
        · simp only [List.mem_cons, ih]
          exact or_left_comm

/-- A kind is a member of the set of a list if it is in the list. -/
theorem mem_ofList (x : Bytes) (kinds : List Bytes) :
    x ∈ (ofList kinds).kinds ↔ x ∈ kinds := by
  suffices h : ∀ s : KindSet, x ∈ (kinds.foldl insert s).kinds ↔ x ∈ s.kinds ∨ x ∈ kinds by
    simpa [ofList, empty] using h empty
  induction kinds with
  | nil => simp
  | cons k rest ih =>
      intro s
      rw [List.foldl_cons, ih, insert, mem_insertInto, List.mem_cons]
      constructor
      · rintro ((h | h) | h) <;> simp [h]
      · rintro (h | h | h) <;> simp [h]

end KindSet

/-- What a connection is set to. -/
structure ConnectionOptions where
  limits : FrameLimits := {}
  /-- Whether replies of unexpected kinds are refused. -/
  strict : Bool := false
  /-- The kinds taken besides that of the request. -/
  accepted : KindSet := .empty
  deriving DecidableEq, Repr

namespace ConnectionOptions

/-- Whether a reply of one kind is taken for a request of another. -/
def accepts (o : ConnectionOptions) (request reply : Bytes) : Bool :=
  !o.strict || reply = request || o.accepted.contains reply

end ConnectionOptions

/-- Who receives the lines of the daemon's log. -/
inductive Sink
  /-- Nobody. -/
  | none
  /-- The program's own log. -/
  | logger
  /-- A receiver known by a name. -/
  | named (name : Bytes)
  deriving DecidableEq, Repr

namespace Sink

/-- What comes of handing a line to a sink. -/
inductive Delivery
  /-- The line is dropped. -/
  | dropped
  /-- The line becomes a note of the program's own log. -/
  | noted (note : Note)
  /-- The line is received under a name. -/
  | received (name : Bytes) (entry : LogEntry)
  deriving DecidableEq, Repr

/-- Hand a line to a sink. -/
def deliver (s : Sink) (e : LogEntry) : Delivery :=
  match s with
  | none => .dropped
  | logger => .noted e.note
  | named name => .received name e

end Sink

end DaemonLink
