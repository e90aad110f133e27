import DaemonLink.Stream.Sides

/-!
# Streams to which something still happens

A stream does not stand still while it is read. Here a schedule stands beside
it: events that will change it, each so many milliseconds after the one before.
An event may be held up when only a part of it has taken place, as the sending
of more than there is room for. What is left of it is then the next event, and
is due as soon as there is room.

A wait sees the events that fall within the time it is allowed, one after
another, and ends with the first of them that makes the stream ready. If none
does, the time is taken off the delay of the event that comes next, so that two
waits of ten milliseconds reach as far as one of twenty. Receiving takes no
time, except that there may be nothing to receive and the stream be one that
blocks: then the next event is waited for, however long it takes.

What this makes visible is that the time allowed bounds each wait and not their
sum.
-/

namespace DaemonLink

/-- A stream with states in `σ`, and the events that will change it. -/
structure Paced (σ ε : Type) where
  /-- The stream at present. -/
  now : σ
  /-- The events to come, each with the milliseconds since the one before. -/
  coming : List (Nat × ε)
  deriving DecidableEq, Repr

namespace Paced

variable {σ ε : Type}

/-- Let the events that are due take place, up to the first that is held up. -/
def catchUp (perform : ε → σ → Option ε × σ) (now : σ) : List (Nat × ε) → Paced σ ε
  | [] => ⟨now, []⟩
  | (0, event) :: later =>
      match perform event now with
      | (none, s) => catchUp perform s later
      | (some left, s) => ⟨s, (0, left) :: later⟩
  | (delay + 1, event) :: later => ⟨now, (delay + 1, event) :: later⟩

/-- Wait for a stream while its events take place. -/
def wait (r : Receiver σ) (perform : ε → σ → Option ε × σ) (timeout : Int) (now : σ) :
    List (Nat × ε) → Wait × Paced σ ε
  | [] =>
      let (outcome, s) := r.wait timeout now
      (outcome, ⟨s, []⟩)
  | (delay, event) :: later =>
      match r.wait timeout now with
      | (.expired, s) =>
          if delay ≤ timeout then
            match perform event s with
            | (none, s) => wait r perform (timeout - delay) s later
            | (some left, s) =>
                let (outcome, s) := r.wait (timeout - delay) s
                (outcome, ⟨s, (0, left) :: later⟩)
          else (.expired, ⟨s, (delay - timeout.toNat, event) :: later⟩)
      | (outcome, s) => (outcome, catchUp perform s ((delay, event) :: later))

/-- Receive from a stream while its events take place. -/
def receive (r : Receiver σ) (perform : ε → σ → Option ε × σ) (blocks : σ → Bool) (w : Window)
    (now : σ) : List (Nat × ε) → Except SystemError Bytes × Paced σ ε
  | [] =>
      let (answer, s) := r.receive w now
      (answer, ⟨s, []⟩)
  | (delay, event) :: later =>
      match r.receive w now with
      | (.error .wouldBlock, s) =>
          if blocks s then
            match perform event s with
            | (none, s) => receive r perform blocks w s later
            | (some left, s) =>
                let (answer, s) := r.receive w s
                (answer, catchUp perform s ((0, left) :: later))
          else (.error .wouldBlock, ⟨s, (delay, event) :: later⟩)
      | (answer, s) => (answer, catchUp perform s ((delay, event) :: later))

end Paced

/-- A source of bytes while events change it. `blocks` says of which states a
receiver waits when there is nothing to receive. -/
def Receiver.paced {σ ε : Type} (r : Receiver σ) (perform : ε → σ → Option ε × σ)
    (blocks : σ → Bool) : Receiver (Paced σ ε) where
  wait timeout p := Paced.wait r perform timeout p.now p.coming
  receive w p := Paced.receive r perform blocks w p.now p.coming

end DaemonLink
