import DaemonLink.Frame.Reading
import DaemonLink.Host.Basic
import DaemonLink.Stream.Arrivals

/-!
# Receivers that convey a stream

A stream hands out its bytes in pieces of its own choosing, and nothing is
promised about their sizes. What is promised is that a receive brings some of
the bytes that come next, that none are lost or repeated, and that the end is
told only when they have all been received. A reader that needs no more than
this gives the same answer however the stream is cut.

The promise is stated for any receiver, through a relation that says which
bytes a state still has to come and what stands behind them. Arrivals listed in
advance keep it, whatever pieces they are listed in, and so does a descriptor
of a machine that refers to a channel.

For one read less is enough. What happens behind the first wait that brings
nothing is no concern of a read that ends there, and so the loops of a reader
are described for receivers that bring what comes before it. To convey a stream
is to do so and to have its end still behind it.
-/

namespace DaemonLink

variable {σ : Type}

/-! ## Streams of bytes -/

namespace Ending

/-- The answer to one who receives behind the last byte. -/
def answer : Ending → Except SystemError Bytes
  | silence => .error .wouldBlock
  | closed => .ok []
  | reset => .error .connectionReset
  | failed e => .error e

/-- What ends the stream once that answer has been given. -/
def afterwards : Ending → Ending
  | reset => closed
  | e => e

/-- The barren wait that a read ends with, having got some of the bytes it
wanted. -/
def barren (timeout : Int) (got wanted : Nat) : Ending → Barren
  | silence => .expired timeout
  | closed => .closed got wanted
  | reset => .reset
  | failed .connectionReset => .reset
  | failed e => .receiveFailed e

end Ending

/-- A receiver conveys streams: `Has s bytes e` says that in state `s` these
bytes are still to come and `e` behind them. Each receive brings some of them,
as many as the receiver likes, and the end is not told before they have all
been received. -/
structure Receiver.Conveys (r : Receiver σ) (timeout : Int)
    (Has : σ → Bytes → Ending → Prop) : Prop where
  wait : ∀ {s bytes e}, Has s bytes e → 0 < timeout →
    ∃ s', r.wait timeout s =
        (if bytes = [] ∧ e = .silence then .expired else .ready, s') ∧
      Has s' bytes e
  receive : ∀ {s bytes e} {w : Window}, Has s bytes e → bytes ≠ [] → 0 < w.room →
    ∃ data rest s', r.receive w s = (.ok data, s') ∧ data ++ rest = bytes ∧
      data ≠ [] ∧ data.length ≤ w.room ∧ Has s' rest e
  finish : ∀ {s e} {w : Window}, Has s [] e → 0 < w.room →
    ∃ s', r.receive w s = (e.answer, s') ∧ Has s' [] e.afterwards

/-- A receiver brings what comes before the first wait that brings nothing.
`Has s bytes e` says of state `s` that these bytes come and then such a wait,
and `e` how that one ends. What the receiver does from there on is another
matter: all that is said of its state is `Past e`. In particular there may be
more bytes behind a silence. -/
structure Receiver.Brings (r : Receiver σ) (timeout : Int)
    (Has : σ → Bytes → Ending → Prop) (Past : Ending → σ → Prop) : Prop where
  wait : ∀ {s bytes e}, Has s bytes e → 0 < timeout → ¬ (bytes = [] ∧ e = .silence) →
    ∃ s', r.wait timeout s = (.ready, s') ∧ Has s' bytes e
  expire : ∀ {s}, Has s [] .silence → 0 < timeout →
    ∃ s', r.wait timeout s = (.expired, s') ∧ Past .silence s'
  receive : ∀ {s bytes e} {w : Window}, Has s bytes e → bytes ≠ [] → 0 < w.room →
    ∃ data rest s', r.receive w s = (.ok data, s') ∧ data ++ rest = bytes ∧
      data ≠ [] ∧ data.length ≤ w.room ∧ Has s' rest e
  finish : ∀ {s e} {w : Window}, Has s [] e → e ≠ .silence → 0 < w.room →
    ∃ s', r.receive w s = (e.answer, s') ∧ Past e s'

theorem Receiver.Conveys.brings {r : Receiver σ} {timeout : Int}
    {Has : σ → Bytes → Ending → Prop} (hr : r.Conveys timeout Has) :
    r.Brings timeout Has (fun e s => Has s [] e.afterwards) where
  wait := by
    intro s bytes e hs ht hsome
    obtain ⟨s', hw, hs'⟩ := hr.wait hs ht
    rw [if_neg hsome] at hw
    exact ⟨s', hw, hs'⟩
  expire := by
    intro s hs ht
    obtain ⟨s', hw, hs'⟩ := hr.wait hs ht
    rw [if_pos ⟨rfl, rfl⟩] at hw
    exact ⟨s', hw, hs'⟩
  receive := hr.receive
  finish := fun hs _ hroom => hr.finish hs hroom

namespace Receiver.Brings

variable {r : Receiver σ} {timeout : Int} {Has : σ → Bytes → Ending → Prop}
  {Past : Ending → σ → Prop} {s : σ} {bytes : Bytes} {e : Ending}

theorem await_ready (hr : r.Brings timeout Has Past) (hs : Has s bytes e)
    (hsome : ¬ (bytes = [] ∧ e = .silence)) :
    ∃ s', r.await timeout s = (.ready, s') ∧ Has s' bytes e := by
  rw [Receiver.await]
  by_cases ht : timeout ≤ 0
  · rw [if_pos ht]
    exact ⟨s, rfl, hs⟩
  · rw [if_neg ht]
    exact hr.wait hs (by omega) hsome

theorem await_expired (hr : r.Brings timeout Has Past) (hs : Has s [] .silence)
    (ht : 0 < timeout) :
    ∃ s', r.await timeout s = (.expired, s') ∧ Past .silence s' := by
  rw [Receiver.await, if_neg (by omega)]
  exact hr.expire hs ht

end Receiver.Brings

/-! ## Arrivals convey streams -/

namespace Arrivals

/-- The bytes that are listed, and what follows them. -/
def Carries (a : Arrivals) (bytes : Bytes) (e : Ending) : Prop :=
  a.bytes = bytes ∧ a.ending = e

theorem ready_eq_false_iff (a : Arrivals) :
    a.ready = false ↔ a.bytes = [] ∧ a.ending = .silence := by
  simp [ready, bytes, List.flatten_eq_nil_iff]

theorem wait_outcome (a : Arrivals) {bytes : Bytes} {e : Ending} (ha : a.Carries bytes e) :
    (if a.ready then Wait.ready else .expired) =
      if bytes = [] ∧ e = .silence then .expired else .ready := by
  obtain ⟨rfl, rfl⟩ := ha
  by_cases h : a.bytes = [] ∧ a.ending = .silence
  · rw [if_pos h, (ready_eq_false_iff a).mpr h]
    rfl
  · rw [if_neg h]
    have hready := mt (ready_eq_false_iff a).mp h
    rw [Bool.not_eq_false] at hready
    rw [if_pos hready]

theorem receive_some {a : Arrivals} {bytes : Bytes} {e : Ending} {room : Nat}
    (ha : a.Carries bytes e) (hne : bytes ≠ []) (hroom : 0 < room) :
    ∃ data rest a', a.receive room = (.ok data, a') ∧ data ++ rest = bytes ∧
      data ≠ [] ∧ data.length ≤ room ∧ a'.Carries rest e := by
  obtain ⟨rfl, rfl⟩ := ha
  rw [receive]
  split
  · next data rest htake =>
      obtain ⟨hbytes, hdata, hfits⟩ := takeFirst_some hroom htake
      exact ⟨data, rest.flatten, _, rfl, hbytes, hdata, hfits, rfl, rfl⟩
  · next htake => exact absurd (takeFirst_eq_none_iff.mp htake) hne

theorem receive_none {a : Arrivals} {e : Ending} (ha : a.Carries [] e) (room : Nat) :
    ∃ a', a.receive room = (e.answer, a') ∧ a'.Carries [] e.afterwards := by
  obtain ⟨hbytes, rfl⟩ := ha
  rw [receive, takeFirst_eq_none_iff.mpr hbytes]
  cases hend : a.ending <;> exact ⟨_, rfl, rfl, rfl⟩

theorem conveys (timeout : Int) : receiver.Conveys timeout Carries where
  wait := fun {s _ _} hs _ => ⟨s, Prod.ext (wait_outcome s hs) rfl, hs⟩
  receive := fun hs hne hroom => receive_some hs hne hroom
  finish := fun hs _ => receive_none hs _

end Arrivals

/-! ## Descriptors convey streams

As long as nothing else happens on the machine, a descriptor that refers to a
channel is as good as the arrivals on that channel. -/

namespace Host

/-- On a machine on which nothing else is to happen, a descriptor has these
bytes to come from its channel. -/
structure Streams (fd : Nat) (h : Host) (bytes : Bytes) (e : Ending) : Prop where
  still : h.coming = []
  waits : h.limit ≠ some 0
  channel : ∃ index c, h.descriptors.lookup fd = some (.channel index) ∧
    h.channels[index]? = some c ∧ c.toClient.Carries bytes e

theorem receiver_wait_still {h : Host} (hstill : h.coming = []) (fd : Option Nat)
    (timeout : Int) : (receiver fd).wait timeout h = (h.readiness fd, h) := by
  simp only [receiver, Receiver.paced, toPaced, hstill, Paced.wait, stillReceiver,
    ofPaced]
  rw [← hstill]

theorem receiver_receive_still {h : Host} (hstill : h.coming = []) (fd : Option Nat)
    (w : Window) :
    (receiver fd).receive w h =
      ((h.receive fd w.room).1, { (h.receive fd w.room).2 with coming := [] }) := by
  simp only [receiver, Receiver.paced, toPaced, hstill, Paced.receive, stillReceiver,
    ofPaced]

theorem receive_channel {h : Host} {fd index room : Nat} {c : Channel}
    (hfd : h.descriptors.lookup fd = some (.channel index))
    (hc : h.channels[index]? = some c)
    {answer : Except SystemError Bytes} {a : Arrivals}
    (hreceive : c.toClient.receive room = (answer, a)) :
    h.receive (some fd) room =
      (answer, h.updateChannel index fun _ => { c with toClient := a }) := by
  simp only [receive, handle?, Option.bind_some, hfd, hc, Channel.clientReceive,
    hreceive]

theorem Streams.after {h : Host} {fd index : Nat} {c : Channel} {bytes : Bytes}
    {e : Ending} (hwaits : h.limit ≠ some 0)
    (hfd : h.descriptors.lookup fd = some (.channel index))
    (hc : h.channels[index]? = some c) {a : Arrivals} (ha : a.Carries bytes e) :
    Streams fd
      { h.updateChannel index (fun _ => { c with toClient := a }) with coming := [] }
      bytes e where
  still := rfl
  waits := hwaits
  channel := by
    refine ⟨index, { c with toClient := a }, hfd, ?_, ha⟩
    simp [updateChannel, hc]

theorem conveys (timeout : Int) (fd : Nat) :
    (receiver (some fd)).Conveys timeout (Streams fd) where
  wait := by
    rintro h bytes e ⟨hstill, hwaits, index, c, hfd, hc, hbytes⟩ -
    refine ⟨h, ?_, hstill, hwaits, index, c, hfd, hc, hbytes⟩
    rw [receiver_wait_still hstill, readiness, if_neg hwaits]
    simp only [hfd, hc]
    rw [Arrivals.wait_outcome _ hbytes]
  receive := by
    rintro h bytes e w ⟨hstill, hwaits, index, c, hfd, hc, hbytes⟩ hne hroom
    obtain ⟨data, rest, a, hreceive, happend, hdata, hfits, ha⟩ :=
      Arrivals.receive_some hbytes hne hroom
    refine ⟨data, rest, _, ?_, happend, hdata, hfits, Streams.after hwaits hfd hc ha⟩
    rw [receiver_receive_still hstill, receive_channel hfd hc hreceive]
  finish := by
    rintro h e w ⟨hstill, hwaits, index, c, hfd, hc, hbytes⟩ -
    obtain ⟨a, hreceive, ha⟩ := Arrivals.receive_none hbytes w.room
    refine ⟨_, ?_, Streams.after hwaits hfd hc ha⟩
    rw [receiver_receive_still hstill, receive_channel hfd hc hreceive]

/-- A machine with one descriptor, and these arrivals behind it. -/
def streaming (a : Arrivals) : Host :=
  { new .bare FileTree.root with
    channels := [{ Channel.new with toClient := a }]
    descriptors := [(3, .channel 0)]
    next := 4 }

theorem streaming_streams (a : Arrivals) :
    Streams 3 (streaming a) a.bytes a.ending where
  still := rfl
  waits := by simp [streaming, new]
  channel := ⟨0, _, rfl, rfl, rfl, rfl⟩

end Host

end DaemonLink
