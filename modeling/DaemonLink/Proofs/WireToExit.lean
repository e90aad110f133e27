import DaemonLink.Control
import DaemonLink.Proofs.Deliveries
import DaemonLink.Proofs.FrameRoundTrip
import DaemonLink.Proofs.SessionSteps

/-!
# From the wire to the exit code

A peer that does not begin with a frame that has something in it has said
nothing a request could be answered by. What it did instead is told apart by the
reader, named by the connection, and shown to a script as the exit code for a
daemon that could not be understood.

The peer is told something as well. A stream is closed with what has not been
read of it, and the peer of a client that leaves bytes unread is told of a reset
and not of a close. So it matters to others how far the reader has come: it
stops behind a header that announces nothing or too much, and everywhere else
it has taken all there was.
-/

namespace DaemonLink

/-! ## Streams without a frame to read -/

/-- The stream begins with a whole frame that is not empty and not too large. -/
def BeginsWithFrame (max : UInt32) (bytes : Bytes) : Prop :=
  ∃ payload, payload ≠ [] ∧ payload.length ≤ max.toNat ∧ packet (.given payload) <+: bytes

theorem header_append_drop {bytes : Bytes} (h : Header.size ≤ bytes.length) :
    (Header.ofBytes bytes).toBytes ++ bytes.drop Header.size = bytes := by
  match bytes, h with
  | b0 :: b1 :: b2 :: b3 :: rest, _ => rfl

theorem packet_in_front {bytes : Bytes} (hlen : Header.size ≤ bytes.length)
    (hwhole : announced bytes ≤ bytes.length - Header.size) :
    packet (.given ((bytes.drop Header.size).take (announced bytes))) <+: bytes := by
  refine ⟨(bytes.drop Header.size).drop (announced bytes), ?_⟩
  have hlength : ((bytes.drop Header.size).take (announced bytes)).length = announced bytes := by
    rw [List.length_take, List.length_drop]
    omega
  have hheader : (announced bytes).toUInt32 = (Header.ofBytes bytes).length := by
    rw [← announced_eq hlen]
    exact UInt32.ofNat_toNat
  rw [packet, Payload.length, hlength, hheader, Header.ofLength_length, List.append_assoc]
  show _ ++ ((bytes.drop Header.size).take (announced bytes) ++ _) = bytes
  rw [List.take_append_drop, header_append_drop hlen]

theorem announced_of_front {payload bytes : Bytes} (hwire : payload.length ≤ maxWireLength)
    (h : packet (.given payload) <+: bytes) :
    announced bytes = payload.length ∧ Header.size + payload.length ≤ bytes.length := by
  obtain ⟨rest, rfl⟩ := h
  refine ⟨announced_packet (p := .given payload) hwire rest, ?_⟩
  rw [List.length_append, length_packet]
  exact Nat.le_add_right _ _

theorem empty_packet_in_front_iff {bytes : Bytes} :
    packet (.given []) <+: bytes ↔ Header.size ≤ bytes.length ∧ announced bytes = 0 := by
  constructor
  · intro h
    obtain ⟨hzero, hlen⟩ := announced_of_front (Nat.zero_le _) h
    exact ⟨by rw [List.length_nil] at hlen; omega, hzero⟩
  · rintro ⟨hlen, hzero⟩
    have hfront := packet_in_front hlen (by omega)
    rw [hzero, List.take_zero] at hfront
    exact hfront

theorem Ending.report_ended {e : Ending} (he : e = .closed ∨ e = .reset ∨ e = .silence)
    (timeout : Int) (got wanted : Nat) :
    (e.report timeout got wanted).1 = .closed ∨ (e.report timeout got wanted).1 = .timeout := by
  rcases he with rfl | rfl | rfl
  · exact Or.inl rfl
  · exact Or.inl rfl
  · exact Or.inr rfl

/-- Without a frame to read there are an empty one, one too large, and an end of
the stream before one is whole; and in the last case nothing is left. -/
theorem readingOf_without_frame {limits : FrameLimits} {bytes : Bytes} {e : Ending}
    (he : e = .closed ∨ e = .reset ∨ e = .silence)
    (hframe : ¬ BeginsWithFrame limits.max bytes) :
    let reading := readingOf limits bytes e
    (packet (.given []) <+: bytes ∧ reading = ⟨.ok, [], [], bytes.drop 4, e⟩) ∨
    (¬ packet (.given []) <+: bytes ∧
      (reading.status = .tooLarge ∧ reading.rest = bytes.drop 4 ∨
        (reading.status = .closed ∨ reading.status = .timeout) ∧ reading.rest = [])) := by
  have hsize : Header.size = 4 := rfl
  rw [empty_packet_in_front_iff]
  by_cases hshort : bytes.length < 4
  · rw [readingOf, if_pos hshort]
    exact Or.inr ⟨by omega, Or.inr ⟨Ending.report_ended he _ _ _, rfl⟩⟩
  by_cases hmax : limits.max.toNat < announced bytes
  · rw [readingOf, if_neg hshort, if_pos hmax]
    exact Or.inr ⟨by omega, Or.inl ⟨rfl, rfl⟩⟩
  by_cases hwhole : announced bytes ≤ bytes.length - 4
  · rw [readingOf, if_neg hshort, if_neg hmax, if_pos hwhole]
    by_cases hzero : announced bytes = 0
    · rw [hzero]
      exact Or.inl ⟨⟨by omega, rfl⟩, rfl⟩
    · have hlength : ((bytes.drop 4).take (announced bytes)).length = announced bytes := by
        rw [List.length_take, List.length_drop]
        omega
      refine absurd ⟨_, ?_, ?_, packet_in_front (by omega) hwhole⟩ hframe
      · intro hnil
        rw [show (bytes.drop 4).take (announced bytes) = [] from hnil] at hlength
        exact hzero hlength.symm
      · rw [hsize, hlength]
        omega
  · rw [readingOf, if_neg hshort, if_neg hmax, if_neg hwhole]
    exact Or.inr ⟨by omega, Or.inr ⟨Ending.report_ended he _ _ _, rfl⟩⟩

theorem rest_without_frame {limits : FrameLimits} {bytes : Bytes} {e : Ending}
    (he : e = .closed ∨ e = .reset ∨ e = .silence)
    (hframe : ¬ BeginsWithFrame limits.max bytes) :
    (readingOf limits bytes e).rest =
      if packet (.given []) <+: bytes ∨ (readingOf limits bytes e).status = .tooLarge
      then bytes.drop 4 else [] := by
  rcases readingOf_without_frame he hframe with
    ⟨hempty, hreading⟩ | ⟨hempty, ⟨hlarge, hrest⟩ | ⟨hended, hrest⟩⟩
  · rw [if_pos (Or.inl hempty), hreading]
  · rw [if_pos (Or.inr hlarge), hrest]
  · rw [if_neg, hrest]
    rintro (h | h)
    · exact hempty h
    · rcases hended with hclosed | hexpired
      · rw [h] at hclosed
        cases hclosed
      · rw [h] at hexpired
        cases hexpired

/-! ## What the peer sees -/

namespace Channel

theorem peerDrain_clientClose {c : Channel} (hopen : c.clientOpen = true) :
    c.clientClose.peerDrain.1 = c.toPeer.bytes ∧
      c.clientClose.peerDrain.2.1 = if c.toClient.bytes = [] then .closed else .reset := by
  rw [clientClose, hopen]
  refine ⟨rfl, ?_⟩
  show endingAfterClose (!c.toClient.bytes.isEmpty) = _
  cases c.toClient.bytes <;> rfl

end Channel

namespace Host

theorem Refers.close_channel {fd index : Nat} {c : Channel} {h : Host}
    (hc : Refers fd index c h) : (h.close fd).channels[index]? = some c.clientClose := by
  simp only [close, hc.descriptor, updateChannel, List.getElem?_modify, hc.channel]
  simp

theorem delivers_close {fd : Nat} {timeout : Int} {h : Host} {bytes : Bytes} {e : Ending}
    (hp : Delivers fd timeout h h.coming bytes e) :
    ∃ index c, Refers fd index c h ∧ c.toClient.bytes <+: bytes ∧
      (h.coming = [] → c.toClient.bytes = bytes) ∧
      ∃ c', (h.close fd).channels[index]? = some c' ∧ c'.peerDrain.1 = c.toPeer.bytes ∧
        c'.peerDrain.2.1 = if c.toClient.bytes = [] then .closed else .reset := by
  obtain ⟨index, c, hc, hopen, hfeeds⟩ := hp
  refine ⟨index, c, hc, hfeeds.prefix_bytes, fun hstill => ?_, c.clientClose, hc.close_channel,
    Channel.peerDrain_clientClose hopen⟩
  rw [hstill] at hfeeds
  exact hfeeds.carries.1

theorem receiver_keeps_still (fd : Option Nat) : (receiver fd).Keeps (·.coming = []) where
  wait := by
    intro timeout h hstill
    rw [receiver_wait_still hstill]
    exact hstill
  receive := by
    intro w h hstill
    rw [receiver_receive_still hstill]

end Host

namespace Connection

/-! ## What the connection makes of it -/

/-- Why an exchange fails over a stream without a frame to read. -/
def streamFailure (limits : FrameLimits) (bytes : Bytes) (e : Ending) : Failure :=
  if packet (.given []) <+: bytes then
    ⟨.malformedEnvelope, text "decode", text "empty payload is not an envelope"⟩
  else
    ⟨.frameIo, (readingOf limits bytes e).status.name, (readingOf limits bytes e).err⟩

theorem streamFailure_transport (limits : FrameLimits) (bytes : Bytes) (e : Ending) :
    (streamFailure limits bytes e).isTransportError = true ∧
      (report (streamFailure limits bytes e)).exit = .transport := by
  rw [streamFailure]
  split <;> exact ⟨rfl, rfl⟩

theorem streamFailure_kind {limits : FrameLimits} {bytes : Bytes} {e : Ending}
    (he : e = .closed ∨ e = .reset ∨ e = .silence)
    (hframe : ¬ BeginsWithFrame limits.max bytes) (hempty : ¬ packet (.given []) <+: bytes) :
    (streamFailure limits bytes e).kind = text "connection-closed" ∨
      (streamFailure limits bytes e).kind = text "timeout" ∨
      (streamFailure limits bytes e).kind = text "frame-too-large" := by
  rw [streamFailure, if_neg hempty]
  rcases readingOf_without_frame he hframe with
    ⟨h, -⟩ | ⟨-, ⟨hlarge, -⟩ | ⟨hclosed | hexpired, -⟩⟩
  · exact absurd h hempty
  · rw [hlarge]
    exact Or.inr (Or.inr rfl)
  · rw [hclosed]
    exact Or.inl rfl
  · rw [hexpired]
    exact Or.inr (Or.inl rfl)

theorem fail_host {x : Connection} {fd : Nat} (hfd : x.descriptor = some fd) (f : Failure)
    (h : Host) : (x.fail f h).host = h.close fd := by
  obtain ⟨descriptor, options, sink, state⟩ := x
  subst hfd
  rfl

theorem awaitReply_of_fault {x : Connection} {h h₁ : Host} {fault : FrameFault}
    (hread : readFrame (Host.receiver x.descriptor) x.options.limits h = (.error fault, h₁)) :
    x.awaitReply h = x.fail (frameFailure fault) h₁ := by
  simp only [awaitReply, Action.bind_apply, Action.readFrame_apply, hread, List.nil_append]

theorem awaitReply_of_empty {x : Connection} {h h₁ : Host}
    (hread : readFrame (Host.receiver x.descriptor) x.options.limits h = (.ok [], h₁)) :
    (x.awaitReply h).value = (x.fail emptyFrame h₁).value ∧
      (x.awaitReply h).host = (x.fail emptyFrame h₁).host := by
  simp only [awaitReply, Action.bind_apply, Action.readFrame_apply, hread,
    EnvelopeSource.ofPayload]
  exact ⟨rfl, rfl⟩

/-- The reader's status and text are the kind and the text of the failure,
except that of an empty frame the connection says itself what is wrong. -/
theorem awaitReply_of_reading {x : Connection} {fd : Nat} {h h₁ : Host} {bytes : Bytes}
    {e : Ending} {result : FrameResult} (hfd : x.descriptor = some fd)
    (he : e = .closed ∨ e = .reset ∨ e = .silence)
    (hframe : ¬ BeginsWithFrame x.options.limits.max bytes)
    (hread : readFrame (Host.receiver x.descriptor) x.options.limits h = (result, h₁))
    (hstatus : result.status = (readingOf x.options.limits bytes e).status)
    (hpayload : result.payload = (readingOf x.options.limits bytes e).out)
    (hmessage : result.message = (readingOf x.options.limits bytes e).err) :
    (x.awaitReply h).value = (.failed (streamFailure x.options.limits bytes e),
        { x with descriptor := none, state := .failed }) ∧
      (x.awaitReply h).host = h₁.close fd := by
  rw [streamFailure]
  rcases readingOf_without_frame he hframe with ⟨hempty, hreading⟩ | ⟨hempty, hreading⟩
  · rw [hreading] at hstatus hpayload
    cases result with
    | error fault => exact absurd hstatus fault.status_ne_ok
    | ok payload =>
        obtain rfl : payload = [] := hpayload
        obtain ⟨hvalue, hhost⟩ := awaitReply_of_empty hread
        rw [if_pos hempty, hvalue, hhost, fail_value, fail_host hfd]
        exact ⟨rfl, rfl⟩
  · cases result with
    | error fault =>
        rw [if_neg hempty, ← hstatus, ← hmessage, awaitReply_of_fault hread, fail_value,
          fail_host hfd]
        exact ⟨rfl, rfl⟩
    | ok payload =>
        rw [← hstatus] at hreading
        rcases hreading with ⟨hlarge, -⟩ | ⟨hclosed | hexpired, -⟩
        · cases hlarge
        · cases hclosed
        · cases hexpired

/-- A stream that does not begin with a frame to read ends in a failure of the
exchange, whatever pieces it comes in and however it ends: that of an empty
frame, or the one that the reader's status and text make. The program exits with
the code for a daemon that was not understood. The connection has failed and is
closed, with its options and its sink as they were, and its descriptor has been
closed, once. What follows an empty frame or the header of one too large has not
been received, and nothing else is left over. The peer is told of a reset if
some of that had been sent, and otherwise that the connection is closed. The
kind of the request plays no part in any of this. -/
theorem failure_reaches_exit_code {x : Connection} {fd : Nat} {h : Host} {bytes : Bytes}
    {e : Ending} (hfd : x.descriptor = some fd)
    (hstream : Host.Delivers fd x.options.limits.timeout h h.coming bytes e)
    (he : e = .closed ∨ e = .reset ∨ e = .silence ∧ 0 < x.options.limits.timeout)
    (hframe : ¬ BeginsWithFrame x.options.limits.max bytes) :
    let reading := readingOf x.options.limits bytes e
    let result := (readFrame (Host.receiver x.descriptor) x.options.limits h).1
    let f := streamFailure x.options.limits bytes e
    let after := x.awaitReply h
    result.status = reading.status ∧ result.message = reading.err ∧
    after.value = (.failed f, { x with descriptor := none, state := .failed }) ∧
    f.isTransportError = true ∧ (report f).exit = .transport ∧ (report f).exit.code = 2 ∧
    (¬ packet (.given []) <+: bytes → f.kind = text "connection-closed" ∨
      f.kind = text "timeout" ∨ f.kind = text "frame-too-large") ∧
    reading.rest = (if packet (.given []) <+: bytes ∨ reading.status = .tooLarge
      then bytes.drop 4 else []) ∧
    after.host.table = h.table.close fd ∧
    ∃ h₁ index c, after.host = h₁.close fd ∧
      Host.Delivers fd x.options.limits.timeout h₁ h₁.coming reading.rest reading.ending ∧
      Host.Refers fd index c h₁ ∧ c.toClient.bytes <+: reading.rest ∧
      (h.coming = [] → c.toClient.bytes = reading.rest) ∧
      ∃ c', after.host.channels[index]? = some c' ∧ c'.peerDrain.1 = c.toPeer.bytes ∧
        c'.peerDrain.2.1 = if c.toClient.bytes = [] then .closed else .reset := by
  have hends : e = .closed ∨ e = .reset ∨ e = .silence := by
    rcases he with he | he | ⟨he, -⟩
    · exact Or.inl he
    · exact Or.inr (Or.inl he)
    · exact Or.inr (Or.inr he)
  have htimed : e = .silence → 0 < x.options.limits.timeout := by
    rintro rfl
    rcases he with he | he | ⟨-, htimeout⟩
    · cases he
    · cases he
    · exact htimeout
  obtain ⟨result, h₁, hread, hstatus, hpayload, hmessage, hleft⟩ :=
    readFrame_decided_by_bytes (Host.deliveries_conveyed x.options.limits.timeout fd) hstream htimed
  rw [← hfd] at hread
  obtain ⟨hvalue, hhost⟩ :=
    awaitReply_of_reading hfd hends hframe hread hstatus hpayload hmessage
  obtain ⟨htransport, hexit⟩ := streamFailure_transport x.options.limits bytes e
  have htable : h₁.table = h.table := by
    rw [← Host.table_readFrame x.descriptor x.options.limits h, hread]
  obtain ⟨index, c, hc, hunread, hall, c', hc', hdrained, hending⟩ := Host.delivers_close hleft
  have hstill := readFrame_keeps (Host.receiver_keeps_still x.descriptor) x.options.limits (s := h)
  rw [hread] at hstill
  have hcode : (report (streamFailure x.options.limits bytes e)).exit.code = 2 := by
    rw [hexit]
    rfl
  have hkind := streamFailure_kind hends hframe
  have hrest := rest_without_frame hends hframe
  have hclosed : (h₁.close fd).table = h.table.close fd := by rw [Host.table_close, htable]
  simp only [hread, hhost]
  refine ⟨hstatus, hmessage, hvalue, htransport, hexit, hcode, hkind, hrest, hclosed, ?_⟩
  refine ⟨h₁, index, c, rfl, hleft, hc, hunread, ?_, c', hc', hdrained, hending⟩
  intro hnone
  exact hall (hstill hnone)

/-- A header that announces more than is accepted, cut in two, and a byte behind
it that is never received. -/
theorem failure_reaches_exit_code_too_large :
    let x : Connection := ⟨some 3, { limits := ⟨10, 16⟩ }, .logger, .idle⟩
    let h := Host.streaming ⟨[[0, 0], [1, 0, 7]], .silence⟩
    let f : Failure := ⟨.frameIo, text "frame-too-large",
      text "frame length " ++ decimal 256 ++ text " exceeds limit " ++ decimal 16⟩
    x.descriptor = some 3 ∧ Host.Delivers 3 10 h h.coming [0, 0, 1, 0, 7] .silence ∧
      ¬ BeginsWithFrame 16 [0, 0, 1, 0, 7] ∧
      (x.awaitReply h).value = (.failed f, { x with descriptor := none, state := .failed }) ∧
      (report f).exit.code = 2 ∧
      ∃ (index : Nat) (c : Channel),
        (x.awaitReply h).host.channels[index]? = some c ∧ c.peerDrain.2.1 = .reset := by
  intro x h f
  have hstream : Host.Delivers 3 10 h h.coming [0, 0, 1, 0, 7] .silence :=
    ⟨0, _, ⟨nofun, rfl, rfl⟩, rfl, .there ⟨rfl, rfl⟩⟩
  have hframe : ¬ BeginsWithFrame 16 [0, 0, 1, 0, 7] := by
    rintro ⟨payload, -, hmax, hfront⟩
    have hlength := (announced_of_front (Nat.le_trans hmax (by decide)) hfront).1
    rw [← hlength] at hmax
    exact absurd hmax (by decide)
  obtain ⟨-, -, hvalue, -, -, hcode, -, -, -, -, index, c, -, -, -, -, hunread, c', hc', -,
    hending⟩ :=
    failure_reaches_exit_code (x := x) rfl hstream (Or.inr (Or.inr ⟨rfl, by decide⟩)) hframe
  refine ⟨rfl, hstream, hframe, hvalue, hcode, index, c', hc', ?_⟩
  rw [hending, hunread rfl]
  rfl

end Connection

end DaemonLink
