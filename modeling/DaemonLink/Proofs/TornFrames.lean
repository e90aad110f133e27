import DaemonLink.Proofs.FrameRoundTrip

/-!
# A torn frame is never read as a frame

A writer that fails leaves the front of a packet on the wire, and nothing says
there that it is only a front. What the reader has is the length at its head:
a front that is long enough to have one has the length of the whole packet,
which is more than follows, and a front that is not has no length at all. So a
reader that came as far as this packet waits for bytes that do not come, and is
told of the end of the stream instead.

That a failed write leaves a front, and nothing else, is because what was not
taken is offered again from where it was left. Where in the packet the failure
falls plays no part: header and payload are one string of bytes to the writer.

Nothing is gained by reading on. The end of a stream stays, so each later read
is told of it in front of a header.
-/

namespace DaemonLink

variable {σ τ : Type}

/-! ## Writing that may fail -/

/-- A sender that takes some of whatever it is offered and sends it on, or fails
and sends nothing. -/
structure Sender.TakesOrFails (sender : Sender σ) (Sent : σ → Bytes → Prop) : Prop where
  send : ∀ {s before data}, Sent s before → data ≠ [] →
    (∃ n s', sender.send data s = (.ok n, s') ∧ 0 < n ∧ n ≤ data.length ∧
      Sent s' (before ++ data.take n)) ∨
    ∃ e s', sender.send data s = (.error e, s') ∧ Sent s' before

/-- The sender that takes one byte at a time until so many have been sent, and
fails from then on; the bytes sent are its state. -/
def Sender.failing (limit : Nat) (e : SystemError) : Sender Bytes where
  send data sent :=
    if sent.length < limit then (.ok (data.take 1).length, sent ++ data.take 1)
    else (.error e, sent)

theorem Sender.failing_takesOrFails (limit : Nat) (e : SystemError) :
    (failing limit e).TakesOrFails (· = ·) where
  send := by
    intro s before data hs hdata
    subst hs
    obtain ⟨b, more, rfl⟩ := List.exists_cons_of_ne_nil hdata
    by_cases hlimit : s.length < limit
    · left
      refine ⟨1, s ++ [b], ?_, Nat.one_pos, by rw [List.length_cons]; omega, rfl⟩
      simp only [failing, if_pos hlimit]
      rfl
    · right
      exact ⟨e, s, by simp only [failing, if_neg hlimit], rfl⟩

/-- The status of a write, given the fault that ended it, if one did. -/
def writeStatus (fault : Option WriteFault) : FrameStatus :=
  (fault.map WriteFault.status).getD .ok

theorem writeStatus_sendFailed (e : SystemError) :
    writeStatus (some (.sendFailed e)) =
      if e = .brokenPipe ∨ e = .connectionReset then .closed else .ioError := by
  cases e <;> rfl

/-- All of what is offered is sent, or a front of it that lacks something; the
send that failed was offered what is lacking. -/
theorem sendAll_front {sender : Sender σ} {Sent : σ → Bytes → Prop}
    (hsend : sender.TakesOrFails Sent) (rest : Bytes) :
    ∀ (count : Nat) {s : σ} {before : Bytes}, Sent s before →
      (∃ s', sendAll sender count rest s = (none, s') ∧ Sent s' (before ++ rest)) ∨
      ∃ front back e s₁ s', front ++ back = rest ∧ back ≠ [] ∧
        sender.send back s₁ = (.error e, s') ∧
        sendAll sender count rest s = (some (.sendFailed e), s') ∧
        Sent s₁ (before ++ front) ∧ Sent s' (before ++ front) := by
  induction hlen : rest.length using Nat.strongRecOn generalizing rest with
  | _ k ih =>
      intro count s before hs
      cases rest with
      | nil =>
          left
          rw [List.append_nil]
          exact ⟨s, by rw [sendAll], hs⟩
      | cons b more =>
          rcases hsend.send hs (List.cons_ne_nil b more) with
            ⟨n, s₁, hn, hpos, -, hs₁⟩ | ⟨e, s₁, hfailed, hs₁⟩
          · obtain ⟨n, rfl⟩ : ∃ m, n = m + 1 := ⟨n - 1, by omega⟩
            have hstep : sendAll sender count (b :: more) s =
                sendAll sender (count + (n + 1)) (more.drop n) s₁ := by
              rw [sendAll]
              simp only [hn]
            have hsplit : (b :: more).take (n + 1) ++ more.drop n = b :: more := by
              rw [List.take_succ_cons, List.cons_append, List.take_append_drop]
            rw [List.length_cons] at hlen
            rw [hstep]
            rcases ih (more.drop n).length (by rw [List.length_drop]; omega) _ rfl
                (count + (n + 1)) hs₁ with
              ⟨s', hrest, hs'⟩ | ⟨front, back, e, s₂, s', hfront, hback, hfailed, hrest, hs₂, hs'⟩
            · left
              rw [List.append_assoc, hsplit] at hs'
              exact ⟨s', hrest, hs'⟩
            · right
              rw [List.append_assoc] at hs₂ hs'
              refine ⟨(b :: more).take (n + 1) ++ front, back, e, s₂, s', ?_, hback, hfailed,
                hrest, hs₂, hs'⟩
              rw [List.append_assoc, hfront, hsplit]
          · right
            refine ⟨[], b :: more, e, s, s₁, rfl, List.cons_ne_nil b more, hfailed, ?_, ?_, ?_⟩
            · rw [sendAll]
              simp only [hfailed]
            · rw [List.append_nil]; exact hs
            · rw [List.append_nil]; exact hs₁

/-- What has been sent of a frame is a front of its packet. If the write fails,
it is because the send that was offered the rest did. -/
theorem writeFrame_front {sender : Sender σ} {Sent : σ → Bytes → Prop}
    (hsend : sender.TakesOrFails Sent) {p : Payload} (hp : p.length ≤ maxWireLength) {s : σ}
    {before : Bytes} (hs : Sent s before) :
    ∃ fault s' wire, writeFrame sender p s = (fault, s') ∧ Sent s' (before ++ wire) ∧
      wire <+: packet p ∧ (writeStatus fault = .ok ↔ wire = packet p) ∧
      (wire ≠ packet p → ∃ e s₁, Sent s₁ (before ++ wire) ∧
        sender.send ((packet p).drop wire.length) s₁ = (.error e, s') ∧
        writeStatus fault =
          if e = .brokenPipe ∨ e = .connectionReset then .closed else .ioError) := by
  rw [writeFrame, if_neg (by omega)]
  rcases sendAll_front hsend (packet p) 0 hs with
    ⟨s', hall, hs'⟩ | ⟨front, back, e, s₁, s', hsplit, hback, hfailed, hsome, hs₁, hs'⟩
  · refine ⟨none, s', packet p, hall, hs', List.prefix_rfl, ?_, fun hne => absurd rfl hne⟩
    exact ⟨fun _ => rfl, fun _ => rfl⟩
  · have hstatus := writeStatus_sendFailed e
    refine ⟨_, s', front, hsome, hs', ⟨back, hsplit⟩, ?_, fun _ => ⟨e, s₁, hs₁, ?_, hstatus⟩⟩
    · constructor
      · intro hok
        rw [hstatus] at hok
        split at hok <;> cases hok
      · intro hwhole
        rw [hwhole] at hsplit
        exact absurd (List.append_right_eq_self.mp hsplit) hback
    · rw [← hsplit, List.drop_left]
      exact hfailed

/-! ## Reading a torn frame -/

theorem ofBytes_of_prefix {front whole : Bytes} (h : front <+: whole)
    (hlen : Header.size ≤ front.length) : Header.ofBytes front = Header.ofBytes whole := by
  obtain ⟨rest, rfl⟩ := h
  match front, hlen with
  | _ :: _ :: _ :: _ :: _, _ => rfl

theorem length_lt_of_prefix {front whole : Bytes} (h : front <+: whole)
    (hne : front ≠ whole) : front.length < whole.length := by
  have hle := h.length_le
  have hne' : front.length ≠ whole.length := fun heq => hne (h.eq_of_length heq)
  omega

/-- A front of a packet that lacks something comes to the end of the stream. -/
theorem readFrame_torn {r : Receiver τ} {limits : FrameLimits}
    {Has : τ → Bytes → Ending → Prop} (hr : r.Conveys limits.timeout Has) {p : Payload}
    (hp : p.length ≤ limits.max.toNat) {front : Bytes} (hfront : front <+: packet p)
    (htorn : front ≠ packet p) {e : Ending} (he : e = .closed ∨ e = .reset) {t : τ}
    (ht : Has t front e) :
    ∃ result t', readFrame r limits t = (result, t') ∧ result.status = .closed ∧
      result.payload = [] ∧ Has t' [] .closed := by
  have hends : e = .silence → 0 < limits.timeout := by rintro rfl; simp at he
  have hafter : e.afterwards = .closed := by rcases he with rfl | rfl <;> rfl
  have hstatus : ∀ got wanted, (e.barren limits.timeout got wanted).status = .closed := by
    rcases he with rfl | rfl <;> exact fun _ _ => rfl
  by_cases hlen : front.length < Header.size
  · obtain ⟨t', hread, ht'⟩ := readFrame_header_short hr ht hends hlen
    rw [hafter] at ht'
    exact ⟨_, t', hread, hstatus _ _, rfl, ht'⟩
  · have hwire : p.length ≤ maxWireLength := by
      have := limits.max.toNat_lt
      simp only [maxWireLength]
      omega
    have hlength := ofBytes_packet hwire []
    rw [List.append_nil, ← ofBytes_of_prefix hfront (by omega)] at hlength
    have hlacks := length_lt_of_prefix hfront htorn
    rw [length_packet] at hlacks
    obtain ⟨t', hread, ht'⟩ := readFrame_payload_short hr ht hends (by omega)
      (by rw [UInt32.lt_iff_toNat_lt, hlength]; omega) rfl (by rw [hlength]; omega)
    rw [hafter] at ht'
    exact ⟨_, t', hread, hstatus _ _, rfl, ht'⟩

theorem readFrames_add (r : Receiver τ) (limits : FrameLimits) (m n : Nat) (t : τ) :
    readFrames r limits (m + n) t =
      let first := readFrames r limits m t
      let later := readFrames r limits n first.2
      (first.1 ++ later.1, later.2) := by
  induction m generalizing t with
  | zero => rw [Nat.zero_add]; rfl
  | succ m ih =>
      rw [Nat.succ_add]
      simp only [readFrames, ih, List.cons_append]

theorem readFrames_closed {r : Receiver τ} {limits : FrameLimits}
    {Has : τ → Bytes → Ending → Prop} (hr : r.Conveys limits.timeout Has) (n : Nat) {t : τ}
    (ht : Has t [] .closed) :
    ∃ results t', readFrames r limits n t = (results, t') ∧
      results.map (fun x => (x.status, x.payload)) = List.replicate n (.closed, []) ∧
      Has t' [] .closed := by
  induction n generalizing t with
  | zero => exact ⟨[], t, rfl, rfl, ht⟩
  | succ n ih =>
      obtain ⟨t₁, hread, ht₁⟩ := readFrame_header_short hr ht nofun (by decide)
      obtain ⟨results, t', hrest, hresults, ht'⟩ := ih ht₁
      refine ⟨_, t', by simp only [readFrames, hread, hrest]; rfl, ?_, ht'⟩
      rw [List.map_cons, hresults, List.replicate_succ]
      rfl

/-- Whole packets and then a front of one: the payloads, and then the end of the
stream as often as it is asked for. -/
theorem readFrames_torn {r : Receiver τ} {limits : FrameLimits}
    {Has : τ → Bytes → Ending → Prop} (hr : r.Conveys limits.timeout Has)
    {payloads : List Payload} (hmax : ∀ q ∈ payloads, q.length ≤ limits.max.toNat)
    {p : Payload} (hp : p.length ≤ limits.max.toNat) {front : Bytes}
    (hfront : front <+: packet p) (htorn : front ≠ packet p) {e : Ending}
    (he : e = .closed ∨ e = .reset) {t : τ}
    (ht : Has t (payloads.flatMap packet ++ front) e) (n : Nat) :
    ∃ results t', readFrames r limits (payloads.length + (n + 1)) t = (results, t') ∧
      results.map (fun x => (x.status, x.payload)) =
        payloads.map (fun q => (.ok, q.bytes)) ++ List.replicate (n + 1) (.closed, []) ∧
      Has t' [] .closed := by
  obtain ⟨t₁, hread, ht₁⟩ := readFrames_packets hr hmax ht
  obtain ⟨result, t₂, hlast, hstatus, hpayload, ht₂⟩ :=
    readFrame_torn hr hp hfront htorn he ht₁
  obtain ⟨results, t', hrest, hresults, ht'⟩ := readFrames_closed hr n ht₂
  refine ⟨payloads.map (fun q => .ok q.bytes) ++ result :: results, t', ?_, ?_, ht'⟩
  · rw [readFrames_add]
    simp only [hread, readFrames, hlast, hrest]
  · rw [List.map_append, List.map_map, List.map_cons, hresults, hstatus, hpayload,
      List.replicate_succ]
    rfl

/-! ## Both sides -/

/-- However a sender takes what it is offered and wherever it fails, what has
been sent of a frame is a front of its packet, and all of it if and only if the
write succeeds; the status tells what the failure was. A length that no header
holds is refused before anything is sent. And a reader that finds whole packets
and then a front that lacks something reads the payloads of the packets, and
after them, however often it goes on, that the connection is closed. -/
theorem torn_frame_never_read {sender : Sender σ} {Sent : σ → Bytes → Prop}
    (hsend : sender.TakesOrFails Sent) {r : Receiver τ} {limits : FrameLimits}
    {Has : τ → Bytes → Ending → Prop} (hreceive : r.Conveys limits.timeout Has) :
    (∀ p s before, Sent s before →
      ∃ fault s' wire, writeFrame sender p s = (fault, s') ∧ Sent s' (before ++ wire) ∧
        (maxWireLength < p.length → writeStatus fault = .tooLarge ∧ wire = [] ∧ s' = s) ∧
        (p.length ≤ maxWireLength →
          announced (packet p) = p.length ∧
          (∀ data, p = .given data → (packet p).drop 4 = data) ∧
          (∀ n, p = .blank n → (packet p).drop 4 = List.replicate n 0) ∧
          wire <+: packet p ∧
          (writeStatus fault = .ok ↔ wire = packet p) ∧
          (wire ≠ packet p → ∃ e s₁, Sent s₁ (before ++ wire) ∧
            sender.send ((packet p).drop wire.length) s₁ = (.error e, s') ∧
            writeStatus fault =
              if e = .brokenPipe ∨ e = .connectionReset then .closed else .ioError))) ∧
    ∀ (payloads : List Payload) (p : Payload) (front : Bytes) (e : Ending) (t : τ) (n : Nat),
      (∀ q ∈ payloads, q.length ≤ limits.max.toNat) → p.length ≤ limits.max.toNat →
      front <+: packet p → front ≠ packet p → (e = .closed ∨ e = .reset) →
      Has t (payloads.flatMap packet ++ front) e →
      ∃ results t', readFrames r limits (payloads.length + (n + 1)) t = (results, t') ∧
        results.map (fun x => (x.status, x.payload)) =
          payloads.map (fun q => (.ok, q.bytes)) ++ List.replicate (n + 1) (.closed, []) ∧
        Has t' [] .closed := by
  constructor
  · intro p s before hs
    by_cases hp : p.length ≤ maxWireLength
    · obtain ⟨fault, s', wire, hwrite, hs', hwire, hok, hfailed⟩ := writeFrame_front hsend hp hs
      refine ⟨fault, s', wire, hwrite, hs', by omega, fun _ => ?_⟩
      have hannounced := announced_packet hp []
      rw [List.append_nil] at hannounced
      refine ⟨hannounced, ?_, ?_, hwire, hok, hfailed⟩
      · rintro data rfl
        rfl
      · rintro n rfl
        rfl
    · refine ⟨some (.tooLong p.length), s, [], ?_, ?_, fun _ => ⟨rfl, rfl, rfl⟩, by omega⟩
      · rw [writeFrame, if_pos (by omega)]
      · rw [List.append_nil]
        exact hs
  · intro payloads p front e t n hmax hp hfront htorn he ht
    exact readFrames_torn hreceive hmax hp hfront htorn he ht n

/-- A payload of three bytes whose last byte is not taken, behind a frame that
was. -/
theorem torn_frame_never_read_broken_pipe :
    (Sender.failing 6 .brokenPipe).TakesOrFails (· = ·) ∧
      Arrivals.receiver.Conveys 0 Arrivals.Carries ∧
      (∃ fault s' wire,
        writeFrame (.failing 6 .brokenPipe) (.given [7, 8, 9]) [] = (fault, s') ∧
        s' = wire ∧ wire <+: packet (.given [7, 8, 9])) ∧
      ([0, 0, 0, 3, 7, 8] : Bytes) ≠ packet (.given [7, 8, 9]) ∧
      ∃ results a',
        readFrames Arrivals.receiver ⟨0, 3⟩ 2
          ⟨[[0, 0, 0, 1], [5, 0, 0], [0, 3, 7, 8]], .closed⟩ = (results, a') ∧
        results.map (fun x => (x.status, x.payload)) = [(.ok, [5]), (.closed, [])] ∧
        a'.Carries [] .closed := by
  have hsend := Sender.failing_takesOrFails 6 .brokenPipe
  have hreceive := Arrivals.conveys 0
  have htorn := @torn_frame_never_read _ _ _ _ hsend _ ⟨0, 3⟩ _ hreceive
  have hne : ([0, 0, 0, 3, 7, 8] : Bytes) ≠ packet (.given [7, 8, 9]) := by decide
  obtain ⟨fault, s', wire, hwrite, hs', -, hfront⟩ := htorn.1 (.given [7, 8, 9]) [] [] rfl
  refine ⟨hsend, hreceive, ⟨fault, s', wire, hwrite, hs', (hfront (by decide)).2.2.2.1⟩, hne, ?_⟩
  exact htorn.2 [.given [5]] (.given [7, 8, 9]) [0, 0, 0, 3, 7, 8] .closed _ 0 (by decide)
    (by decide) ⟨[9], rfl⟩ hne (Or.inl rfl) ⟨rfl, rfl⟩

end DaemonLink
