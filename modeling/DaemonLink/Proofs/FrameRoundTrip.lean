import DaemonLink.Frame.Writing
import DaemonLink.Proofs.FrameReading

/-!
# What is written is what is read

A session of frames is one long string of bytes to the stream that carries it,
and nothing in that string marks where a frame begins but the length in front
of each. So the reader stays in step with the writer only if every frame takes
exactly its packet from the stream: one byte more or less, and every later
header is read from the wrong place.

That each side keeps to packets is shown apart. A writer whose offers are
taken in portions of any size puts whole packets on the wire, because what was
not taken is offered again. A reader that finds a packet in front of it takes
this packet and leaves the rest. The session follows by induction on the list
of payloads, with whatever comes behind the frames kept as a parameter: in the
middle of the session this is the remaining packets.
-/

namespace DaemonLink

variable {σ τ : Type}

/-! ## Sessions of frames -/

/-- Write frames one after another; the answers are their faults, if any. -/
def writeFrames (sender : Sender σ) : List Payload → σ → List (Option WriteFault) × σ
  | [], s => ([], s)
  | p :: rest, s =>
      let (fault, s₁) := writeFrame sender p s
      let (faults, s₂) := writeFrames sender rest s₁
      (fault :: faults, s₂)

/-- Read so many frames one after another. -/
def readFrames (r : Receiver σ) (limits : FrameLimits) : Nat → σ → List FrameResult × σ
  | 0, s => ([], s)
  | n + 1, s =>
      let (result, s₁) := readFrame r limits s
      let (results, s₂) := readFrames r limits n s₁
      (result :: results, s₂)

/-! ## Writing

A sender is free to take as little as one byte of what it is offered. What it
has taken so far is known of each of its states. -/

/-- A sender that takes some of whatever it is offered and sends it on:
`Sent s bytes` says that in state `s` these bytes have been sent. -/
structure Sender.Accepts (sender : Sender σ) (Sent : σ → Bytes → Prop) : Prop where
  send : ∀ {s before data}, Sent s before → data ≠ [] →
    ∃ n s', sender.send data s = (.ok n, s') ∧ 0 < n ∧ n ≤ data.length ∧
      Sent s' (before ++ data.take n)

/-- The sender that takes one byte at a time, with the bytes sent as its state. -/
def Sender.bytewise : Sender Bytes where
  send data sent := (.ok (data.take 1).length, sent ++ data.take 1)

theorem Sender.bytewise_accepts : bytewise.Accepts (· = ·) where
  send := by
    intro s before data hs hdata
    subst hs
    obtain ⟨b, more, rfl⟩ := List.exists_cons_of_ne_nil hdata
    exact ⟨1, s ++ [b], rfl, Nat.one_pos, by rw [List.length_cons]; omega, rfl⟩

theorem sendAll_accepted {sender : Sender σ} {Sent : σ → Bytes → Prop}
    (hsend : sender.Accepts Sent) (rest : Bytes) :
    ∀ (count : Nat) {s : σ} {before : Bytes}, Sent s before →
      ∃ s', sendAll sender count rest s = (none, s') ∧ Sent s' (before ++ rest) := by
  induction hlen : rest.length using Nat.strongRecOn generalizing rest with
  | _ k ih =>
      intro count s before hs
      cases rest with
      | nil =>
          rw [List.append_nil]
          exact ⟨s, by rw [sendAll], hs⟩
      | cons b more =>
          obtain ⟨n, s₁, hn, hpos, -, hs₁⟩ := hsend.send hs (List.cons_ne_nil b more)
          obtain ⟨n, rfl⟩ : ∃ m, n = m + 1 := ⟨n - 1, by omega⟩
          rw [List.length_cons] at hlen
          obtain ⟨s', hrest, hs'⟩ := ih (more.drop n).length
            (by rw [List.length_drop]; omega) (more.drop n) rfl (count + (n + 1)) hs₁
          refine ⟨s', ?_, ?_⟩
          · rw [sendAll]
            simp only [hn]
            exact hrest
          · rw [List.take_succ_cons, List.append_assoc, List.cons_append,
              List.take_append_drop] at hs'
            exact hs'

theorem writeFrame_accepted {sender : Sender σ} {Sent : σ → Bytes → Prop}
    (hsend : sender.Accepts Sent) {p : Payload} (hp : p.length ≤ maxWireLength)
    {s : σ} {before : Bytes} (hs : Sent s before) :
    ∃ s', writeFrame sender p s = (none, s') ∧ Sent s' (before ++ packet p) := by
  rw [writeFrame, if_neg (by omega)]
  exact sendAll_accepted hsend (packet p) 0 hs

theorem writeFrames_accepted {sender : Sender σ} {Sent : σ → Bytes → Prop}
    (hsend : sender.Accepts Sent) {payloads : List Payload}
    (hp : ∀ p ∈ payloads, p.length ≤ maxWireLength) {s : σ} {before : Bytes}
    (hs : Sent s before) :
    ∃ s', writeFrames sender payloads s = (payloads.map fun _ => none, s') ∧
      Sent s' (before ++ payloads.flatMap packet) := by
  induction payloads generalizing s before with
  | nil =>
      rw [List.flatMap_nil, List.append_nil]
      exact ⟨s, rfl, hs⟩
  | cons p rest ih =>
      obtain ⟨s₁, hwrite, hs₁⟩ := writeFrame_accepted hsend (hp p List.mem_cons_self) hs
      obtain ⟨s', hrest, hs'⟩ := ih (fun q hq => hp q (List.mem_cons_of_mem p hq)) hs₁
      refine ⟨s', ?_, ?_⟩
      · simp only [writeFrames, hwrite, hrest, List.map_cons]
      · rw [List.flatMap_cons, ← List.append_assoc]
        exact hs'

/-! ## Reading -/

theorem Payload.length_bytes (p : Payload) : p.bytes.length = p.length := by
  cases p with
  | given data => rfl
  | blank n => exact List.length_replicate

theorem drop_packet (p : Payload) (rest : Bytes) :
    (packet p ++ rest).drop Header.size = p.bytes ++ rest := rfl

theorem length_packet (p : Payload) : (packet p).length = Header.size + p.length := by
  rw [packet, List.length_append, Header.length_toBytes, p.length_bytes]

theorem ofBytes_packet {p : Payload} (hp : p.length ≤ maxWireLength) (rest : Bytes) :
    (Header.ofBytes (packet p ++ rest)).length.toNat = p.length := by
  rw [packet, List.append_assoc, Header.ofBytes_toBytes_append, Header.length_ofLength]
  exact Nat.mod_eq_of_lt (by simp only [maxWireLength] at hp; omega)

theorem announced_packet {p : Payload} (hp : p.length ≤ maxWireLength) (rest : Bytes) :
    announced (packet p ++ rest) = p.length := by
  have hlen : Header.size ≤ (packet p ++ rest).length := by
    rw [List.length_append, length_packet]
    omega
  rw [← announced_eq hlen, ofBytes_packet hp]

/-- A packet in front of the stream is read as its payload, and the reader
leaves what stands behind it. -/
theorem readFrame_packet {r : Receiver τ} {limits : FrameLimits}
    {Has : τ → Bytes → Ending → Prop} (hr : r.Conveys limits.timeout Has) {p : Payload}
    (hp : p.length ≤ limits.max.toNat) {t : τ} {rest : Bytes} {e : Ending}
    (ht : Has t (packet p ++ rest) e) :
    ∃ t', readFrame r limits t = (.ok p.bytes, t') ∧ Has t' rest e := by
  have hwire : p.length ≤ maxWireLength := by
    have := limits.max.toNat_lt
    simp only [maxWireLength]
    omega
  have hlength := ofBytes_packet hwire rest
  have htotal : (packet p ++ rest).length = Header.size + p.length + rest.length := by
    rw [List.length_append, length_packet]
  obtain ⟨t', hread, ht'⟩ := readFrame_whole hr ht (by omega)
    (by rw [UInt32.lt_iff_toNat_lt, hlength]; omega) (by rw [hlength]; omega)
  refine ⟨t', ?_, ?_⟩
  · rw [hread, hlength, drop_packet, List.take_left' p.length_bytes]
  · rw [hlength, ← List.drop_drop, drop_packet, List.drop_left' p.length_bytes] at ht'
    exact ht'

theorem readFrames_packets {r : Receiver τ} {limits : FrameLimits}
    {Has : τ → Bytes → Ending → Prop} (hr : r.Conveys limits.timeout Has)
    {payloads : List Payload} (hp : ∀ p ∈ payloads, p.length ≤ limits.max.toNat)
    {t : τ} {rest : Bytes} {e : Ending} (ht : Has t (payloads.flatMap packet ++ rest) e) :
    ∃ t', readFrames r limits payloads.length t =
        (payloads.map fun p => .ok p.bytes, t') ∧
      Has t' rest e := by
  induction payloads generalizing t with
  | nil => exact ⟨t, rfl, ht⟩
  | cons p more ih =>
      rw [List.flatMap_cons, List.append_assoc] at ht
      obtain ⟨t₁, hread, ht₁⟩ := readFrame_packet hr (hp p List.mem_cons_self) ht
      obtain ⟨t', hrest, ht'⟩ := ih (fun q hq => hp q (List.mem_cons_of_mem p hq)) ht₁
      refine ⟨t', ?_, ht'⟩
      simp only [List.length_cons, readFrames, hread, hrest, List.map_cons]

/-! ## The round trip -/

theorem closed_before_header_message :
    (FrameFault.header (.closed 0 Header.size)).message =
      text "reading frame header: peer closed connection after 0 of 4 bytes" := by
  have hzero : decimal 0 = text "0" := by rw [decimal]; rfl
  have hfour : decimal Header.size = text "4" := by rw [decimal]; rfl
  simp only [FrameFault.message, Barren.message, hzero, hfour, ← text_append]
  rfl

/-- Whatever portions the sender takes, what has been sent is the packets in
order; and whatever pieces the receiver brings of them, the payloads are read
one after another, each whole, and nothing of the stream is left. When the
writer has closed behind them, the next read finds the end of the stream in
front of a header and not a frame. -/
theorem frames_round_trip {sender : Sender σ} {Sent : σ → Bytes → Prop}
    (hsend : sender.Accepts Sent) {r : Receiver τ} {limits : FrameLimits}
    {Has : τ → Bytes → Ending → Prop} (hreceive : r.Conveys limits.timeout Has)
    (payloads : List Payload) (hmax : ∀ p ∈ payloads, p.length ≤ limits.max.toNat)
    {s : σ} {before : Bytes} (hs : Sent s before) :
    ∃ s', writeFrames sender payloads s = (payloads.map fun _ => none, s') ∧
      Sent s' (before ++ payloads.flatMap packet) ∧
      (∀ t e, Has t (payloads.flatMap packet) e →
        ∃ results t', readFrames r limits payloads.length t = (results, t') ∧
          (results.map fun x => (x.status, x.payload, x.message)) =
            payloads.map (fun p => (.ok, p.bytes, [])) ∧
          Has t' [] e) ∧
      ∀ t, Has t [] .closed →
        ∃ result t', readFrame r limits t = (result, t') ∧
          result.status = .closed ∧ result.payload = [] ∧
          result.message =
            text "reading frame header: peer closed connection after 0 of 4 bytes" := by
  have hwire : ∀ p ∈ payloads, p.length ≤ maxWireLength := by
    intro p hp
    have := limits.max.toNat_lt
    have := hmax p hp
    simp only [maxWireLength]
    omega
  obtain ⟨s', hwrite, hs'⟩ := writeFrames_accepted hsend hwire hs
  refine ⟨s', hwrite, hs', ?_, ?_⟩
  · intro t e ht
    rw [← List.append_nil (payloads.flatMap packet)] at ht
    obtain ⟨t', hread, ht'⟩ := readFrames_packets hreceive hmax ht
    refine ⟨_, t', hread, ?_, ht'⟩
    rw [List.map_map]
    rfl
  · intro t ht
    obtain ⟨t', hread, -⟩ := readFrame_header_short hreceive ht nofun (by decide)
    exact ⟨_, t', hread, rfl, rfl, closed_before_header_message⟩

/-- Two frames, the second empty, written bytewise. -/
theorem frames_round_trip_with_empty_frame :
    (∀ p ∈ [Payload.given [7, 8], .given []], p.length ≤ (2 : UInt32).toNat) ∧
      ∃ s', writeFrames Sender.bytewise [.given [7, 8], .given []] [] =
          ([none, none], s') ∧
        s' = [0, 0, 0, 2, 7, 8, 0, 0, 0, 0] ∧
        (∀ a e, Arrivals.Carries a [0, 0, 0, 2, 7, 8, 0, 0, 0, 0] e →
          ∃ results a', readFrames Arrivals.receiver ⟨0, 2⟩ 2 a = (results, a') ∧
            (results.map fun x => (x.status, x.payload, x.message)) =
              [(.ok, [7, 8], []), (.ok, [], [])] ∧
            a'.Carries [] e) ∧
        ∀ a, Arrivals.Carries a [] .closed →
          ∃ result a', readFrame Arrivals.receiver ⟨0, 2⟩ a = (result, a') ∧
            result.status = .closed ∧ result.payload = [] ∧
            result.message =
              text "reading frame header: peer closed connection after 0 of 4 bytes" := by
  have hmax : ∀ p ∈ [Payload.given [7, 8], .given []], p.length ≤ (2 : UInt32).toNat := by
    decide
  exact ⟨hmax, frames_round_trip Sender.bytewise_accepts (Arrivals.conveys 0)
    [.given [7, 8], .given []] hmax rfl⟩

end DaemonLink
