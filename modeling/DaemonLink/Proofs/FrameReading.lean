import DaemonLink.Proofs.Streams

/-!
# A frame read is decided by the bytes alone

A reader asks for bytes in portions of its own, and these never line up with
the pieces the stream comes in, so every loop of the reader meets every cut.
What makes the cuts disappear is that each loop is described by the bytes
still to come: filling a window takes as many of them as there is room for, or
all of them if there are fewer, and this is said without the pieces. The
chunks of a payload are then windows one behind the other, and a frame is a
window of four bytes and a payload.

The only place where the pieces are looked at is the one step of `readInto`,
where a receive brings some of the bytes and the rest is the same problem
again.

When the bytes run out, the fill stops at whatever ends the stream, and the
count in the report is the count within the window. For a payload this is the
chunk the stream ended in: what came before it came in whole chunks, so the
count is a remainder.
-/

namespace DaemonLink

variable {σ : Type}

/-! ## Filling a window -/

theorem readInto_zero (r : Receiver σ) (timeout : Int) (total : Nat) {w : Window}
    (hroom : w.room = 0) (s : σ) :
    readInto r timeout total w s = ⟨[], none, s⟩ := by
  rw [readInto, if_pos hroom]

/-- A receive that brings bytes: the rest of the window is filled as if it had
been asked for by itself. -/
theorem readInto_step {r : Receiver σ} {timeout : Int} {total : Nat} {w : Window}
    {s s₁ s₂ : σ} {data : Bytes} (hroom : 0 < w.room)
    (hawait : r.await timeout s = (.ready, s₁))
    (hreceive : r.receive w s₁ = (.ok data, s₂))
    (hne : data ≠ []) (hfits : data.length ≤ w.room) :
    readInto r timeout total w s =
      let rest := readInto r timeout total (w.advance data.length) s₂
      ⟨data ++ rest.data, rest.stop, rest.stream⟩ := by
  obtain ⟨b, more, rfl⟩ := List.exists_cons_of_ne_nil hne
  rw [readInto, if_neg (by omega)]
  simp only [hawait, hreceive]
  rw [List.take_of_length_le hfits]

/-- The bytes have run out: the window stays unfilled for the reason that the
end of the stream gives. -/
theorem readInto_end {r : Receiver σ} {timeout : Int}
    {Has : σ → Bytes → Ending → Prop} {Past : Ending → σ → Prop}
    (hr : r.Brings timeout Has Past) (total : Nat) {w : Window} (hroom : 0 < w.room)
    {s : σ} {e : Ending} (hs : Has s [] e) (he : e = .silence → 0 < timeout) :
    ∃ s', readInto r timeout total w s =
        ⟨[], some (e.barren timeout (total - w.room) total), s'⟩ ∧
      Past e s' := by
  rw [readInto, if_neg (by omega)]
  by_cases hsilent : e = .silence
  · subst hsilent
    obtain ⟨s', hawait, hs'⟩ := hr.await_expired hs (he rfl)
    simp only [hawait]
    exact ⟨s', rfl, hs'⟩
  · obtain ⟨s₁, hawait, hs₁⟩ := hr.await_ready hs (fun h => hsilent h.2)
    obtain ⟨s', hreceive, hs'⟩ := hr.finish (w := w) hs₁ hsilent hroom
    refine ⟨s', ?_, hs'⟩
    simp only [hawait, hreceive]
    cases e with
    | silence => exact absurd rfl hsilent
    | closed => rfl
    | reset => rfl
    | failed e => cases e <;> rfl

/-- Enough bytes: a window is filled with the first of them. -/
theorem readInto_full {r : Receiver σ} {timeout : Int}
    {Has : σ → Bytes → Ending → Prop} {Past : Ending → σ → Prop}
    (hr : r.Brings timeout Has Past) (total : Nat) {e : Ending} :
    ∀ {k : Nat} {w : Window} {s : σ} {bytes : Bytes}, w.room = k →
      k ≤ bytes.length → Has s bytes e →
      ∃ s', readInto r timeout total w s = ⟨bytes.take k, none, s'⟩ ∧
        Has s' (bytes.drop k) e := by
  intro k
  induction k using Nat.strongRecOn with
  | _ k ih =>
      intro w s bytes hroom hlen hs
      rcases Nat.eq_zero_or_pos k with hk | hk
      · subst hk
        exact ⟨s, readInto_zero r timeout total hroom s, hs⟩
      · have hne : bytes ≠ [] := by rintro rfl; simp at hlen; omega
        obtain ⟨s₁, hawait, hs₁⟩ := hr.await_ready hs (fun h => hne h.1)
        obtain ⟨data, rest, s₂, hreceive, rfl, hdata, hfits, hs₂⟩ :=
          hr.receive (w := w) hs₁ hne (by omega)
        have hpos : 0 < data.length := List.length_pos_iff.mpr hdata
        rw [List.length_append] at hlen
        obtain ⟨s', hread, hs'⟩ := ih (k - data.length) (by omega)
          (w := w.advance data.length) (by simp only [Window.advance]; omega)
          (by omega) hs₂
        have htake : (data ++ rest).take k = data ++ rest.take (k - data.length) := by
          rw [List.take_append, List.take_of_length_le (show data.length ≤ k by omega)]
        have hdrop : (data ++ rest).drop k = rest.drop (k - data.length) := by
          rw [List.drop_append, List.drop_of_length_le (show data.length ≤ k by omega),
            List.nil_append]
        refine ⟨s', ?_, ?_⟩
        · rw [readInto_step (by omega) hawait hreceive hdata hfits, hread, htake]
        · rw [hdrop]
          exact hs'

/-- Too few bytes: a window takes all of them and then stops at the end of the
stream. -/
theorem readInto_short {r : Receiver σ} {timeout : Int}
    {Has : σ → Bytes → Ending → Prop} {Past : Ending → σ → Prop}
    (hr : r.Brings timeout Has Past) (total : Nat) {e : Ending}
    (he : e = .silence → 0 < timeout) :
    ∀ {k : Nat} {w : Window} {s : σ} {bytes : Bytes}, w.room = k →
      bytes.length < k → Has s bytes e →
      ∃ s', readInto r timeout total w s =
          ⟨bytes, some (e.barren timeout (total - (k - bytes.length)) total), s'⟩ ∧
        Past e s' := by
  intro k
  induction k using Nat.strongRecOn with
  | _ k ih =>
      intro w s bytes hroom hlen hs
      by_cases hne : bytes = []
      · subst hne
        subst hroom
        exact readInto_end hr total (by omega) hs he
      · obtain ⟨s₁, hawait, hs₁⟩ := hr.await_ready hs (fun h => hne h.1)
        obtain ⟨data, rest, s₂, hreceive, rfl, hdata, hfits, hs₂⟩ :=
          hr.receive (w := w) hs₁ hne (by omega)
        have hpos : 0 < data.length := List.length_pos_iff.mpr hdata
        rw [List.length_append] at hlen ⊢
        obtain ⟨s', hread, hs'⟩ := ih (k - data.length) (by omega)
          (w := w.advance data.length) (by simp only [Window.advance]; omega)
          (by omega) hs₂
        refine ⟨s', ?_, hs'⟩
        rw [readInto_step (by omega) hawait hreceive hdata hfits, hread,
          Nat.sub_sub]

theorem readExact_full {r : Receiver σ} {timeout : Int} {Has : σ → Bytes → Ending → Prop}
    {Past : Ending → σ → Prop} (hr : r.Brings timeout Has Past) {n : Nat} {s : σ}
    {bytes : Bytes} {e : Ending} (hlen : n ≤ bytes.length) (hs : Has s bytes e) :
    ∃ s', readExact r timeout n s = ⟨bytes.take n, none, s'⟩ ∧ Has s' (bytes.drop n) e :=
  readInto_full hr n rfl hlen hs

theorem readExact_short {r : Receiver σ} {timeout : Int} {Has : σ → Bytes → Ending → Prop}
    {Past : Ending → σ → Prop} (hr : r.Brings timeout Has Past) {n : Nat} {s : σ}
    {bytes : Bytes} {e : Ending} (he : e = .silence → 0 < timeout) (hlen : bytes.length < n)
    (hs : Has s bytes e) :
    ∃ s', readExact r timeout n s =
        ⟨bytes, some (e.barren timeout bytes.length n), s'⟩ ∧
      Past e s' := by
  have hread := readInto_short hr n he (k := n) (w := .whole n) rfl hlen hs
  rw [Nat.sub_sub_self (Nat.le_of_lt hlen)] at hread
  exact hread

/-! ## A payload, chunk by chunk

A chunk that is there whole leaves the same question for a shorter payload, so
the induction is on what is still missing of it. The stream can end inside a
payload only where fewer bytes are left than the payload wants, and every
chunk before that place is full. -/

theorem readPayload_done (r : Receiver σ) (timeout : Int) {length got : Nat}
    (h : length ≤ got) (s : σ) :
    readPayload r timeout length got s = (.ok [], s) := by
  rw [readPayload, if_neg (by omega)]

theorem readPayload_full {r : Receiver σ} {timeout : Int}
    {Has : σ → Bytes → Ending → Prop} (hr : r.Conveys timeout Has) {e : Ending}
    {length : Nat} :
    ∀ {n : Nat} (got : Nat) {s : σ} {bytes : Bytes}, length - got = n →
      n ≤ bytes.length → Has s bytes e →
      ∃ s', readPayload r timeout length got s = (.ok (bytes.take n), s') ∧
        Has s' (bytes.drop n) e := by
  intro n
  induction n using Nat.strongRecOn with
  | _ n ih =>
      intro got s bytes hn hlen hs
      by_cases hgot : got < length
      · obtain ⟨chunk, hchunk⟩ : ∃ chunk, chunk = min chunkSize (length - got) :=
          ⟨_, rfl⟩
        have hpos : 0 < chunk := by simp only [chunkSize] at hchunk; omega
        obtain ⟨s₁, hread, hs₁⟩ := readInto_full hr.brings chunk (k := chunk)
          (w := ⟨.payload, got + chunk, got, chunk⟩) rfl (by omega) hs
        obtain ⟨s', hrest, hs'⟩ := ih (n - chunk) (by omega) (got + chunk)
          (by omega) (by rw [List.length_drop]; omega) hs₁
        refine ⟨s', ?_, ?_⟩
        · have hsum : n = chunk + (n - chunk) := by omega
          rw [readPayload, if_pos hgot]
          simp only [← hchunk, hread, hrest]
          rw [hsum, List.take_add, ← hsum]
        · rw [List.drop_drop] at hs'
          have hsum : chunk + (n - chunk) = n := by omega
          rw [hsum] at hs'
          exact hs'
      · have hzero : n = 0 := by omega
        subst hzero
        exact ⟨s, readPayload_done r timeout (by omega) s, hs⟩

theorem readPayload_short {r : Receiver σ} {timeout : Int}
    {Has : σ → Bytes → Ending → Prop} (hr : r.Conveys timeout Has) {e : Ending}
    (he : e = .silence → 0 < timeout) {length : Nat} :
    ∀ {n : Nat} (got : Nat) {s : σ} {bytes : Bytes}, length - got = n →
      bytes.length < n → Has s bytes e →
      ∃ s', readPayload r timeout length got s =
          (.error (e.barren timeout (bytes.length % chunkSize)
            (min chunkSize (n - (bytes.length - bytes.length % chunkSize)))), s') ∧
        Has s' [] e.afterwards := by
  intro n
  induction n using Nat.strongRecOn with
  | _ n ih =>
      intro got s bytes hn hlen hs
      obtain ⟨chunk, hchunk⟩ : ∃ chunk, chunk = min chunkSize (length - got) :=
        ⟨_, rfl⟩
      have hsize : chunkSize = 65536 := rfl
      by_cases hends : bytes.length < chunk
      · -- The stream ends in this chunk, so all there is of it is the remainder.
        have hmod : bytes.length % chunkSize = bytes.length :=
          Nat.mod_eq_of_lt (by omega)
        obtain ⟨s', hread, hs'⟩ := readInto_short hr.brings chunk he (k := chunk)
          (w := ⟨.payload, got + chunk, got, chunk⟩) rfl hends hs
        refine ⟨s', ?_, hs'⟩
        rw [readPayload, if_pos (by omega)]
        simp only [← hchunk, hread]
        rw [hmod, Nat.sub_self, Nat.sub_zero, ← hn, ← hchunk,
          Nat.sub_sub_self (by omega)]
      · -- This chunk is full, and since more is wanted it is one of full size.
        have hfull : chunk = chunkSize := by omega
        obtain ⟨s₁, hread, hs₁⟩ := readInto_full hr.brings chunk (k := chunk)
          (w := ⟨.payload, got + chunk, got, chunk⟩) rfl (by omega) hs
        obtain ⟨s', hrest, hs'⟩ := ih (n - chunk) (by omega) (got + chunk)
          (by omega) (by rw [List.length_drop]; omega) hs₁
        refine ⟨s', ?_, hs'⟩
        have hmod : (bytes.length - chunk) % chunkSize = bytes.length % chunkSize := by
          rw [hfull, ← Nat.mod_eq_sub_mod (by omega)]
        have hle := Nat.mod_le (bytes.length - chunk) chunkSize
        rw [hmod] at hle
        have hwhole : n - chunk - (bytes.length - chunk - bytes.length % chunkSize) =
            n - (bytes.length - bytes.length % chunkSize) := by
          omega
        rw [List.length_drop, hmod, hwhole] at hrest
        rw [readPayload, if_pos (by omega)]
        simp only [← hchunk, hread, hrest]

/-! ## A frame

The four ways a frame read can go, told apart by how many bytes there are and
by the length that the first four of them announce. -/

theorem Barren.status_ne_ok (b : Barren) : b.status ≠ .ok := by
  cases b <;> nofun

theorem FrameFault.status_ne_ok (fault : FrameFault) : fault.status ≠ .ok := by
  cases fault with
  | header b | payload b => exact b.status_ne_ok
  | tooLarge length max => nofun

section Frame

variable {r : Receiver σ} {limits : FrameLimits} {Has : σ → Bytes → Ending → Prop}
  {s : σ} {bytes : Bytes} {e : Ending}

theorem ofBytes_take_size (bytes : Bytes) :
    Header.ofBytes (bytes.take Header.size) = Header.ofBytes bytes := by
  match bytes with
  | [] | [_] | [_, _] | [_, _, _] | _ :: _ :: _ :: _ :: _ => rfl

theorem readFrame_header_short (hr : r.Conveys limits.timeout Has)
    (hs : Has s bytes e) (he : e = .silence → 0 < limits.timeout)
    (hlen : bytes.length < Header.size) :
    ∃ s', readFrame r limits s =
        (.error (.header (e.barren limits.timeout bytes.length Header.size)), s') ∧
      Has s' [] e.afterwards := by
  obtain ⟨s', hread, hs'⟩ := readExact_short hr.brings he hlen hs
  refine ⟨s', ?_, hs'⟩
  simp only [readFrame, hread]

theorem readFrame_too_large (hr : r.Conveys limits.timeout Has)
    (hs : Has s bytes e) (hlen : Header.size ≤ bytes.length)
    (hmax : limits.max < (Header.ofBytes bytes).length) :
    ∃ s', readFrame r limits s =
        (.error (.tooLarge (Header.ofBytes bytes).length limits.max), s') ∧
      Has s' (bytes.drop Header.size) e := by
  obtain ⟨s', hread, hs'⟩ := readExact_full hr.brings hlen hs
  refine ⟨s', ?_, hs'⟩
  simp only [readFrame, hread, ofBytes_take_size]
  rw [if_pos hmax]

theorem readFrame_whole (hr : r.Conveys limits.timeout Has)
    (hs : Has s bytes e) (hlen : Header.size ≤ bytes.length)
    (hmax : ¬ limits.max < (Header.ofBytes bytes).length)
    (hrest : (Header.ofBytes bytes).length.toNat ≤ bytes.length - Header.size) :
    ∃ s', readFrame r limits s =
        (.ok ((bytes.drop Header.size).take (Header.ofBytes bytes).length.toNat), s') ∧
      Has s' (bytes.drop (Header.size + (Header.ofBytes bytes).length.toNat)) e := by
  obtain ⟨s₁, hread, hs₁⟩ := readExact_full hr.brings hlen hs
  have hfits : (Header.ofBytes bytes).length.toNat ≤ (bytes.drop Header.size).length := by
    rw [List.length_drop]
    exact hrest
  obtain ⟨s', hpayload, hs'⟩ := readPayload_full hr 0 (Nat.sub_zero _) hfits hs₁
  refine ⟨s', ?_, ?_⟩
  · simp only [readFrame, hread, ofBytes_take_size]
    rw [if_neg hmax]
    simp only [hpayload]
  · rw [List.drop_drop] at hs'
    exact hs'

theorem readFrame_payload_short (hr : r.Conveys limits.timeout Has)
    (hs : Has s bytes e) (he : e = .silence → 0 < limits.timeout)
    (hlen : Header.size ≤ bytes.length)
    (hmax : ¬ limits.max < (Header.ofBytes bytes).length) {got : Nat}
    (hgot : got = bytes.length - Header.size)
    (hrest : got < (Header.ofBytes bytes).length.toNat) :
    ∃ s', readFrame r limits s =
        (.error (.payload (e.barren limits.timeout (got % chunkSize)
          (min chunkSize ((Header.ofBytes bytes).length.toNat -
            (got - got % chunkSize))))), s') ∧
      Has s' [] e.afterwards := by
  obtain ⟨s₁, hread, hs₁⟩ := readExact_full hr.brings hlen hs
  rw [← List.length_drop] at hgot
  have hcut : (bytes.drop Header.size).length < (Header.ofBytes bytes).length.toNat := by
    rw [← hgot]
    exact hrest
  obtain ⟨s', hpayload, hs'⟩ := readPayload_short hr he 0 (Nat.sub_zero _) hcut hs₁
  refine ⟨s', ?_, hs'⟩
  simp only [readFrame, hread, ofBytes_take_size]
  rw [if_neg hmax]
  simp only [hpayload]
  rw [← hgot]

end Frame

/-! ## What reading leaves alone

A reader does nothing to the stream but wait and receive. -/

/-- Whatever holds of a stream goes on holding while it is waited for and
received from. -/
structure Receiver.Keeps (r : Receiver σ) (P : σ → Prop) : Prop where
  wait : ∀ timeout {s}, P s → P (r.wait timeout s).2
  receive : ∀ w {s}, P s → P (r.receive w s).2

theorem Receiver.Keeps.await {r : Receiver σ} {P : σ → Prop} (hr : r.Keeps P)
    {timeout : Int} {s s₁ : σ} {outcome : Wait} (h : r.await timeout s = (outcome, s₁))
    (hs : P s) : P s₁ := by
  rw [Receiver.await] at h
  split at h
  · cases h
    exact hs
  · have := hr.wait timeout hs
    rw [h] at this
    exact this

theorem Receiver.Keeps.received {r : Receiver σ} {P : σ → Prop} (hr : r.Keeps P)
    {w : Window} {s s₁ : σ} {answer : Except SystemError Bytes}
    (h : r.receive w s = (answer, s₁)) (hs : P s) : P s₁ := by
  have := hr.receive w hs
  rw [h] at this
  exact this

theorem readInto_keeps {r : Receiver σ} {P : σ → Prop} (hr : r.Keeps P) (timeout : Int)
    (total : Nat) (w : Window) (s : σ) (hs : P s) :
    P (readInto r timeout total w s).stream := by
  fun_induction readInto r timeout total w s with
  | case1 => exact hs
  | case2 w s _ s₁ hawait | case3 w s _ e s₁ hawait => exact hr.await hawait hs
  | case4 w s _ s₁ hawait s₂ hreceive | case5 w s _ s₁ hawait e s₂ _ hreceive
  | case6 w s _ s₁ hawait s₂ hreceive =>
      exact hr.received hreceive (hr.await hawait hs)
  | case7 w s _ s₁ hawait b more s₂ hreceive got rest ih =>
      exact ih (hr.received hreceive (hr.await hawait hs))

theorem readPayload_keeps {r : Receiver σ} {P : σ → Prop} (hr : r.Keeps P) (timeout : Int)
    (length got : Nat) (s : σ) (hs : P s) :
    P (readPayload r timeout length got s).2 := by
  fun_induction readPayload r timeout length got s with
  | case1 got s _ chunk intake b hstop => exact readInto_keeps hr _ _ _ _ hs
  | case2 got s _ chunk intake hstop rest s₁ hrest ih
  | case3 got s _ chunk intake hstop rest s₁ hrest ih =>
      rw [hrest] at ih
      exact ih (readInto_keeps hr _ _ _ _ hs)
  | case4 => exact hs

theorem readFrame_keeps {r : Receiver σ} {P : σ → Prop} (hr : r.Keeps P)
    (limits : FrameLimits) {s : σ} (hs : P s) : P (readFrame r limits s).2 := by
  have hheader : P (readExact r limits.timeout Header.size s).stream :=
    readInto_keeps hr _ _ _ _ hs
  simp only [readFrame]
  split
  · exact hheader
  · split
    · exact hheader
    · have hpayload := readPayload_keeps hr limits.timeout
        (Header.ofBytes (readExact r limits.timeout Header.size s).data).length.toNat 0 _
        hheader
      split
      · next h =>
          rw [h] at hpayload
          exact hpayload
      · next h =>
          rw [h] at hpayload
          exact hpayload

/-! ## What a caller sees

The same four cases in the caller's terms, computed from the bytes and the end
of the stream and from nothing else. -/

/-- What an attempt to read a frame leaves with a caller, and what it leaves of
the stream. -/
structure FrameReading where
  status : FrameStatus
  out : Bytes
  err : Bytes
  rest : Bytes
  ending : Ending
  deriving DecidableEq, Repr

/-- The number that the first four bytes are, the most significant first. -/
def announced (bytes : Bytes) : Nat :=
  (bytes.take 4).foldl (fun n b => 256 * n + b.toNat) 0

/-- How the end of a stream is reported to a reader that has got some of the
bytes it wanted. -/
def Ending.report (timeout : Int) (got wanted : Nat) : Ending → FrameStatus × Bytes
  | silence =>
      (.timeout, text "no data from peer within " ++ signed timeout ++ text " ms")
  | closed =>
      (.closed, text "peer closed connection after " ++ decimal got ++ text " of " ++
        decimal wanted ++ text " bytes")
  | reset => (.closed, text "connection reset by peer")
  | failed .connectionReset => (.closed, text "connection reset by peer")
  | failed e => (.ioError, text "recv() failed: " ++ e.message)

/-- Reading a frame from these bytes with this end behind them. -/
def readingOf (limits : FrameLimits) (bytes : Bytes) (e : Ending) : FrameReading :=
  let length := announced bytes
  let got := bytes.length - 4
  if bytes.length < 4 then
    let (status, why) := e.report limits.timeout bytes.length 4
    ⟨status, [], text "reading frame header: " ++ why, [], e.afterwards⟩
  else if limits.max.toNat < length then
    ⟨.tooLarge, [], text "frame length " ++ decimal length ++ text " exceeds limit " ++
      decimal limits.max.toNat, bytes.drop 4, e⟩
  else if length ≤ got then
    ⟨.ok, (bytes.drop 4).take length, [], bytes.drop (4 + length), e⟩
  else
    let (status, why) :=
      e.report limits.timeout (got % 65536) (min 65536 (length - (got - got % 65536)))
    ⟨status, [], text "reading frame payload: " ++ why, [], e.afterwards⟩

theorem announced_eq {bytes : Bytes} (h : Header.size ≤ bytes.length) :
    (Header.ofBytes bytes).length.toNat = announced bytes := by
  match bytes, h with
  | b0 :: b1 :: b2 :: b3 :: rest, _ =>
      rw [Header.toNat_length]
      simp only [announced, Header.ofBytes, List.take_succ_cons, List.take_zero,
        List.foldl_cons, List.foldl_nil, List.getD_cons_zero, List.getD_cons_succ]
      omega

theorem Ending.report_eq (timeout : Int) (got wanted : Nat) (e : Ending) :
    e.report timeout got wanted =
      ((e.barren timeout got wanted).status, (e.barren timeout got wanted).message) := by
  cases e with
  | silence | closed | reset => rfl
  | failed e => cases e <;> rfl

/-- A frame read is decided by the bytes of the stream and by what ends it:
however the receiver cuts them, status, buffer, error text and what is left to
the next reader are those of `readingOf`. -/
theorem readFrame_decided_by_bytes {r : Receiver σ} {limits : FrameLimits}
    {Has : σ → Bytes → Ending → Prop} (hr : r.Conveys limits.timeout Has) {s : σ}
    {bytes : Bytes} {e : Ending} (hs : Has s bytes e)
    (he : e = .silence → 0 < limits.timeout) :
    ∃ result s', readFrame r limits s = (result, s') ∧
      result.status = (readingOf limits bytes e).status ∧
      result.payload = (readingOf limits bytes e).out ∧
      result.message = (readingOf limits bytes e).err ∧
      Has s' (readingOf limits bytes e).rest (readingOf limits bytes e).ending := by
  have hsize : Header.size = 4 := rfl
  by_cases hshort : bytes.length < 4
  · obtain ⟨s', hread, hs'⟩ := readFrame_header_short hr hs he hshort
    refine ⟨_, s', hread, ?_⟩
    rw [readingOf, if_pos hshort, Ending.report_eq]
    exact ⟨rfl, rfl, rfl, hs'⟩
  · have hlen : Header.size ≤ bytes.length := by omega
    have hlength := announced_eq hlen
    by_cases hmax : limits.max.toNat < announced bytes
    · obtain ⟨s', hread, hs'⟩ := readFrame_too_large hr hs hlen
        (by rw [UInt32.lt_iff_toNat_lt, hlength]; exact hmax)
      refine ⟨_, s', hread, ?_⟩
      rw [readingOf, if_neg hshort, if_pos hmax, ← hlength]
      exact ⟨rfl, rfl, rfl, hs'⟩
    · have hle : ¬ limits.max < (Header.ofBytes bytes).length := by
        rw [UInt32.lt_iff_toNat_lt, hlength]
        exact hmax
      by_cases hrest : announced bytes ≤ bytes.length - 4
      · obtain ⟨s', hread, hs'⟩ := readFrame_whole hr hs hlen hle
          (by rw [hlength]; exact hrest)
        refine ⟨_, s', hread, ?_⟩
        rw [readingOf, if_neg hshort, if_neg hmax, if_pos hrest, ← hlength]
        exact ⟨rfl, rfl, rfl, hs'⟩
      · obtain ⟨s', hread, hs'⟩ := readFrame_payload_short hr hs he hlen hle rfl
          (by rw [hlength, hsize]; omega)
        refine ⟨_, s', hread, ?_⟩
        rw [readingOf, if_neg hshort, if_neg hmax, if_neg hrest, Ending.report_eq,
          ← hlength]
        exact ⟨rfl, rfl, rfl, hs'⟩

/-- The stream ends in the middle of a payload: three bytes are announced, and
the peer closes after one. -/
theorem readFrame_decided_by_bytes_cut_payload :
    (Host.streaming ⟨[[0, 0], [0, 3, 7]], .closed⟩).Streams 3 [0, 0, 0, 3, 7] .closed ∧
      (Ending.closed = .silence → (0 : Int) < 0) ∧
      ∃ result s', readFrame (Host.receiver (some 3)) {}
          (Host.streaming ⟨[[0, 0], [0, 3, 7]], .closed⟩) = (result, s') ∧
        result.status = .closed ∧ result.payload = [] ∧
        result.message = text "reading frame payload: " ++
          (text "peer closed connection after " ++ decimal 1 ++ text " of " ++
            decimal 3 ++ text " bytes") ∧
        Host.Streams 3 s' [] .closed := by
  have hstream := Host.streaming_streams ⟨[[0, 0], [0, 3, 7]], .closed⟩
  exact ⟨hstream, nofun,
    readFrame_decided_by_bytes (Host.conveys 0 3) hstream nofun⟩

end DaemonLink
