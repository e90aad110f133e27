import DaemonLink.Proofs.FrameReading

/-!
# The buffer of a payload follows its bytes

A length is four bytes, and anybody can send them. What a reader sets aside on
the strength of a length alone is therefore what a peer can make it set aside
for nothing. The reader of frames sets aside one chunk more than it has
received, and never more than the length that was announced.

To see this, the requests of a reader are written down as they are made, each
with the bytes that it brought. A receiver that does so answers like the
receiver it stands for, so what is found in the list of requests is true of a
reader over any stream, however it comes and however it ends.

One window is filled by requests for what is left of it, so they all lie inside
it and all see the buffer at the same size. Where the window starts, the bytes
before it have all arrived. So the bound on the size holds of the first request
of each window, and it only gets weaker as more bytes arrive.
-/

namespace DaemonLink

variable {σ : Type}

/-! ## Requests written down -/

/-- A request for bytes, and the bytes that it brought into its window. -/
structure Fetch where
  window : Window
  data : Bytes
  deriving DecidableEq, Repr

/-- What an answer brings into a window. -/
def Window.taken (w : Window) : Except SystemError Bytes → Bytes
  | .ok data => data.take w.room
  | .error _ => []

/-- A receiver that writes down the requests made of it. -/
def Receiver.recorded (r : Receiver σ) : Receiver (σ × List Fetch) where
  wait timeout s := ((r.wait timeout s.1).1, (r.wait timeout s.1).2, s.2)
  receive w s :=
    ((r.receive w s.1).1, (r.receive w s.1).2,
      s.2 ++ [⟨w, w.taken (r.receive w s.1).1⟩])

/-- The bytes that requests have brought. -/
def received (fetches : List Fetch) : Bytes :=
  fetches.flatMap Fetch.data

theorem received_cons (x : Fetch) (rest : List Fetch) :
    received (x :: rest) = x.data ++ received rest := rfl

theorem received_append (before after : List Fetch) :
    received (before ++ after) = received before ++ received after :=
  List.flatMap_append

theorem recorded_await (r : Receiver σ) (timeout : Int) (s : σ) (log : List Fetch) :
    r.recorded.await timeout (s, log) =
      ((r.await timeout s).1, (r.await timeout s).2, log) := by
  rw [Receiver.await, Receiver.await]
  split <;> rfl

theorem recorded_receive (r : Receiver σ) (w : Window) (s : σ) (log : List Fetch) :
    r.recorded.receive w (s, log) =
      ((r.receive w s).1, (r.receive w s).2, log ++ [⟨w, w.taken (r.receive w s).1⟩]) := rfl

/-! ## One window -/

/-- Requests that fill a window from its start: each is for what is left. -/
inductive Fills : Window → List Fetch → Prop
  | stop (w : Window) : Fills w []
  | fetch {w : Window} {data : Bytes} {rest : List Fetch} (hroom : 0 < w.room)
      (hfits : data.length ≤ w.room)
      (hrest : Fills (w.advance data.length) rest) : Fills w (⟨w, data⟩ :: rest)

theorem Fills.last {w : Window} (hroom : 0 < w.room) : Fills w [⟨w, []⟩] :=
  .fetch hroom (Nat.zero_le _) (.stop _)

theorem Fills.buffer {w : Window} {fetches : List Fetch} (h : Fills w fetches) :
    ∀ x ∈ fetches, x.window.buffer = w.buffer := by
  induction h with
  | stop w => nofun
  | @fetch w data rest hroom hfits hrest ih =>
      rintro x (_ | ⟨_, hx⟩)
      · rfl
      · exact ih x hx

/-- Writing the requests down changes nothing, and the requests for a window
fill it with the bytes that were received. -/
theorem readInto_recorded (r : Receiver σ) (timeout : Int) (total : Nat) (w : Window) (s : σ) :
    ∀ log : List Fetch, ∃ fetches,
      readInto r.recorded timeout total w (s, log) =
        ⟨(readInto r timeout total w s).data, (readInto r timeout total w s).stop,
          (readInto r timeout total w s).stream, log ++ fetches⟩ ∧
      Fills w fetches ∧ received fetches = (readInto r timeout total w s).data := by
  fun_induction readInto r timeout total w s with
  | case1 w s hroom =>
      intro log
      refine ⟨[], ?_, .stop w, rfl⟩
      rw [readInto_zero r.recorded timeout total hroom, List.append_nil]
  | case2 w s hroom s₁ hawait | case3 w s hroom e s₁ hawait =>
      intro log
      refine ⟨[], ?_, .stop w, rfl⟩
      rw [readInto, if_neg hroom, recorded_await, hawait, List.append_nil]
  | case4 w s hroom s₁ hawait s₂ hreceive
  | case5 w s hroom s₁ hawait e s₂ hne hreceive
  | case6 w s hroom s₁ hawait s₂ hreceive =>
      intro log
      refine ⟨[⟨w, []⟩], ?_, .last (by omega), rfl⟩
      rw [readInto, if_neg hroom, recorded_await, hawait]
      simp only [recorded_receive, hreceive, Window.taken, List.take_nil]
  | case7 w s hroom s₁ hawait b more s₂ hreceive got rest ih =>
      intro log
      obtain ⟨fetches, hread, hfills, hdata⟩ := ih (log ++ [⟨w, got⟩])
      refine ⟨⟨w, got⟩ :: fetches, ?_, .fetch (by omega) ?_ hfills, ?_⟩
      · rw [readInto, if_neg hroom, recorded_await, hawait]
        simp only [recorded_receive, hreceive, Window.taken]
        rw [hread, List.append_assoc]
        rfl
      · rw [List.length_take]
        omega
      · rw [received_cons, hdata]

/-- A window that was not stopped at is full. -/
theorem readInto_filled (r : Receiver σ) (timeout : Int) (total : Nat) (w : Window) (s : σ)
    (hstop : (readInto r timeout total w s).stop = none) :
    (readInto r timeout total w s).data.length = w.room := by
  fun_induction readInto r timeout total w s with
  | case1 w s hroom => exact hroom.symm
  | case2 | case3 | case4 | case5 | case6 => cases hstop
  | case7 w s hroom s₁ hawait b more s₂ hreceive got rest ih =>
      have hgot : got.length ≤ w.room := by
        rw [List.length_take]
        omega
      have hrest : rest.data.length = w.room - got.length := ih hstop
      show (got ++ rest.data).length = w.room
      rw [List.length_append]
      omega

/-! ## The payload -/

/-- A request for bytes of a payload of the given length, so many bytes of
which have arrived: it is for the bytes that come next and lies inside the
buffer, which is larger than what has arrived by a chunk at most, and never
larger than the payload. -/
structure Fetch.Modest (length got : Nat) (x : Fetch) : Prop where
  buffer : x.window.buffer = .payload
  next : x.window.start = got
  wanted : 0 < x.window.room
  inside : x.window.start + x.window.room ≤ x.window.size
  size : x.window.size ≤ min length (got + chunkSize)

/-- Requests one after another, all of them modest. -/
def AllModest (length : Nat) : Nat → List Fetch → Prop
  | _, [] => True
  | got, x :: rest => x.Modest length got ∧ AllModest length (got + x.data.length) rest

theorem allModest_append {length : Nat} {before after : List Fetch} :
    ∀ {got : Nat}, AllModest length got (before ++ after) ↔
      AllModest length got before ∧
        AllModest length (got + (received before).length) after := by
  induction before with
  | nil => exact ⟨fun h => ⟨trivial, h⟩, fun h => h.2⟩
  | cons x rest ih =>
      intro got
      rw [List.cons_append, AllModest, AllModest, ih, received_cons, List.length_append, and_assoc,
        Nat.add_assoc]

theorem AllModest.modest {length got : Nat} {fetches before after : List Fetch} {x : Fetch}
    (h : AllModest length got fetches) (hsplit : fetches = before ++ x :: after) :
    x.Modest length (got + (received before).length) := by
  rw [hsplit] at h
  exact (allModest_append.mp h).2.1

theorem Fills.allModest {length : Nat} {w : Window} {fetches : List Fetch} (h : Fills w fetches)
    (hbuffer : w.buffer = .payload) (hinside : w.start + w.room ≤ w.size)
    (hsize : w.size ≤ min length (w.start + chunkSize)) :
    AllModest length w.start fetches := by
  induction h with
  | stop w => trivial
  | @fetch w data rest hroom hfits hrest ih =>
      -- The buffer stays as it is and the window starts later, so the bound is only looser.
      refine ⟨⟨hbuffer, rfl, hroom, hinside, hsize⟩, ih hbuffer ?_ ?_⟩
      · simp only [Window.advance]
        omega
      · simp only [Window.advance]
        omega

/-- The window of the chunk that comes next. -/
def nextChunk (length got : Nat) : Window :=
  ⟨.payload, got + min chunkSize (length - got), got, min chunkSize (length - got)⟩

/-- The rest of a payload behind a chunk that came whole. -/
theorem readPayload_chunk {r : Receiver σ} {timeout : Int} {length got : Nat} (hgot : got < length)
    {s s₁ s₂ : σ} {data : Bytes} {rest : Except Barren Bytes}
    (hread : readInto r timeout (nextChunk length got).room (nextChunk length got) s =
      ⟨data, none, s₁⟩)
    (hrest : readPayload r timeout length (got + (nextChunk length got).room) s₁ = (rest, s₂)) :
    readPayload r timeout length got s = (rest.map (data ++ ·), s₂) := by
  simp only [nextChunk] at hread hrest
  rw [readPayload, if_pos hgot]
  simp only [hread, hrest]
  cases rest <;> rfl

theorem readPayload_stopped {r : Receiver σ} {timeout : Int} {length got : Nat}
    (hgot : got < length) {s s₁ : σ} {data : Bytes} {b : Barren}
    (hread : readInto r timeout (nextChunk length got).room (nextChunk length got) s =
      ⟨data, some b, s₁⟩) :
    readPayload r timeout length got s = (.error b, s₁) := by
  simp only [nextChunk] at hread
  rw [readPayload, if_pos hgot]
  simp only [hread]

theorem readChunk_recorded (r : Receiver σ) (timeout : Int) {length got : Nat} (hgot : got < length)
    (s : σ) (log : List Fetch) :
    let chunk := nextChunk length got
    let intake := readInto r timeout chunk.room chunk s
    ∃ fetches,
      readInto r.recorded timeout chunk.room chunk (s, log) =
        ⟨intake.data, intake.stop, intake.stream, log ++ fetches⟩ ∧
      AllModest length got fetches ∧ received fetches = intake.data := by
  intro chunk intake
  obtain ⟨fetches, hread, hfills, hdata⟩ := readInto_recorded r timeout chunk.room chunk s log
  refine ⟨fetches, hread, hfills.allModest rfl (Nat.le_refl _) ?_, hdata⟩
  show got + min chunkSize (length - got) ≤ min length (got + chunkSize)
  omega

/-- Of the rest of a payload: the requests for it are all modest, and if it
comes whole they have brought it. -/
def RestRecorded (r : Receiver σ) (timeout : Int) (length got : Nat) (s : σ) : Prop :=
  ∀ log : List Fetch, ∃ fetches,
    readPayload r.recorded timeout length got (s, log) =
      ((readPayload r timeout length got s).1, (readPayload r timeout length got s).2,
        log ++ fetches) ∧
    AllModest length got fetches ∧
    ∀ data, (readPayload r timeout length got s).1 = .ok data →
      data.length = length - got ∧ data = received fetches

section Chunk

variable {r : Receiver σ} {timeout : Int} {length got : Nat} {s s₁ : σ} {data : Bytes}

theorem RestRecorded.stopped {b : Barren} (hgot : got < length)
    (hread : readInto r timeout (nextChunk length got).room (nextChunk length got) s =
      ⟨data, some b, s₁⟩) :
    RestRecorded r timeout length got s := by
  intro log
  obtain ⟨fetches, hrecorded, hmodest, -⟩ := readChunk_recorded r timeout hgot s log
  rw [hread] at hrecorded
  refine ⟨fetches, ?_, hmodest, ?_⟩
  · rw [readPayload_stopped hgot hread, readPayload_stopped hgot hrecorded]
  · intro data hdata
    rw [readPayload_stopped hgot hread] at hdata
    cases hdata

theorem RestRecorded.chunk (hgot : got < length)
    (hread : readInto r timeout (nextChunk length got).room (nextChunk length got) s =
      ⟨data, none, s₁⟩)
    (hrest : RestRecorded r timeout length (got + (nextChunk length got).room) s₁) :
    RestRecorded r timeout length got s := by
  intro log
  obtain ⟨fetches, hrecorded, hmodest, hdata⟩ := readChunk_recorded r timeout hgot s log
  have hfull := readInto_filled r timeout (nextChunk length got).room (nextChunk length got) s
  rw [hread] at hrecorded hdata hfull
  obtain ⟨more, hmore, hmodest', hdone⟩ := hrest (log ++ fetches)
  rcases hafter : readPayload r timeout length (got + (nextChunk length got).room) s₁
    with ⟨rest, s₂⟩
  rw [hafter] at hmore hdone
  refine ⟨fetches ++ more, ?_, allModest_append.mpr ⟨hmodest, ?_⟩, ?_⟩
  · rw [readPayload_chunk hgot hread hafter, readPayload_chunk hgot hrecorded hmore,
      List.append_assoc]
  · rw [hdata, hfull rfl]
    exact hmodest'
  · intro whole hwhole
    rw [readPayload_chunk hgot hread hafter] at hwhole
    cases rest with
    | error b => cases hwhole
    | ok rest =>
        cases hwhole
        obtain ⟨hlength, hbytes⟩ := hdone rest rfl
        refine ⟨?_, by rw [received_append, hdata, ← hbytes]⟩
        rw [List.length_append, hlength, hfull rfl]
        simp only [nextChunk]
        omega

end Chunk

theorem readPayload_recorded (r : Receiver σ) (timeout : Int) (length got : Nat) (s : σ) :
    RestRecorded r timeout length got s := by
  fun_induction readPayload r timeout length got s with
  | case1 got s hgot chunk intake b hstop =>
      have hread : intake = ⟨intake.data, some b, intake.stream⟩ := by rw [← hstop]
      exact .stopped hgot hread
  | case2 got s hgot chunk intake hstop rest s₁ hrest ih
  | case3 got s hgot chunk intake hstop rest s₁ hrest ih =>
      -- What becomes of the chunks behind this one makes no difference to it.
      have hread : intake = ⟨intake.data, none, intake.stream⟩ := by rw [← hstop]
      exact .chunk hgot hread ih
  | case4 got s hgot =>
      intro log
      have hdone : length ≤ got := by omega
      refine ⟨[], ?_, trivial, ?_⟩
      · rw [readPayload_done r.recorded timeout hdone, readPayload_done r timeout hdone,
          List.append_nil]
      · intro data hdata
        rw [readPayload_done r timeout hdone] at hdata
        cases hdata
        exact ⟨by rw [List.length_nil]; omega, rfl⟩

/-- No bytes are asked for of a payload that has none. -/
theorem AllModest.eq_nil {got : Nat} {fetches : List Fetch} (h : AllModest 0 got fetches) :
    fetches = [] := by
  cases fetches with
  | nil => rfl
  | cons x rest =>
      obtain ⟨⟨-, -, hwanted, hinside, hsize⟩, -⟩ := h
      rw [Nat.zero_min] at hsize
      omega

/-! ## The frame -/

theorem readHeader_recorded (r : Receiver σ) (timeout : Int) (s : σ) :
    let intake := readExact r timeout Header.size s
    ∃ header,
      readExact r.recorded timeout Header.size (s, []) =
        ⟨intake.data, intake.stop, intake.stream, header⟩ ∧
      (∀ x ∈ header, x.window.buffer = .fixed) ∧
      received header = intake.data ∧
      (intake.stop = none → intake.data.length = Header.size) := by
  intro intake
  obtain ⟨header, hread, hfills, hdata⟩ :=
    readInto_recorded r timeout Header.size (.whole Header.size) s []
  exact ⟨header, hread, hfills.buffer, hdata,
    readInto_filled r timeout Header.size (.whole Header.size) s⟩

theorem FrameResult.eq_ok_of_status {result : FrameResult} (h : result.status = .ok) :
    result = .ok result.payload := by
  cases result with
  | ok data => rfl
  | error fault => exact absurd h fault.status_ne_ok

theorem FrameResult.payload_of_failed {result : FrameResult} (h : result.status ≠ .ok) :
    result.payload = [] := by
  cases result with
  | ok data => exact absurd rfl h
  | error fault => rfl

theorem readFrame_admitted {r : Receiver σ} {limits : FrameLimits} {s s₁ : σ} {bytes : Bytes}
    (hread : readExact r limits.timeout Header.size s = ⟨bytes, none, s₁⟩)
    (hmax : ¬ limits.max < (Header.ofBytes bytes).length) :
    let rest := readPayload r limits.timeout (Header.ofBytes bytes).length.toNat 0 s₁
    readFrame r limits s = (rest.1.mapError .payload, rest.2) := by
  simp only [readFrame, hread, if_neg hmax]
  rcases readPayload r limits.timeout (Header.ofBytes bytes).length.toNat 0 s₁ with ⟨_ | _, s'⟩ <;>
    rfl

/-- Behind the header: nothing more is asked for, or the header announces a
payload within the limit and the requests are those for it. -/
theorem readFrame_recorded (r : Receiver σ) (limits : FrameLimits) (s : σ) :
    ∃ result s' header payload,
      readFrame r.recorded limits (s, []) = (result, s', header ++ payload) ∧
      readFrame r limits s = (result, s') ∧
      (∀ x ∈ header, x.window.buffer = .fixed) ∧
      (payload = [] ∧ result.status ≠ .ok ∨
        (received header).length = Header.size ∧
          announced (received header) ≤ limits.max.toNat ∧
          AllModest (announced (received header)) 0 payload ∧
          ∀ data, result = .ok data →
            data.length = announced (received header) ∧ data = received payload) := by
  obtain ⟨header, hheader, hfixed, hreceived, hfull⟩ := readHeader_recorded r limits.timeout s
  rcases hread : readExact r limits.timeout Header.size s with ⟨bytes, stop, s₁⟩
  simp only [hread] at hheader hreceived hfull
  cases stop with
  | some b =>
      refine ⟨.error (.header b), s₁, header, [], ?_, ?_, hfixed,
        .inl ⟨rfl, (FrameFault.header b).status_ne_ok⟩⟩
      · simp only [readFrame, hheader, List.append_nil]
      · simp only [readFrame, hread]
  | none =>
      have hlength := announced_eq (Nat.le_of_eq (hfull rfl).symm)
      by_cases hmax : limits.max < (Header.ofBytes bytes).length
      · obtain ⟨fault, hfault⟩ :
            ∃ fault, fault = FrameFault.tooLarge (Header.ofBytes bytes).length limits.max :=
          ⟨_, rfl⟩
        refine ⟨.error fault, s₁, header, [], ?_, ?_, hfixed, .inl ⟨rfl, fault.status_ne_ok⟩⟩
        · simp only [readFrame, hheader, if_pos hmax, hfault, List.append_nil]
        · simp only [readFrame, hread, if_pos hmax, hfault]
      · obtain ⟨payload, hpayload, hmodest, hdone⟩ :=
          readPayload_recorded r limits.timeout (Header.ofBytes bytes).length.toNat 0 s₁ header
        refine ⟨_, _, header, payload, ?_, readFrame_admitted hread hmax, hfixed, .inr ?_⟩
        · rw [readFrame_admitted hheader hmax, hpayload]
        · rw [hreceived, ← hlength]
          refine ⟨hfull rfl, ?_, hmodest, ?_⟩
          · rw [UInt32.lt_iff_toNat_lt] at hmax
            omega
          · intro data hdata
            rcases hrest : readPayload r limits.timeout (Header.ofBytes bytes).length.toNat 0 s₁
              with ⟨b | whole, s'⟩
            · rw [hrest] at hdata
              cases hdata
            · rw [hrest] at hdata hdone
              cases hdata
              exact hdone data rfl

/-- A peer cannot make a reader grow its buffer for bytes that it does not send.
Of any stream, the requests of a reader are the ones for the header and then the
ones for the payload. Each of these lies inside the payload's buffer as it then
is, and this is not larger than the limit, nor than the length announced, nor
than a chunk more than what has arrived of the payload. With a length above the
limit, or of nothing, there are none. In the end the buffer has the announced
length, or nothing. -/
theorem payload_buffer_follows_arrivals (r : Receiver σ) (limits : FrameLimits) (s : σ) :
    ∃ result s' header payload,
      readFrame r.recorded limits (s, []) = (result, s', header ++ payload) ∧
      readFrame r limits s = (result, s') ∧
      (∀ x ∈ header, x.window.buffer = .fixed) ∧
      (payload ≠ [] ∨ result.status = .ok → (received header).length = 4) ∧
      (∀ before x after, payload = before ++ x :: after →
        x.window.buffer = .payload ∧
        x.window.start = (received before).length ∧
        x.window.start + x.window.room ≤ x.window.size ∧
        x.window.size ≤ limits.max.toNat ∧
        x.window.size ≤ min (announced (received header)) ((received before).length + 65536)) ∧
      (limits.max.toNat < announced (received header) ∨ announced (received header) = 0 →
        payload = []) ∧
      (result.status = .ok →
        result.payload.length = announced (received header) ∧ result.payload = received payload) ∧
      (result.status ≠ .ok → result.payload = []) := by
  obtain ⟨result, s', header, payload, hrecorded, hread, hfixed, hbehind⟩ :=
    readFrame_recorded r limits s
  refine ⟨result, s', header, payload, hrecorded, hread, hfixed, ?_⟩
  obtain ⟨hnone, hstatus⟩ | ⟨hheader, hmax, hmodest, hdone⟩ := hbehind
  · subst hnone
    refine ⟨?_, ?_, fun _ => rfl, fun hok => absurd hok hstatus, FrameResult.payload_of_failed⟩
    · rintro (h | hok)
      · exact absurd rfl h
      · exact absurd hok hstatus
    · intro before x after hsplit
      cases before <;> cases hsplit
  · refine ⟨fun _ => hheader, ?_, ?_, ?_, FrameResult.payload_of_failed⟩
    · intro before x after hsplit
      obtain ⟨hbuffer, hnext, -, hinside, hsize⟩ := hmodest.modest hsplit
      rw [Nat.zero_add] at hnext hsize
      exact ⟨hbuffer, hnext, hinside, by omega, hsize⟩
    · rintro (hlarge | hzero)
      · omega
      · rw [hzero] at hmodest
        exact hmodest.eq_nil
    · intro hok
      exact hdone result.payload (FrameResult.eq_ok_of_status hok)

/-- Four gigabytes are announced, and the peer closes after one byte of them. -/
example :
    (readFrame Arrivals.receiver.recorded ⟨0, 4294967295⟩
      (⟨[[255, 255, 255, 255, 7]], .closed⟩, [])).2.2.map (fun x => (x.window.size, x.data)) =
      [(4, [255, 255, 255, 255]), (65536, [7]), (65536, [])] := by
  decide +kernel

end DaemonLink
