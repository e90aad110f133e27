import DaemonLink.Proofs.BufferGrowth
import DaemonLink.Proofs.LateDeliveries

/-!
# Reading exactly so many bytes

A reader who wants a number of bytes waits and receives in turn, until he has
them or a wait brings nothing. Of what comes before that wait only the bytes
matter, not the pieces: `readExact_full` and `readExact_short` say so for any
receiver that brings them. What stands behind it matters even less, and may be
the rest of the stream, come too late.

Two things are seen only in the loop itself. One is where the bytes go: each
request names a place in the buffer, and that the places follow one another is
an invariant of the list of requests. The other is how the loop waits. It asks
for one time only, the one it was given, so its answers depend on nothing that
a wait of another length would tell. Both are true of any receiver, and of a
stream that keeps no promises as well.
-/

namespace DaemonLink

variable {σ : Type}

/-! ## Bytes in their places -/

/-- A buffer with the bytes of a request where the window of the request says. -/
def Fetch.store (buffer : Bytes) (x : Fetch) : Bytes :=
  buffer.take x.window.start ++ x.data ++ buffer.drop (x.window.start + x.data.length)

theorem store_behind {front back : Bytes} {x : Fetch} (h : x.window.start = front.length) :
    Fetch.store (front ++ back) x = front ++ x.data ++ back.drop x.data.length := by
  rw [Fetch.store, h, List.take_left, List.drop_length_add_append]

/-- The requests for a window put their bytes one behind the other, from where
it starts, and leave the rest of the buffer as it was. -/
theorem Fills.store_all {w : Window} {fetches : List Fetch} (h : Fills w fetches) :
    ∀ {front : Bytes} (back : Bytes), w.start = front.length →
      fetches.foldl Fetch.store (front ++ back) =
        front ++ received fetches ++ back.drop (received fetches).length := by
  induction h with
  | stop w =>
      intro front back _
      rw [received, List.flatMap_nil, List.append_nil]
      rfl
  | @fetch w data rest hroom hfits hrest ih =>
      intro front back hstart
      have hnext : (w.advance data.length).start = (front ++ data).length := by
        rw [List.length_append, ← hstart]
        rfl
      rw [List.foldl_cons, store_behind hstart, ih (back.drop data.length) hnext, received_cons,
        List.drop_drop, List.length_append, List.append_assoc front]

theorem Fills.within {w : Window} {fetches : List Fetch} (h : Fills w fetches) :
    ∀ x ∈ fetches, x.window.size = w.size ∧ x.window.start + x.window.room = w.start + w.room ∧
      x.data.length ≤ x.window.room := by
  induction h with
  | stop w => nofun
  | @fetch w data rest hroom hfits hrest ih =>
      intro x hx
      rcases List.mem_cons.mp hx with rfl | hx
      · exact ⟨rfl, rfl, hfits⟩
      · obtain ⟨hsize, hend, hdata⟩ := ih x hx
        refine ⟨hsize, ?_, hdata⟩
        simp only [Window.advance] at hend
        omega

/-! ## Waits -/

theorem await_congr {r : Receiver σ} {timeout : Int} {wait' : Int → σ → Wait × σ}
    (h : 0 < timeout → ∀ s, wait' timeout s = r.wait timeout s) (s : σ) :
    ({ r with wait := wait' } : Receiver σ).await timeout s = r.await timeout s := by
  rw [Receiver.await, Receiver.await]
  by_cases ht : timeout ≤ 0
  · rw [if_pos ht, if_pos ht]
  · rw [if_neg ht, if_neg ht]
    exact h (by omega) s

/-- A reader waits for the time it was given and for no other. -/
theorem readInto_wait_congr {r : Receiver σ} {timeout : Int} {wait' : Int → σ → Wait × σ}
    (h : 0 < timeout → ∀ s, wait' timeout s = r.wait timeout s) (total : Nat) (w : Window) (s : σ) :
    readInto { r with wait := wait' } timeout total w s = readInto r timeout total w s := by
  fun_induction readInto r timeout total w s with
  | case1 w s hroom => exact readInto_zero _ timeout total hroom s
  | case2 w s hroom s₁ hawait | case3 w s hroom e s₁ hawait =>
      rw [readInto, if_neg hroom, await_congr h, hawait]
  | case4 w s hroom s₁ hawait s₂ hreceive
  | case6 w s hroom s₁ hawait s₂ hreceive =>
      rw [readInto, if_neg hroom, await_congr h, hawait]
      simp only [hreceive]
  | case5 w s hroom s₁ hawait e s₂ hne hreceive =>
      rw [readInto, if_neg hroom, await_congr h, hawait]
      simp only [hreceive]
  | case7 w s hroom s₁ hawait b more s₂ hreceive got rest ih =>
      rw [readInto, if_neg hroom, await_congr h, hawait]
      simp only [hreceive]
      rw [ih]

theorem readInto_never_expires (r : Receiver σ) {timeout : Int} (ht : timeout ≤ 0) (total : Nat)
    (w : Window) (s : σ) : (readInto r timeout total w s).status ≠ .timeout := by
  have hawait (s : σ) : r.await timeout s = (.ready, s) := by rw [Receiver.await, if_pos ht]
  fun_induction readInto r timeout total w s with
  | case2 w s _ s₁ hexpired =>
      rw [hawait] at hexpired
      cases hexpired
  | case7 _ _ _ _ _ _ _ _ _ _ _ ih => exact ih
  | case1 | case3 | case4 | case5 | case6 => simp [Intake.status, Barren.status]

/-! ## The first wait that brings nothing -/

section Brought

variable {r : Receiver σ} {timeout : Int} {Has : σ → Bytes → Ending → Prop}
  {Past : Ending → σ → Prop} {s : σ} {bytes : Bytes} {e : Ending} {n : Nat}

theorem Ending.barren_of_ended (h : e ≠ .silence) (timeout timeout' : Int) (got wanted : Nat) :
    e.barren timeout got wanted = e.barren timeout' got wanted := by
  cases e with
  | silence => exact absurd rfl h
  | closed => rfl
  | reset => rfl
  | failed e => cases e <;> rfl

/-- As long as no wait expires, how long the waits may be makes no difference. -/
theorem readExact_alike {timeout' : Int} {Has' : σ → Bytes → Ending → Prop}
    {Past' : Ending → σ → Prop} (hr : r.Brings timeout Has Past) (hs : Has s bytes e)
    (hr' : r.Brings timeout' Has' Past') (hs' : Has' s bytes e)
    (hends : n ≤ bytes.length ∨ e ≠ .silence) :
    (readExact r timeout n s).data = (readExact r timeout' n s).data ∧
      (readExact r timeout n s).stop = (readExact r timeout' n s).stop := by
  by_cases hlen : n ≤ bytes.length
  · obtain ⟨s₁, hread, -⟩ := readExact_full hr hlen hs
    obtain ⟨s₂, hread', -⟩ := readExact_full hr' hlen hs'
    rw [hread, hread']
    exact ⟨rfl, rfl⟩
  · have hended : e ≠ .silence := hends.resolve_left hlen
    have hfew : bytes.length < n := Nat.lt_of_not_le hlen
    obtain ⟨s₁, hread, -⟩ := readExact_short hr (absurd · hended) hfew hs
    obtain ⟨s₂, hread', -⟩ := readExact_short hr' (absurd · hended) hfew hs'
    rw [hread, hread']
    refine ⟨rfl, ?_⟩
    show some _ = some _
    rw [Ending.barren_of_ended hended]

theorem readExact_brought (hr : r.Brings timeout Has Past) (hs : Has s bytes e)
    (hends : n ≤ bytes.length ∨ e ≠ .silence ∨ 0 < timeout) {buffer : Bytes}
    (hsize : buffer.length = n) (err : Bytes) :
    let i := readExact r timeout n s
    (i.status = .ok ↔ n ≤ bytes.length) ∧
    (n ≤ bytes.length →
      i.fill buffer = bytes.take n ∧ i.note err = err ∧ Has i.stream (bytes.drop n) e) ∧
    (bytes.length < n →
      (i.status, i.note err) = e.report timeout bytes.length n ∧
        i.fill buffer = bytes ++ buffer.drop bytes.length ∧ Past e i.stream) := by
  by_cases hlen : n ≤ bytes.length
  · obtain ⟨s', hread, hs'⟩ := readExact_full hr hlen hs
    have hfull : (bytes.take n).length = n := List.length_take_of_le hlen
    rw [hread]
    refine ⟨iff_of_true rfl hlen, fun _ => ⟨?_, rfl, hs'⟩, fun hfew => ?_⟩
    · rw [Intake.fill, hfull, List.drop_of_length_le (Nat.le_of_eq hsize), List.append_nil]
    · omega
  · have hexpires : e = .silence → 0 < timeout := fun hsilent =>
      (hends.resolve_left hlen).resolve_left (absurd hsilent)
    obtain ⟨s', hread, hs'⟩ := readExact_short hr hexpires (Nat.lt_of_not_le hlen) hs
    rw [hread]
    refine ⟨iff_of_false (Barren.status_ne_ok _) hlen, fun hfull => ?_, fun _ => ⟨?_, rfl, hs'⟩⟩
    · omega
    · rw [Ending.report_eq]
      rfl

end Brought

/-- A read of so many bytes goes on until it has them or a wait brings nothing.

Whatever the receiver, the bytes stand in the buffer where they were asked to
go, one request behind the other and none beyond the end. The read waits for
the time it was given and for no other, and if that is not positive it does not
wait and never reports a timeout. To read no bytes, nothing is done.

For a receiver that brings some bytes before the first such wait, in whatever
pieces: if they are enough, the read succeeds, with the first of them in the
buffer, the error text as it was, and the others still to come. If not, status
and error text are those of the wait that brought nothing, and the bytes before
it are in the buffer, the rest of which is as it was. Only a silence of which a
wait has no limit has no outcome. If no wait expires, any other time allowed has
the same outcome.

So the time allowed bounds each wait and not their sum: of a peer that sends
its pieces each in time, the read is never timed out before it has them all. -/
theorem exact_read_ends_at_first_barren_wait (r : Receiver σ) (timeout : Int) (n : Nat) (s : σ)
    (buffer err : Bytes) (hsize : buffer.length = n) :
    let i := readExact r timeout n s
    (∃ fetches,
      readExact r.recorded timeout n (s, []) = ⟨i.data, i.stop, i.stream, fetches⟩ ∧
      fetches.foldl Fetch.store buffer = i.fill buffer ∧
      ∀ x ∈ fetches, x.window.size = n ∧ x.window.start + x.window.room = n ∧
        x.data.length ≤ x.window.room) ∧
    (∀ wait', (0 < timeout → ∀ s, wait' timeout s = r.wait timeout s) →
      readExact { r with wait := wait' } timeout n s = i) ∧
    (timeout ≤ 0 → i.status ≠ .timeout) ∧
    (n = 0 → i = ⟨[], none, s⟩) ∧
    (∀ Has Past bytes e, r.Brings timeout Has Past → Has s bytes e →
      n ≤ bytes.length ∨ e ≠ .silence ∨ 0 < timeout →
      (i.status = .ok ↔ n ≤ bytes.length) ∧
      (n ≤ bytes.length →
        i.fill buffer = bytes.take n ∧ i.note err = err ∧ Has i.stream (bytes.drop n) e) ∧
      (bytes.length < n →
        (i.status, i.note err) = e.report timeout bytes.length n ∧
          i.fill buffer = bytes ++ buffer.drop bytes.length ∧ Past e i.stream)) ∧
    (∀ Has Past bytes e timeout' Has' Past', r.Brings timeout Has Past → Has s bytes e →
      r.Brings timeout' Has' Past' → Has' s bytes e → n ≤ bytes.length ∨ e ≠ .silence →
      let i' := readExact r timeout' n s
      i.status = i'.status ∧ i.fill buffer = i'.fill buffer ∧ i.note err = i'.note err) ∧
    ∀ pieces late fd h, Host.Sends pieces late fd timeout h →
      let sent := pieces.flatMap (·.2)
      let i := readExact (Host.receiver (some fd)) timeout n h
      (n ≤ sent.length → i.status = .ok ∧ i.fill buffer = sent.take n) ∧
      (sent.length < n → 0 < timeout →
        i.status = .timeout ∧ i.fill buffer = sent ++ buffer.drop sent.length) := by
  refine ⟨?_, ?_, ?_, ?_, ?_, ?_, ?_⟩
  · obtain ⟨fetches, hread, hfills, hdata⟩ := readInto_recorded r timeout n (.whole n) s []
    have hstart : (Window.whole n).start = ([] : Bytes).length := rfl
    have hstore := hfills.store_all buffer hstart
    rw [hdata] at hstore
    refine ⟨fetches, hread, hstore, fun x hx => ?_⟩
    obtain ⟨hwindow, hend, hfits⟩ := hfills.within x hx
    rw [Window.whole, Nat.zero_add] at hend
    exact ⟨hwindow, hend, hfits⟩
  · intro wait' h
    exact readInto_wait_congr h n (.whole n) s
  · intro ht
    exact readInto_never_expires r ht n (.whole n) s
  · rintro rfl
    exact readInto_zero r timeout 0 rfl s
  · intro Has Past bytes e hr hs hends
    exact readExact_brought hr hs hends hsize err
  · intro Has Past bytes e timeout' Has' Past' hr hs hr' hs' hends
    obtain ⟨hdata, hstop⟩ := readExact_alike hr hs hr' hs' hends
    refine ⟨?_, ?_, ?_⟩
    · rw [Intake.status, hstop]
      rfl
    · rw [Intake.fill, hdata]
      rfl
    · rw [Intake.note, hstop]
      rfl
  · intro pieces late fd h hsends
    have hr := Host.brings_before late fd timeout
    constructor
    · intro hlen
      obtain ⟨hok, henough, -⟩ := readExact_brought hr hsends.delivers (.inl hlen) hsize err
      exact ⟨hok.mpr hlen, (henough hlen).1⟩
    · intro hfew ht
      obtain ⟨-, -, hshort⟩ := readExact_brought hr hsends.delivers (.inr (.inr ht)) hsize err
      obtain ⟨hreport, hfill, -⟩ := hshort hfew
      rw [Prod.mk.injEq] at hreport
      exact ⟨hreport.1, hfill⟩

/-- Two bytes come, each within ten milliseconds but not both, and the third
too late. -/
theorem exact_read_ends_at_first_barren_wait_third_byte_late :
    let h : Host := { Host.streaming .silent with
      coming := [(8, 0, .send [1]), (8, 0, .send [2]), (50, 0, .send [3])] }
    let late : List (Nat × Nat × PeerAct) := [(50, 0, .send [3])]
    let i := readExact (Host.receiver (some 3)) 10 3 h
    ([7, 8, 9] : Bytes).length = 3 ∧
      (Host.receiver (some 3)).Brings 10 (Host.DeliversBefore late 3 10) (Host.Outlasts late 3 10) ∧
      Host.DeliversBefore late 3 10 h [1, 2] .silence ∧
      i.status = .timeout ∧ i.fill [7, 8, 9] = [1, 2, 9] ∧
      i.stream.coming = [(40, 0, .send [3])] := by
  intro h late i
  have hsends : Host.Sends [(8, [1]), (8, [2])] late 3 10 h := by
    refine ⟨⟨0, Channel.new, ⟨nofun, rfl, rfl⟩, rfl, rfl, rfl, rfl, rfl⟩, ?_, ?_⟩
    · simp [Channel.Soon]
    · simp [late, Host.TooLate]
  have hr := Host.brings_before late 3 10
  obtain ⟨-, -, -, -, hbrought, -, -⟩ :=
    exact_read_ends_at_first_barren_wait (Host.receiver (some 3)) 10 3 h [7, 8, 9] [] rfl
  obtain ⟨-, -, hshort⟩ := hbrought _ _ _ _ hr hsends.delivers (.inr (.inr (by decide)))
  obtain ⟨hreport, hfill, hlate⟩ := hshort (by decide)
  rw [Prod.mk.injEq] at hreport
  exact ⟨rfl, hr, hsends.delivers, hreport.1, hfill, hlate.coming⟩

end DaemonLink
