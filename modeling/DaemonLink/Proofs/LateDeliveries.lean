import DaemonLink.Proofs.Deliveries

/-!
# What comes too late for a wait

The acts of a peer that come in time are followed, perhaps, by acts that do
not: the next of them is longer ahead than a wait may last. A wait then ends
without a byte, although the stream goes on.

Nobody who waits or receives before that notices the late acts. As long as
each of his steps ends by itself, the schedule is used up from the front and
what stands at its back stays there, untouched. Only the wait that expires
reaches as far as the late acts, and all it does is to bring them nearer by the
time it took.
-/

namespace DaemonLink

/-! ## Schedules with more at their back -/

namespace Paced

variable {σ ε : Type} {r : Receiver σ} {perform : ε → σ → Option ε × σ} {late : List (Nat × ε)}

/-- The same, with these events behind all others. -/
def followedBy (p : Paced σ ε) (late : List (Nat × ε)) : Paced σ ε :=
  { p with coming := p.coming ++ late }

/-- The events when a wait has passed of which nothing came. -/
def nearer (timeout : Int) : List (Nat × ε) → List (Nat × ε)
  | [] => []
  | (delay, event) :: later => (delay - timeout.toNat, event) :: later

theorem catchUp_append (hlate : ∀ x ∈ late.head?, x.1 ≠ 0) (now : σ) (coming : List (Nat × ε)) :
    catchUp perform now (coming ++ late) = (catchUp perform now coming).followedBy late := by
  fun_induction catchUp perform now coming with
  | case1 now =>
      cases late with
      | nil => rfl
      | cons event later =>
          obtain ⟨delay, event⟩ := event
          cases delay with
          | zero => exact absurd rfl (hlate (0, event) rfl)
          | succ delay => rfl
  | case2 now event later s hperform ih =>
      rw [List.cons_append, catchUp, hperform]
      exact ih
  | case3 now event later left s hperform =>
      rw [List.cons_append, catchUp, hperform]
      rfl
  | case4 now delay event later => rfl

/-- A wait that ends by itself does not reach the events behind. -/
theorem wait_append (hlate : ∀ x ∈ late.head?, x.1 ≠ 0) (timeout : Int) (now : σ)
    (coming : List (Nat × ε)) (hends : (wait r perform timeout now coming).1 ≠ .expired) :
    wait r perform timeout now (coming ++ late) =
      ((wait r perform timeout now coming).1,
        (wait r perform timeout now coming).2.followedBy late) := by
  fun_induction wait r perform timeout now coming with
  | case1 timeout now outcome s hwait =>
      rw [wait_of_ended hwait hends, catchUp_append hlate]
      rfl
  | case2 timeout now delay event later s hwait hsoon s₁ hperform ih =>
      rw [List.cons_append, wait]
      simp only [hwait, if_pos hsoon, hperform]
      exact ih hends
  | case3 timeout now delay event later s hwait hsoon left s₁ hperform outcome s₂ hwait₂ =>
      rw [List.cons_append, wait]
      simp only [hwait, if_pos hsoon, hperform, hwait₂]
      rfl
  | case4 => exact absurd rfl hends
  | case5 timeout now delay event later outcome s _ hwait =>
      rw [wait_of_ended hwait hends, catchUp_append hlate]

/-- Nor does one who receives, if he does not have to wait in vain. -/
theorem receive_append (hlate : ∀ x ∈ late.head?, x.1 ≠ 0) (blocks : σ → Bool) (w : Window)
    (now : σ) (coming : List (Nat × ε))
    (hends : (receive r perform blocks w now coming).1 ≠ .error .wouldBlock) :
    receive r perform blocks w now (coming ++ late) =
      ((receive r perform blocks w now coming).1,
        (receive r perform blocks w now coming).2.followedBy late) := by
  fun_induction receive r perform blocks w now coming with
  | case1 now answer s hreceive =>
      rw [receive_of_ended hreceive hends, catchUp_append hlate]
      rfl
  | case2 now delay event later s hreceive hblocks s₁ hperform ih =>
      rw [List.cons_append, receive]
      simp only [hreceive, if_pos hblocks, hperform]
      exact ih hends
  | case3 now delay event later s hreceive hblocks left s₁ hperform answer s₂ hreceive₂ =>
      rw [List.cons_append, receive]
      simp only [hreceive, if_pos hblocks, hperform, hreceive₂]
      rw [← List.cons_append, catchUp_append hlate]
  | case4 => exact absurd rfl hends
  | case5 now delay event later answer s _ hreceive =>
      rw [receive_of_ended hreceive hends, catchUp_append hlate]

end Paced

/-! ## A peer that falls silent -/

namespace Host

variable {fd index : Nat} {c : Channel} {h : Host} {timeout : Int} {bytes : Bytes} {e : Ending}
  {coming late : List (Nat × Nat × PeerAct)}

/-- No wait that begins now lasts until the first of these acts. -/
def TooLate (timeout : Int) (late : List (Nat × Nat × PeerAct)) : Prop :=
  ∀ act ∈ late.head?, 0 < timeout ∧ timeout < act.1

/-- A machine on which a descriptor is brought these bytes and this end, and
then, if the end is silence, these acts take place, too late. -/
structure DeliversBefore (late : List (Nat × Nat × PeerAct)) (fd : Nat) (timeout : Int) (h : Host)
    (bytes : Bytes) (e : Ending) : Prop where
  tooLate : TooLate timeout late
  ended : e ≠ .silence → late = []
  early : ∃ early, h.coming = early ++ late ∧ Delivers fd timeout h early bytes e

/-- What is left when the first wait that brings nothing is over: the end as it
goes on, and the late acts nearer by the time the wait took. -/
structure Outlasts (late : List (Nat × Nat × PeerAct)) (fd : Nat) (timeout : Int) (e : Ending)
    (h : Host) : Prop where
  coming : h.coming = Paced.nearer timeout late
  delivers : Delivers fd timeout h [] [] e.afterwards

theorem TooLate.ne_zero (hlate : TooLate timeout late) : ∀ act ∈ late.head?, act.1 ≠ 0 := by
  intro act hact
  obtain ⟨hpos, hlong⟩ := hlate act hact
  omega

theorem delivers_nothing (hp : Delivers fd timeout h coming [] .silence) :
    coming = [] ∧ h.readiness (some fd) = .expired := by
  obtain ⟨index, c, hc, hopen, hfeeds⟩ := hp
  cases hready : c.toClient.ready with
  | true => exact absurd ⟨rfl, rfl⟩ (hfeeds.not_nothing hready)
  | false =>
      refine ⟨?_, by rw [hc.readiness_eq, hready]; rfl⟩
      cases coming with
      | nil => rfl
      | cons event later =>
          exact absurd ⟨rfl, rfl⟩ (Channel.perform_ready hopen hfeeds hready).2

theorem wait_too_late (hlate : TooLate timeout late) (hidle : h.readiness (some fd) = .expired) :
    Paced.wait (stillReceiver (some fd)) perform timeout h late =
      (.expired, ⟨h, Paced.nearer timeout late⟩) := by
  cases late with
  | nil =>
      rw [wait_nil, hidle]
      rfl
  | cons event later =>
      obtain ⟨hpos, hlong⟩ := hlate event rfl
      rw [Paced.wait]
      simp only [stillReceiver_wait, hidle]
      rw [if_neg (by omega)]
      rfl

/-- A descriptor brings what is delivered in time, whatever comes too late. -/
theorem brings_before (late : List (Nat × Nat × PeerAct)) (fd : Nat) (timeout : Int) :
    (receiver (some fd)).Brings timeout (DeliversBefore late fd timeout)
      (Outlasts late fd timeout) where
  wait := by
    intro h bytes e ⟨hlate, hended, early, hcoming, hp⟩ ht hsome
    obtain ⟨p, hwait, hp'⟩ := delivers_wait hp ht
    rw [if_neg hsome] at hwait
    have happend := Paced.wait_append hlate.ne_zero timeout h early (by rw [hwait]; nofun)
    rw [receiver_wait, hcoming, happend, hwait]
    exact ⟨_, rfl, hlate, hended, p.coming, rfl, delivers_ofPaced hp'⟩
  expire := by
    intro h ⟨hlate, hended, early, hcoming, hp⟩ ht
    obtain ⟨rfl, hidle⟩ := delivers_nothing hp
    rw [receiver_wait, hcoming, List.nil_append, wait_too_late hlate hidle]
    exact ⟨_, rfl, rfl, delivers_ofPaced hp⟩
  receive := by
    intro h bytes e w ⟨hlate, hended, early, hcoming, hp⟩ hne hroom
    obtain ⟨data, rest, p, hreceive, hbytes, hdata, hfits, hp'⟩ := delivers_receive hp hne hroom
    have happend := Paced.receive_append hlate.ne_zero (·.blocks (some fd)) w h early
      (by rw [hreceive]; nofun)
    rw [receiver_receive, hcoming, happend, hreceive]
    exact ⟨data, rest, _, rfl, hbytes, hdata, hfits, hlate, hended, p.coming, rfl,
      delivers_ofPaced hp'⟩
  finish := by
    intro h e w ⟨hlate, hended, early, hcoming, hp⟩ hend hroom
    -- Behind the end of the stream nothing is said to come, so there is nothing to keep.
    obtain rfl := hended hend
    obtain ⟨s, hreceive, hs⟩ := delivers_finish hp hroom
    rw [receiver_receive, hcoming, List.append_nil, hreceive]
    exact ⟨_, rfl, rfl, delivers_ofPaced hs⟩

/-- On this machine the peer of a descriptor is to send these pieces over an
empty channel, each so many milliseconds after the one before, and all of them
in time; what it does then comes too late. -/
structure Sends (pieces : List (Nat × Bytes)) (late : List (Nat × Nat × PeerAct)) (fd : Nat)
    (timeout : Int) (h : Host) : Prop where
  channel : ∃ index c, Refers fd index c h ∧ c.clientOpen = true ∧ c.peerOpen = true ∧
    c.blocking = true ∧ c.toClient = .silent ∧
    h.coming = pieces.map (fun p => (p.1, index, .send p.2)) ++ late
  inTime : ∀ p ∈ pieces, Channel.Soon timeout p.1 ∧ p.2 ≠ []
  tooLate : TooLate timeout late

theorem Sends.delivers {pieces : List (Nat × Bytes)} (hs : Sends pieces late fd timeout h) :
    DeliversBefore late fd timeout h (pieces.flatMap (·.2)) .silence := by
  obtain ⟨⟨index, c, hc, hclient, hpeer, hblocks, hsilent, hcoming⟩, hpieces, hlate⟩ := hs
  have hp := sends_delivered hc hclient hpeer hblocks hsilent .nothing pieces hpieces
  rw [List.append_nil] at hp
  exact ⟨hlate, absurd rfl, _, hcoming, hp⟩

end Host

end DaemonLink
