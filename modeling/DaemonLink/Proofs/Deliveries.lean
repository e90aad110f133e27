import DaemonLink.Proofs.Streams

/-!
# Streams that are still being sent

A peer may go on sending while its stream is read. What the reader has to come
is then what lies in the channel and, behind it, what the peer has yet to send.
An act of the peer takes bytes from the second and adds them to the first, all
of them or as many as there is room for, and so changes nothing about the whole.

A wait sees such an act only if it falls within the time allowed. If each act
does, counted from the one before, then the wait ends with the first of them:
it brings a byte, or it ends the stream. So the descriptor conveys the whole
stream as if it had been there from the start, however long the stream takes.
The one thing it does not do is to tell how much of it had been sent when the
reader stopped.
-/

namespace DaemonLink

/-! ## Schedules -/

namespace Paced

variable {σ ε : Type} {r : Receiver σ} {perform : ε → σ → Option ε × σ}

/-- A wait that ends at once: what is due takes place, and nothing else. -/
theorem wait_of_ended {timeout : Int} {now s : σ} {outcome : Wait}
    (h : r.wait timeout now = (outcome, s)) (hends : outcome ≠ .expired) (coming : List (Nat × ε)) :
    wait r perform timeout now coming = (outcome, catchUp perform s coming) := by
  cases coming with
  | nil =>
      rw [wait, h]
      rfl
  | cons event later =>
      rw [wait]
      simp only [h]

theorem receive_of_ended {blocks : σ → Bool} {w : Window} {now s : σ}
    {answer : Except SystemError Bytes} (h : r.receive w now = (answer, s))
    (hends : answer ≠ .error .wouldBlock) (coming : List (Nat × ε)) :
    receive r perform blocks w now coming = (answer, catchUp perform s coming) := by
  cases coming with
  | nil =>
      rw [receive, h]
      rfl
  | cons event later =>
      rw [receive]
      simp only [h]

end Paced

/-! ## Offers -/

namespace Backlog

theorem take_maxPiece_ne_nil {data : Bytes} (h : data ≠ []) : data.take maxPiece ≠ [] := by
  intro htake
  rcases List.take_eq_nil_iff.mp htake with hzero | hnil
  · cases hzero
  · exact h hnil

theorem nil_notMem_accept (taken : Nat) (data : Bytes) : [] ∉ (accept taken data).1 := by
  fun_induction accept taken data with
  | case1 taken data _ => exact List.not_mem_nil
  | case2 taken data hroom piece more left haccept ih =>
      rw [haccept] at ih
      intro hmem
      rcases List.mem_cons.mp hmem with hpiece | hmore
      · have hdata : data ≠ [] := by
          rintro rfl
          exact hroom rfl
        exact take_maxPiece_ne_nil hdata hpiece.symm
      · exact ih hmore

theorem charged_of_no_pieces {a : Arrivals} (h : a.pieces = []) : charged a = 0 := by
  rw [charged, h]
  rfl

theorem accept_zero_ne_nil {data : Bytes} (h : data ≠ []) : (accept 0 data).1.flatten ≠ [] := by
  rw [accept, if_neg (by simp [h, bound])]
  intro hflat
  rw [List.flatten_cons] at hflat
  exact take_maxPiece_ne_nil h (List.append_eq_nil_iff.mp hflat).1

end Backlog

namespace Arrivals

theorem pieces_eq_nil {a : Arrivals} (hpieces : [] ∉ a.pieces) (h : a.bytes = []) :
    a.pieces = [] := by
  rw [bytes, List.flatten_eq_nil_iff] at h
  cases hp : a.pieces with
  | nil => rfl
  | cons piece rest =>
      rw [hp] at h hpieces
      have hnone : piece = [] := h piece List.mem_cons_self
      rw [hnone] at hpieces
      exact absurd List.mem_cons_self hpieces

theorem nil_notMem_takeFirst {room : Nat} {pieces rest : List Bytes} {data : Bytes}
    (h : takeFirst room pieces = some (data, rest)) (hpieces : [] ∉ pieces) : [] ∉ rest := by
  cases pieces with
  | nil => cases h
  | cons piece more =>
      have hmore : [] ∉ more := fun hmem => hpieces (List.mem_cons_of_mem piece hmem)
      cases piece with
      | nil => exact absurd List.mem_cons_self hpieces
      | cons b bs =>
          rw [takeFirst] at h
          split at h
          · cases h
            exact hmore
          · next hleft =>
              cases h
              intro hmem
              rcases List.mem_cons.mp hmem with hnil | hmem
              · exact hleft hnil.symm
              · exact hmore hmem
          · exact List.cons_ne_nil b bs

theorem nil_notMem_receive {a : Arrivals} (h : [] ∉ a.pieces) (room : Nat) :
    [] ∉ (a.receive room).2.pieces := by
  rw [receive]
  split
  · next htake => exact nil_notMem_takeFirst htake h
  · split <;> exact List.not_mem_nil

theorem ready_of_ending {a : Arrivals} (h : a.ending ≠ .silence) : a.ready = true := by
  rw [← Bool.not_eq_false, ready_eq_false_iff]
  exact fun hnone => h hnone.2

end Arrivals

namespace Channel

theorem endingAfterClose_ne_silence (unread : Bool) : endingAfterClose unread ≠ .silence := by
  cases unread <;> nofun

/-- A delay that a wait lasts out: no longer than the time allowed, if that is
limited. -/
def Soon (timeout : Int) (delay : Nat) : Prop :=
  0 < timeout → (delay : Int) ≤ timeout

/-- What a peer has yet to do to the channel with this number: to send these
bytes, and to end the stream, or not. -/
inductive Owed (timeout : Int) (index : Nat) (unread : Bool) :
    List (Nat × Nat × PeerAct) → Bytes → Ending → Prop
  | nothing : Owed timeout index unread [] [] .silence
  | send {delay act data later bytes e} (hsoon : Soon timeout delay)
      (hact : act = .send data ∨ act = .resume data) (hdata : data ≠ [])
      (hlater : Owed timeout index unread later bytes e) :
      Owed timeout index unread ((delay, index, act) :: later) (data ++ bytes) e
  | stopSending {delay} (hsoon : Soon timeout delay) :
      Owed timeout index unread [(delay, index, .stopSending)] [] .closed
  | close {delay} (hsoon : Soon timeout delay) :
      Owed timeout index unread [(delay, index, .close)] [] (endingAfterClose unread)

/-- A channel that brings its client these bytes and this end: all is there
already, or some of it is and the peer will do the rest. -/
inductive Feeds (timeout : Int) (index : Nat) (c : Channel) :
    List (Nat × Nat × PeerAct) → Bytes → Ending → Prop
  | there {bytes e} (hcarries : c.toClient.Carries bytes e) : Feeds timeout index c [] bytes e
  | underWay {coming later e} (hpeer : c.peerOpen = true) (hblocks : c.blocking = true)
      (hsilent : c.toClient.ending = .silence) (hpieces : [] ∉ c.toClient.pieces)
      (hlater : Owed timeout index (!c.toPeer.bytes.isEmpty) coming later e) :
      Feeds timeout index c coming (c.toClient.bytes ++ later) e

variable {timeout : Int} {index : Nat} {c : Channel} {bytes : Bytes} {e : Ending}

theorem soon_zero (timeout : Int) : Soon timeout 0 := fun h => by omega

theorem peerOffer_silent (h : c.toClient.ending = .silence) (data : Bytes) :
    c.peerOffer data =
      let offer := Backlog.accept (Backlog.charged c.toClient) data
      (if offer.2.isEmpty then none else some (.resume offer.2),
        { c with toClient := c.toClient.pushAll offer.1 }) := by
  rw [peerOffer, if_neg (fun hne => hne h)]

theorem peerStopsSending_silent (h : c.toClient.ending = .silence) :
    c.peerStopsSending = { c with toClient := { c.toClient with ending := .closed } } := by
  rw [peerStopsSending, clientStopsReceiving, if_pos h]

theorem peerClose_open (hpeer : c.peerOpen = true) (hclient : c.clientOpen = true) :
    c.peerClose =
      { c with
        peerOpen := false
        toClient := { c.toClient with ending := endingAfterClose (!c.toPeer.bytes.isEmpty) }
        toPeer := ⟨[], .closed⟩ } := by
  rw [peerClose, hpeer, if_pos hclient]
  rfl

theorem peerOffer_feeds (data : Bytes) {later owed} (hpeer : c.peerOpen = true)
    (hblocks : c.blocking = true) (hsilent : c.toClient.ending = .silence)
    (hpieces : [] ∉ c.toClient.pieces)
    (hlater : Owed timeout index (!c.toPeer.bytes.isEmpty) later owed e) :
    ∃ left c', c.peerOffer data = (left, c') ∧ c'.clientOpen = c.clientOpen ∧
      c'.Feeds timeout index (left.toList.map (0, index, ·) ++ later)
        (c.toClient.bytes ++ (data ++ owed)) e := by
  refine ⟨_, _, peerOffer_silent hsilent data, rfl, ?_⟩
  have hflat := Backlog.flatten_accept (Backlog.charged c.toClient) data
  have hnil := Backlog.nil_notMem_accept (Backlog.charged c.toClient) data
  generalize Backlog.accept (Backlog.charged c.toClient) data = offer at hflat hnil ⊢
  obtain ⟨taken, left⟩ := offer
  have hall : [] ∉ (c.toClient.pushAll taken).pieces := by
    intro hmem
    exact (List.mem_append.mp hmem).elim hpieces hnil
  subst hflat
  have hbytes := Arrivals.bytes_pushAll c.toClient taken
  cases left with
  | nil =>
      rw [List.append_nil, ← List.append_assoc, ← hbytes]
      exact .underWay hpeer hblocks hsilent hall hlater
  | cons b rest =>
      rw [List.append_assoc taken.flatten, ← List.append_assoc, ← hbytes]
      exact .underWay hpeer hblocks hsilent hall
        (.send (soon_zero timeout) (Or.inr rfl) (List.cons_ne_nil b rest) hlater)

theorem peerOffer_ready (hsilent : c.toClient.ending = .silence) (hnone : c.toClient.pieces = [])
    {data : Bytes} (hdata : data ≠ []) : (c.peerOffer data).2.toClient.ready = true := by
  rw [peerOffer_silent hsilent, Backlog.charged_of_no_pieces hnone, ← Bool.not_eq_false,
    Arrivals.ready_eq_false_iff]
  rintro ⟨hbytes, -⟩
  rw [Arrivals.bytes_pushAll] at hbytes
  exact Backlog.accept_zero_ne_nil hdata (List.append_eq_nil_iff.mp hbytes).2

/-- What is yet to be done to a channel when an act has been tried and so much
of it is left. -/
def remaining (index : Nat) (left : Option PeerAct) (later : List (Nat × Nat × PeerAct)) :
    List (Nat × Nat × PeerAct) :=
  left.toList.map (0, index, ·) ++ later

/-- An act of the peer changes nothing about what the client has to come. -/
theorem perform_feeds {delay number act later} (hclient : c.clientOpen = true)
    (h : c.Feeds timeout index ((delay, number, act) :: later) bytes e) :
    ∃ left c', c.perform act = (left, c') ∧ c'.clientOpen = true ∧
      c'.Feeds timeout index (remaining index left later) bytes e := by
  obtain - | ⟨hpeer, hblocks, hsilent, hpieces, hlater⟩ := h
  cases hlater with
  | @send _ _ data _ owed _ hsoon hact hdata hlater =>
      have hoffer := peerOffer_feeds data hpeer hblocks hsilent hpieces hlater
      rcases hact with rfl | rfl
      · obtain ⟨left, c', hperform, hopen, hfeeds⟩ := hoffer
        rw [hclient] at hopen
        exact ⟨left, c', hperform, hopen, hfeeds⟩
      · rw [perform]
        split
        · refine ⟨_, _, rfl, hclient, ?_⟩
          exact .underWay hpeer hblocks hsilent hpieces
            (.send (soon_zero timeout) (Or.inr rfl) hdata hlater)
        · obtain ⟨left, c', hperform, hopen, hfeeds⟩ := hoffer
          rw [hclient] at hopen
          exact ⟨left, c', hperform, hopen, hfeeds⟩
  | stopSending hsoon =>
      rw [perform, peerStopsSending_silent hsilent, List.append_nil]
      exact ⟨none, _, rfl, hclient, .there ⟨rfl, rfl⟩⟩
  | close hsoon =>
      rw [perform, peerClose_open hpeer hclient, List.append_nil]
      exact ⟨none, _, rfl, hclient, .there ⟨rfl, rfl⟩⟩

theorem perform_ready {delay number act later} (hclient : c.clientOpen = true)
    (h : c.Feeds timeout index ((delay, number, act) :: later) bytes e)
    (hready : c.toClient.ready = false) :
    (c.perform act).2.toClient.ready = true ∧ ¬ (bytes = [] ∧ e = .silence) := by
  obtain - | ⟨hpeer, hblocks, hsilent, hpieces, hlater⟩ := h
  obtain ⟨hbytes, -⟩ := (Arrivals.ready_eq_false_iff _).mp hready
  have hnone := Arrivals.pieces_eq_nil hpieces hbytes
  cases hlater with
  | @send _ _ data _ owed _ hsoon hact hdata hlater =>
      refine ⟨?_, fun h => hdata ?_⟩
      · have hoffer := peerOffer_ready hsilent hnone hdata
        rcases hact with rfl | rfl
        · exact hoffer
        · rw [perform, Backlog.charged_of_no_pieces hnone, if_neg (by simp)]
          exact hoffer
      · exact (List.append_eq_nil_iff.mp (List.append_eq_nil_iff.mp h.1).2).1
  | stopSending hsoon =>
      rw [perform, peerStopsSending_silent hsilent]
      exact ⟨Arrivals.ready_of_ending nofun, nofun⟩
  | close hsoon =>
      have hended := endingAfterClose_ne_silence (!c.toPeer.bytes.isEmpty)
      rw [perform, peerClose_open hpeer hclient]
      exact ⟨Arrivals.ready_of_ending hended, fun h => hended h.2⟩

theorem Feeds.act_to_come {delay number act later}
    (h : c.Feeds timeout index ((delay, number, act) :: later) bytes e) :
    number = index ∧ Soon timeout delay ∧ c.blocking = true := by
  obtain - | ⟨hpeer, hblocks, hsilent, hpieces, hlater⟩ := h
  cases hlater with
  | send hsoon | stopSending hsoon | close hsoon => exact ⟨rfl, hsoon, hblocks⟩

theorem Feeds.prefix_bytes {coming} (h : c.Feeds timeout index coming bytes e) :
    c.toClient.bytes <+: bytes := by
  cases h with
  | there hcarries => simp only [hcarries.1, List.prefix_refl]
  | underWay => exact List.prefix_append _ _

theorem Feeds.carries (h : c.Feeds timeout index [] bytes e) : c.toClient.Carries bytes e := by
  cases h with
  | there hcarries => exact hcarries
  | underWay _ _ hsilent _ hlater =>
      cases hlater
      rw [List.append_nil]
      exact ⟨rfl, hsilent⟩

theorem Feeds.not_nothing {coming} (h : c.Feeds timeout index coming bytes e)
    (hready : c.toClient.ready = true) : ¬ (bytes = [] ∧ e = .silence) := by
  rintro ⟨hnone, rfl⟩
  rw [← Bool.not_eq_false, Arrivals.ready_eq_false_iff] at hready
  apply hready
  cases h with
  | there hcarries =>
      rw [hcarries.1]
      exact ⟨hnone, hcarries.2⟩
  | underWay _ _ hsilent => exact ⟨(List.append_eq_nil_iff.mp hnone).1, hsilent⟩

theorem Feeds.nothing (h : c.Feeds timeout index [] bytes e)
    (hready : c.toClient.ready = false) : bytes = [] ∧ e = .silence := by
  obtain ⟨hnone, hsilent⟩ := (Arrivals.ready_eq_false_iff _).mp hready
  obtain ⟨hbytes, hend⟩ := h.carries
  rw [← hbytes, ← hend]
  exact ⟨hnone, hsilent⟩

/-- If there is something to tell or nothing more to happen, the next bytes lie
in the channel, or nothing does and the end is what it tells. -/
theorem Feeds.settled {coming} (h : c.Feeds timeout index coming bytes e)
    (hsettled : c.toClient.ready = true ∨ coming = []) :
    (bytes ≠ [] → c.toClient.bytes ≠ []) ∧
      (bytes = [] → coming = [] ∧ c.toClient.Carries [] e) := by
  cases h with
  | there hcarries =>
      rw [hcarries.1]
      refine ⟨id, ?_⟩
      rintro rfl
      exact ⟨rfl, hcarries⟩
  | @underWay later owed e hpeer hblocks hsilent hpieces hlater =>
      rcases hsettled with hready | rfl
      · have hthere : c.toClient.bytes ≠ [] := by
          intro hnone
          rw [← Bool.not_eq_false, Arrivals.ready_eq_false_iff] at hready
          exact hready ⟨hnone, hsilent⟩
        exact ⟨fun _ => hthere, fun h => absurd (List.append_eq_nil_iff.mp h).1 hthere⟩
      · have hcarries := Feeds.carries (.underWay hpeer hblocks hsilent hpieces hlater)
        refine ⟨?_, fun hnone => ⟨rfl, ?_⟩⟩
        · rw [← hcarries.1]
          exact id
        · rwa [hnone] at hcarries

theorem Feeds.idle {delay number act later}
    (h : c.Feeds timeout index ((delay, number, act) :: later) bytes e)
    (hready : c.toClient.ready = false) (room : Nat) :
    ∃ a, c.toClient.receive room = (.error .wouldBlock, a) ∧ a.ready = false ∧
      ({ c with toClient := a } : Channel).Feeds timeout index
        ((delay, number, act) :: later) bytes e := by
  obtain ⟨hnone, -⟩ := (Arrivals.ready_eq_false_iff _).mp hready
  obtain - | ⟨hpeer, hblocks, hsilent, hpieces, hlater⟩ := h
  obtain ⟨a, hreceive, ha⟩ := Arrivals.receive_none ⟨hnone, hsilent⟩ room
  have hpieces' := Arrivals.nil_notMem_receive hpieces room
  rw [hreceive] at hpieces'
  refine ⟨a, hreceive, (Arrivals.ready_eq_false_iff a).mpr ha, ?_⟩
  rw [hnone, ← ha.1]
  exact .underWay hpeer hblocks ha.2 hpieces' hlater

theorem Feeds.received {coming} {room : Nat} (h : c.Feeds timeout index coming bytes e)
    (hthere : c.toClient.bytes ≠ []) (hroom : 0 < room) :
    ∃ data rest a, c.toClient.receive room = (.ok data, a) ∧ data ++ rest = bytes ∧
      data ≠ [] ∧ data.length ≤ room ∧
      ({ c with toClient := a } : Channel).Feeds timeout index coming rest e := by
  cases h with
  | there hcarries =>
      obtain ⟨data, rest, a, hreceive, hbytes, hdata, hfits, ha⟩ :=
        Arrivals.receive_some hcarries (by rwa [hcarries.1] at hthere) hroom
      exact ⟨data, rest, a, hreceive, hbytes, hdata, hfits, .there ha⟩
  | @underWay later owed e hpeer hblocks hsilent hpieces hlater =>
      obtain ⟨data, rest, a, hreceive, hbytes, hdata, hfits, ha, hsilent'⟩ :=
        Arrivals.receive_some ⟨rfl, hsilent⟩ hthere hroom
      have hpieces' := Arrivals.nil_notMem_receive hpieces room
      rw [hreceive] at hpieces'
      refine ⟨data, rest ++ owed, a, hreceive, ?_, hdata, hfits, ?_⟩
      · rw [← hbytes, List.append_assoc]
      · rw [← ha]
        exact .underWay hpeer hblocks hsilent' hpieces' hlater

end Channel

namespace Host

/-! ## A descriptor on a machine where the peer goes on -/

/-- A descriptor that can be waited for refers to this channel. -/
structure Refers (fd index : Nat) (c : Channel) (h : Host) : Prop where
  waits : h.limit ≠ some 0
  descriptor : h.descriptors.lookup fd = some (.channel index)
  channel : h.channels[index]? = some c

/-- A machine and what is to happen on it bring a descriptor these bytes and
this end. -/
def Delivers (fd : Nat) (timeout : Int) (h : Host) (coming : List (Nat × Nat × PeerAct))
    (bytes : Bytes) (e : Ending) : Prop :=
  ∃ index c, Refers fd index c h ∧ c.clientOpen = true ∧ c.Feeds timeout index coming bytes e

variable {fd index : Nat} {c c' : Channel} {h : Host} {timeout : Int} {bytes : Bytes} {e : Ending}
  {coming : List (Nat × Nat × PeerAct)}

theorem Refers.update (hc : Refers fd index c h) (c' : Channel) :
    Refers fd index c' (h.updateChannel index fun _ => c') where
  waits := hc.waits
  descriptor := hc.descriptor
  channel := by
    rw [updateChannel, List.getElem?_modify, hc.channel]
    simp

theorem Refers.readiness_eq (hc : Refers fd index c h) :
    h.readiness (some fd) = if c.toClient.ready then .ready else .expired := by
  rw [readiness, if_neg hc.waits]
  simp only [hc.descriptor, hc.channel]

theorem Refers.ready (hc : Refers fd index c h) (hready : h.readiness (some fd) = .ready) :
    c.toClient.ready = true := by
  rw [hc.readiness_eq] at hready
  simpa using hready

theorem Refers.perform_eq (hc : Refers fd index c h) (act : PeerAct) :
    h.perform (index, act) =
      ((c.perform act).1.map (index, ·), h.updateChannel index fun _ => (c.perform act).2) := by
  rw [perform]
  simp only [hc.channel]

theorem Refers.receive_eq (hc : Refers fd index c h) (room : Nat) :
    h.receive (some fd) room =
      ((c.toClient.receive room).1,
        h.updateChannel index fun _ => { c with toClient := (c.toClient.receive room).2 }) :=
  receive_channel hc.descriptor hc.channel rfl

theorem Refers.blocks_eq (hc : Refers fd index c h) : h.blocks (some fd) = c.blocking := by
  rw [blocks, handle?, Option.bind_some]
  simp only [hc.descriptor, hc.channel, Option.any_some]

theorem delivers_perform {delay act} {later}
    (hp : Delivers fd timeout h ((delay, act) :: later) bytes e) :
    ∃ left s, h.perform act = (left, s) ∧
      Delivers fd timeout s (left.toList.map (0, ·) ++ later) bytes e ∧
      (h.readiness (some fd) ≠ .ready →
        s.readiness (some fd) = .ready ∧ ¬ (bytes = [] ∧ e = .silence)) := by
  obtain ⟨index, c, hc, hopen, hfeeds⟩ := hp
  obtain ⟨number, act⟩ := act
  obtain ⟨rfl, -, -⟩ := hfeeds.act_to_come
  obtain ⟨left, c', hperform, hopen', hfeeds'⟩ := Channel.perform_feeds hopen hfeeds
  have hc' := hc.update c'
  rw [hc.perform_eq, hperform]
  refine ⟨_, _, rfl, ⟨number, c', hc', hopen', ?_⟩, ?_⟩
  · cases left <;> exact hfeeds'
  · intro hidle
    have hready : c.toClient.ready = false := by
      rw [hc.readiness_eq] at hidle
      simpa using hidle
    obtain ⟨htold, hsome⟩ := Channel.perform_ready hopen hfeeds hready
    rw [hperform] at htold
    rw [hc'.readiness_eq, if_pos htold]
    exact ⟨rfl, hsome⟩

theorem delivers_catchUp : ∀ (coming : List (Nat × Nat × PeerAct)) {h : Host},
    Delivers fd timeout h coming bytes e →
      Delivers fd timeout (Paced.catchUp perform h coming).now
        (Paced.catchUp perform h coming).coming bytes e := by
  intro coming
  induction coming with
  | nil => exact fun hp => hp
  | cons event later ih =>
      intro h hp
      obtain ⟨delay, act⟩ := event
      cases delay with
      | succ delay => exact hp
      | zero =>
          obtain ⟨left, s, hperform, hs, -⟩ := delivers_perform hp
          rw [Paced.catchUp, hperform]
          cases left with
          | none => exact ih hs
          | some left => exact hs

/-! ### Waiting -/

theorem stillReceiver_wait (fd : Option Nat) (timeout : Int) (h : Host) :
    (stillReceiver fd).wait timeout h = (h.readiness fd, h) := rfl

theorem stillReceiver_receive (fd : Option Nat) (w : Window) (h : Host) :
    (stillReceiver fd).receive w h = h.receive fd w.room := rfl

theorem wait_nil (h : Host) (fd : Option Nat) (timeout : Int) :
    Paced.wait (stillReceiver fd) perform timeout h [] = (h.readiness fd, ⟨h, []⟩) := rfl

theorem wait_ready (hready : h.readiness (some fd) = .ready) (timeout : Int)
    (coming : List (Nat × Nat × PeerAct)) :
    Paced.wait (stillReceiver (some fd)) perform timeout h coming =
      (.ready, Paced.catchUp perform h coming) := by
  have hwait : (stillReceiver (some fd)).wait timeout h = (.ready, h) := by
    rw [stillReceiver_wait, hready]
  exact Paced.wait_of_ended hwait nofun coming

theorem delivers_wait (hp : Delivers fd timeout h coming bytes e) (ht : 0 < timeout) :
    ∃ p, Paced.wait (stillReceiver (some fd)) perform timeout h coming =
        (if bytes = [] ∧ e = .silence then .expired else .ready, p) ∧
      Delivers fd timeout p.now p.coming bytes e := by
  obtain ⟨index, c, hc, hopen, hfeeds⟩ := id hp
  cases hready : c.toClient.ready with
  | true =>
      have htold : h.readiness (some fd) = .ready := by rw [hc.readiness_eq, if_pos hready]
      rw [if_neg (hfeeds.not_nothing hready), wait_ready htold]
      exact ⟨_, rfl, delivers_catchUp coming hp⟩
  | false =>
      have hidle : h.readiness (some fd) = .expired := by
        rw [hc.readiness_eq, hready]
        rfl
      cases coming with
      | nil =>
          rw [if_pos (hfeeds.nothing hready), wait_nil, hidle]
          exact ⟨_, rfl, hp⟩
      | cons event later =>
          -- The first act ends the wait: it gives the descriptor something to tell.
          obtain ⟨delay, act⟩ := event
          obtain ⟨left, s, hperform, hs, hgains⟩ := delivers_perform hp
          obtain ⟨htold, hsome⟩ := hgains (by rw [hidle]; nofun)
          have hsoon : (delay : Int) ≤ timeout := hfeeds.act_to_come.2.1 ht
          rw [if_neg hsome, Paced.wait]
          simp only [stillReceiver_wait, hidle, if_pos hsoon, hperform]
          cases left with
          | none => exact ⟨_, wait_ready htold _ _, delivers_catchUp later hs⟩
          | some left =>
              simp only [htold]
              exact ⟨_, rfl, hs⟩

/-! ### Receiving -/

theorem delivers_received {w : Window} (hp : Delivers fd timeout h coming bytes e)
    (hsettled : h.readiness (some fd) = .ready ∨ coming = []) (hne : bytes ≠ [])
    (hroom : 0 < w.room) :
    ∃ data rest s, h.receive (some fd) w.room = (.ok data, s) ∧ data ++ rest = bytes ∧
      data ≠ [] ∧ data.length ≤ w.room ∧ Delivers fd timeout s coming rest e := by
  obtain ⟨index, c, hc, hopen, hfeeds⟩ := hp
  have hthere := (hfeeds.settled (hsettled.imp_left hc.ready)).1 hne
  obtain ⟨data, rest, a, hreceive, hbytes, hdata, hfits, hfeeds'⟩ := hfeeds.received hthere hroom
  refine ⟨data, rest, _, ?_, hbytes, hdata, hfits, index, _,
    hc.update { c with toClient := a }, hopen, hfeeds'⟩
  rw [hc.receive_eq, hreceive]

theorem delivers_ended {w : Window} (hp : Delivers fd timeout h coming [] e)
    (hsettled : h.readiness (some fd) = .ready ∨ coming = []) :
    coming = [] ∧ ∃ s, h.receive (some fd) w.room = (e.answer, s) ∧
      Delivers fd timeout s [] [] e.afterwards := by
  obtain ⟨index, c, hc, hopen, hfeeds⟩ := hp
  obtain ⟨hnone, hcarries⟩ := (hfeeds.settled (hsettled.imp_left hc.ready)).2 rfl
  obtain ⟨a, hreceive, ha⟩ := Arrivals.receive_none hcarries w.room
  refine ⟨hnone, _, ?_, index, _, hc.update { c with toClient := a }, hopen, .there ha⟩
  rw [hc.receive_eq, hreceive]

theorem delivers_idle {delay act later} (hp : Delivers fd timeout h ((delay, act) :: later) bytes e)
    (hidle : h.readiness (some fd) ≠ .ready) (room : Nat) :
    ∃ s, h.receive (some fd) room = (.error .wouldBlock, s) ∧
      Delivers fd timeout s ((delay, act) :: later) bytes e ∧ s.blocks (some fd) = true ∧
      s.readiness (some fd) ≠ .ready := by
  obtain ⟨index, c, hc, hopen, hfeeds⟩ := hp
  obtain ⟨number, act⟩ := act
  have hready : c.toClient.ready = false := by
    rw [hc.readiness_eq] at hidle
    simpa using hidle
  obtain ⟨a, hreceive, hready', hfeeds'⟩ := hfeeds.idle hready room
  have hs := hc.update { c with toClient := a }
  refine ⟨_, ?_, ⟨index, _, hs, hopen, hfeeds'⟩, ?_, ?_⟩
  · rw [hc.receive_eq, hreceive]
  · rw [hs.blocks_eq]
    exact hfeeds.act_to_come.2.2
  · rw [hs.readiness_eq, hready']
    nofun

theorem receive_ready {w : Window} (hp : Delivers fd timeout h coming bytes e)
    (hready : h.readiness (some fd) = .ready) (hroom : 0 < w.room) :
    Paced.receive (stillReceiver (some fd)) perform (·.blocks (some fd)) w h coming =
      ((h.receive (some fd) w.room).1,
        Paced.catchUp perform (h.receive (some fd) w.room).2 coming) := by
  cases coming with
  | nil => rfl
  | cons event later =>
      have hne : bytes ≠ [] := by
        rintro rfl
        exact List.cons_ne_nil _ _ (delivers_ended (w := w) hp (Or.inl hready)).1
      obtain ⟨data, rest, s, hreceive, -⟩ := delivers_received hp (Or.inl hready) hne hroom
      have hstill : (stillReceiver (some fd)).receive w h = (.ok data, s) := hreceive
      rw [hreceive]
      exact Paced.receive_of_ended hstill nofun (event :: later)

/-- One who receives when there is nothing waits for the first act of the peer,
so there is a moment at which there is something, or nothing more to come. -/
theorem delivers_settles {w : Window} (hp : Delivers fd timeout h coming bytes e)
    (hroom : 0 < w.room) :
    ∃ s later, Delivers fd timeout s later bytes e ∧
      (s.readiness (some fd) = .ready ∨ later = []) ∧
      Paced.receive (stillReceiver (some fd)) perform (·.blocks (some fd)) w h coming =
        ((s.receive (some fd) w.room).1,
          Paced.catchUp perform (s.receive (some fd) w.room).2 later) := by
  by_cases hready : h.readiness (some fd) = .ready
  · exact ⟨h, coming, hp, Or.inl hready, receive_ready hp hready hroom⟩
  cases coming with
  | nil => exact ⟨h, [], hp, Or.inr rfl, rfl⟩
  | cons event later =>
      obtain ⟨delay, act⟩ := event
      obtain ⟨s, hreceive, hs, hblocks, hidle⟩ := delivers_idle hp hready w.room
      obtain ⟨left, s', hperform, hs', hgains⟩ := delivers_perform hs
      obtain ⟨htold, -⟩ := hgains hidle
      refine ⟨s', _, hs', Or.inl htold, ?_⟩
      rw [Paced.receive]
      simp only [stillReceiver_receive, hreceive, hblocks, if_true, hperform]
      cases left with
      | none => exact receive_ready hs' htold hroom
      | some left => rfl

theorem delivers_receive {w : Window} (hp : Delivers fd timeout h coming bytes e)
    (hne : bytes ≠ []) (hroom : 0 < w.room) :
    ∃ data rest p,
      Paced.receive (stillReceiver (some fd)) perform (·.blocks (some fd)) w h coming =
        (.ok data, p) ∧
      data ++ rest = bytes ∧ data ≠ [] ∧ data.length ≤ w.room ∧
      Delivers fd timeout p.now p.coming rest e := by
  obtain ⟨s, later, hs, hsettled, hreceive⟩ := delivers_settles (w := w) hp hroom
  obtain ⟨data, rest, s', hsome, hbytes, hdata, hfits, hs'⟩ :=
    delivers_received hs hsettled hne hroom
  rw [hreceive, hsome]
  exact ⟨data, rest, _, rfl, hbytes, hdata, hfits, delivers_catchUp later hs'⟩

theorem delivers_finish {w : Window} (hp : Delivers fd timeout h coming [] e)
    (hroom : 0 < w.room) :
    ∃ s, Paced.receive (stillReceiver (some fd)) perform (·.blocks (some fd)) w h coming =
        (e.answer, ⟨s, []⟩) ∧
      Delivers fd timeout s [] [] e.afterwards := by
  obtain ⟨s, later, hs, hsettled, hreceive⟩ := delivers_settles (w := w) hp hroom
  obtain ⟨rfl, s', hnone, hs'⟩ := delivers_ended (w := w) hs hsettled
  rw [hreceive, hnone]
  exact ⟨s', rfl, hs'⟩

/-! ### The descriptor -/

theorem receiver_wait (fd : Option Nat) (timeout : Int) (h : Host) :
    (receiver fd).wait timeout h =
      let after := Paced.wait (stillReceiver fd) perform timeout h h.coming
      (after.1, ofPaced after.2) := rfl

theorem receiver_receive (fd : Option Nat) (w : Window) (h : Host) :
    (receiver fd).receive w h =
      let after := Paced.receive (stillReceiver fd) perform (·.blocks fd) w h h.coming
      (after.1, ofPaced after.2) := rfl

theorem delivers_ofPaced {p : Paced Host (Nat × PeerAct)}
    (hp : Delivers fd timeout p.now coming bytes e) :
    Delivers fd timeout (ofPaced p) coming bytes e := by
  obtain ⟨index, c, ⟨hwaits, hfd, hc⟩, hfeeds⟩ := hp
  exact ⟨index, c, ⟨hwaits, hfd, hc⟩, hfeeds⟩

/-- The descriptor conveys what is delivered. -/
theorem deliveries_conveyed (timeout : Int) (fd : Nat) :
    (receiver (some fd)).Conveys timeout (fun h => Delivers fd timeout h h.coming) where
  wait := by
    intro h bytes e hp ht
    obtain ⟨p, hwait, hp'⟩ := delivers_wait hp ht
    rw [receiver_wait, hwait]
    exact ⟨_, rfl, delivers_ofPaced hp'⟩
  receive := by
    intro h bytes e w hp hne hroom
    obtain ⟨data, rest, p, hreceive, hbytes, hdata, hfits, hp'⟩ := delivers_receive hp hne hroom
    rw [receiver_receive, hreceive]
    exact ⟨data, rest, _, rfl, hbytes, hdata, hfits, delivers_ofPaced hp'⟩
  finish := by
    intro h e w hp hroom
    obtain ⟨s, hreceive, hs⟩ := delivers_finish hp hroom
    rw [receiver_receive, hreceive]
    exact ⟨_, rfl, delivers_ofPaced hs⟩

/-- A peer that sends any pieces over an empty channel, each in time, and then
does what ends the stream, or nothing, delivers these pieces and this end. -/
theorem sends_delivered {last : List (Nat × Nat × PeerAct)} (hc : Refers fd index c h)
    (hclient : c.clientOpen = true) (hpeer : c.peerOpen = true) (hblocks : c.blocking = true)
    (hsilent : c.toClient = .silent)
    (hlast : Channel.Owed timeout index (!c.toPeer.bytes.isEmpty) last [] e)
    (pieces : List (Nat × Bytes))
    (hpieces : ∀ p ∈ pieces, Channel.Soon timeout p.1 ∧ p.2 ≠ []) :
    Delivers fd timeout h (pieces.map (fun p => (p.1, index, .send p.2)) ++ last)
      (pieces.flatMap (·.2)) e := by
  have howed : Channel.Owed timeout index (!c.toPeer.bytes.isEmpty)
      (pieces.map (fun p => (p.1, index, .send p.2)) ++ last) (pieces.flatMap (·.2)) e := by
    induction pieces with
    | nil => exact hlast
    | cons p rest ih =>
        obtain ⟨hsoon, hdata⟩ := hpieces p List.mem_cons_self
        exact .send hsoon (Or.inl rfl) hdata
          (ih fun q hq => hpieces q (List.mem_cons_of_mem p hq))
  have hfeeds := Channel.Feeds.underWay hpeer hblocks (by rw [hsilent]; rfl)
    (by rw [hsilent]; nofun) howed
  rw [show c.toClient.bytes = [] by rw [hsilent]; rfl] at hfeeds
  exact ⟨index, c, hc, hclient, hfeeds⟩

end Host

end DaemonLink
