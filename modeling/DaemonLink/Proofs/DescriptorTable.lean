import DaemonLink.Host.Surroundings
import DaemonLink.Proofs.FrameReading
import DaemonLink.Table

/-!
# What happens to the table of descriptors

Of everything a machine does, three things touch its descriptors: one is
opened, one is closed, or a socket is connected, which changes what its
descriptor refers to and not that it is open. Waiting, receiving, and what
happens around the program leave the table as it is, except that a descriptor
may be given to the program. The table is what can be asked of descriptors:
which are open, which number comes next, and which have been closed, in order.
So all of this can be said by equations between tables.

A number is handed out once. On a table where this has been so from the start,
an open descriptor has never been closed, and none is closed twice as long as
only open ones are closed at all.
-/

namespace DaemonLink

/-- What can be asked of the descriptors of a machine. -/
structure DescriptorTable where
  isOpen : Nat → Bool
  next : Nat
  closed : List Nat

namespace DescriptorTable

/-- A descriptor is opened. -/
def grow (t : DescriptorTable) : DescriptorTable :=
  ⟨fun fd => fd == t.next || t.isOpen fd, t.next + 1, t.closed⟩

/-- A descriptor is closed. -/
def close (t : DescriptorTable) (fd : Nat) : DescriptorTable :=
  ⟨fun n => n != fd && t.isOpen n, t.next, t.closed ++ [fd]⟩

theorem isOpen_grow {t : DescriptorTable} {n : Nat} :
    t.grow.isOpen n = true ↔ n = t.next ∨ t.isOpen n = true := by
  simp only [grow, Bool.or_eq_true, beq_iff_eq]

theorem isOpen_close {t : DescriptorTable} {fd n : Nat} :
    (t.close fd).isOpen n = true ↔ n ≠ fd ∧ t.isOpen n = true := by
  simp only [close, Bool.and_eq_true, bne_iff_ne]

theorem not_isOpen_close {t : DescriptorTable} {fd n : Nat} :
    (t.close fd).isOpen n = false ↔ n = fd ∨ t.isOpen n = false := by
  simp only [close, Bool.and_eq_false_iff, bne_eq_false_iff_eq]

theorem mem_closed_close {t : DescriptorTable} {fd n : Nat} :
    n ∈ (t.close fd).closed ↔ n ∈ t.closed ∨ n = fd := by
  simp only [close, List.mem_append, List.mem_singleton]

theorem count_closed_close (t : DescriptorTable) (fd n : Nat) :
    (t.close fd).closed.count n = t.closed.count n + if fd = n then 1 else 0 := by
  simp only [close, List.count_append, List.count_singleton, beq_iff_eq]

/-- Opening a descriptor and closing it again opens nothing else. -/
theorem isOpen_of_close_grow {t : DescriptorTable} {fd : Nat}
    (h : (t.grow.close t.next).isOpen fd = true) : t.isOpen fd = true := by
  obtain ⟨hne, hgrown⟩ := isOpen_close.mp h
  exact (isOpen_grow.mp hgrown).resolve_left hne

/-- Numbers have been handed out in order, and what has been closed was open
and is so no more. -/
structure Consistent (t : DescriptorTable) : Prop where
  fresh : ∀ {fd}, t.isOpen fd = true → fd < t.next
  past : ∀ {fd}, fd ∈ t.closed → fd < t.next
  spent : ∀ {fd}, fd ∈ t.closed → t.isOpen fd = false
  once : t.closed.Nodup

namespace Consistent

variable {t : DescriptorTable}

theorem not_closed (ht : t.Consistent) {fd : Nat} (h : t.isOpen fd = true) :
    fd ∉ t.closed := by
  intro hmem
  rw [ht.spent hmem] at h
  cases h

theorem next_not_open (ht : t.Consistent) : t.isOpen t.next = false := by
  cases h : t.isOpen t.next with
  | false => rfl
  | true => exact absurd (ht.fresh h) (Nat.lt_irrefl _)

theorem grow (ht : t.Consistent) : t.grow.Consistent where
  fresh := by
    intro fd h
    rcases isOpen_grow.mp h with rfl | h
    · exact Nat.lt_succ_self _
    · exact Nat.lt_succ_of_lt (ht.fresh h)
  past := fun h => Nat.lt_succ_of_lt (ht.past h)
  spent := by
    intro fd h
    have hne : fd ≠ t.next := Nat.ne_of_lt (ht.past h)
    simp only [DescriptorTable.grow, Bool.or_eq_false_iff, beq_eq_false_iff_ne]
    exact ⟨hne, ht.spent h⟩
  once := ht.once

theorem close (ht : t.Consistent) {fd : Nat} (hfd : t.isOpen fd = true) :
    (t.close fd).Consistent where
  fresh := by
    intro n h
    exact ht.fresh (isOpen_close.mp h).2
  past := by
    intro n h
    rcases mem_closed_close.mp h with h | rfl
    · exact ht.past h
    · exact ht.fresh hfd
  spent := by
    intro n h
    rcases mem_closed_close.mp h with h | rfl
    · exact not_isOpen_close.mpr (Or.inr (ht.spent h))
    · exact not_isOpen_close.mpr (Or.inl rfl)
  once := by
    simp only [DescriptorTable.close]
    rw [List.nodup_append]
    refine ⟨ht.once, List.nodup_cons.mpr ⟨nofun, List.nodup_nil⟩, ?_⟩
    intro a ha b hb
    rw [List.mem_singleton] at hb
    subst hb
    rintro rfl
    exact ht.not_closed hfd ha

/-- An open descriptor that is closed has then been closed once. -/
theorem count_closed (ht : t.Consistent) {fd : Nat} (h : t.isOpen fd = true) :
    (t.close fd).closed.count fd = 1 := by
  rw [count_closed_close, List.count_eq_zero.mpr (ht.not_closed h), if_pos rfl]

end Consistent

end DescriptorTable

/-! ## The table of a machine -/

namespace Host

/-- The table of descriptors of a machine. -/
def table (h : Host) : DescriptorTable :=
  ⟨h.isOpen, h.next, h.closed⟩

theorem table_new (files : FileTree) (directory : NodeId) :
    (new files directory).table.Consistent where
  fresh := nofun
  past := nofun
  spent := nofun
  once := List.nodup_nil

theorem table_openHandle (h : Host) (x : Handle) :
    (h.openHandle x).2.table = h.table.grow := by
  simp only [table, DescriptorTable.grow, openHandle, DescriptorTable.mk.injEq, and_true]
  funext fd
  simp only [isOpen, List.lookup_cons]
  cases fd == h.next <;> rfl

theorem table_close (h : Host) (fd : Nat) : (h.close fd).table = h.table.close fd := by
  have hopen : (h.close fd).isOpen = fun n => n != fd && h.isOpen n := by
    funext n
    simp only [isOpen, close, lookup_filter_ne]
    by_cases hn : n = fd
    · simp [hn]
    · simp [hn]
  have hnext : (h.close fd).next = h.next := by
    simp only [close]
    split <;> rfl
  simp only [table, DescriptorTable.close, hopen, hnext]
  rfl

theorem table_openSocket {h h₁ : Host} {fd : Nat} (ho : h.openSocket = (.ok fd, h₁)) :
    fd = h.next ∧ h₁.table = h.table.grow := by
  simp only [openSocket] at ho
  split at ho
  · cases ho
    exact ⟨rfl, table_openHandle h .socket⟩
  · cases ho

theorem table_openSocket_error {h h₁ : Host} {e : SystemError}
    (ho : h.openSocket = (.error e, h₁)) : h₁ = h := by
  simp only [openSocket] at ho
  split at ho
  · cases ho
  · cases ho
    rfl

theorem isSome_lookup_map {α β : Type} [BEq α] (f : α × β → α × β)
    (hf : ∀ d, (f d).1 = d.1) (l : List (α × β)) (k : α) :
    ((l.map f).lookup k).isSome = (l.lookup k).isSome := by
  induction l with
  | nil => rfl
  | cons d rest ih =>
      rw [List.map_cons, List.lookup_cons, List.lookup_cons, hf d]
      cases k == d.1
      · exact ih
      · rfl

theorem table_connect (h : Host) (fd : Nat) (a : Address) :
    (h.connect fd a).2.table = h.table := by
  simp only [connect]
  split
  · rfl
  · rfl
  · simp only [table, DescriptorTable.mk.injEq, and_true]
    funext n
    exact isSome_lookup_map _ (fun d => by split <;> simp_all) _ _

/-! ## What leaves the table alone -/

theorem table_perform (act : Nat × PeerAct) (h : Host) :
    (perform act h).2.table = h.table := by
  simp only [perform]
  split <;> rfl

theorem table_receive (h : Host) (fd : Option Nat) (room : Nat) :
    (h.receive fd room).2.table = h.table := by
  simp only [receive]
  split
  · rfl
  · rfl
  · rfl
  · split <;> rfl

end Host

namespace Paced

variable {σ ε : Type} {P : σ → Prop} {r : Receiver σ} {perform : ε → σ → Option ε × σ}

theorem catchUp_keeps (hperform : ∀ event {s}, P s → P (perform event s).2) :
    ∀ (coming : List (Nat × ε)) {s : σ}, P s → P (catchUp perform s coming).now := by
  intro coming
  induction coming with
  | nil => exact fun hs => hs
  | cons event later ih =>
      obtain ⟨delay, event⟩ := event
      intro s hs
      cases delay with
      | succ delay => exact hs
      | zero =>
          have hnext := hperform event hs
          rw [catchUp]
          split
          · next h => rw [h] at hnext; exact ih hnext
          · next h => rw [h] at hnext; exact hnext

theorem wait_keeps (hr : r.Keeps P) (hperform : ∀ event {s}, P s → P (perform event s).2) :
    ∀ (coming : List (Nat × ε)) (timeout : Int) {s : σ}, P s →
      P (wait r perform timeout s coming).2.now := by
  intro coming
  induction coming with
  | nil => exact fun timeout _ hs => hr.wait timeout hs
  | cons event later ih =>
      obtain ⟨delay, event⟩ := event
      intro timeout s hs
      have hwait := hr.wait timeout hs
      rw [wait]
      split
      · next s₁ h =>
          rw [h] at hwait
          split
          · have hnext := hperform event hwait
            split
            · next h => rw [h] at hnext; exact ih _ hnext
            · next h => rw [h] at hnext; exact hr.wait _ hnext
          · exact hwait
      · next s₁ _ h =>
          rw [h] at hwait
          exact catchUp_keeps hperform _ hwait

theorem receive_keeps (hr : r.Keeps P) (hperform : ∀ event {s}, P s → P (perform event s).2)
    (blocks : σ → Bool) (w : Window) :
    ∀ (coming : List (Nat × ε)) {s : σ}, P s →
      P (receive r perform blocks w s coming).2.now := by
  intro coming
  induction coming with
  | nil => exact fun hs => hr.receive w hs
  | cons event later ih =>
      obtain ⟨delay, event⟩ := event
      intro s hs
      have hreceive := hr.receive w hs
      rw [receive]
      split
      · next s₁ h =>
          rw [h] at hreceive
          split
          · have hnext := hperform event hreceive
            split
            · next h => rw [h] at hnext; exact ih hnext
            · next h =>
                rw [h] at hnext
                exact catchUp_keeps hperform _ (hr.receive w hnext)
          · exact hreceive
      · next s₁ _ h =>
          rw [h] at hreceive
          exact catchUp_keeps hperform _ hreceive

end Paced

namespace Host

theorem stillReceiver_keeps (fd : Option Nat) (t : DescriptorTable) :
    (stillReceiver fd).Keeps fun h => h.table = t where
  wait := fun _ {_} hs => hs
  receive w h hs := by
    show (h.receive fd w.room).2.table = t
    rw [table_receive, hs]

theorem receiver_keeps (fd : Option Nat) (t : DescriptorTable) :
    (receiver fd).Keeps fun h => h.table = t where
  wait := fun timeout {h} hs =>
    Paced.wait_keeps (stillReceiver_keeps fd t)
      (fun act {h} hs => (table_perform act h).trans hs) h.coming timeout hs
  receive := fun w {h} hs =>
    Paced.receive_keeps (stillReceiver_keeps fd t)
      (fun act {h} hs => (table_perform act h).trans hs) (·.blocks fd) w h.coming hs

/-- Reading a frame closes nothing and opens nothing. -/
theorem table_readFrame (fd : Option Nat) (limits : FrameLimits) (h : Host) :
    (readFrame (receiver fd) limits h).2.table = h.table :=
  readFrame_keeps (receiver_keeps fd h.table) limits rfl

theorem table_catchUp (h : Host) : h.catchUp.table = h.table :=
  Paced.catchUp_keeps (P := fun g => g.table = h.table)
    (fun act {g} hg => (table_perform act g).trans hg) h.coming rfl

theorem table_settle (h : Host) : h.settle.table = h.table := by
  suffices hfold : ∀ (coming : List (Nat × Nat × PeerAct)) (g : Host),
      (coming.foldl (fun h act => h.updateChannel act.2.1 (·.after act.2.2)) g).table =
        g.table from hfold h.coming h
  intro coming
  induction coming with
  | nil => exact fun _ => rfl
  | cons act rest ih => exact fun g => ih _

theorem table_makeDirectory (h : Host) (path : Bytes) :
    (h.makeDirectory path).2.table = h.table := by
  simp only [makeDirectory]
  split
  · rfl
  · rfl
  · split <;> rfl

theorem table_makeEach (paths : List Bytes) :
    ∀ h : Host, (h.makeEach paths).2.table = h.table := by
  induction paths with
  | nil => exact fun _ => rfl
  | cons path rest ih =>
      intro h
      have hone := table_makeDirectory h path
      simp only [makeEach]
      split
      · next hmade =>
          rw [hmade] at hone
          rw [ih, hone]
      · next hmade =>
          rw [hmade] at hone
          exact hone

theorem table_makeDirectories (h : Host) (path : Bytes) :
    (h.makeDirectories path).2.table = h.table := by
  simp only [makeDirectories]
  split
  · rfl
  · split
    · rfl
    · rfl
    · split
      · rfl
      · split
        · rfl
        · exact table_makeEach _ h

theorem table_place (h : Host) (path : Bytes) (node : Node) :
    (h.place path node).table = h.table := by
  simp only [place]
  split <;> rfl

theorem table_placeFile (h : Host) (path data : Bytes) :
    (h.placeFile path data).table = h.table := by
  simp only [placeFile]
  split
  · rfl
  · split <;> rfl
  · rfl

theorem table_placeLink (h : Host) (path target : Bytes) :
    (h.placeLink path target).table = h.table := by
  simp only [placeLink]
  split
  · rfl
  · exact table_place h path _

theorem table_bindSocket (h : Host) (path : Bytes) (style : SocketStyle) :
    (h.bindSocket path style).table = h.table := by
  simp only [bindSocket]
  split
  · rfl
  · split
    · rfl
    · exact table_place h _ _

/-- Nothing that happens around the program closes a descriptor, and only a
channel that appears opens one. -/
theorem table_after (h : Host) (what : Happening) :
    (h.after what).table = if what = .channelAppears then h.table.grow else h.table := by
  cases what with
  | channelAppears => exact table_openHandle _ _
  | peerActs | peerDrains | peerTakes | limitChanges => rfl
  | peerBegins channel plan => exact table_catchUp _
  | peersFinish => exact table_settle h
  | directoryAppears path => exact table_makeDirectories h path
  | fileAppears path data =>
      simp only [after, table_placeFile]
      split
      · rfl
      · exact table_makeDirectories h _
  | linkAppears path target => exact table_placeLink h path target
  | deviceAppears path => exact table_place h path .device
  | socketAppears path style => exact table_bindSocket h path style

end Host

end DaemonLink
