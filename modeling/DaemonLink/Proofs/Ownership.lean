import DaemonLink.Proofs.SessionCustody

/-!
# Every descriptor has one owner, and is closed once

This is the account of descriptors that a session gives. It has two halves.
One is about a single step, from any state a run can reach: what the connection
that ends has held is closed, everything else that is held goes on to be held,
and nothing is closed besides. The other follows one descriptor through a run.
From the step in which it comes into the session it is either with exactly one
connection, open and never closed so far, or it has been closed exactly once
and no connection knows it. A descriptor that is nowhere would be a leak, and
one that is closed twice may by then be someone else's; neither is left as a
possibility.

Both go by what is known of releases and moves. Only the attempts to connect
need a look at their answers, since a socket is made before it is known whether
it will be kept.
-/

namespace DaemonLink

namespace Session

/-- The number under which a connection's descriptor is found after a step that
does not close it. -/
def heir (s : Session) (a : Step) (c : Nat) : Nat :=
  match a with
  | .moveNew d source | .moveAssign d source =>
      if (s.ended a).isSome && c = source then d else c
  | _ => c

/-- A descriptor comes into a session: it is adopted, or its number is handed
out in an attempt to connect, whatever comes of the attempt. -/
def Acquires (s : Session) (a : Step) (fd : Nat) : Prop :=
  match a with
  | .adopt c given => given = some fd ∧ (s.get? c).isSome = true
  | .connect _ _ => s.host.next ≤ fd ∧ fd < (s.step a).session.host.next
  | _ => False

/-- What a step does to each descriptor. -/
structure Accounts (s : Session) (a : Step) : Prop where
  /-- What the connection that ends has held is closed. -/
  closing : ∀ {c fd}, s.ended a = some c → s.held c = some fd →
    (s.step a).session.custody.Spent fd
  /-- What any other connection holds goes on to be held. -/
  keeping : ∀ {c fd}, s.ended a ≠ some c → s.held c = some fd →
    (s.step a).session.custody.Owns (s.heir a c) fd
  /-- Nothing else that is open is closed. -/
  sparing : ∀ {fd}, s.host.isOpen fd = true →
    (∀ c, s.ended a = some c → s.held c ≠ some fd) →
    (s.step a).session.host.isOpen fd = true
  adopting : ∀ {c fd}, a = .adopt c (some fd) → (s.get? c).isSome = true →
    (s.step a).session.custody.Owns c fd
  /-- An attempt that succeeds leaves the connection with a new descriptor. -/
  connecting : ∀ {c path}, a = .connect c path → (s.step a).answer = .outcome .done →
    (s.step a).session.custody.Owns c s.host.next
  /-- An attempt that fails leaves nothing open that was not open before. -/
  refusing : ∀ {c path}, a = .connect c path → (s.step a).answer ≠ .outcome .done →
    (s.step a).session.held c = none ∧
    (∀ fd, s.host.next ≤ fd → fd < (s.step a).session.host.next →
      (s.step a).session.custody.Spent fd) ∧
    ∀ fd, (s.step a).session.host.isOpen fd = true → s.host.isOpen fd = true
  /-- A connection that is moved from is left with nothing. -/
  moving : ∀ {c source}, a = .moveNew c source ∨ a = .moveAssign c source →
    s.ended a = some c →
    (s.step a).session.held c = s.held source ∧ (s.step a).session.held source = none
  /-- To close or destroy a connection that holds nothing closes nothing. -/
  idle : ∀ {c}, a = .close c ∨ a = .destroy c → s.held c = none →
    (s.step a).session.custody = s.custody

variable {s : Session} {a : Step}

theorem heir_eq (s : Session) (a : Step) (c : Nat) :
    (s.dealings a).foldl (fun n m => m.heir n) c = s.heir a c := by
  cases a with
  | moveNew d source | moveAssign d source =>
      simp only [dealings, heir]
      split
      · next h => simp [h, Custody.Move.heir]
      · next h => simp [h]
  | adopt d fd =>
      cases fd with
      | none => rfl
      | some fd =>
          simp only [dealings, heir]
          split <;> rfl
  | connect d path =>
      simp only [dealings, heir]
      split
      · rfl
      · split <;> rfl
  | happen what => cases what <;> rfl
  | create | destroy | close | execute | awaitReply | fail | setOptions | setSink
  | deliver => rfl

theorem keeping_step (hs : s.custody.Sound) (ha : s.Permits a) {c fd : Nat}
    (hended : s.ended a ≠ some c) (hc : s.held c = some fd) :
    (s.step a).session.custody.Owns (s.heir a c) fd := by
  have hkept : (s.custody.release (s.ended a)).holds c = some fd := by
    rw [Custody.release_holds_other hended]
    exact hc
  have hheld := Custody.afterAll_holds (admits_dealings hs ha) hkept
  rw [← custody_step ha, heir_eq] at hheld
  exact (sound_step hs ha).owns hheld

/-- Only a number that has just been handed out is thrown away. -/
theorem discarded_is_next {fd : Nat} (h : .discard fd ∈ s.dealings a) :
    fd = s.host.next := by
  cases a with
  | connect c path =>
      simp only [dealings] at h
      split at h
      · simp at h
      · split at h
        · simp at h
        · simpa using h
  | moveNew c source | moveAssign c source =>
      simp only [dealings] at h
      split at h <;> simp at h
  | adopt c given =>
      cases given with
      | none => simp [dealings] at h
      | some given =>
          simp only [dealings] at h
          split at h <;> simp at h
  | happen what => cases what <;> simp [dealings] at h
  | create | destroy | close | execute | awaitReply | fail | setOptions | setSink
  | deliver => simp [dealings] at h

theorem sparing_step (hs : s.custody.Sound) (ha : s.Permits a) {fd : Nat}
    (hopen : s.host.isOpen fd = true)
    (hspared : ∀ c, s.ended a = some c → s.held c ≠ some fd) :
    (s.step a).session.host.isOpen fd = true := by
  have hrest : .discard fd ∉ s.dealings a := by
    intro h
    have hfresh : fd < s.host.next := hs.table.fresh hopen
    have hnext := discarded_is_next h
    omega
  have hkept := Custody.release_isOpen (k := s.custody) hopen hspared
  have hafter := Custody.afterAll_isOpen hkept hrest
  rwa [← custody_step ha] at hafter

theorem connected_next {c : Nat} {path : Bytes}
    (hdone : (s.step (.connect c path)).answer = .outcome .done) :
    (s.step (.connect c path)).session.host.next = s.host.next + 1 := by
  have hcustody := custody_step (s := s) (a := .connect c path) trivial
  simp only [dealings, if_pos hdone] at hcustody
  have hreleased := release_next_host s c
  show (s.step (.connect c path)).session.custody.table.next = _
  rw [hcustody]
  show (s.custody.release (some c)).table.next + 1 = _
  rw [hreleased]

theorem adopting_step (hs : s.custody.Sound) {c fd : Nat}
    (ha : s.Permits (.adopt c (some fd))) (hc : (s.get? c).isSome = true) :
    (s.step (.adopt c (some fd))).session.custody.Owns c fd := by
  refine (sound_step hs ha).owns ?_
  rw [custody_step ha]
  simp only [dealings, if_pos hc]
  exact if_pos rfl

theorem connecting_step (hs : s.custody.Sound) {c : Nat} {path : Bytes}
    (hdone : (s.step (.connect c path)).answer = .outcome .done) :
    (s.step (.connect c path)).session.custody.Owns c s.host.next := by
  have ha : s.Permits (.connect c path) := trivial
  refine (sound_step hs ha).owns ?_
  rw [custody_step ha]
  simp only [dealings, if_pos hdone]
  exact if_pos rfl

/-- An attempt to connect that fails is a release, and perhaps a socket made and
thrown away. -/
theorem refused_custody {c : Nat} {path : Bytes}
    (hfailed : (s.step (.connect c path)).answer ≠ .outcome .done) :
    ((s.step (.connect c path)).session.host.next = s.host.next ∧
      (s.step (.connect c path)).session.custody = s.custody.release (some c)) ∨
    ((s.step (.connect c path)).session.host.next = s.host.next + 1 ∧
      (s.step (.connect c path)).session.custody =
        ((s.custody.release (some c)).after .make).after (.discard s.host.next)) := by
  have hcustody := custody_step (s := s) (a := .connect c path) trivial
  simp only [dealings, if_neg hfailed] at hcustody
  by_cases hsame : (s.step (.connect c path)).session.host.next = s.host.next
  · rw [if_pos hsame] at hcustody
    exact Or.inl ⟨hsame, hcustody⟩
  · rw [if_neg hsame] at hcustody
    refine Or.inr ⟨?_, hcustody⟩
    show (s.step (.connect c path)).session.custody.table.next = _
    rw [hcustody]
    show (s.custody.release (some c)).table.next + 1 = _
    rw [release_next_host]

theorem refusing_step (hs : s.custody.Sound) {c : Nat} {path : Bytes}
    (hfailed : (s.step (.connect c path)).answer ≠ .outcome .done) :
    (s.step (.connect c path)).session.held c = none ∧
    (∀ fd, s.host.next ≤ fd → fd < (s.step (.connect c path)).session.host.next →
      (s.step (.connect c path)).session.custody.Spent fd) ∧
    ∀ fd, (s.step (.connect c path)).session.host.isOpen fd = true →
      s.host.isOpen fd = true := by
  have hgone := Custody.release_holds (k := s.custody) c
  show _ ∧ _ ∧ ∀ fd,
    (s.step (.connect c path)).session.custody.table.isOpen fd = true → _
  rcases refused_custody hfailed with ⟨hnext, hcustody⟩ | ⟨hnext, hcustody⟩
  · rw [held_of_custody hcustody]
    refine ⟨hgone, ?_, ?_⟩
    · intro fd hlow hhigh
      omega
    · intro fd h
      rw [hcustody] at h
      exact Custody.isOpen_of_release h
  · rw [held_of_custody hcustody]
    refine ⟨hgone, ?_, ?_⟩
    · intro fd hlow hhigh
      obtain rfl : fd = s.host.next := by omega
      rw [hcustody]
      exact ((hs.release _).after (m := .make) trivial).discard_spent (admits_discard hs c)
    · intro fd h
      rw [hcustody, ← release_next_host s c] at h
      exact Custody.isOpen_of_release (DescriptorTable.isOpen_of_close_grow h)

theorem moving_of_pass {c source : Nat} (hne : c ≠ source)
    (hcustody : (s.step a).session.custody =
      (s.custody.release (some c)).after (.pass c source)) :
    (s.step a).session.held c = s.held source ∧ (s.step a).session.held source = none := by
  have hheld := held_of_custody hcustody
  have hsource : (s.custody.release (some c)).holds source = s.held source :=
    Custody.release_holds_other fun h => hne (Option.some.inj h)
  constructor
  · rw [hheld c, ← hsource]
    show (if c = source then none else if c = c then _ else _) = _
    rw [if_neg hne, if_pos rfl]
  · rw [hheld source]
    exact if_pos rfl

theorem moving_step (ha : s.Permits a) {c source : Nat}
    (hmove : a = .moveNew c source ∨ a = .moveAssign c source)
    (hended : s.ended a = some c) :
    (s.step a).session.held c = s.held source ∧ (s.step a).session.held source = none := by
  have hne : c ≠ source := by
    rintro rfl
    rcases hmove with rfl | rfl <;> simp [ended] at hended
  have hdealings : s.dealings a = [.pass c source] := by
    rcases hmove with rfl | rfl <;> simp only [dealings, hended] <;> rfl
  have hcustody := custody_step ha
  rw [hended, hdealings] at hcustody
  exact moving_of_pass hne hcustody

theorem idle_step {c : Nat} (hstep : a = .close c ∨ a = .destroy c)
    (hc : s.held c = none) : (s.step a).session.custody = s.custody := by
  have hidle : s.custody.release (some c) = s.custody := Custody.release_idle hc
  rcases hstep with rfl | rfl
  · rw [custody_close, hidle]
  · rw [custody_destroy, hidle]

theorem accounts_step (hs : s.custody.Sound) (ha : s.Permits a) : s.Accounts a where
  closing := closing_step hs ha
  keeping := keeping_step hs ha
  sparing := sparing_step hs ha
  adopting := by
    rintro c fd rfl hc
    exact adopting_step hs ha hc
  connecting := by
    rintro c path rfl hdone
    exact connecting_step hs hdone
  refusing := by
    rintro c path rfl hfailed
    exact refusing_step hs hfailed
  moving := moving_step ha
  idle := idle_step

/-! ## Whole runs -/

theorem traced_step (hs : s.custody.Sound) (ha : s.Permits a) {fd : Nat}
    (h : s.custody.Traced fd) : (s.step a).session.custody.Traced fd := by
  rcases h with ⟨c, hc⟩ | h
  · by_cases hended : s.ended a = some c
    · exact Or.inr (closing_step hs ha hended hc.holds)
    · exact Or.inl ⟨_, keeping_step hs ha hended hc.holds⟩
  · exact Or.inr (spent_step hs ha h)

theorem acquired_traced (hs : s.custody.Sound) (ha : s.Permits a) {fd : Nat}
    (h : s.Acquires a fd) : (s.step a).session.custody.Traced fd := by
  cases a with
  | adopt c given =>
      obtain ⟨rfl, hc⟩ := h
      exact Or.inl ⟨c, adopting_step hs ha hc⟩
  | connect c path =>
      obtain ⟨hlow, hhigh⟩ := h
      by_cases hdone : (s.step (.connect c path)).answer = .outcome .done
      · obtain rfl : fd = s.host.next := by
          have hnext := connected_next hdone
          omega
        exact Or.inl ⟨c, connecting_step hs hdone⟩
      · exact Or.inr ((refusing_step hs hdone).2.1 fd hlow hhigh)
  | _ => exact h.elim

theorem traced_run {fd : Nat} {steps : List Step} (hs : s.custody.Sound)
    (h : s.custody.Traced fd) (hlegal : s.Legal steps) :
    (s.run steps).session.custody.Traced fd :=
  (hlegal.preserves (P := fun s => s.custody.Sound ∧ s.custody.Traced fd)
    (fun _ _ h ha => ⟨sound_step h.1 ha, traced_step h.1 ha h.2⟩) ⟨hs, h⟩).2

theorem spent_of_no_connections {fd : Nat} (h : s.custody.Traced fd)
    (hnone : s.connections = []) : s.custody.Spent fd := by
  rcases h with ⟨c, hc⟩ | h
  · have hheld : s.held c = some fd := hc.holds
    rw [held, get?, hnone] at hheld
    cases hheld
  · exact h

/-- In every run, from the start of a machine on, each descriptor that comes
into the session has one owner until that owner ends, and is closed then. -/
theorem descriptors_have_one_owner {host : Host} (hhost : host.table.Consistent)
    {steps : List Step} (hlegal : (new host).Legal steps) :
    let s := ((new host).run steps).session
    (∀ c fd, s.held c = some fd → s.custody.Owns c fd) ∧
    s.host.closed.Nodup ∧
    (∀ a, s.Permits a → s.Accounts a) ∧
    ∀ before a after fd, steps = before ++ a :: after →
      ((new host).run before).session.Acquires a fd →
      s.custody.Traced fd ∧ (s.connections = [] → s.custody.Spent fd) := by
  have hsound := sound_run hhost hlegal
  refine ⟨fun c fd => hsound.owns, hsound.table.once, fun a => accounts_step hsound, ?_⟩
  rintro before a after fd rfl hacquires
  obtain ⟨hbefore, ha, hafter⟩ := hlegal.split
  have hs := sound_run hhost hbefore
  have htraced := traced_run (sound_step hs ha) (acquired_traced hs ha hacquires) hafter
  rw [run_append]
  exact ⟨htraced, spent_of_no_connections htraced⟩

/-- Two descriptors are adopted and one is moved over the other. A connection
that was moved from is then refused, and the rest is destroyed. -/
theorem descriptors_have_one_owner_after_replacement :
    let host := Host.new .bare FileTree.root
    let before : List Step := [.happen .channelAppears, .happen .channelAppears,
      .create 0 {}, .create 1 {}, .adopt 0 (some 3)]
    let after : List Step :=
      [.moveAssign 0 1, .connect 1 [atSign, 120], .destroy 0, .destroy 1]
    let steps := before ++ .adopt 1 (some 4) :: after
    host.table.Consistent ∧ (new host).Legal steps ∧
      ((new host).run steps).session.host.closed = [3, 5, 4] ∧
      ((new host).run steps).session.custody.Spent 4 := by
  intro host before after steps
  have hlegal : (new host).Legal steps := by
    refine ⟨trivial, trivial, trivial, trivial, ⟨by decide, ?_⟩, ⟨by decide, ?_⟩, trivial,
      trivial, trivial, trivial, trivial⟩
    · exact unheld_of_connections (by decide)
    · exact unheld_of_connections (by decide)
  have howned := descriptors_have_one_owner (Host.table_new _ _) hlegal
  have hend := howned.2.2.2 before (.adopt 1 (some 4)) after 4 rfl ⟨rfl, by decide⟩
  exact ⟨Host.table_new _ _, hlegal, by decide, hend.2 (by decide)⟩

end Session

end DaemonLink
