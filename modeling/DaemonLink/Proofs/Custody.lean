import DaemonLink.Proofs.SessionSteps

/-!
# The custody of descriptors

What a session does to descriptors is a matter of who holds which and of the
table, and nothing else about a connection plays a part. Every step comes down
to the same two things: at most one connection gives up what it holds, which is
then closed, and after that descriptors are opened, taken, passed on or thrown
away. The order is what makes it safe. What is given up is closed before
anything new is taken, so a move never meets an owner that still has something.

The moves are admitted only where they lose nothing: nothing is taken by one
who holds something, or from one who holds it, and only what nobody holds is
thrown away. That is enough for the three facts below, each of which is proved
move by move: descriptors stay with one holder, one that is held and not given
up is held on, and one that has been given up stays closed for good.
-/

namespace DaemonLink

/-- Who holds which descriptor, and the table of descriptors. -/
@[ext]
structure Custody where
  holds : Nat → Option Nat
  table : DescriptorTable

namespace Custody

/-- What is done with a descriptor besides giving it up. -/
inductive Move
  | take (c fd : Nat)
  | pass (c source : Nat)
  | make
  | discard (fd : Nat)

/-- At most one holder gives up what it holds. -/
def release (k : Custody) : Option Nat → Custody
  | none => k
  | some c => ⟨fun n => if n = c then none else k.holds n, k.table.release (k.holds c)⟩

def after (k : Custody) : Move → Custody
  | .take c fd => ⟨fun n => if n = c then some fd else k.holds n, k.table⟩
  | .pass c source =>
      ⟨fun n => if n = source then none else if n = c then k.holds source else k.holds n,
        k.table⟩
  | .make => ⟨k.holds, k.table.grow⟩
  | .discard fd => ⟨k.holds, k.table.close fd⟩

/-- Nothing is lost by a move. -/
def Admits (k : Custody) : Move → Prop
  | .take c fd => k.holds c = none ∧ k.table.isOpen fd = true ∧ ∀ n, k.holds n ≠ some fd
  | .pass c source => k.holds c = none ∧ c ≠ source
  | .make => True
  | .discard fd => k.table.isOpen fd = true ∧ ∀ n, k.holds n ≠ some fd

/-- The one who holds after a move what `c` held before it. -/
def Move.heir (c : Nat) : Move → Nat
  | .pass d source => if c = source then d else c
  | _ => c

/-- What is held is open, and held by one only. -/
structure Sound (k : Custody) : Prop where
  table : k.table.Consistent
  kept : ∀ {c fd}, k.holds c = some fd → k.table.isOpen fd = true
  apart : ∀ {c d fd}, k.holds c = some fd → k.holds d = some fd → c = d

/-- A descriptor is held by one and nobody else, and is open as it has been since
its number was handed out. -/
structure Owns (k : Custody) (c fd : Nat) : Prop where
  holds : k.holds c = some fd
  alone : ∀ d, k.holds d = some fd → d = c
  isOpen : k.table.isOpen fd = true
  unclosed : fd ∉ k.table.closed

/-- A descriptor has been given up: it has been closed once, and is nobody's. -/
structure Spent (k : Custody) (fd : Nat) : Prop where
  unheld : ∀ c, k.holds c ≠ some fd
  shut : k.table.isOpen fd = false
  once : k.table.closed.count fd = 1

/-- It is known where a descriptor is. -/
def Traced (k : Custody) (fd : Nat) : Prop :=
  (∃ c, k.Owns c fd) ∨ k.Spent fd

theorem Spent.mem {k : Custody} {fd : Nat} (h : k.Spent fd) : fd ∈ k.table.closed :=
  List.count_pos_iff.mp (by rw [h.once]; exact Nat.one_pos)

variable {k : Custody}

theorem Sound.owns (hk : k.Sound) {c fd : Nat} (h : k.holds c = some fd) : k.Owns c fd where
  holds := h
  alone := fun _ hd => hk.apart hd h
  isOpen := hk.kept h
  unclosed := hk.table.not_closed (hk.kept h)

/-! ## Giving up -/

theorem release_holding {c fd : Nat} (h : k.holds c = some fd) :
    k.release (some c) =
      ⟨fun n => if n = c then none else k.holds n, k.table.close fd⟩ := by
  simp only [release, h, DescriptorTable.release]

/-- One who holds nothing has nothing to give up. -/
theorem release_idle {c : Nat} (h : k.holds c = none) : k.release (some c) = k := by
  simp only [release, h, DescriptorTable.release]
  refine Custody.ext (funext fun n => ?_) rfl
  simp only
  split
  · next hn => rw [hn, h]
  · rfl

theorem release_holds (c : Nat) : (k.release (some c)).holds c = none :=
  if_pos rfl

theorem holds_of_release {who : Option Nat} {c fd : Nat}
    (h : (k.release who).holds c = some fd) : k.holds c = some fd ∧ who ≠ some c := by
  cases who with
  | none => exact ⟨h, nofun⟩
  | some d =>
      simp only [release] at h
      split at h
      · cases h
      · next hne => exact ⟨h, fun heq => hne (Option.some.inj heq).symm⟩

theorem release_holds_none {c : Nat} (h : k.holds c = none) (who : Option Nat) :
    (k.release who).holds c = none := by
  cases hc : (k.release who).holds c with
  | none => rfl
  | some fd =>
      rw [(holds_of_release hc).1] at h
      cases h

theorem release_holds_other {who : Option Nat} {c : Nat} (h : who ≠ some c) :
    (k.release who).holds c = k.holds c := by
  cases who with
  | none => rfl
  | some d =>
      have hne : c ≠ d := by
        rintro rfl
        exact h rfl
      exact if_neg hne

/-- What is not given up stays open. -/
theorem release_isOpen {who : Option Nat} {fd : Nat} (hopen : k.table.isOpen fd = true)
    (h : ∀ c, who = some c → k.holds c ≠ some fd) :
    (k.release who).table.isOpen fd = true := by
  cases who with
  | none => exact hopen
  | some c =>
      have hne := h c rfl
      simp only [release]
      cases hc : k.holds c with
      | none => exact hopen
      | some other =>
          rw [hc] at hne
          have hother : fd ≠ other := by
            rintro rfl
            exact hne rfl
          exact DescriptorTable.isOpen_close.mpr ⟨hother, hopen⟩

theorem isOpen_of_release {who : Option Nat} {fd : Nat}
    (h : (k.release who).table.isOpen fd = true) : k.table.isOpen fd = true := by
  cases who with
  | none => exact h
  | some c =>
      simp only [release] at h
      cases hc : k.holds c with
      | none => rwa [hc] at h
      | some other =>
          rw [hc] at h
          exact (DescriptorTable.isOpen_close.mp h).2

@[simp] theorem release_next (who : Option Nat) :
    (k.release who).table.next = k.table.next := by
  cases who with
  | none => rfl
  | some c => exact DescriptorTable.release_next _ _

theorem Sound.release (hk : k.Sound) (who : Option Nat) : (k.release who).Sound where
  table := by
    cases who with
    | none => exact hk.table
    | some c =>
        cases hc : k.holds c with
        | none => rw [release_idle hc]; exact hk.table
        | some fd => rw [release_holding hc]; exact hk.table.close (hk.kept hc)
  kept := by
    intro c fd h
    obtain ⟨hold, hwho⟩ := holds_of_release h
    refine release_isOpen (hk.kept hold) ?_
    intro d hd hheld
    have hsame : d = c := hk.apart hheld hold
    exact hwho (by rw [← hsame, hd])
  apart := fun h h' => hk.apart (holds_of_release h).1 (holds_of_release h').1

/-- What is given up is closed, once and for the first time. -/
theorem Sound.release_spent (hk : k.Sound) {c fd : Nat} (h : k.holds c = some fd) :
    (k.release (some c)).Spent fd where
  unheld := by
    intro d hd
    obtain ⟨hold, hne⟩ := holds_of_release hd
    have hsame : c = d := hk.apart h hold
    exact hne (by rw [hsame])
  shut := by
    rw [release_holding h]
    exact DescriptorTable.not_isOpen_close.mpr (Or.inl rfl)
  once := by
    rw [release_holding h]
    exact hk.table.count_closed (hk.kept h)

theorem Spent.release {fd : Nat} (h : k.Spent fd) (who : Option Nat) :
    (k.release who).Spent fd := by
  cases who with
  | none => exact h
  | some c =>
      cases hc : k.holds c with
      | none => rw [release_idle hc]; exact h
      | some other =>
          have hne : other ≠ fd := by
            rintro rfl
            exact h.unheld c hc
          refine ⟨fun d hd => h.unheld d (holds_of_release hd).1, ?_, ?_⟩
          · rw [release_holding hc]
            exact DescriptorTable.not_isOpen_close.mpr (Or.inr h.shut)
          · rw [release_holding hc, DescriptorTable.count_closed_close, if_neg hne]
            exact h.once

/-! ## Moves -/

theorem Sound.after (hk : k.Sound) {m : Move} (hm : k.Admits m) : (k.after m).Sound := by
  cases m with
  | take c fd =>
      obtain ⟨hfree, hopen, hunheld⟩ := hm
      refine ⟨hk.table, ?_, ?_⟩
      · intro n x h
        simp only [Custody.after] at h
        split at h
        · cases h; exact hopen
        · exact hk.kept h
      · intro n d x h h'
        simp only [Custody.after] at h h'
        split at h <;> split at h'
        · next hn hd => rw [hn, hd]
        · cases h; exact absurd h' (hunheld d)
        · cases h'; exact absurd h (hunheld n)
        · exact hk.apart h h'
  | pass c source =>
      obtain ⟨hfree, hne⟩ := hm
      refine ⟨hk.table, ?_, ?_⟩
      · intro n x h
        simp only [Custody.after] at h
        split at h
        · cases h
        · split at h
          · exact hk.kept h
          · exact hk.kept h
      · intro n d x h h'
        simp only [Custody.after] at h h'
        split at h <;> split at h'
        · cases h
        · cases h
        · cases h'
        · next hn hd =>
            -- The source is out, so what it held is met under one number only.
            split at h <;> split at h'
            · next hn hd => rw [hn, hd]
            · exact absurd (hk.apart h h').symm hd
            · exact absurd (hk.apart h h') hn
            · exact hk.apart h h'
  | make =>
      refine ⟨hk.table.grow, ?_, hk.apart⟩
      intro n x h
      exact DescriptorTable.isOpen_grow.mpr (Or.inr (hk.kept h))
  | discard fd =>
      obtain ⟨hopen, hunheld⟩ := hm
      refine ⟨hk.table.close hopen, ?_, hk.apart⟩
      intro n x h
      have hx : x ≠ fd := by
        rintro rfl
        exact hunheld n h
      exact DescriptorTable.isOpen_close.mpr ⟨hx, hk.kept h⟩

/-- What is held is held on, by its heir. -/
theorem after_holds {m : Move} (hm : k.Admits m) {c fd : Nat} (h : k.holds c = some fd) :
    (k.after m).holds (m.heir c) = some fd := by
  cases m with
  | take d other =>
      have hne : c ≠ d := by
        rintro rfl
        rw [hm.1] at h
        cases h
      show (if c = d then _ else k.holds c) = _
      rw [if_neg hne, h]
  | pass d source =>
      obtain ⟨hfree, hne⟩ := hm
      have hcd : c ≠ d := by
        rintro rfl
        rw [hfree] at h
        cases h
      simp only [Custody.after, Move.heir]
      by_cases hc : c = source
      · subst hc
        simpa only [if_true, if_neg hne] using h
      · simpa only [if_neg hc, if_neg hcd] using h
  | make => exact h
  | discard other => exact h

theorem after_isOpen {m : Move} {fd : Nat} (hopen : k.table.isOpen fd = true)
    (hm : m ≠ .discard fd) : (k.after m).table.isOpen fd = true := by
  cases m with
  | take _ _ => exact hopen
  | pass _ _ => exact hopen
  | make => exact DescriptorTable.isOpen_grow.mpr (Or.inr hopen)
  | discard other =>
      have hne : fd ≠ other := by
        rintro rfl
        exact hm rfl
      exact DescriptorTable.isOpen_close.mpr ⟨hne, hopen⟩

theorem Spent.after {fd : Nat} (h : k.Spent fd) (hk : k.Sound) {m : Move}
    (hm : k.Admits m) : (k.after m).Spent fd := by
  cases m with
  | take c other =>
      obtain ⟨hfree, hopen, hunheld⟩ := hm
      refine ⟨?_, h.shut, h.once⟩
      intro n hn
      simp only [Custody.after] at hn
      split at hn
      · cases hn
        rw [h.shut] at hopen
        cases hopen
      · exact h.unheld n hn
  | pass c source =>
      refine ⟨?_, h.shut, h.once⟩
      intro n hn
      simp only [Custody.after] at hn
      split at hn
      · cases hn
      · split at hn
        · exact h.unheld source hn
        · exact h.unheld n hn
  | make =>
      refine ⟨h.unheld, ?_, h.once⟩
      have hold : fd ≠ k.table.next := Nat.ne_of_lt (hk.table.past h.mem)
      simp only [Custody.after, DescriptorTable.grow, Bool.or_eq_false_iff,
        beq_eq_false_iff_ne]
      exact ⟨hold, h.shut⟩
  | discard other =>
      obtain ⟨hopen, hunheld⟩ := hm
      have hne : other ≠ fd := by
        rintro rfl
        rw [h.shut] at hopen
        cases hopen
      refine ⟨h.unheld, DescriptorTable.not_isOpen_close.mpr (Or.inr h.shut), ?_⟩
      simp only [Custody.after]
      rw [DescriptorTable.count_closed_close, if_neg hne]
      exact h.once

/-- What is thrown away is spent. -/
theorem Sound.discard_spent (hk : k.Sound) {fd : Nat} (hm : k.Admits (.discard fd)) :
    (k.after (.discard fd)).Spent fd where
  unheld := hm.2
  shut := DescriptorTable.not_isOpen_close.mpr (Or.inl rfl)
  once := hk.table.count_closed hm.1

/-! ## Several moves -/

def afterAll (k : Custody) : List Move → Custody
  | [] => k
  | m :: rest => (k.after m).afterAll rest

def AdmitsAll (k : Custody) : List Move → Prop
  | [] => True
  | m :: rest => k.Admits m ∧ (k.after m).AdmitsAll rest

theorem Sound.afterAll {moves : List Move} (hk : k.Sound) (hm : k.AdmitsAll moves) :
    (k.afterAll moves).Sound := by
  induction moves generalizing k with
  | nil => exact hk
  | cons m rest ih => exact ih (hk.after hm.1) hm.2

theorem afterAll_holds {moves : List Move} (hm : k.AdmitsAll moves) {c fd : Nat}
    (h : k.holds c = some fd) :
    (k.afterAll moves).holds (moves.foldl Move.heir c) = some fd := by
  induction moves generalizing k c with
  | nil => exact h
  | cons m rest ih => exact ih hm.2 (after_holds hm.1 h)

theorem afterAll_isOpen {moves : List Move} {fd : Nat} (hopen : k.table.isOpen fd = true)
    (hm : .discard fd ∉ moves) : (k.afterAll moves).table.isOpen fd = true := by
  induction moves generalizing k with
  | nil => exact hopen
  | cons m rest ih =>
      rw [List.mem_cons, not_or] at hm
      exact ih (after_isOpen hopen (Ne.symm hm.1)) hm.2

theorem Spent.afterAll {moves : List Move} {fd : Nat} (h : k.Spent fd) (hk : k.Sound)
    (hm : k.AdmitsAll moves) : (k.afterAll moves).Spent fd := by
  induction moves generalizing k with
  | nil => exact h
  | cons m rest ih => exact ih (h.after hk hm.1) (hk.after hm.1) hm.2

end Custody

end DaemonLink
