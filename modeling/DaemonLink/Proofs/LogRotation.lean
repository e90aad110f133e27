import DaemonLink.CommandLine.Numeral
import DaemonLink.Log.Writer

/-!
# Rotation moves every file up by one

The log and the files behind it are one row of places, and with the log at zero
rotation does the same at each of them: what was at a number is at the next
one, and what was at the last is gone. Whether a place is empty makes no
difference to that, so gaps move up like files.

This is said of any files on which an operation happens as a whole or fails and
has not happened. What they hold is read off a state path by path, and the laws
say of each operation what can be read afterwards, at the paths that are
watched. They ask no more of a rename than rotation does: something is at the
source and nothing at the target. Files that always do what they are asked are
those that are never in the state that follows a failure.

Rotation is one descent of an empty place. Removing the oldest file makes it,
each move hands it down by one, and the last one leaves it where the log was.
That is the invariant, and it holds between any two operations: above the empty
place the files have moved, below it they have not. So wherever a rotation
breaks off, the place it has come to says where everything is.
-/

namespace DaemonLink

variable {φ : Type}

/-! ## The row of places -/

theorem digitValue_digit {n : Nat} (h : n < 10) : Numeral.digitValue (digit n) = n := by
  have hword : (48 + n).toUInt8.toNat = 48 + n := Nat.mod_eq_of_lt (by omega)
  rw [Numeral.digitValue, digit, hword, Nat.add_sub_cancel_left]

theorem decimal_digit {n : Nat} (h : n < 10) : decimal n = [digit n] := by
  rw [decimal, if_pos h]

theorem value_decimal (n : Nat) : Numeral.value (decimal n) = n := by
  fun_induction decimal n with
  | case1 n h =>
      show 0 * 10 + Numeral.digitValue (digit n) = n
      rw [digitValue_digit h, Nat.zero_mul, Nat.zero_add]
  | case2 n h ih =>
      have hlast : n % 10 < 10 := Nat.mod_lt n (by decide)
      rw [Numeral.value] at ih ⊢
      rw [List.foldl_append, ih, List.foldl_cons, List.foldl_nil, digitValue_digit hlast]
      omega

theorem decimal_injective {m n : Nat} (h : decimal m = decimal n) : m = n := by
  rw [← value_decimal m, h, value_decimal]

/-- The path of the log, as number zero, and of the files behind it. -/
def slot (path : Bytes) : Nat → Bytes
  | 0 => path
  | i + 1 => generation path (i + 1)

theorem slot_zero (path : Bytes) : slot path 0 = path := rfl

theorem slot_digit {path : Bytes} {i : Nat} (h : i + 1 < 10) :
    slot path (i + 1) = path ++ text "." ++ [digit (i + 1)] := by
  rw [slot, generation, decimal_digit h]

theorem generation_ne (path : Bytes) (i : Nat) : generation path i ≠ path := by
  intro h
  have hlength := congrArg List.length h
  have hdot : (text ".").length = 1 := rfl
  rw [generation, List.append_assoc, List.length_append, List.length_append, hdot] at hlength
  omega

theorem slot_injective {path : Bytes} {i j : Nat} (h : slot path i = slot path j) : i = j := by
  match i, j with
  | 0, 0 => rfl
  | 0, j + 1 => exact absurd h.symm (generation_ne path (j + 1))
  | i + 1, 0 => exact absurd h (generation_ne path (i + 1))
  | i + 1, j + 1 => exact decimal_injective (List.append_cancel_left h)

theorem slot_inj {path : Bytes} {i j : Nat} : slot path i = slot path j ↔ i = j :=
  ⟨slot_injective, fun h => by rw [h]⟩

theorem slot_ne {path : Bytes} {i j : Nat} (h : i ≠ j) : slot path i ≠ slot path j :=
  fun heq => h (slot_injective heq)

theorem path_ne_slot {path : Bytes} {i : Nat} (h : 0 < i) : path ≠ slot path i :=
  slot_ne (i := 0) (Nat.ne_of_lt h)

/-! ## Files that do what they are asked -/

/-- The directory is there or can be made, without touching what is watched. -/
def Shelf.Opens (shelf : Shelf φ) (read : φ → Bytes → Option Bytes) (Watched : Bytes → Prop)
    (Ready : φ → Prop) (directory : Bytes) (s : φ) : Prop :=
  ∃ s', shelf.makeDirectories directory s = (.ok (), s') ∧ Ready s' ∧
    ∀ p, Watched p → read s' p = read s p

/-- Files on which no operation fails. At every path that is watched there is a
regular file or nothing. -/
structure Shelf.Reliable (shelf : Shelf φ) (read : φ → Bytes → Option Bytes)
    (Watched : Bytes → Prop) (Ready : φ → Prop) : Prop where
  pathExists : ∀ {s p}, Ready s → Watched p → shelf.pathExists p s = .ok (read s p).isSome
  fileSize : ∀ {s p data}, Ready s → Watched p → read s p = some data →
    shelf.fileSize p s = .ok data.length
  remove : ∀ {s p}, Ready s → Watched p →
    ∃ s', shelf.remove p s = (.ok (), s') ∧ Ready s' ∧
      ∀ q, Watched q → read s' q = if q = p then none else read s q
  rename : ∀ {s p q}, Ready s → Watched p → Watched q → (read s p).isSome → read s q = none →
    ∃ s', shelf.rename p q s = (.ok (), s') ∧ Ready s' ∧
      ∀ r, Watched r → read s' r = if r = q then read s p else if r = p then none else read s r
  append : ∀ {s p}, Ready s → Watched p → ∀ data,
    Ready (shelf.append p data s) ∧
      ∀ q, Watched q → read (shelf.append p data s) q =
        if q = p then some ((read s p).getD [] ++ data) else read s q

/-- What is true of the state that a change leaves behind, after a success and
after a failure. -/
def EndsIn {ε : Type} (Done Broken : φ → Prop) : Except ε Unit × φ → Prop
  | (.ok (), s) => Done s
  | (.error _, s) => Broken s

/-- Files on which a change happens or fails, and one that failed has not
happened. At every path that is watched there is a regular file or nothing.
After a failure the files are `Broken`. -/
structure Shelf.AllOrNothing (shelf : Shelf φ) (read : φ → Bytes → Option Bytes)
    (Watched : Bytes → Prop) (Ready Broken : φ → Prop) : Prop where
  pathExists : ∀ {s p}, Ready s → Watched p → shelf.pathExists p s = .ok (read s p).isSome
  fileSize : ∀ {s p data}, Ready s → Watched p → read s p = some data →
    shelf.fileSize p s = .ok data.length
  remove : ∀ {s p}, Ready s → Watched p →
    EndsIn (fun s' => Ready s' ∧ ∀ q, Watched q → read s' q = if q = p then none else read s q)
      (fun s' => Broken s' ∧ ∀ q, Watched q → read s' q = read s q) (shelf.remove p s)
  rename : ∀ {s p q}, Ready s → Watched p → Watched q → (read s p).isSome → read s q = none →
    EndsIn
      (fun s' => Ready s' ∧ ∀ r, Watched r →
        read s' r = if r = q then read s p else if r = p then none else read s r)
      (fun s' => Broken s' ∧ ∀ r, Watched r → read s' r = read s r) (shelf.rename p q s)

section Rotation

variable {shelf : Shelf φ} {read : φ → Bytes → Option Bytes} {Watched : Bytes → Prop}
  {Ready Broken : φ → Prop} {path : Bytes}

theorem Shelf.Reliable.allOrNothing (hshelf : shelf.Reliable read Watched Ready) :
    shelf.AllOrNothing read Watched Ready fun _ => False where
  pathExists := hshelf.pathExists
  fileSize := hshelf.fileSize
  remove := by
    intro s p hready hp
    obtain ⟨s', hremove, h⟩ := hshelf.remove hready hp
    rw [hremove]
    exact h
  rename := by
    intro s p q hready hp hq hsource htarget
    obtain ⟨s', hrename, h⟩ := hshelf.rename hready hp hq hsource htarget
    rw [hrename]
    exact h

/-! ## The empty place -/

/-- The files up to the last place, with the empty place at `free`. What was there
or above has moved up by one, and nothing else has changed. -/
structure MovedUp (read : φ → Bytes → Option Bytes) (Watched : Bytes → Prop) (path : Bytes)
    (last free : Nat) (s s' : φ) : Prop where
  bound : free ≤ last
  empty : read s' (slot path free) = none
  moved : ∀ i, free ≤ i → i < last → read s' (slot path (i + 1)) = read s (slot path i)
  others : ∀ q, Watched q → (∀ i, free ≤ i → i ≤ last → q ≠ slot path i) → read s' q = read s q

namespace MovedUp

variable {last free : Nat} {s s' s'' : φ}

theorem below (h : MovedUp read Watched path last free s s') {i : Nat} (hi : i < free)
    (hwatched : Watched (slot path i)) : read s' (slot path i) = read s (slot path i) :=
  h.others _ hwatched fun _ hle _ => slot_ne (by omega)

theorem removed (hwatched : Watched (slot path last))
    (hread : ∀ q, Watched q → read s' q = if q = slot path last then none else read s q) :
    MovedUp read Watched path last last s s' where
  bound := Nat.le_refl _
  empty := by rw [hread _ hwatched, if_pos rfl]
  moved i hle hlt := by omega
  others q hq hne := by rw [hread q hq, if_neg (hne last (Nat.le_refl _) (Nat.le_refl _))]

/-- A gap moves up by itself: the place above it was empty, and so is this one. -/
theorem gap (h : MovedUp read Watched path last (free + 1) s s')
    (hwatched : Watched (slot path free)) (hgap : read s' (slot path free) = none) :
    MovedUp read Watched path last free s s' where
  bound := Nat.le_of_succ_le h.bound
  empty := hgap
  moved i hle hlt := by
    rcases Nat.eq_or_lt_of_le hle with rfl | habove
    · rw [h.empty, ← h.below (Nat.lt_succ_self _) hwatched, hgap]
    · exact h.moved i habove hlt
  others q hq hne := h.others q hq fun i hle => hne i (Nat.le_of_succ_le hle)

theorem renamed (h : MovedUp read Watched path last (free + 1) s s')
    (hwatched : ∀ i ≤ last, Watched (slot path i))
    (hread : ∀ q, Watched q → read s'' q =
      if q = slot path (free + 1) then read s' (slot path free)
      else if q = slot path free then none else read s' q) :
    MovedUp read Watched path last free s s'' where
  bound := Nat.le_of_succ_le h.bound
  empty := by
    have hlow : Watched (slot path free) := hwatched free (Nat.le_of_succ_le h.bound)
    rw [hread _ hlow, if_neg (slot_ne (by omega)), if_pos rfl]
  moved i hle hlt := by
    rw [hread _ (hwatched (i + 1) hlt)]
    rcases Nat.eq_or_lt_of_le hle with rfl | habove
    · rw [if_pos rfl, h.below (Nat.lt_succ_self _) (hwatched _ (by omega))]
    · rw [if_neg (slot_ne (by omega)), if_neg (slot_ne (by omega)), h.moved i habove hlt]
  others q hq hne := by
    have hbound := h.bound
    rw [hread q hq, if_neg (hne (free + 1) (by omega) hbound),
      if_neg (hne free (Nat.le_refl _) (by omega)),
      h.others q hq fun i hle => hne i (Nat.le_of_succ_le hle)]

theorem unchanged (h : MovedUp read Watched path last free s s')
    (hwatched : ∀ i ≤ last, Watched (slot path i))
    (hread : ∀ q, Watched q → read s'' q = read s' q) :
    MovedUp read Watched path last free s s'' where
  bound := h.bound
  empty := by rw [hread _ (hwatched free h.bound), h.empty]
  moved i hle hlt := by rw [hread _ (hwatched (i + 1) hlt), h.moved i hle hlt]
  others q hq hne := by rw [hread q hq, h.others q hq hne]

end MovedUp

/-! ## The shift and the whole rotation -/

theorem shiftUp_absent {n : Nat} {s : φ}
    (h : shelf.pathExists (slot path (n + 1)) s = .ok false) :
    shiftUp shelf path (n + 1) s = shiftUp shelf path n s := by
  rw [slot] at h
  rw [shiftUp]
  simp only [h]

theorem shiftUp_present {n : Nat} {s : φ}
    (h : shelf.pathExists (slot path (n + 1)) s = .ok true) :
    shiftUp shelf path (n + 1) s =
      match shelf.rename (slot path (n + 1)) (slot path (n + 2)) s with
      | (.error e, s₁) => (.error (.rename (slot path (n + 1)) (slot path (n + 2)) e), s₁)
      | (.ok (), s₁) => shiftUp shelf path n s₁ := by
  rw [slot] at h
  rw [shiftUp]
  simp only [h]
  rfl

theorem shiftUp_ends (hshelf : shelf.AllOrNothing read Watched Ready Broken) {last : Nat} {s : φ}
    (hwatched : ∀ i ≤ last, Watched (slot path i)) (n : Nat) :
    ∀ {s'}, Ready s' → MovedUp read Watched path last (n + 1) s s' →
      EndsIn (fun t => Ready t ∧ MovedUp read Watched path last 1 s t)
        (fun t => Broken t ∧ ∃ free, 0 < free ∧ MovedUp read Watched path last free s t)
        (shiftUp shelf path n s') := by
  induction n with
  | zero => exact fun hready hmoved => ⟨hready, hmoved⟩
  | succ n ih =>
      intro s' hready hmoved
      have hbound := hmoved.bound
      have hsource : Watched (slot path (n + 1)) := hwatched (n + 1) (by omega)
      have htarget : Watched (slot path (n + 2)) := hwatched (n + 2) hbound
      have hexists := hshelf.pathExists hready hsource
      cases hdata : read s' (slot path (n + 1)) with
      | none =>
          rw [hdata] at hexists
          rw [shiftUp_absent hexists]
          exact ih hready (hmoved.gap hsource hdata)
      | some data =>
          rw [hdata] at hexists
          rw [shiftUp_present hexists]
          have hends := hshelf.rename hready hsource htarget (by rw [hdata]; rfl) hmoved.empty
          rcases hrename : shelf.rename (slot path (n + 1)) (slot path (n + 2)) s' with ⟨e | _, t⟩
          · rw [hrename] at hends
            exact ⟨hends.1, n + 2, by omega, hmoved.unchanged hwatched hends.2⟩
          · rw [hrename] at hends
            exact ih hends.1 (hmoved.renamed hwatched hends.2)

theorem rotate_none {backups : Int} (hnone : backups ≤ 0) (shelf : Shelf φ) (path : Bytes)
    (s : φ) :
    rotate shelf path backups s =
      match shelf.remove path s with
      | (.error e, s₁) => (.error (.remove path e), s₁)
      | (.ok (), s₁) => (.ok (), s₁) := by
  rw [rotate]
  exact if_pos hnone

theorem rotate_some {backups : Int} {n : Nat} (hn : backups = n + 1) (shelf : Shelf φ)
    (path : Bytes) (s : φ) :
    rotate shelf path backups s =
      match shelf.remove (slot path (n + 1)) s with
      | (.error e, s₁) => (.error (.remove (slot path (n + 1)) e), s₁)
      | (.ok (), s₁) =>
          match shiftUp shelf path n s₁ with
          | (.error fault, s₂) => (.error fault, s₂)
          | (.ok (), s₂) =>
              match shelf.rename path (slot path 1) s₂ with
              | (.error e, s₃) => (.error (.rename path (slot path 1) e), s₃)
              | (.ok (), s₃) => (.ok (), s₃) := by
  have hcount : backups.toNat = n + 1 := by omega
  rw [rotate, if_neg (by omega)]
  simp only [hcount, Nat.add_sub_cancel]
  rfl

/-- A rotation that does not break off hands the empty place down to where the log
was. One that does leaves it where it is, or nothing has happened. -/
theorem rotate_ends (hshelf : shelf.AllOrNothing read Watched Ready Broken) {backups : Int} {s : φ}
    (hready : Ready s) (hwatched : ∀ i ≤ backups.toNat, Watched (slot path i))
    (hlog : (read s path).isSome) :
    EndsIn (fun s' => Ready s' ∧ MovedUp read Watched path backups.toNat 0 s s')
      (fun s' => Broken s' ∧ ((∀ q, Watched q → read s' q = read s q) ∨
        ∃ free, 0 < free ∧ MovedUp read Watched path backups.toNat free s s'))
      (rotate shelf path backups s) := by
  have hremove := hshelf.remove hready (hwatched backups.toNat (Nat.le_refl _))
  by_cases hnone : backups ≤ 0
  · have hcount : backups.toNat = 0 := by omega
    rw [hcount] at hwatched hremove ⊢
    rw [rotate_none hnone]
    rcases hanswer : shelf.remove path s with ⟨e | _, s₁⟩
    · rw [slot_zero, hanswer] at hremove
      exact ⟨hremove.1, Or.inl hremove.2⟩
    · rw [slot_zero, hanswer] at hremove
      exact ⟨hremove.1, .removed (hwatched 0 (Nat.le_refl _)) hremove.2⟩
  · obtain ⟨n, hn⟩ : ∃ n : Nat, backups = n + 1 := ⟨backups.toNat - 1, by omega⟩
    have hcount : backups.toNat = n + 1 := by omega
    rw [hcount] at hwatched hremove ⊢
    rw [rotate_some hn]
    rcases hanswer : shelf.remove (slot path (n + 1)) s with ⟨e | _, s₁⟩
    · rw [hanswer] at hremove
      exact ⟨hremove.1, Or.inl hremove.2⟩
    rw [hanswer] at hremove
    have hshift := shiftUp_ends hshelf hwatched n hremove.1
      (.removed (hwatched (n + 1) (Nat.le_refl _)) hremove.2)
    simp only
    rcases hanswer : shiftUp shelf path n s₁ with ⟨fault | _, s₂⟩
    · rw [hanswer] at hshift
      exact ⟨hshift.1, Or.inr hshift.2⟩
    rw [hanswer] at hshift
    obtain ⟨hready₂, hmoved⟩ := hshift
    have hpath : Watched path := hwatched 0 (by omega)
    have hstill : read s₂ path = read s path := hmoved.below Nat.one_pos hpath
    have hends := hshelf.rename hready₂ hpath (hwatched 1 (by omega)) (by rwa [hstill]) hmoved.empty
    simp only
    rcases hanswer : shelf.rename path (slot path 1) s₂ with ⟨e | _, s₃⟩
    · rw [hanswer] at hends
      exact ⟨hends.1, Or.inr ⟨1, Nat.one_pos, hmoved.unchanged hwatched hends.2⟩⟩
    · rw [hanswer] at hends
      exact ⟨hends.1, hmoved.renamed hwatched hends.2⟩

/-- Rotation succeeds. There is then no file at the log's own path, what was at
a number is at the next one up to the last, and nothing else has changed. -/
theorem rotate_reliable (hshelf : shelf.Reliable read Watched Ready) {backups : Int} {s : φ}
    (hready : Ready s) (hwatched : ∀ i ≤ backups.toNat, Watched (slot path i))
    (hlog : (read s path).isSome) :
    ∃ s', rotate shelf path backups s = (.ok (), s') ∧ Ready s' ∧ read s' path = none ∧
      (∀ i < backups.toNat, read s' (slot path (i + 1)) = read s (slot path i)) ∧
      ∀ q, Watched q → (∀ i ≤ backups.toNat, q ≠ slot path i) → read s' q = read s q := by
  have hends := rotate_ends hshelf.allOrNothing hready hwatched hlog
  rcases hrotate : rotate shelf path backups s with ⟨fault | _, s'⟩
  · rw [hrotate] at hends
    exact hends.1.elim
  · rw [hrotate] at hends
    obtain ⟨hready', hmoved⟩ := hends
    refine ⟨s', rfl, hready', hmoved.empty, ?_, ?_⟩
    · exact fun i => hmoved.moved i (Nat.zero_le _)
    · exact fun q hq hne => hmoved.others q hq fun i _ => hne i

/-! ## One record -/

/-- The log is full at this size. -/
def LogOptions.IsFull (o : LogOptions) (size : Nat) : Prop :=
  o.threshold ≠ 0 ∧ o.threshold ≤ size

instance (o : LogOptions) (size : Nat) : Decidable (o.IsFull size) :=
  inferInstanceAs (Decidable (_ ∧ _))

/-- In the range of the words the options are kept in, and of the sizes a file
can have, a log is full from the number of mebibytes on that it is given, and
never without a positive one. -/
theorem LogOptions.isFull_iff {o : LogOptions} {size : Nat}
    (hlow : -2147483648 ≤ o.maxFileSizeMb) (hhigh : o.maxFileSizeMb ≤ 2147483647)
    (hsize : o.maxFileSizeMb < 0 → size < 9223372036854775808) :
    o.IsFull size ↔ 1 ≤ o.maxFileSizeMb ∧ o.maxFileSizeMb * 1048576 ≤ size := by
  rw [IsFull, threshold]
  omega

theorem LogOptions.not_isFull_zero (o : LogOptions) : ¬ o.IsFull 0 := by
  rintro ⟨hne, hle⟩
  exact hne (Nat.le_zero.mp hle)

/-- A log that is not there is not full. -/
theorem LogOptions.isFull_contents_iff {o : LogOptions} {contents : Option Bytes}
    (hlow : -2147483648 ≤ o.maxFileSizeMb) (hhigh : o.maxFileSizeMb ≤ 2147483647)
    (hsize : o.maxFileSizeMb < 0 → (contents.getD []).length < 9223372036854775808) :
    o.IsFull (contents.getD []).length ↔ 1 ≤ o.maxFileSizeMb ∧
      ∃ data, contents = some data ∧ o.maxFileSizeMb * 1048576 ≤ data.length := by
  cases contents with
  | none =>
      refine iff_of_false o.not_isFull_zero ?_
      rintro ⟨-, data, hnone, -⟩
      cases hnone
  | some data =>
      rw [Option.getD_some] at hsize ⊢
      rw [isFull_iff hlow hhigh hsize]
      refine and_congr_right fun _ => ⟨fun hsize => ⟨data, rfl, hsize⟩, ?_⟩
      rintro ⟨_, ⟨⟩, hsize⟩
      exact hsize

theorem rotateIfFull_eq (hshelf : shelf.AllOrNothing read Watched Ready Broken) {o : LogOptions}
    {s : φ} (hready : Ready s) (hpath : Watched o.path) :
    rotateIfFull shelf o s =
      if o.IsFull ((read s o.path).getD []).length then rotate shelf o.path o.maxBackups s
      else (.ok (), s) := by
  have hexists := hshelf.pathExists hready hpath
  rw [rotateIfFull]
  by_cases hnever : o.threshold = 0
  · rw [if_pos hnever, if_neg fun hfull => hfull.1 hnever]
  · rw [if_neg hnever]
    cases hdata : read s o.path with
    | none =>
        rw [hdata] at hexists
        simp only [hexists, Option.isSome_none, Option.getD_none, List.length_nil,
          o.not_isFull_zero, if_false]
    | some data =>
        rw [hdata] at hexists
        have hsize := hshelf.fileSize hready hpath hdata
        simp only [hexists, hsize, Option.isSome_some, Option.getD_some, LogOptions.IsFull,
          hnever, ne_eq, not_false_eq_true, true_and]

theorem rotateIfFull_reliable (hshelf : shelf.Reliable read Watched Ready) {o : LogOptions} {s : φ}
    (hready : Ready s) (hpath : Watched o.path) :
    rotateIfFull shelf o s =
      if o.IsFull ((read s o.path).getD []).length then rotate shelf o.path o.maxBackups s
      else (.ok (), s) :=
  rotateIfFull_eq hshelf.allOrNothing hready hpath

theorem writeRecord_appends {o : LogOptions} (hfile : o.toFile = true) {s s₁ : φ}
    (hrotate : rotateIfFull shelf o s = (.ok (), s₁)) (r : Record) :
    (writeRecord shelf o r s).2 = shelf.append o.path r.render s₁ := by
  rw [writeRecord, hfile]
  simp only [hrotate]
  rfl

/-- A record is written behind what is in the log, or into a new log that has
been put in front of the others. -/
theorem writeRecord_reliable (hshelf : shelf.Reliable read Watched Ready) {o : LogOptions}
    (hfile : o.toFile = true) {s : φ} (hready : Ready s)
    (hwatched : ∀ i ≤ o.maxBackups.toNat, Watched (slot o.path i)) (r : Record) :
    let s' := (writeRecord shelf o r s).2
    let size := ((read s o.path).getD []).length
    Ready s' ∧
      read s' o.path = some ((if o.IsFull size then [] else (read s o.path).getD []) ++ r.render) ∧
      ∀ i < o.maxBackups.toNat,
        read s' (slot o.path (i + 1)) =
          read s (slot o.path (if o.IsFull size then i else i + 1)) := by
  intro s' size
  have hpath : Watched o.path := hwatched 0 (Nat.zero_le _)
  have hrotate := rotateIfFull_reliable hshelf (o := o) hready hpath
  by_cases hfull : o.IsFull size
  · have hlog : (read s o.path).isSome := by
      cases hdata : read s o.path with
      | none => exact absurd hfull (by simp only [size, hdata]; exact o.not_isFull_zero)
      | some data => rfl
    obtain ⟨s₁, hmoves, hready₁, hgone, hmoved, -⟩ :=
      rotate_reliable hshelf hready hwatched hlog
    rw [if_pos hfull, hmoves] at hrotate
    obtain ⟨hready', hread⟩ := hshelf.append hready₁ hpath r.render
    rw [← writeRecord_appends hfile hrotate] at hready' hread
    simp only [hfull, if_true]
    refine ⟨hready', ?_, ?_⟩
    · rw [hread _ hpath, if_pos rfl, hgone]
      rfl
    · intro i hi
      rw [hread _ (hwatched (i + 1) hi), if_neg (path_ne_slot (by omega)).symm, hmoved i hi]
  · rw [if_neg hfull] at hrotate
    obtain ⟨hready', hread⟩ := hshelf.append hready hpath r.render
    rw [← writeRecord_appends hfile hrotate] at hready' hread
    simp only [hfull, if_false]
    refine ⟨hready', ?_, ?_⟩
    · rw [hread _ hpath, if_pos rfl]
    · intro i hi
      rw [hread _ (hwatched (i + 1) hi), if_neg (path_ne_slot (by omega)).symm]

end Rotation

end DaemonLink
