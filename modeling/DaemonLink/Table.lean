/-!
# Tables

Several things here are known by a key: files by their place, open descriptors
and connections by their number, sockets by their name. Each is a list of pairs
in which looking up a key finds the first pair that has it. What the list is
good for is said by look-up alone: which key leads to what after an entry has
been put in or taken out.
-/

namespace DaemonLink

variable {α β : Type} [BEq α] [LawfulBEq α] [DecidableEq α]

/-- Looking up in a table from which a key has been taken out. -/
theorem lookup_filter_ne (table : List (α × β)) (key k : α) :
    (table.filter fun e => e.1 != key).lookup k = if k = key then none else table.lookup k := by
  induction table with
  | nil => simp
  | cons e rest ih =>
      obtain ⟨m, v⟩ := e
      by_cases hm : m = key
      · have hout : (((m, v) :: rest).filter fun e => e.1 != key) =
            rest.filter fun e => e.1 != key := by simp [hm]
        rw [hout, ih]
        by_cases hk : k = key
        · simp [hk]
        · have hne : (k == m) = false := by simpa [hm] using hk
          simp [hk, List.lookup_cons, hne]
      · have hin : (((m, v) :: rest).filter fun e => e.1 != key) =
            (m, v) :: rest.filter fun e => e.1 != key := by simp [hm]
        rw [hin]
        by_cases hk : k = m
        · subst hk
          simp [hm]
        · have hne : (k == m) = false := by simpa using hk
          simp [List.lookup_cons, hne, ih]

end DaemonLink
