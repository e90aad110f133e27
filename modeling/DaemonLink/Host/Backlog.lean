import DaemonLink.Stream.Arrivals

/-!
# What is under way

Between the two ends of a channel lies what one of them has sent and the other
has not received. An end may have only so much under way. What counts is not
the bytes but the memory that holds them: what is sent is cut into pieces, and
a piece takes a block of one of a few sizes and, if it is large, whole pages
besides.

A new piece is accepted while what is under way stays below the bound, however
large the piece itself is. So the bound can be overstepped once, by one piece.
-/

namespace DaemonLink

namespace Backlog

/-- The memory that an end may have under way. -/
def bound : Nat := 212992

/-- The largest piece. -/
def maxPiece : Nat := 36544

/-- How much of a piece fits into its block. -/
def maxInBlock : Nat := 3776

/-- The size of a page. -/
def page : Nat := 4096

/-- What is taken besides, to keep track of a piece. -/
def overhead : Nat := 256

/-- A size in whole pages. -/
def inPages (n : Nat) : Nat :=
  (n + (page - 1)) / page * page

/-- The block that holds so many bytes of a piece. -/
def blockFor (n : Nat) : Nat :=
  if n ≤ 192 then 512
  else if n ≤ 704 then 1024
  else if n ≤ 1728 then 2048
  else 4096

/-- How many bytes of a piece of this size lie in pages. -/
def paged (n : Nat) : Nat :=
  if n ≤ maxInBlock then 0 else min n (inPages (n - maxInBlock))

/-- The memory a piece of this size takes. -/
def charge (n : Nat) : Nat :=
  overhead + blockFor (n - paged n) + inPages (paged n)

/-- The memory taken by what is under way. -/
def charged (a : Arrivals) : Nat :=
  a.pieces.foldl (fun taken piece => taken + charge piece.length) 0

/-- Bytes cut into pieces. -/
def cut (data : Bytes) : List Bytes :=
  if data.isEmpty then []
  else if (data.drop maxPiece).isEmpty then [data]
  else data.take maxPiece :: cut (data.drop maxPiece)
termination_by data.length
decreasing_by
  simp only [List.isEmpty_iff, List.drop_eq_nil_iff, maxPiece] at *
  simp only [List.length_drop]
  omega

/-- Cut from the front of the bytes those pieces that are accepted, when so much
is under way already: the pieces, and the bytes that are left. -/
def accept (taken : Nat) (data : Bytes) : List Bytes × Bytes :=
  if data.isEmpty || bound ≤ taken then ([], data)
  else
    let piece := data.take maxPiece
    let (more, left) := accept (taken + charge piece.length) (data.drop maxPiece)
    (piece :: more, left)
termination_by data.length
decreasing_by
  cases data with
  | nil => simp at *
  | cons b rest =>
      simp only [List.length_drop, List.length_cons, maxPiece]
      omega

end Backlog

/-- The stream with more pieces at its back. -/
def Arrivals.pushAll (a : Arrivals) (pieces : List Bytes) : Arrivals :=
  { a with pieces := a.pieces ++ pieces }

@[simp] theorem Arrivals.bytes_pushAll (a : Arrivals) (pieces : List Bytes) :
    (a.pushAll pieces).bytes = a.bytes ++ pieces.flatten := by
  simp [Arrivals.bytes, Arrivals.pushAll]

/-- What is accepted and what is left are all there was. -/
theorem Backlog.flatten_accept (taken : Nat) (data : Bytes) :
    (Backlog.accept taken data).1.flatten ++ (Backlog.accept taken data).2 = data := by
  fun_induction Backlog.accept taken data with
  | case1 taken data _ => rfl
  | case2 taken data _ piece more left haccept ih =>
      rw [haccept] at ih
      rw [List.flatten_cons, List.append_assoc, ih, List.take_append_drop]

end DaemonLink
