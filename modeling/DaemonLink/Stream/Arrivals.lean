import DaemonLink.Stream.Sides

/-!
# Arrivals listed in advance

The plainest stream: the pieces a peer has sent, in order, and what comes
after the last of them. A piece is received whole if there is room for it;
otherwise what did not fit stays at the front. Empty pieces carry nothing and
are passed over, so an empty answer always means that the stream is closed.
-/

namespace DaemonLink

/-- What follows the last byte of a stream. -/
inductive Ending
  /-- Nothing so far. -/
  | silence
  /-- The peer has closed its side. -/
  | closed
  /-- The connection was reset. It is told once; then the stream is closed. -/
  | reset
  /-- Receiving fails, each time. -/
  | failed (e : SystemError)
  deriving DecidableEq, Repr

/-- The bytes on their way to a reader, and what follows them. -/
structure Arrivals where
  pieces : List Bytes
  ending : Ending
  deriving DecidableEq, Repr

namespace Arrivals

/-- No bytes, and none announced. -/
def silent : Arrivals := ⟨[], .silence⟩

/-- All bytes still to be received. -/
def bytes (a : Arrivals) : Bytes :=
  a.pieces.flatten

/-- Whether a reader is told anything at once. -/
def ready (a : Arrivals) : Bool :=
  a.pieces.any (fun piece => !piece.isEmpty) || a.ending != .silence

/-- The first bytes of a list of pieces, at most `room` of them and all from
one piece, with the pieces that remain. -/
def takeFirst (room : Nat) : List Bytes → Option (Bytes × List Bytes)
  | [] => none
  | [] :: rest => takeFirst room rest
  | piece :: rest =>
      match piece.drop room with
      | [] => some (piece, rest)
      | left => some (piece.take room, left :: rest)

/-- What is taken and what remains are all there was, and what is taken is
neither nothing nor too much. -/
theorem takeFirst_some {room : Nat} (hroom : 0 < room) {pieces rest : List Bytes} {data : Bytes}
    (h : takeFirst room pieces = some (data, rest)) :
    data ++ rest.flatten = pieces.flatten ∧ data ≠ [] ∧ data.length ≤ room := by
  induction pieces with
  | nil => simp [takeFirst] at h
  | cons piece more ih =>
      match piece with
      | [] => simpa using ih (by simpa [takeFirst] using h)
      | b :: bs =>
          simp only [takeFirst] at h
          split at h
          · next hfits =>
              simp only [Option.some.injEq, Prod.mk.injEq] at h
              obtain ⟨rfl, rfl⟩ := h
              exact ⟨by simp, by simp, List.drop_eq_nil_iff.mp hfits⟩
          · next hlong =>
              simp only [Option.some.injEq, Prod.mk.injEq] at h
              obtain ⟨rfl, rfl⟩ := h
              refine ⟨?_, ?_, by rw [List.length_take]; omega⟩
              · rw [List.flatten_cons, ← List.append_assoc, List.take_append_drop]
                rfl
              · cases room with
                | zero => omega
                | succ n => simp

theorem takeFirst_eq_none_iff {room : Nat} {pieces : List Bytes} :
    takeFirst room pieces = none ↔ pieces.flatten = [] := by
  induction pieces with
  | nil => simp [takeFirst]
  | cons piece more ih =>
      match piece with
      | [] => simpa [takeFirst] using ih
      | b :: bs =>
          simp only [takeFirst]
          split <;> simp

/-- Receive at most `room` bytes. With nothing there and no end in sight the
answer is that one would have to wait. -/
def receive (a : Arrivals) (room : Nat) : Except SystemError Bytes × Arrivals :=
  match takeFirst room a.pieces with
  | some (data, rest) => (.ok data, { a with pieces := rest })
  | none =>
      match a.ending with
      | .silence => (.error .wouldBlock, ⟨[], .silence⟩)
      | .closed => (.ok [], ⟨[], .closed⟩)
      | .reset => (.error .connectionReset, ⟨[], .closed⟩)
      | .failed e => (.error e, ⟨[], .failed e⟩)

/-- Arrivals as a source of bytes. Waiting on them expires if nothing is
there: what is listed is all that ever comes. -/
def receiver : Receiver Arrivals where
  wait _ a := (if a.ready then .ready else .expired, a)
  receive w a := a.receive w.room

end Arrivals

end DaemonLink
