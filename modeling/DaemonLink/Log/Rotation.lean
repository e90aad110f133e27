import DaemonLink.Log.Shelf

/-!
# Rotation

The log is one file, and behind it older ones, numbered from one: the larger
the number, the older. To rotate is to make room at the front. The oldest file
goes, every other moves up by one, and the log itself becomes number one.

The order is what makes this safe. Moving starts with the highest number, so
each file moves to a number that was left free just before, by the removal of
the oldest or by the move before it. No move ever lands on a file, and if one
of them fails, everything that has not moved yet is still where it was.

Without any older files to keep, the log itself is removed.
-/

namespace DaemonLink

/-- The path of the file with the given number behind the log. -/
def generation (path : Bytes) (i : Nat) : Bytes :=
  path ++ text "." ++ decimal i

/-- Move the files numbered `n` down to one up by one, where there are any. -/
def shiftUp {φ : Type} (shelf : Shelf φ) (path : Bytes) :
    Nat → φ → Except FileFault Unit × φ
  | 0, s => (.ok (), s)
  | i + 1, s =>
      let source := generation path (i + 1)
      let target := generation path (i + 2)
      match shelf.pathExists source s with
      | .error e => (.error (.status source e), s)
      | .ok false => shiftUp shelf path i s
      | .ok true =>
          match shelf.rename source target s with
          | (.error e, s₁) => (.error (.rename source target e), s₁)
          | (.ok (), s₁) => shiftUp shelf path i s₁

/-- Rotate the log at `path`, keeping so many older files. -/
def rotate {φ : Type} (shelf : Shelf φ) (path : Bytes) (backups : Int) (s : φ) :
    Except FileFault Unit × φ :=
  if backups ≤ 0 then
    match shelf.remove path s with
    | (.error e, s₁) => (.error (.remove path e), s₁)
    | (.ok (), s₁) => (.ok (), s₁)
  else
    let oldest := generation path backups.toNat
    match shelf.remove oldest s with
    | (.error e, s₁) => (.error (.remove oldest e), s₁)
    | (.ok (), s₁) =>
        match shiftUp shelf path (backups.toNat - 1) s₁ with
        | (.error fault, s₂) => (.error fault, s₂)
        | (.ok (), s₂) =>
            match shelf.rename path (generation path 1) s₂ with
            | (.error e, s₃) => (.error (.rename path (generation path 1) e), s₃)
            | (.ok (), s₃) => (.ok (), s₃)

end DaemonLink
