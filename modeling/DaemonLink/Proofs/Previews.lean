import DaemonLink.Log.Note
import DaemonLink.Proofs.LogRotation

/-!
# What a preview keeps of a text

A text that is cut shows two things of itself, its first bytes, as many as the
limit allows, and its length. Both can be read back: the first bytes because
there are as many of them as the limit says, and the length because its numeral
stands between two fixed texts. A text that is not cut is its own preview, and so
shows the same two things. Two texts therefore have the same preview if they
agree in these, and only then.

Whether a text was cut is seen from the length of the preview, which goes beyond
the limit just when the text does. It is not seen by comparing the preview with
the text. A text can be too long and come out as it went in: all that it takes
is that what stands behind the limit happens to be the mark with its own length.
-/

namespace DaemonLink

/-- What is put behind a text that is cut: how long it was. -/
def cutMark (length : Nat) : Bytes :=
  text "...(len=" ++ decimal length ++ text ")"

theorem cutMark_injective {m n : Nat} (h : cutMark m = cutMark n) : m = n :=
  decimal_injective (List.append_cancel_left (List.append_cancel_right h))

theorem length_cutMark_pos (n : Nat) : 0 < (cutMark n).length := by
  have hclosing : (text ")").length = 1 := rfl
  rw [cutMark, List.length_append, hclosing]
  omega

variable {s t : Bytes} {limit : Nat}

theorem preview_short (h : s.length ≤ limit) : preview s limit = s :=
  if_pos h

theorem preview_long (h : limit < s.length) :
    preview s limit = s.take limit ++ cutMark s.length := by
  rw [preview, if_neg (by omega), cutMark]
  simp only [List.append_assoc]

theorem lt_length_preview_iff : limit < (preview s limit).length ↔ limit < s.length := by
  by_cases h : s.length ≤ limit
  · rw [preview_short h]
  · have hmark := length_cutMark_pos s.length
    rw [preview_long (by omega), List.length_append, List.length_take]
    omega

theorem preview_eq_self_iff :
    preview s limit = s ↔ s.length ≤ limit ∨ s.drop limit = cutMark s.length := by
  have hsplit := List.take_append_drop limit s
  by_cases h : s.length ≤ limit
  · simp [preview_short h, h]
  · rw [preview_long (by omega), or_iff_right h]
    constructor
    · intro heq
      have hmark : s.take limit ++ s.drop limit = s.take limit ++ cutMark s.length := by
        rw [hsplit, heq]
      exact List.append_cancel_left hmark
    · intro hmark
      rw [← hmark, hsplit]

/-- A mark that is a text by itself comes out as it went in where nothing may be
kept of it. -/
theorem preview_of_bare_mark :
    ¬ (preview (text "...(len=11)") 0 = text "...(len=11)" ↔
      (text "...(len=11)").length ≤ 0) := by
  decide +kernel

theorem preview_eq_iff :
    preview s limit = preview t limit ↔ s.length = t.length ∧ s.take limit = t.take limit := by
  constructor
  · intro heq
    have hcut : limit < s.length ↔ limit < t.length := by
      rw [← lt_length_preview_iff, heq, lt_length_preview_iff]
    by_cases h : s.length ≤ limit
    · rw [preview_short h, preview_short (by omega)] at heq
      rw [heq]
      exact ⟨rfl, rfl⟩
    · rw [preview_long (by omega), preview_long (by omega)] at heq
      have hlengths : (s.take limit).length = (t.take limit).length := by
        rw [List.length_take, List.length_take]
        omega
      obtain ⟨hfront, hmark⟩ := List.append_inj heq hlengths
      exact ⟨cutMark_injective hmark, hfront⟩
  · rintro ⟨hlength, hfront⟩
    by_cases h : s.length ≤ limit
    · rw [List.take_of_length_le h, List.take_of_length_le (by omega)] at hfront
      rw [hfront]
    · rw [preview_long (by omega), preview_long (by omega), hlength, hfront]

/-- A text within the limit is its own preview. Of a longer one the preview is
what may be kept and, behind it, how long the text was; it is longer than the
limit, and so differs in length from the preview of every text that was not cut.
It is the text itself only if the text ends in that mark just behind the limit.
Two texts have the same preview if they are equally long and agree in what may be
kept of them, and only then; and if one of them was not cut, they are the same. -/
theorem preview_loses_only_the_tail (s : Bytes) (limit : Nat) :
    (s.length ≤ limit → preview s limit = s) ∧
    (limit < s.length →
      preview s limit = s.take limit ++ text "...(len=" ++ decimal s.length ++ text ")") ∧
    (limit < (preview s limit).length ↔ limit < s.length) ∧
    (preview s limit = s ↔
      s.length ≤ limit ∨ s.drop limit = text "...(len=" ++ decimal s.length ++ text ")") ∧
    ∀ t : Bytes,
      (preview s limit = preview t limit ↔
        s.length = t.length ∧ s.take limit = t.take limit) ∧
      (preview s limit = preview t limit → s.length ≤ limit → s = t) := by
  refine ⟨preview_short, ?_, lt_length_preview_iff, preview_eq_self_iff, fun t => ?_⟩
  · intro h
    rw [preview_long h, cutMark]
    simp only [List.append_assoc]
  · refine ⟨preview_eq_iff, fun heq h => ?_⟩
    have hlength := (preview_eq_iff.mp heq).1
    rw [preview_short h, preview_short (by omega)] at heq
    exact heq

end DaemonLink
