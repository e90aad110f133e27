import DaemonLink.Frame.Header
import Mathlib.Data.Nat.Digits.Defs

/-!
# Headers in the order of their lengths

A header is a length to the base 256, with the byte that counts most in front. That
the one determines the other is arithmetic with four digits, and stands beside the
definitions. That the two are ordered alike has nothing to do with there being four.
Byte strings of one length compare as the numbers they are, because a difference in
one byte outweighs everything that can stand behind it. For this a byte has to count
from 0 to 255 on both sides. If one of them took the upper half for negative numbers,
the lengths from 2 ^ 31 on would come before all others.
-/

namespace DaemonLink

/-! ## Byte strings as numbers -/

/-- The number that bytes are to the base 256, the first of them counting most. -/
def networkValue (bytes : Bytes) : Nat :=
  Nat.ofDigits 256 (bytes.map UInt8.toNat).reverse

theorem networkValue_nil : networkValue [] = 0 :=
  rfl

theorem networkValue_cons (b : UInt8) (rest : Bytes) :
    networkValue (b :: rest) = networkValue rest + 256 ^ rest.length * b.toNat := by
  rw [networkValue, List.map_cons, Nat.ofDigits_reverse_cons, List.length_map, networkValue]

theorem networkValue_lt (bytes : Bytes) : networkValue bytes < 256 ^ bytes.length := by
  have hdigits : ∀ d ∈ (bytes.map UInt8.toNat).reverse, d < 256 := by
    intro d hd
    obtain ⟨b, -, rfl⟩ := List.mem_map.mp (List.mem_reverse.mp hd)
    exact b.toNat_lt
  have hlt := Nat.ofDigits_lt_base_pow_length (by decide) hdigits
  rwa [List.length_reverse, List.length_map] at hlt

/-- The digits at the higher place decide, and only where these are equal does what
stands below it. -/
theorem add_mul_lt_iff {place m n a b : Nat} (hm : m < place) (hn : n < place) :
    m + place * a < n + place * b ↔ a < b ∨ a = b ∧ m < n := by
  rcases Nat.lt_trichotomy a b with hab | rfl | hab
  · have hnext : place * (a + 1) ≤ place * b := Nat.mul_le_mul_left place hab
    rw [Nat.mul_add_one] at hnext
    omega
  · omega
  · have hnext : place * (b + 1) ≤ place * a := Nat.mul_le_mul_left place hab
    rw [Nat.mul_add_one] at hnext
    omega

theorem lex_iff_networkValue_lt {s t : Bytes} (h : s.length = t.length) :
    List.Lex (· < ·) s t ↔ networkValue s < networkValue t := by
  induction s generalizing t with
  | nil =>
      rw [List.length_eq_zero_iff.mp h.symm]
      simp
  | cons b s ih =>
      cases t with
      | nil => simp at h
      | cons c t =>
          rw [List.length_cons, List.length_cons, Nat.add_right_cancel_iff] at h
          have ht := networkValue_lt t
          rw [← h] at ht
          rw [networkValue_cons, networkValue_cons, ← h, add_mul_lt_iff (networkValue_lt s) ht,
            List.cons_lex_cons_iff, ih h, UInt8.lt_iff_toNat_lt, UInt8.toNat_inj]

/-! ## Headers -/

namespace Header

theorem networkValue_toBytes (h : Header) : networkValue h.toBytes = h.length.toNat := by
  rw [toNat_length]
  simp only [toBytes, networkValue_cons, networkValue_nil, List.length_cons, List.length_nil]
  omega

theorem lex_toBytes_iff {g h : Header} :
    List.Lex (· < ·) g.toBytes h.toBytes ↔ g.length < h.length := by
  have hsizes : g.toBytes.length = h.toBytes.length := rfl
  rw [lex_iff_networkValue_lt hsizes, networkValue_toBytes, networkValue_toBytes,
    UInt32.lt_iff_toNat_lt]

end Header

/-- Every length is read back from its header, and every four bytes are the header of
the length that is read from them. That length is the sum of the bytes at their places,
the first at the highest, each counted from 0 to 255 and none of it lost. Of two headers
the one that comes first, compared byte by byte, is that of the smaller length. -/
theorem headers_ordered_as_lengths :
    (∀ n : UInt32, (Header.ofBytes (Header.ofLength n).toBytes).length = n) ∧
    (∀ b0 b1 b2 b3 : UInt8,
      let length := (Header.ofBytes [b0, b1, b2, b3]).length
      (Header.ofLength length).toBytes = [b0, b1, b2, b3] ∧
      length.toNat = b0.toNat * 2 ^ 24 + b1.toNat * 2 ^ 16 + b2.toNat * 2 ^ 8 + b3.toNat) ∧
    ∀ m n : UInt32,
      List.Lex (· < ·) (Header.ofLength m).toBytes (Header.ofLength n).toBytes ↔ m < n := by
  refine ⟨fun n => ?_, fun b0 b1 b2 b3 => ?_, fun m n => ?_⟩
  · exact Header.length_ofLength n
  · have hbytes : (Header.ofBytes [b0, b1, b2, b3]).toBytes = [b0, b1, b2, b3] := rfl
    refine ⟨?_, Header.toNat_length _⟩
    rw [Header.ofLength_length, hbytes]
  · rw [Header.lex_toBytes_iff, Header.length_ofLength, Header.length_ofLength]

example : (Header.ofBytes [255, 254, 128, 127]).length = 0xFFFE807F := by decide

end DaemonLink
