import DaemonLink.Proofs.CommandLineGrammar
import Mathlib.Data.List.Induction
import Mathlib.Data.List.TakeWhile
import Mathlib.Data.Nat.Digits.Defs

/-!
# The numeral of a timeout

There are two ways to say which texts are timeouts. One is a grammar: white
space, at most one sign, and digits to the end, with a value that is a count
and not too large. The other is what a general reader of numbers does with the
text. Such a reader takes as much of the front as is a number, gives back what
is left, and has a word of 64 bits for the value, so that what does not fit is
replaced by the nearest number that does. Then three things have to be looked
at: whether there was anything to read, whether all of it was read, and whether
the value is one that is wanted.

Both come to the same. The reader's replacement numbers lie outside the values
that are wanted, so they refuse a text that is refused anyway. And a text in
which there is no number at all is given back whole, which leaves something
unread unless the text is empty. That is the one case in which the first
question matters.
-/

namespace DaemonLink

namespace Numeral

/-! ## The value of digits -/

theorem value_append (digits : Bytes) (b : UInt8) :
    value (digits ++ [b]) = value digits * 10 + digitValue b := by
  rw [value, List.foldl_append]
  rfl

/-- The first digit counts most. -/
theorem value_eq_ofDigits (digits : Bytes) :
    value digits = Nat.ofDigits 10 (digits.reverse.map digitValue) := by
  induction digits using List.reverseRecOn with
  | nil => rfl
  | append_singleton digits b ih =>
      rw [value_append, ih, List.reverse_append, List.reverse_singleton, List.singleton_append,
        List.map_cons, Nat.ofDigits_cons]
      omega

theorem eq_zero_of_digitValue {b : UInt8} (hdigit : isDigit b = true)
    (hzero : digitValue b = 0) : b = 48 := by
  simp only [isDigit, Bool.and_eq_true, decide_eq_true_eq, UInt8.le_iff_toNat_le] at hdigit
  rw [digitValue] at hzero
  apply UInt8.toNat_inj.mp
  simp only [UInt8.toNat_ofNat] at hdigit ⊢
  omega

/-- Only zeros have the value zero. -/
theorem zeros_of_value {digits : Bytes} (hdigits : ∀ b ∈ digits, isDigit b = true)
    (hzero : value digits = 0) : ∀ b ∈ digits, b = 48 := by
  induction digits using List.reverseRecOn with
  | nil => exact nofun
  | append_singleton digits b ih =>
      rw [value_append] at hzero
      intro d hd
      rcases List.mem_append.mp hd with hd | hd
      · exact ih (fun x hx => hdigits x (List.mem_append_left _ hx)) (by omega) d hd
      · rw [List.mem_singleton] at hd
        subst hd
        exact eq_zero_of_digitValue (hdigits d (by simp)) (by omega)

/-! ## Numerals as they are written -/

/-- What may stand between the white space and the digits. -/
inductive Sign
  | none
  | plus
  | minus
  deriving DecidableEq

namespace Sign

def word : Sign → Bytes
  | none => []
  | plus => text "+"
  | minus => text "-"

def apply : Sign → Nat → Int
  | minus, n => -n
  | _, n => n

end Sign

/-- The blank, the tab, the line feed, the vertical tab, the form feed and the
carriage return. -/
def whiteSpace : Bytes := [32, 9, 10, 11, 12, 13]

/-- A text is white space, at most one sign, and digits to its end, and this is
the number that is written with them. -/
def Writes (s : Bytes) (v : Int) : Prop :=
  ∃ (blanks : Bytes) (sign : Sign) (digits : Bytes),
    s = blanks ++ sign.word ++ digits ∧ (∀ b ∈ blanks, b ∈ whiteSpace) ∧
      digits ≠ [] ∧ (∀ b ∈ digits, b ∈ text "0123456789") ∧
      v = sign.apply (Nat.ofDigits 10 (digits.reverse.map digitValue))

theorem isBlank_iff (b : UInt8) : isBlank b = true ↔ b ∈ whiteSpace := by
  simp only [isBlank, whiteSpace, Bool.or_eq_true, Bool.and_eq_true, beq_iff_eq,
    decide_eq_true_eq, List.mem_cons, List.not_mem_nil, or_false, UInt8.le_iff_toNat_le,
    ← UInt8.toNat_inj, UInt8.toNat_ofNat]
  omega

theorem isDigit_iff (b : UInt8) : isDigit b = true ↔ b ∈ text "0123456789" := by
  have hdigits : text "0123456789" = [48, 49, 50, 51, 52, 53, 54, 55, 56, 57] := by decide
  simp only [isDigit, hdigits, Bool.and_eq_true, decide_eq_true_eq, List.mem_cons,
    List.not_mem_nil, or_false, UInt8.le_iff_toNat_le, ← UInt8.toNat_inj, UInt8.toNat_ofNat]
  omega

theorem splitSign_word (sign : Sign) {b : UInt8} (hb : isDigit b = true) (rest : Bytes) :
    splitSign (sign.word ++ b :: rest) = (sign == .minus, b :: rest) := by
  have hminus : b ≠ 45 := by rintro rfl; exact absurd hb (by decide)
  have hplus : b ≠ 43 := by rintro rfl; exact absurd hb (by decide)
  cases sign with
  | none =>
      show splitSign (b :: rest) = (false, b :: rest)
      rw [splitSign.eq_def]
      split
      · next heq => exact absurd (List.cons.inj heq).1 hminus
      · next heq => exact absurd (List.cons.inj heq).1 hplus
      · rfl
  | plus => rfl
  | minus => rfl

theorem word_of_splitSign (t : Bytes) :
    ∃ sign : Sign, t = sign.word ++ (splitSign t).2 ∧
      (splitSign t).1 = (sign == .minus) := by
  rw [splitSign.eq_def]
  split
  · exact ⟨.minus, rfl, rfl⟩
  · exact ⟨.plus, rfl, rfl⟩
  · exact ⟨.none, rfl, rfl⟩

theorem not_isBlank_of_isDigit {b : UInt8} (hb : isDigit b = true) : isBlank b = false := by
  rw [Bool.eq_false_iff]
  intro hblank
  simp only [isDigit, isBlank, Bool.and_eq_true, Bool.or_eq_true, beq_iff_eq, decide_eq_true_eq,
    UInt8.le_iff_toNat_le, ← UInt8.toNat_inj, UInt8.toNat_ofNat] at hb hblank
  omega

theorem dropWhile_blanks {blanks : Bytes} (hblanks : ∀ b ∈ blanks, b ∈ whiteSpace)
    (sign : Sign) {b : UInt8} (hb : isDigit b = true) (rest : Bytes) :
    (blanks ++ (sign.word ++ b :: rest)).dropWhile isBlank = sign.word ++ b :: rest := by
  rw [List.dropWhile_append_of_pos (fun x hx => (isBlank_iff x).mpr (hblanks x hx))]
  cases sign with
  | none =>
      show (b :: rest).dropWhile isBlank = b :: rest
      rw [List.dropWhile_cons, not_isBlank_of_isDigit hb]
      rfl
  | plus => rfl
  | minus => rfl

/-! ## Reading -/

/-- What a number is read from is judged by the value of its digits, though the
value is not always worked out. -/
theorem parse?_eq_some_of_splitSign {s digits : Bytes} {negative : Bool}
    (h : splitSign (s.dropWhile isBlank) = (negative, digits)) (n : Nat) :
    parse? s = some n ↔
      digits ≠ [] ∧ (∀ b ∈ digits, isDigit b = true) ∧
        value digits = n ∧ n ≤ max ∧ (negative = true → n = 0) := by
  rw [parse?, h]
  simp only [Option.ite_none_left_eq_some, Option.some.injEq, Bool.or_eq_true, Bool.and_eq_true,
    List.isEmpty_iff, Bool.not_eq_true', Bool.not_eq_false, List.all_eq_true, bne_iff_ne,
    decide_eq_true_eq, not_or, not_and, not_not, Nat.not_lt, and_assoc]
  have hbound := boundedValue_spec digits
  constructor
  · rintro ⟨hne, hdigits, hsmall, hminus, rfl⟩
    exact ⟨hne, hdigits, by omega, hsmall, hminus⟩
  · rintro ⟨hne, hdigits, rfl, hsmall, hminus⟩
    have hvalue : boundedValue digits = value digits := by omega
    rw [hvalue]
    exact ⟨hne, hdigits, hsmall, hminus, rfl⟩

theorem parse?_written {blanks : Bytes} (hblanks : ∀ b ∈ blanks, b ∈ whiteSpace) (sign : Sign)
    {digits : Bytes} (hne : digits ≠ []) (hdigits : ∀ b ∈ digits, isDigit b = true)
    (hsmall : value digits ≤ max) (hminus : sign = .minus → value digits = 0) :
    parse? (blanks ++ sign.word ++ digits) = some (value digits) := by
  obtain ⟨b, rest, rfl⟩ := List.exists_cons_of_ne_nil hne
  have hb := hdigits b (by simp)
  have hsplit : splitSign ((blanks ++ sign.word ++ b :: rest).dropWhile isBlank) =
      (sign == .minus, b :: rest) := by
    rw [List.append_assoc, dropWhile_blanks hblanks sign hb, splitSign_word sign hb]
  rw [parse?_eq_some_of_splitSign hsplit]
  exact ⟨hne, hdigits, rfl, hsmall, fun h => hminus (beq_iff_eq.mp h)⟩

theorem written_of_parse? {s : Bytes} {n : Nat} (h : parse? s = some n) :
    ∃ (blanks : Bytes) (sign : Sign) (digits : Bytes),
      s = blanks ++ sign.word ++ digits ∧ (∀ b ∈ blanks, b ∈ whiteSpace) ∧
        digits ≠ [] ∧ (∀ b ∈ digits, isDigit b = true) ∧
        value digits = n ∧ n ≤ max ∧ (sign = .minus → n = 0) := by
  obtain ⟨sign, hsplit, hsign⟩ := word_of_splitSign (s.dropWhile isBlank)
  have hparts : splitSign (s.dropWhile isBlank) =
      (sign == .minus, (splitSign (s.dropWhile isBlank)).2) := Prod.ext hsign rfl
  obtain ⟨hne, hdigits, hvalue, hsmall, hminus⟩ := (parse?_eq_some_of_splitSign hparts n).mp h
  refine ⟨s.takeWhile isBlank, sign, _, ?_, ?_, hne, hdigits, hvalue, hsmall, ?_⟩
  · rw [List.append_assoc, ← hsplit, List.takeWhile_append_dropWhile]
  · intro b hb
    exact (isBlank_iff b).mp (List.mem_takeWhile_imp hb)
  · intro hsign
    exact hminus (beq_iff_eq.mpr hsign)

/-- The texts that are taken are those that are written as a number in range,
and it is the number that is read. -/
theorem parse?_eq_some_iff (s : Bytes) (n : Nat) :
    parse? s = some n ↔ Writes s n ∧ n ≤ max := by
  constructor
  · intro h
    obtain ⟨blanks, sign, digits, hs, hblanks, hne, hdigits, hvalue, hsmall, hminus⟩ :=
      written_of_parse? h
    refine ⟨⟨blanks, sign, digits, hs, hblanks, hne,
      fun b hb => (isDigit_iff b).mp (hdigits b hb), ?_⟩, hsmall⟩
    rw [← value_eq_ofDigits, hvalue]
    cases sign with
    | none | plus => rfl
    | minus => rw [hminus rfl]; rfl
  · rintro ⟨⟨blanks, sign, digits, rfl, hblanks, hne, hdigits, hvalue⟩, hsmall⟩
    rw [← value_eq_ofDigits] at hvalue
    have hdecimal : ∀ b ∈ digits, isDigit b = true := fun b hb => (isDigit_iff b).mpr (hdigits b hb)
    have heq : value digits = n ∧ (sign = .minus → value digits = 0) := by
      cases sign with
      | none | plus => exact ⟨(Int.ofNat_inj.mp hvalue).symm, nofun⟩
      | minus =>
          have hopposite : (n : Int) = -(value digits : Int) := hvalue
          omega
    rw [parse?_written hblanks sign hne hdecimal (by omega) heq.2, heq.1]

/-- Behind a minus sign only zeros are taken. -/
theorem zeros_of_minus {blanks digits : Bytes} (hblanks : ∀ b ∈ blanks, b ∈ whiteSpace)
    {n : Nat} (h : parse? (blanks ++ text "-" ++ digits) = some n) :
    n = 0 ∧ ∀ b ∈ digits, b = 48 := by
  have hdrop : (blanks ++ text "-" ++ digits).dropWhile isBlank = text "-" ++ digits := by
    rw [List.append_assoc,
      List.dropWhile_append_of_pos (fun x hx => (isBlank_iff x).mpr (hblanks x hx))]
    rfl
  have hsplit : splitSign ((blanks ++ text "-" ++ digits).dropWhile isBlank) = (true, digits) := by
    rw [hdrop]
    rfl
  obtain ⟨-, hdigits, rfl, -, hminus⟩ := (parse?_eq_some_of_splitSign hsplit n).mp h
  exact ⟨hminus rfl, zeros_of_value hdigits (hminus rfl)⟩

/-! ## A general reader of numbers -/

/-- The number of 64 bits that stands for a number. -/
def saturate (v : Int) : Int :=
  Max.max (-9223372036854775808) (min v 9223372036854775807)

/-- Read a number from the front of a text: the number, or the one that stands
for it, and what is left of the text, which is all of it if there is no number
in front. -/
def scan (s : Bytes) : Int × Bytes :=
  let (negative, rest) := splitSign (s.dropWhile isBlank)
  let digits := rest.takeWhile isDigit
  if digits.isEmpty then (0, s)
  else
    (saturate (if negative then -(value digits : Int) else value digits),
      rest.dropWhile isDigit)

theorem scan_of_splitSign {s rest : Bytes} {negative : Bool}
    (h : splitSign (s.dropWhile isBlank) = (negative, rest)) :
    scan s =
      if rest.takeWhile isDigit = [] then (0, s)
      else
        (saturate (if negative then -(value (rest.takeWhile isDigit) : Int)
            else value (rest.takeWhile isDigit)),
          rest.dropWhile isDigit) := by
  rw [scan, h]
  simp only [List.isEmpty_iff]

/-- A replacement is out of the range of what is wanted. -/
theorem saturate_in_range (negative : Bool) (n : Nat) :
    (0 ≤ saturate (if negative then -(n : Int) else n) ∧
        saturate (if negative then -(n : Int) else n) ≤ (max : Int)) ↔
      n ≤ max ∧ (negative = true → n = 0) := by
  have hmax : max = 2147483647 := rfl
  cases negative <;> simp only [saturate, if_true, Bool.false_eq_true, if_false, forall_const,
    false_implies, and_true] <;> omega

theorem toNat_saturate {negative : Bool} {n : Nat} (hsmall : n ≤ max)
    (hminus : negative = true → n = 0) :
    (saturate (if negative then -(n : Int) else n)).toNat = n := by
  have hmax : max = 2147483647 := rfl
  cases negative with
  | true => rw [hminus rfl]; rfl
  | false => simp only [saturate, Bool.false_eq_true, if_false]; omega

/-- A text is taken if there is something in it, the reader leaves nothing of
it, and gives a number in range. -/
theorem parse?_eq_scan (s : Bytes) :
    parse? s =
      if s ≠ [] ∧ (scan s).2 = [] ∧ 0 ≤ (scan s).1 ∧ (scan s).1 ≤ max then
        some (scan s).1.toNat
      else none := by
  obtain ⟨negative, digits, hsplit⟩ : ∃ negative digits,
      splitSign (s.dropWhile isBlank) = (negative, digits) := ⟨_, _, rfl⟩
  ext n
  rw [Option.ite_none_right_eq_some, Option.some.injEq, parse?_eq_some_of_splitSign hsplit,
    scan_of_splitSign hsplit]
  by_cases hnone : digits.takeWhile isDigit = []
  · -- No digit in front: the reader gives everything back.
    rw [if_pos hnone]
    constructor
    · rintro ⟨hne, hall, -⟩
      rw [List.takeWhile_eq_self_iff.mpr hall] at hnone
      exact absurd hnone hne
    · rintro ⟨⟨hs, hleft, -⟩, -⟩
      exact absurd hleft hs
  · rw [if_neg hnone, List.dropWhile_eq_nil_iff]
    have hs : s ≠ [] := by
      rintro rfl
      cases hsplit
      exact hnone rfl
    have hne : digits ≠ [] := by
      rintro rfl
      exact hnone rfl
    constructor
    · rintro ⟨-, hall, rfl, hsmall, hminus⟩
      rw [List.takeWhile_eq_self_iff.mpr hall, saturate_in_range]
      exact ⟨⟨hs, hall, hsmall, hminus⟩, toNat_saturate hsmall hminus⟩
    · rintro ⟨⟨-, hall, hrange⟩, hn⟩
      rw [List.takeWhile_eq_self_iff.mpr hall] at hrange hn
      obtain ⟨hsmall, hminus⟩ := (saturate_in_range negative (value digits)).mp hrange
      rw [toNat_saturate hsmall hminus] at hn
      rw [hn] at hsmall hminus
      exact ⟨hne, hall, hn, hsmall, hminus⟩

end Numeral

/-! ## The option -/

namespace CommandLine

/-- A timeout is taken if and only if it is written as a number up to the
largest of 32 bits with a sign, which is what a reader of 64-bit numbers finds
as well, and then that number is stored and the rest of the line is read as if
by itself. Any other is complained of, and nothing is stored. -/
theorem timeout_is_numeral_in_range (value : Bytes) :
    (∀ n : Nat, Numeral.parse? value = some n ↔
      Numeral.Writes value n ∧ n ≤ 2147483647) ∧
    (∀ blanks digits, value = blanks ++ text "-" ++ digits →
      (∀ b ∈ blanks, b ∈ Numeral.whiteSpace) → ∀ n, Numeral.parse? value = some n →
      n = 0 ∧ ∀ b ∈ digits, b = 48) ∧
    (Numeral.parse? value =
      let (v, left) := Numeral.scan value
      if value ≠ [] ∧ left = [] ∧ 0 ≤ v ∧ v ≤ 2147483647 then some v.toNat else none) ∧
    ∀ (settings : List Setting) (rest : List Bytes) (a : Arguments),
      let line := settings.flatMap Setting.words ++ text "-t" :: value :: rest
      let before := Setting.setAll settings a
      (∀ n : Nat, Numeral.Writes value n → n ≤ 2147483647 →
        parse line a = parse rest { before with timeout := n }) ∧
      ((∀ n : Nat, Numeral.Writes value n → 2147483647 < n) →
        ∃ e, parse line a = (some e, before) ∧
          e.message = text "invalid timeout '" ++ value ++ text "'") := by
  refine ⟨Numeral.parse?_eq_some_iff value, ?_, Numeral.parse?_eq_scan value, ?_⟩
  · rintro blanks digits rfl hblanks n h
    exact Numeral.zeros_of_minus hblanks h
  · intro settings rest a line before
    have hline : parse line a = parse (text "-t" :: value :: rest) before :=
      parse_settings settings _ a
    rw [hline]
    constructor
    · intro n hwrites hsmall
      exact parse_timeout ((Numeral.parse?_eq_some_iff value n).mpr ⟨hwrites, hsmall⟩) rest before
    · intro hnot
      have hnone : Numeral.parse? value = none := by
        rw [Option.eq_none_iff_forall_ne_some]
        intro n h
        obtain ⟨hwrites, hsmall⟩ := (Numeral.parse?_eq_some_iff value n).mp h
        exact absurd (hnot n hwrites) (Nat.not_lt.mpr hsmall)
      exact ⟨.invalidTimeout value, parse_invalid_timeout hnone rest before, rfl⟩

/-- The largest timeout, and one that is nothing of the kind in 64 bits. -/
theorem timeout_is_numeral_in_range_at_bounds :
    parse [text "-v", text "-t", text "\t +02147483647", text "ping"] {} =
        parse [text "ping"] { verbosity := 1, timeout := 2147483647 } ∧
      ∃ e, parse [text "-t", text "18446744073709551616", text "ping"] {} = (some e, {}) ∧
        e.message = text "invalid timeout '18446744073709551616'" := by
  constructor
  · have hblanks : (text "\t ").all Numeral.isBlank = true := by decide
    have hdigits : (text "02147483647").all Numeral.isDigit = true := by decide
    have hwrites : Numeral.Writes (text "\t +02147483647") 2147483647 := by
      refine ⟨text "\t ", .plus, text "02147483647", rfl, ?_, by decide, ?_, by decide⟩
      · intro b hb
        exact (Numeral.isBlank_iff b).mp (List.all_eq_true.mp hblanks b hb)
      · intro b hb
        exact (Numeral.isDigit_iff b).mp (List.all_eq_true.mp hdigits b hb)
    exact ((timeout_is_numeral_in_range (text "\t +02147483647")).2.2.2 [.verbose] [text "ping"] {}).1
      2147483647 hwrites (Nat.le_refl _)
  · have hnone : Numeral.parse? (text "18446744073709551616") = none := by decide
    have hlarge (n : Nat) (hwrites : Numeral.Writes (text "18446744073709551616") n) :
        2147483647 < n := by
      by_contra hsmall
      have h := (Numeral.parse?_eq_some_iff _ n).mpr ⟨hwrites, Nat.not_lt.mp hsmall⟩
      rw [hnone] at h
      cases h
    exact ((timeout_is_numeral_in_range (text "18446744073709551616")).2.2.2 [] [text "ping"] {}).2
      hlarge

end CommandLine

end DaemonLink
