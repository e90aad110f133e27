/-!
# Byte strings

Whatever crosses a boundary of this library is a list of bytes: the payload of
a frame, a socket path, a command line argument, a line of the log. No
encoding is assumed of them. The texts the library writes itself are ASCII and
are named by string literals, which `text` turns into bytes.

Two habits of the surrounding system shape what is here. A text handed to the
system without its length ends at its first NUL, which is `untilNul`. And sizes
are reported in decimal, which is `decimal`.
-/

namespace DaemonLink

/-- A string of bytes. -/
abbrev Bytes := List UInt8

/-- The bytes of a text, in UTF-8. -/
def text (s : String) : Bytes :=
  s.toByteArray.data.toList

@[simp] theorem text_append (s t : String) : text (s ++ t) = text s ++ text t := by
  simp [text]

/-- The byte that ends a text whose length is not given. -/
def nul : UInt8 := 0

/-- The byte that ends a line. -/
def newline : UInt8 := 10

/-- The byte that separates the components of a path. -/
def slash : UInt8 := 47

/-- The byte a minus sign or a hyphen is written with. -/
def hyphen : UInt8 := 45

/-- What is left of a text once it has been handed over without its length: the
bytes before its first NUL. -/
def untilNul (bytes : Bytes) : Bytes :=
  bytes.takeWhile (· != nul)

theorem not_mem_untilNul (bytes : Bytes) : nul ∉ untilNul bytes := by
  induction bytes with
  | nil => simp [untilNul]
  | cons b rest ih =>
      by_cases h : b = nul
      · simp [untilNul, h]
      · have hb : (b != nul) = true := by simpa using h
        have hne : ¬ nul = b := fun e => h e.symm
        simpa [untilNul, List.takeWhile_cons, hb, hne] using ih

theorem untilNul_eq_self {bytes : Bytes} (h : nul ∉ bytes) : untilNul bytes = bytes := by
  induction bytes with
  | nil => rfl
  | cons b rest ih =>
      simp only [List.mem_cons, not_or] at h
      have hb : (b != nul) = true := by
        simpa using fun e : b = nul => h.1 e.symm
      have hr := ih h.2
      simp only [untilNul] at hr
      simp [untilNul, hb, hr]

/-! ## Decimal numerals -/

/-- The digit of a number below ten. -/
def digit (n : Nat) : UInt8 :=
  (48 + n).toUInt8

/-- The decimal numeral of a number: no sign, no leading zero, and `0` for
zero. -/
def decimal (n : Nat) : Bytes :=
  if n < 10 then [digit n] else decimal (n / 10) ++ [digit (n % 10)]
termination_by n

/-- The decimal numeral of an integer, with a minus sign if it is negative. -/
def signed (n : Int) : Bytes :=
  if n < 0 then hyphen :: decimal n.natAbs else decimal n.natAbs

end DaemonLink
