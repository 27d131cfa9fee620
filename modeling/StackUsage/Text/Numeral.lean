/-! Whole numbers as decimal digits. Writing uses the fewest digits; reading takes any non-empty
run of ASCII digits, leading zeros included. -/

namespace StackUsage.Text

/-- The number in decimal, without leading zeros. -/
def numeral (n : Nat) : List Char := Nat.toDigits 10 n

/-- The value of a non-empty run of ASCII digits; anything else has none. -/
def readNumeral? (s : List Char) : Option Nat :=
  if !s.isEmpty && s.all Char.isDigit then some (Nat.ofDigitChars 10 s 0) else none

/-- As `readNumeral?`, with one plus sign allowed in front. -/
def readSignedNumeral? : List Char → Option Nat
  | '+' :: rest => readNumeral? rest
  | s => readNumeral? s

def readUInt32? (s : List Char) : Option UInt32 :=
  (readNumeral? s).bind fun n => if n < UInt32.size then some (UInt32.ofNat n) else none

/-- A count of up to 64 bits, with one plus sign allowed in front. -/
def readUInt64? (s : List Char) : Option UInt64 :=
  (readSignedNumeral? s).bind fun n => if n < UInt64.size then some (UInt64.ofNat n) else none

end StackUsage.Text
