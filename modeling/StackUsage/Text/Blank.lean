import StackUsage.Text.Ranges

/-! Blank characters and trimming. A character is blank when it has the `White_Space` property;
a text is blank when all its characters are. Trimming takes blanks off the ends and never from the
middle. -/

namespace StackUsage.Text

/-- The code points with the `White_Space` property. -/
def blankRanges : List (Nat × Nat) :=
  [(0x9, 0xD), (0x20, 0x20), (0x85, 0x85), (0xA0, 0xA0), (0x1680, 0x1680), (0x2000, 0x200A),
    (0x2028, 0x2029), (0x202F, 0x202F), (0x205F, 0x205F), (0x3000, 0x3000)]

def isBlank (c : Char) : Bool := inRanges blankRanges c

def trimStart (s : List Char) : List Char := s.dropWhile isBlank

/-- Drops the longest final run of characters that satisfy `p`. -/
def dropWhileEnd (p : Char → Bool) (s : List Char) : List Char :=
  (s.reverse.dropWhile p).reverse

def trimEnd (s : List Char) : List Char := dropWhileEnd isBlank s

def trim (s : List Char) : List Char := trimEnd (trimStart s)

end StackUsage.Text
