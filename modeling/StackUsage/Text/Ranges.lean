/-! Sets of characters given as a list of closed ranges of code points. The tables of this folder
are such lists; nothing here asks them to be sorted or apart. -/

namespace StackUsage.Text

/-- Whether the code point of `c` lies in one of the closed ranges. -/
def inRanges (ranges : List (Nat × Nat)) (c : Char) : Bool :=
  ranges.any fun (first, last) => first ≤ c.toNat && c.toNat ≤ last

end StackUsage.Text
