/-! The lines of a text. A line ends at a line feed, and one carriage return before that line feed
belongs to the ending; a last line without a line feed keeps its carriage returns, and an empty
rest after the last line feed is no line. -/

namespace StackUsage.Text

/-- Takes one carriage return off the end, if there is one. -/
def dropReturn : List Char → List Char
  | [] => []
  | ['\r'] => []
  | c :: rest => c :: dropReturn rest

/-- The lines among the pieces between line feeds: all pieces but the last end in a line feed. -/
def linesOfPieces : List (List Char) → List (List Char)
  | [] => []
  | [last] => if last.isEmpty then [] else [last]
  | piece :: pieces => dropReturn piece :: linesOfPieces pieces

def lines (s : List Char) : List (List Char) := linesOfPieces (s.splitOn '\n')

/-- Whether `part` stands somewhere in the text as one contiguous piece. -/
def occursIn (part : List Char) : List Char → Bool
  | [] => part.isEmpty
  | c :: rest => part.isPrefixOf (c :: rest) || occursIn part rest

end StackUsage.Text
