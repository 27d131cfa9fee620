import StackUsage.Text.Visible

/-! Quoted text, as error messages show it: double quotes around it, a backslash before a quote or
a backslash, the short escapes for tab, carriage return, line feed and NUL, and the code point in
hexadecimal for every other character that would not be seen. -/

namespace StackUsage.Text

/-- The code point in lower-case hexadecimal, without padding, between braces. -/
def codePointEscape (c : Char) : List Char :=
  "\\u\x7b".toList ++ Nat.toDigits 16 c.toNat ++ ['\x7d']

def quotedChar (c : Char) : List Char :=
  match c with
  | '\x00' => ['\\', '0']
  | '\t' => ['\\', 't']
  | '\r' => ['\\', 'r']
  | '\n' => ['\\', 'n']
  | '"' => ['\\', '"']
  | '\\' => ['\\', '\\']
  | c => if isVisible c then [c] else codePointEscape c

def quoted (s : String) : String :=
  String.ofList ('"' :: s.toList.flatMap quotedChar ++ ['"'])

end StackUsage.Text
