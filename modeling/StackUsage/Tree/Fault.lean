/-! Why the file system refuses an access, and the words the system has for it. -/

namespace StackUsage.Tree

inductive Fault
  | notFound
  | notDirectory
  | isDirectory
  | notLink
  | nameTooLong
  | tooManyLinks
  | notUtf8
  | nulInName
  deriving DecidableEq, Repr

def Fault.message : Fault → String
  | .notFound => "No such file or directory (os error 2)"
  | .notDirectory => "Not a directory (os error 20)"
  | .isDirectory => "Is a directory (os error 21)"
  | .notLink => "Invalid argument (os error 22)"
  | .nameTooLong => "File name too long (os error 36)"
  | .tooManyLinks => "Too many levels of symbolic links (os error 40)"
  | .notUtf8 => "stream did not contain valid UTF-8"
  | .nulInName => "file name contained an unexpected NUL byte"

end StackUsage.Tree
