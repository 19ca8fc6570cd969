/-!
# File errors

What can go wrong with a file, in the wording of the operating system.
-/

namespace Weaver

/-- Why a file could not be read or written. -/
inductive FileError where
  | notFound
  | notADirectory
  | isADirectory
  | nameTooLong
  /-- A path holds a zero character. -/
  | zeroInPath
  /-- A file that should be text is not valid UTF-8. -/
  | notText
  /-- An artifact path ends in no name. -/
  | noFileName
deriving DecidableEq

/-- The wording of an error. -/
def FileError.message : FileError → String
  | notFound => "No such file or directory (os error 2)"
  | notADirectory => "Not a directory (os error 20)"
  | isADirectory => "Is a directory (os error 21)"
  | nameTooLong => "File name too long (os error 36)"
  | zeroInPath => "file name contained an unexpected NUL byte"
  | notText => "stream did not contain valid UTF-8"
  | noFileName => "artifact path has no file name"

end Weaver
