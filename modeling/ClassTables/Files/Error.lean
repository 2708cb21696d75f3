/-!
# Why a file cannot be read or written
-/

namespace ClassTables

/-- A refusal of the file system, or contents that are no text. -/
inductive FileError where
  | notFound
  | busy
  | fileExists
  | notADirectory
  | isADirectory
  | nameTooLong
  /-- A path to be opened holds the character with code point zero. -/
  | nulInPath
  /-- A new name for a file holds the character with code point zero. -/
  | invalidArgument
  /-- The contents are not UTF-8. -/
  | notText
  /-- Any other refusal, as the operating system words it. -/
  | other (text : String)
deriving DecidableEq, Repr

/-- The wording of the operating system, with its error number where it has one. -/
def FileError.message : FileError → String
  | notFound => "No such file or directory (os error 2)"
  | busy => "Device or resource busy (os error 16)"
  | fileExists => "File exists (os error 17)"
  | notADirectory => "Not a directory (os error 20)"
  | isADirectory => "Is a directory (os error 21)"
  | nameTooLong => "File name too long (os error 36)"
  | nulInPath => "file name contained an unexpected NUL byte"
  | invalidArgument => "Invalid argument (os error 22)"
  | notText => "stream did not contain valid UTF-8"
  | other text => text

end ClassTables
