/-!
What can go wrong when a file is read, written or renamed, and how the system words it.
-/
namespace TimeIds

/-- Why a file operation was refused. -/
inductive FileFault
  | notFound
  | isDirectory
  | notDirectory
  | busy
  | nameTooLong
  /-- The content is no UTF-8 text. -/
  | notText
  /-- The path holds a NUL character. -/
  | nulInPath
  /-- Any other refusal, in the words of the system. -/
  | other (words : String)
deriving DecidableEq, Repr

/-- The words for a refusal; those of the system carry its number. -/
def FileFault.message : FileFault → String
  | notFound => "No such file or directory (os error 2)"
  | isDirectory => "Is a directory (os error 21)"
  | notDirectory => "Not a directory (os error 20)"
  | busy => "Device or resource busy (os error 16)"
  | nameTooLong => "File name too long (os error 36)"
  | notText => "stream did not contain valid UTF-8"
  | nulInPath => "file name contained an unexpected NUL byte"
  | other words => words

end TimeIds
