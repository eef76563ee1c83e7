/-! Disks: what the library asks of a place where files are kept, in whatever monad it acts. -/

namespace DatasetPlan

inductive FileError where
  | notFound
  | busy
  | alreadyExists
  | notDirectory
  | isDirectory
  | nameTooLong
  | nullCharacter
  | notText
  | other (reason : String)
deriving DecidableEq

namespace FileError

def message : FileError → String
  | notFound => "No such file or directory (os error 2)"
  | busy => "Device or resource busy (os error 16)"
  | alreadyExists => "File exists (os error 17)"
  | notDirectory => "Not a directory (os error 20)"
  | isDirectory => "Is a directory (os error 21)"
  | nameTooLong => "File name too long (os error 36)"
  | nullCharacter => "file name contained an unexpected NUL byte"
  | notText => "stream did not contain valid UTF-8"
  | other reason => reason

end FileError

structure Disk (m : Type → Type) where
  /-- Whether the path leads to a file or a directory. -/
  isPresent : (path : String) → m Bool
  readText : (path : String) → m (Except FileError String)
  /-- Makes a directory and those above it, as far as they are missing. -/
  createDirectories : (path : String) → m (Except FileError Unit)
  /-- Makes a file or replaces what it holds. -/
  write : (path text : String) → m (Except FileError Unit)
  /-- Gives a file another path, where it takes the place of the file that was there. -/
  rename : (source target : String) → m (Except FileError Unit)

end DatasetPlan
