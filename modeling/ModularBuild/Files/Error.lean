/-!
# Why a file operation fails
-/

namespace ModularBuild

inductive FileError where
  | notPermitted
  | noEntry
  | noSuchProcess
  | noDevice
  | notExecutableFormat
  | badDescriptor
  | permission
  | busy
  | alreadyExists
  | notDirectory
  | isDirectory
  | invalidArgument
  | notTerminal
  | noSpace
  | illegalSeek
  | brokenPipe
  | nameTooLong
  | notEmpty
  | tooManyLinks
  /-- A path with a NUL character in it. -/
  | nulInPath
  /-- An argument of a command with a NUL character in it. -/
  | nulInArgument
  /-- A file read as text that is not UTF-8. -/
  | notText
  /-- A copy of something that is no regular file. -/
  | notRegular
  /-- A directory whose ancestors cannot be made either. -/
  | noWholeTree
deriving DecidableEq, Repr

namespace FileError

/-- The name and number of an error of the operating system. -/
def system? : FileError → Option (String × Nat)
  | notPermitted => some ("Operation not permitted", 1)
  | noEntry => some ("No such file or directory", 2)
  | noSuchProcess => some ("No such process", 3)
  | noDevice => some ("No such device or address", 6)
  | notExecutableFormat => some ("Exec format error", 8)
  | badDescriptor => some ("Bad file descriptor", 9)
  | permission => some ("Permission denied", 13)
  | busy => some ("Device or resource busy", 16)
  | alreadyExists => some ("File exists", 17)
  | notDirectory => some ("Not a directory", 20)
  | isDirectory => some ("Is a directory", 21)
  | invalidArgument => some ("Invalid argument", 22)
  | notTerminal => some ("Inappropriate ioctl for device", 25)
  | noSpace => some ("No space left on device", 28)
  | illegalSeek => some ("Illegal seek", 29)
  | brokenPipe => some ("Broken pipe", 32)
  | nameTooLong => some ("File name too long", 36)
  | notEmpty => some ("Directory not empty", 39)
  | tooManyLinks => some ("Too many levels of symbolic links", 40)
  | nulInPath | nulInArgument | notText | notRegular | noWholeTree => none

/-- What the error is called, without its number. -/
def name : FileError → String
  | nulInPath => "file name contained an unexpected NUL byte"
  | nulInArgument => "nul byte found in provided data"
  | notText => "stream did not contain valid UTF-8"
  | notRegular => "the source path is neither a regular file nor a symlink to a regular file"
  | noWholeTree => "failed to create whole tree"
  | e => (e.system?.map (·.1)).getD ""

def message (e : FileError) : String :=
  match e.system? with
  | some (name, number) => s!"{name} (os error {number})"
  | none => e.name

end FileError

end ModularBuild
