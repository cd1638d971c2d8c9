import PacketFilter.Text.Line

/-! # Documents and paths

What is found where a file is looked for, and the text of it. A `FileError` is a reason for which a system refuses to do
something with a file. Paths are texts: `joinPath` puts a path below another one, `pathNames` takes a path apart, and
`Directories.of` says where the configuration and the state of the program are kept, from the settings of its user. -/

namespace PacketFilter

/-- Why something cannot be done with a file. -/
inductive FileError where
  | missing
  /-- A device stands for nothing. -/
  | noDevice
  | alreadyThere
  /-- A path goes on below something that is no directory. -/
  | notDirectory
  | isDirectory
  /-- The path, or a name in it, is too long. -/
  | nameTooLong
  /-- Links lead to links without an end. -/
  | tooManyLinks
  | notEmpty
  | denied
  | busy
  | noSpace
  /-- No such stream is open, or not for this. -/
  | badStream
  | notExecutable
deriving DecidableEq

namespace FileError

def number : FileError → Nat
  | missing => 2
  | noDevice => 6
  | notExecutable => 8
  | badStream => 9
  | denied => 13
  | busy => 16
  | alreadyThere => 17
  | notDirectory => 20
  | isDirectory => 21
  | noSpace => 28
  | nameTooLong => 36
  | notEmpty => 39
  | tooManyLinks => 40

/-- What is said about a reason. -/
def text : FileError → String
  | missing => "No such file or directory"
  | noDevice => "No such device or address"
  | notExecutable => "Exec format error"
  | badStream => "Bad file descriptor"
  | denied => "Permission denied"
  | busy => "Device or resource busy"
  | alreadyThere => "File exists"
  | notDirectory => "Not a directory"
  | isDirectory => "Is a directory"
  | noSpace => "No space left on device"
  | nameTooLong => "File name too long"
  | notEmpty => "Directory not empty"
  | tooManyLinks => "Too many levels of symbolic links"

/-- What is said about a reason, with its number. -/
def message (e : FileError) : String :=
  e.text ++ " (os error " ++ toString e.number ++ ")"

end FileError

/-- What is found at the place of a file. -/
inductive Document where
  /-- Nothing can be read there. -/
  | absent (why : FileError)
  /-- A file whose bytes are no Unicode text. -/
  | undecodable
  | text (content : String)
deriving DecidableEq

namespace Document

/-- There is no file. -/
def missing : Document := absent .missing

/-- There is a directory in the place of the file. -/
def directory : Document := absent .isDirectory

def ofBytes (bytes : ByteArray) : Document :=
  match String.fromUTF8? bytes with
  | some content => text content
  | none => undecodable

/-- The text of a document, or why it has none. -/
def content : Document → Except String String
  | text content => .ok content
  | absent why => .error why.message
  | undecodable => .error "stream did not contain valid UTF-8"

end Document

/-- Whether a path starts at the root. -/
def isAbsolute (path : String) : Bool :=
  path.toList.head? == some '/'

/-- The number of bytes that a path must not reach. -/
def pathLimit : Nat := 4096

/-- The greatest number of bytes in a name. -/
def maxNameLength : Nat := 255

/-- The names of a path, and what is empty between slashes. -/
def pathNames (path : String) : List String :=
  (Text.splitAt (· == '/') path.toList).map String.ofList

/-- The path `below`, taken from the directory `path`. -/
def joinPath (path below : String) : String :=
  if isAbsolute below || path.isEmpty then below
  else if path.toList.getLast? == some '/' then path ++ below
  else path ++ "/" ++ below

/-- The settings of a user that decide where files are kept. -/
structure UserSettings where
  /-- The home directory that is set. -/
  home : Option String
  configHome : Option String
  stateHome : Option String
  /-- The home directory of the account, for when none is set. -/
  accountHome : Option String := none

/-- Where the files of the program are kept. -/
structure Directories where
  config : String
  state : String
deriving DecidableEq

namespace Directories

/-- A directory that is set to an absolute path, or else a path below the home directory. -/
def base (setting : Option String) (home below : String) : String :=
  match setting with
  | some path => if isAbsolute path then path else joinPath home below
  | none => joinPath home below

/-- The home directory; one that is set to nothing is not set. -/
def home? (u : UserSettings) : Option String :=
  match u.home with
  | some path => if path.isEmpty then u.accountHome else some path
  | none => u.accountHome

/-- The directories of a user who has a home directory. -/
def of (u : UserSettings) : Option Directories :=
  (home? u).map fun home =>
    { config := joinPath (base u.configHome home ".config") "iptsync"
      state := joinPath (base u.stateHome home ".local/state") "iptsync" }

/-- The file with the configuration. -/
def configFile (d : Directories) : String :=
  joinPath d.config "config.json"

end Directories

end PacketFilter
