import Deduction.Files.Path
import Deduction.Text.Quoted

namespace Deduction

/-- What is found at a path: nothing, a folder, a file, or a file where a folder would have to
be. Names that are too long cannot be looked up, and those with a null character are none. -/
inductive Entry
  | missing
  | folder
  | file (content : String)
  | blocked
  | tooLong
  | unnamed
  deriving DecidableEq, Repr

abbrev Files := Path → Entry

inductive FileCause
  | missing
  | blocked
  | folder
  | tooLong
  | unnamed
  deriving DecidableEq, Repr

structure FileError where
  cause : FileCause
  path : String
  deriving DecidableEq, Repr

def FileError.message (error : FileError) : String :=
  let path := Text.quoteString error.path
  match error.cause with
  | .missing => "[Errno 2] No such file or directory: " ++ path
  | .blocked => "[Errno 20] Not a directory: " ++ path
  | .folder => "[Errno 21] Is a directory: " ++ path
  | .tooLong => "[Errno 36] File name too long: " ++ path
  | .unnamed => "embedded null byte"

/-- Whether something is at a path. Of a name that is too long this cannot be said. -/
def Files.has (files : Files) (path : Path) : Except FileError Bool :=
  match files path with
  | .missing => .ok false
  | .blocked => .ok false
  | .unnamed => .ok false
  | .folder => .ok true
  | .file _ => .ok true
  | .tooLong => .error ⟨.tooLong, path.text⟩

/-- Every line break becomes a line feed. `after` says that a carriage return came right before. -/
def unifyBreaks (after : Bool) : List Char → List Char
  | [] => []
  | c :: rest =>
      if c == '\r' then '\n' :: unifyBreaks true rest
      else if c == '\n' && after then unifyBreaks false rest
      else c :: unifyBreaks false rest

def Files.readText (files : Files) (path : Path) : Except FileError String :=
  match files path with
  | .file content => .ok (String.ofList (unifyBreaks false content.toList))
  | .missing => .error ⟨.missing, path.text⟩
  | .blocked => .error ⟨.blocked, path.text⟩
  | .folder => .error ⟨.folder, path.text⟩
  | .tooLong => .error ⟨.tooLong, path.text⟩
  | .unnamed => .error ⟨.unnamed, path.text⟩

end Deduction
