import Deduction.Files.Entry

namespace Deduction

/-- The files of the current folder and of the folders below it. -/
structure Directory where
  files : List (List String × String)

namespace Directory

/-- The files of a list of paths and contents. -/
def ofList (files : List (String × String)) : Directory :=
  ⟨files.map fun file => ((Path.ofText file.1).parts, file.2)⟩

/-- What is found at parts that are followed from the current folder. -/
def find (directory : Directory) (parts : List String) : Entry :=
  match directory.files.find? fun file => file.1 == parts with
  | some file => .file file.2
  | none =>
      if parts.isEmpty || directory.files.any fun file => parts.isPrefixOf file.1 then .folder
      else .missing

/-- What is found at parts that are followed from a folder above the current one. -/
def outside : List String → Entry
  | [] => .folder
  | part :: _ => if Path.isLongName part then .tooLong else .missing

/-- Follows parts one by one from a place, given in reverse. Of what lies outside the current
folder only the folders above it are known. -/
def follow (directory : Directory) : List String → List String → Entry
  | place, [] => directory.find place.reverse
  | place, part :: rest =>
      match directory.find place.reverse with
      | .folder =>
          if Path.isLongName part then .tooLong
          else if part == ".." then
            match place with
            | _ :: above => directory.follow above rest
            | [] => outside (rest.dropWhile (· == ".."))
          else directory.follow (part :: place) rest
      | .file _ => .blocked
      | entry => entry

/-- What is found at a path. Of the root only itself is known. -/
def entry (directory : Directory) : Files := fun path =>
  if path.text.toList.contains (Char.ofNat 0) then .unnamed
  else if path.isLong then .tooLong
  else if path.root.isEmpty then directory.follow [] path.parts
  else outside path.parts

end Directory

end Deduction
